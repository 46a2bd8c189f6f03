import TraitCheck.Yaml.Meaning

/-!
Reading a document by the shape it should have. A key must not be there twice, keys without a place in the shape are
passed over, and null is the same as nothing. A mapping may take over entries from others under the key `<<`; its own
entries go first. Aliases are followed, within limits.
-/

namespace TraitCheck.Yaml

inductive Shape where
  | text
  | list (item : Shape)
  | record (fields : List (String × Shape))
  deriving Inhabited

inductive Value where
  | text (s : String)
  | list (items : List Value)
  | record (fields : List (String × Value))
  deriving Inhabited

namespace Value

def asText : Value → String
  | .text s => s
  | _ => ""

def items : Value → List Value
  | .list vs => vs
  | _ => []

/-- The value of a field; without one, a text that is empty. -/
def field (name : String) : Value → Value
  | .record fields => ((fields.find? (·.1 = name)).map (·.2)).getD (.text "")
  | _ => .text ""

end Value

/-- Why a document cannot be read: it does not have the shape, or a collection is a key where entries are taken over. -/
inductive ShapeError where
  | mismatch
  | collectionKey
  deriving DecidableEq

/-- How many nodes were read, how many of them below aliases, which aliases are being followed, and whether something
did not have its shape. -/
structure Progress where
  visited : Nat := 0
  borrowed : Nat := 0
  following : List Place := []
  mismatch : Bool := false

abbrev Reading (α : Type) := StateT Progress (Except ShapeError) α

namespace Reading

variable {α : Type}

/-- Whether too many of the nodes are below aliases. In large documents fewer of them may be. -/
def isExcessive (borrowed visited : Nat) : Bool :=
  let low := 400000
  let high := 4000000
  100 < borrowed && 1000 < visited &&
    (if visited ≤ low then 99 * visited < 100 * borrowed
    else if high ≤ visited then visited < 10 * borrowed
    else (99 * (high - low) - 89 * (visited - low)) * visited < 100 * (high - low) * borrowed)

def visit : Reading Unit := do
  let s ← get
  let borrowed := if s.following.isEmpty then s.borrowed else s.borrowed + 1
  if isExcessive borrowed (s.visited + 1) then throw .mismatch
  set { s with visited := s.visited + 1, borrowed := borrowed }

/-- Reads below the alias at a place, which must not come up again there. -/
def below (site : Place) (x : Reading α) : Reading α := do
  let following := (← get).following
  if site ∈ following then throw .mismatch
  modify fun s => { s with following := site :: following }
  let a ← x
  modify fun s => { s with following := following }
  return a

/-- Notes that something does not have its shape. The rest is read nevertheless. -/
def note (a : α) : Reading α := do
  modify fun s => { s with mismatch := true }
  return a

end Reading

open Reading

def sameKey : Node → Node → Bool
  | .scalar _ _ a, .scalar _ _ b | .alias _ a _, .alias _ b _ => a = b
  | .sequence .., .sequence .. | .mapping .., .mapping .. => true
  | _, _ => false

def distinctKeys : List (Node × Node) → Bool
  | [] => true
  | (k, _) :: rest => !rest.any (fun e => sameKey k e.1) && distinctKeys rest

/-- The key under which a mapping takes over entries. -/
def isMergeKey : Node → Bool
  | .scalar _ tag text => text = "<<" && tag = mergeTag
  | _ => false

def mergeSources (d : Document) (n : Node) : Reading (List Node) := do
  let isMapping (n : Node) : Bool :=
    match d.follow n with
    | .mapping .. => true
    | _ => false
  match n with
  | .sequence _ _ items => return items
  | n => if isMapping n then return [n] else throw .mismatch

/-- A scalar, which is nothing if it is null. -/
def readScalar (tag text : String) : Reading (Option String) :=
  match meaning? tag text with
  | none => throw .mismatch
  | some .null => return none
  | some (.text s) => return some s
  | some _ => return some text

/-- A node of any shape. Gives its text if it is a string, and whether it is a collection. -/
def readFree (d : Document) : Nat → Node → Reading (Option String × Bool)
  | 0, _ => throw .mismatch
  | fuel + 1, n => do
    visit
    match n with
    | .alias place _ _ => below place (readFree d fuel (d.follow n))
    | .scalar _ tag text =>
      match meaning? tag text with
      | none => throw .mismatch
      | some (.text s) => return (some s, false)
      | some _ => return (none, false)
    | .sequence _ _ items =>
      items.forM fun n => discard (readFree d fuel n)
      return (none, true)
    | .mapping _ _ entries =>
      if !distinctKeys entries then note (none, false)
      else
        entries.forM fun (k, v) => do
          if (← readFree d fuel k).2 then throw .mismatch
          discard (readFree d fuel v)
        return (none, true)

/-- The names that keys have, when entries are going to be taken over. -/
def keyNames (d : Document) (fuel : Nat) : List (Node × Node) → Reading (List String)
  | [] => return []
  | (k, _) :: rest => do
    let (name, isCollection) ← readFree d fuel k
    if isCollection then throw .collectionKey
    return name.toList ++ (← keyNames d fuel rest)

/-- The fields of a record that were found, and the names of its keys where they matter. -/
abbrev Found := List (String × Value) × Option (List String)

/-- The entries of a mapping, one after the other. Where they are taken over, `taken` are the names that are there
already, and the names found are added to them. The fields that are `done` must not come again. -/
def readEntries (read : Shape → Node → Reading (Option Value)) (fields : List (String × Shape)) :
    (taken : Option (List String)) → (done : List String) → List (Node × Node) → Reading Found
  | taken, _, [] => return ([], taken)
  | taken, done, (k, v) :: rest => do
    match ← read .text k with
    | none => readEntries read fields taken done rest
    | some key =>
      let name := key.asText
      if taken.any (name ∈ ·) then readEntries read fields taken done rest
      else
        let taken := taken.map (name :: ·)
        match fields.find? (·.1 = name) with
        | none => readEntries read fields taken done rest
        | some (_, shape) =>
          let value ← if name ∈ done then note none else read shape v
          let (values, taken) ← readEntries read fields taken (name :: done) rest
          return ((value.map fun v => (name, v)).toList ++ values, taken)

/-- What is taken over from mappings, the first ones first. -/
def readSources (read : (taken : List String) → Node → Reading Found) :
    (taken : List String) → List Node → Reading Found
  | taken, [] => return ([], some taken)
  | taken, n :: rest => do
    let (values, names) ← read taken n
    let (more, names) ← readSources read (names.getD taken) rest
    return (values ++ more, names)

mutual

def readShape (d : Document) : Nat → Shape → Node → Reading (Option Value)
  | 0, _, _ => throw .mismatch
  | fuel + 1, shape, n => do
    visit
    match n, shape with
    | .alias place _ _, _ => below place (readShape d fuel shape (d.follow n))
    | .scalar _ tag text, .text => return (← readScalar tag text).map .text
    | .scalar _ tag text, _ => if (← readScalar tag text).isNone then return none else note none
    | .sequence _ _ items, .list item => return some (.list (← items.filterMapM (readShape d fuel item)))
    | .mapping _ _ entries, .record fields =>
      if !distinctKeys entries then note none
      else return some (.record (← readRecord d fuel fields none entries).1)
    | _, _ => note none

/-- The fields of a mapping and what it takes over from others. -/
def readRecord (d : Document) : Nat → List (String × Shape) → (taken : Option (List String)) → List (Node × Node) →
    Reading Found
  | 0, _, _, _ => throw .mismatch
  | fuel + 1, fields, taken, entries => do
    let (values, taken) ←
      readEntries (readShape d fuel) fields taken [] (entries.filter fun e => !isMergeKey e.1)
    match entries.find? fun e => isMergeKey e.1 with
    | none => return (values, taken)
    | some (_, source) =>
      let names ← match taken with
        | some names => pure names
        | none => keyNames d fuel entries
      let sources ← mergeSources d source
      let (more, names) ← readSources (readSource d fuel fields) names sources
      return (values ++ more, names)

/-- The fields of a mapping that are not taken yet. -/
def readSource (d : Document) : Nat → List (String × Shape) → (taken : List String) → Node → Reading Found
  | 0, _, _, _ => throw .mismatch
  | fuel + 1, fields, taken, n => do
    visit
    match n with
    | .alias place _ _ => below place (readSource d fuel fields taken (d.follow n))
    | .mapping _ _ entries =>
      if !distinctKeys entries then note ([], some taken) else readRecord d fuel fields (some taken) entries
    | _ => throw .mismatch

end

mutual

def Node.size : Node → Nat
  | .scalar .. | .alias .. => 1
  | .sequence _ _ items => sizes items + 1
  | .mapping _ _ entries => entrySizes entries + 1

def Node.sizes : List Node → Nat
  | [] => 0
  | n :: ns => n.size + sizes ns

def Node.entrySizes : List (Node × Node) → Nat
  | [] => 0
  | (k, v) :: es => k.size + v.size + entrySizes es

end

/-- A document as a value of a shape, nothing if it is null. An alias comes up only once on a way down, so that the ways
are not longer than the square of the number of nodes allows. -/
def Document.read? (d : Document) (shape : Shape) : Except ShapeError (Option Value) :=
  let size := d.root.size + Node.sizes d.targets + 2
  match (readShape d (4 * size * size) shape d.root).run { visited := 1 } with
  | .error e => .error e
  | .ok (v, s) => if s.mismatch then .error .mismatch else .ok v

end TraitCheck.Yaml
