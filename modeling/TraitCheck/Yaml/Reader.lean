import TraitCheck.Yaml.Node
import TraitCheck.Yaml.Token

/-!
Reading the first document of a YAML text.
-/

namespace TraitCheck.Yaml

/-- The scanner, the anchors seen so far with the numbers of the nodes that they name, the latest first, these nodes,
and the tag handles. A node that is still being read is not there yet. -/
structure ReadState where
  scanner : Scanner
  anchors : List (String × Nat) := []
  targets : Array Node := #[]
  handles : List (String × String) := [("!", "!"), ("!!", "tag:yaml.org,2002:")]

/-- A reading step; nothing comes out of malformed text. -/
abbrev Read (α : Type) := ReadState → Option (α × ReadState)

namespace Read

def peek : Read Token := fun s => do
  let (token, scanner) ← s.scanner.peek
  return (token, { s with scanner := scanner })

def drop : Read Unit := fun s => some ((), { s with scanner := s.scanner.drop })

def fail {α : Type} : Read α := fun _ => none

/-- Reads a node with an anchor, which names the node from the start on. -/
def anchored (name : Option String) (read : Read Node) : Read Node := fun s =>
  match name with
  | none => read s
  | some name => do
    let number := s.targets.size
    let (node, s) ← read { s with anchors := (name, number) :: s.anchors, targets := s.targets.push default }
    return (node, { s with targets := s.targets.setIfInBounds number node })

def anchor (name : String) : Read Nat := fun s => (s.anchors.lookup name).map fun number => (number, s)

def expandTag (handle suffix : String) : Read String := fun s =>
  if handle.isEmpty then some (suffix, s)
  else (s.handles.lookup handle).map fun uri => (uri ++ suffix, s)

end Read

instance : Monad (fun α => Read α) where
  pure a := fun s => some (a, s)
  bind x f := fun s => (x s).bind fun (a, s) => f a s

def shortTag (tag : String) : String :=
  let long := "tag:yaml.org,2002:".toList
  let cs := tag.toList
  if long.isPrefixOf cs then String.ofList ('!' :: '!' :: cs.drop long.length) else tag

def Mark.place (m : Mark) : Place := ⟨m.line + 1, m.column + 1⟩

def emptyScalar (m : Mark) : Node := .scalar m.place nullTag ""

def givenTag (tag : String) (fallback : String) : String :=
  if tag.isEmpty || tag = "!" then fallback else shortTag tag

/-- An anchor and a tag, in either order, and the token after them. -/
def readProperties : Read (Option String × String × Mark × Token) := do
  let token ← Read.peek
  let start := token.start
  match token.kind with
  | .anchor name =>
    Read.drop
    let token ← Read.peek
    match token.kind with
    | .tag handle suffix =>
      let tag ← Read.expandTag handle suffix
      Read.drop
      return (some name, tag, start, ← Read.peek)
    | _ => return (some name, "", start, token)
  | .tag handle suffix =>
    Read.drop
    let token ← Read.peek
    match token.kind with
    | .anchor name =>
      Read.drop
      let token ← Read.peek
      return (some name, ← Read.expandTag handle suffix, start, token)
    | _ => return (none, ← Read.expandTag handle suffix, start, token)
  | _ => return (none, "", start, token)

mutual

/-- A node. `block` admits block collections, `indentless` a sequence at the column of its key. -/
def readNode : Nat → (block indentless : Bool) → Read Node
  | 0, _, _ => Read.fail
  | fuel + 1, block, indentless => do
    let token ← Read.peek
    if let .alias name := token.kind then
      Read.drop
      let target ← Read.anchor name
      return .alias token.start.place name target
    let (anchor, tag, start, token) ← readProperties
    let place := start.place
    let scalar (tag text : String) : Read Node := Read.anchored anchor (pure (.scalar place tag text))
    let sequence (items : Read (List Node)) : Read Node :=
      Read.anchored anchor do return .sequence place (givenTag tag "!!seq") (← items)
    let mapping (entries : Read (List (Node × Node))) : Read Node :=
      Read.anchored anchor do return .mapping place (givenTag tag "!!map") (← entries)
    match token.kind with
    | .blockEntry =>
      if indentless then sequence (readIndentless fuel)
      else if anchor.isSome || !tag.isEmpty then scalar (givenTag tag nullTag) ""
      else Read.fail
    | .scalar text plain =>
      Read.drop
      scalar (givenTag tag (if plain then plainTag text else stringTag)) text
    | .flowSequenceStart => Read.drop; sequence (readFlowSequence fuel true)
    | .flowMappingStart => Read.drop; mapping (readFlowMapping fuel true)
    | kind =>
      if block && kind = .blockSequence then Read.drop; sequence (readBlockSequence fuel)
      else if block && kind = .blockMapping then Read.drop; mapping (readBlockMapping fuel)
      else if anchor.isSome || !tag.isEmpty then scalar (givenTag tag nullTag) ""
      else Read.fail

def readBlockSequence : Nat → Read (List Node)
  | 0 => Read.fail
  | fuel + 1 => do
    let token ← Read.peek
    match token.kind with
    | .blockEntry =>
      Read.drop
      let next ← Read.peek
      let item ← match next.kind with
        | .blockEntry | .blockEnd => pure (emptyScalar token.stop)
        | _ => readNode fuel true false
      return item :: (← readBlockSequence fuel)
    | .blockEnd => Read.drop; return []
    | _ => Read.fail

def readIndentless : Nat → Read (List Node)
  | 0 => Read.fail
  | fuel + 1 => do
    let token ← Read.peek
    match token.kind with
    | .blockEntry =>
      Read.drop
      let next ← Read.peek
      let item ← match next.kind with
        | .blockEntry | .key | .value | .blockEnd => pure (emptyScalar token.stop)
        | _ => readNode fuel true false
      return item :: (← readIndentless fuel)
    | _ => return []

def readBlockMapping : Nat → Read (List (Node × Node))
  | 0 => Read.fail
  | fuel + 1 => do
    let token ← Read.peek
    match token.kind with
    | .key =>
      Read.drop
      let next ← Read.peek
      let key ← match next.kind with
        | .key | .value | .blockEnd => pure (emptyScalar token.stop)
        | _ => readNode fuel true true
      let token ← Read.peek
      let value ← match token.kind with
        | .value => do
          Read.drop
          let next ← Read.peek
          match next.kind with
          | .key | .value | .blockEnd => pure (emptyScalar token.stop)
          | _ => readNode fuel true true
        | _ => pure (emptyScalar token.start)
      return (key, value) :: (← readBlockMapping fuel)
    | .blockEnd => Read.drop; return []
    | _ => Read.fail

def readFlowSequence : Nat → (first : Bool) → Read (List Node)
  | 0, _ => Read.fail
  | fuel + 1, first => do
    let token ← Read.peek
    if token.kind = .flowSequenceEnd then Read.drop; return []
    if !first then
      if token.kind = .flowEntry then Read.drop else Read.fail
    let token ← Read.peek
    match token.kind with
    | .flowSequenceEnd => Read.drop; return []
    | .key =>
      Read.drop
      let next ← Read.peek
      let key ← match next.kind with
        | .value | .flowEntry | .flowSequenceEnd => do Read.drop; pure (emptyScalar next.stop)
        | _ => readNode fuel false false
      let next ← Read.peek
      let value ←
        if next.kind = .value then do
          Read.drop
          let next ← Read.peek
          match next.kind with
          | .flowEntry | .flowSequenceEnd => pure (emptyScalar next.start)
          | _ => readNode fuel false false
        else pure (emptyScalar next.start)
      return .mapping token.start.place "!!map" [(key, value)] :: (← readFlowSequence fuel false)
    | _ => return (← readNode fuel false false) :: (← readFlowSequence fuel false)

def readFlowMapping : Nat → (first : Bool) → Read (List (Node × Node))
  | 0, _ => Read.fail
  | fuel + 1, first => do
    let token ← Read.peek
    if token.kind = .flowMappingEnd then Read.drop; return []
    if !first then
      if token.kind = .flowEntry then Read.drop else Read.fail
    let token ← Read.peek
    match token.kind with
    | .flowMappingEnd => Read.drop; return []
    | .key =>
      Read.drop
      let next ← Read.peek
      let key ← match next.kind with
        | .value | .flowEntry | .flowMappingEnd => pure (emptyScalar next.start)
        | _ => readNode fuel false false
      let next ← Read.peek
      let value ←
        if next.kind = .value then do
          Read.drop
          let next ← Read.peek
          match next.kind with
          | .flowEntry | .flowMappingEnd => pure (emptyScalar next.start)
          | _ => readNode fuel false false
        else pure (emptyScalar next.start)
      return (key, value) :: (← readFlowMapping fuel false)
    | _ =>
      let key ← readNode fuel false false
      let next ← Read.peek
      return (key, emptyScalar next.start) :: (← readFlowMapping fuel false)

end

/-- Directives before a document: at most one version, which must be 1.1, and tag handles, each at most once. -/
def readDirectives : Nat → (version : Bool) → (own : List String) → Read Unit
  | 0, _, _ => Read.fail
  | fuel + 1, version, own => do
    let token ← Read.peek
    match token.kind with
    | .version major minor =>
      if version || major ≠ 1 || minor ≠ 1 then Read.fail
      Read.drop
      readDirectives fuel true own
    | .tagHandle handle uri =>
      if handle ∈ own then Read.fail
      Read.drop
      (fun s => some ((), { s with handles := (handle, uri) :: s.handles }) : Read Unit)
      readDirectives fuel version (handle :: own)
    | _ => return ()

/-- The first document, if there is one. What follows its end is not looked at. -/
def readDocument (fuel : Nat) : Read (Option Node) := do
  Read.drop
  let token ← Read.peek
  match token.kind with
  | .streamEnd => return none
  | .version .. | .tagHandle .. | .documentStart =>
    readDirectives fuel false []
    let token ← Read.peek
    if token.kind ≠ .documentStart then Read.fail
    Read.drop
    let token ← Read.peek
    let node ← match token.kind with
      | .version .. | .tagHandle .. | .documentStart | .documentEnd | .streamEnd => pure (emptyScalar token.start)
      | _ => readNode fuel true false
    let _ ← Read.peek
    return some node
  | _ =>
    let node ← readNode fuel true false
    let _ ← Read.peek
    return some node

/-- Reads a text: nothing if it is malformed, otherwise its first document, if it has one. -/
def read (text : String) : Option (Option Document) := do
  let (cs, room) :=
    match text.toList with
    | [] => ([], pieceSize)
    | c :: cs => if c = orderMark then (cs, pieceSize - c.utf8Size) else (c :: cs, pieceSize)
  let fuel := 4 * cs.length + 16
  let (root, s) ← readDocument fuel { scanner := .ofCursor (.ofText cs room) }
  return root.map fun n => ⟨n, s.targets.toList⟩

end TraitCheck.Yaml
