/-!
Which values the clauses of a `match` cover. A tree records the constructor paths covered so far; each clause is run
through it, and a clause that changes nothing is unreachable.
-/

namespace TraitCheck.Coverage

/-- The variants of a declared type, by name. The number tells types apart. -/
structure TypeShape where
  id : Nat
  variants : List String
  deriving DecidableEq

/-- A pattern as far as coverage goes. The fields of a variant are those of its declaration, in their order. -/
inductive Shape where
  | any
  | literal
  | unresolved
  | variant (type : TypeShape) (name : String) (fields : List (String × Shape))
  deriving Inhabited

inductive Tree where
  | unmatched
  | exhaustive
  | type (id : Nat) (variants : List (String × Tree))
  | variant (fields : List (String × Tree))
  deriving Inhabited

mutual

def Tree.isExhaustive : Tree → Bool
  | .unmatched => false
  | .exhaustive => true
  | .type _ variants => allExhaustive variants
  | .variant fields => allExhaustive fields

def allExhaustive : List (String × Tree) → Bool
  | [] => true
  | (_, t) :: ts => t.isExhaustive && allExhaustive ts

end

def Tree.isCovered : Tree → Bool
  | .exhaustive => true
  | _ => false

/-- Nothing covered yet below each of the names. -/
def fresh (names : List String) : List (String × Tree) := names.eraseDups.map fun n => (n, .unmatched)

def get (name : String) (ts : List (String × Tree)) : Tree := (ts.lookup name).getD .unmatched

def set (name : String) (t : Tree) : List (String × Tree) → List (String × Tree)
  | [] => [(name, t)]
  | (n, u) :: ts => if n = name then (n, t) :: ts else (n, u) :: set name t ts

/-- The subtrees of a type at a place of the tree; what was recorded about another type is lost. -/
def Tree.variantsOf (type : TypeShape) : Tree → List (String × Tree)
  | .type id variants => if id = type.id then variants else fresh type.variants
  | _ => fresh type.variants

def Tree.fieldsOf (names : List String) : Tree → List (String × Tree)
  | .variant fields => fields
  | _ => fresh names

mutual

/-- Records that a pattern covers a place, and says whether it can match anything that was not covered before.
Without `exhaust` the pattern covers nothing. -/
def Shape.cover (exhaust : Bool) : Shape → Tree → Tree × Bool
  | p, t =>
    if t.isCovered then (t, false)
    else
      match p with
      | .any => (if exhaust then .exhaustive else t, true)
      | .literal | .unresolved => (t, true)
      | .variant type name fields =>
        let variants := t.variantsOf type
        let child := get name variants
        if child.isCovered then (.type type.id variants, false)
        else
          let (covered, affected) := coverFields exhaust fields (child.fieldsOf (fields.map (·.1)))
          let child :=
            if fields.isEmpty then (if exhaust then .exhaustive else child)
            else if allExhaustive covered then .exhaustive
            else .variant covered
          let variants := set name child variants
          (if allExhaustive variants then .exhaustive else .type type.id variants, fields.isEmpty || affected)

def coverFields (exhaust : Bool) : List (String × Shape) → List (String × Tree) → List (String × Tree) × Bool
  | [], ts => (ts, false)
  | (name, p) :: ps, ts =>
    let (t, here) := p.cover exhaust (get name ts)
    let (ts, later) := coverFields exhaust ps (set name t ts)
    (ts, here || later)

end

/-- A clause: whether it has a guard, and its patterns. -/
structure Clause where
  guarded : Bool
  patterns : List Shape

/-- Runs all patterns of a clause. A clause without patterns is never called unreachable. -/
def Clause.run (c : Clause) (t : Tree) : Tree × Bool :=
  let step (acc : Tree × Bool) (p : Shape) : Tree × Bool :=
    let (t, affected) := p.cover (!c.guarded) acc.1
    (t, acc.2 || affected)
  c.patterns.foldl step (t, c.patterns.isEmpty)

/-- Runs the clauses in order: which of them are reachable, and what they leave uncovered. -/
def run : List Clause → Tree → List Bool × Tree
  | [], t => ([], t)
  | c :: cs, t =>
    let (t, reachable) := c.run t
    let (later, t) := run cs t
    (reachable :: later, t)

/-- The verdict on a `match`: for each clause whether it is reachable, and whether all is covered. -/
structure Verdict where
  reachable : List Bool
  exhaustive : Bool

def check (clauses : List Clause) : Verdict :=
  let (reachable, tree) := run clauses .unmatched
  ⟨reachable, tree.isExhaustive⟩

end TraitCheck.Coverage
