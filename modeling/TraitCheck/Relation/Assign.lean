import TraitCheck.Relation.Basic

/-!
Assignability: whether a value of one type can be used where another type is expected. A named type fits a trait if a
chain of impls leads there, and whether an impl applies may depend on further questions of the same kind.

Questions are answered in two settings. Inside a search for chains everything is a function of the chains found so far.
Outside, finished searches are kept in a memo.
-/

namespace TraitCheck

/-- Questions may depend on each other to this depth; a deeper one is answered with no. -/
def maxDepth : Nat := 64

section Rules

variable {m : Type → Type} [Monad m]

/-- The bounds of the generics that are bound, each with the value that it has to hold for. -/
def Relation.demands (r : Relation) (b : Bindings) : List (Ty × Ty) :=
  r.generics.flatMap fun g =>
    match b.get? g.name with
    | some value => g.bounds.map fun bound => (value, bound.substitute [b])
    | none => []

/-- Whether the type of the relation has the shape of `cur`, as far as paths go. -/
def Relation.matches (r : Relation) (cur : Ty) : Bool :=
  r.isBlanket ||
    match cur with
    | .named p _ => p = r.forPath
    | _ => false

/-- Sees `cur` through a relation: what it is seen as, and the generics of the relation that are bound by that. -/
def Relation.step (holds : Ty → Ty → m Bool) (cur : Ty) (r : Relation) : m (Option (Ty × Bindings)) := do
  if r.matches cur then
    let b := Ty.unify cur r.forType
    if ← (r.demands b).allM fun d => holds d.1 d.2 then
      return some (r.target.substituteOrHole [b], b)
    else return none
  else return none

def Chain.follow (holds : Ty → Ty → m Bool) : (start : Ty × Bindings) → Chain → m (Option (Ty × Bindings))
  | cur, [] => return some cur
  | cur, r :: rest => do
    match ← r.step holds cur.1 with
    | some next => Chain.follow holds next rest
    | none => return none

def Chain.instantiate (holds : Ty → Ty → m Bool) (t : Ty) (c : Chain) : m (Option (Ty × Bindings)) :=
  c.follow holds (t, .empty)

/-- The first of some chains that ends at `path` and, seen from `t`, at something that fits `target`. -/
def firstFit (holds : Ty → Ty → m Bool) (t : Ty) (path : Path) (target : Ty) : List Chain → m (Option Chain)
  | [] => return none
  | c :: cs => do
    if c.getLast?.any (·.path = path) then
      match ← c.instantiate holds t with
      | some (super, _) => if ← holds super target then return some c else firstFit holds t path target cs
      | none => firstFit holds t path target cs
    else firstFit holds t path target cs

/-- A chain from a named type to a trait. -/
def superTypeAs (holds : Ty → Ty → m Bool) (chains : Path → m (List Chain)) (p : Path) (t : Ty) (q : Path)
    (target : Ty) : m (Option Chain) := do
  firstFit holds t q target (← chains p)

/-- A closure without types fits functions and closures of its arity, and generics without bounds. -/
def closureFits (arity : Nat) : Ty → Bool
  | .fn _ ps _ => ps.length = arity
  | .closure _ n => n = arity
  | .generic g => g.bounds.isEmpty
  | _ => false

/-- The answer to a question that needs no other one. -/
def Ty.fits? (t target : Ty) : Option Bool :=
  if t.absorbs || target.absorbs then some true
  else
    match t with
    | .closure _ n => some (closureFits n target)
    | _ => if t.isNever || t.equal target then some true else none

def question (t target : Ty) : String := t.render ++ " <: " ++ target.render

/-- A step of an answer that looks at what the two types are made of. -/
def assignParts (holds : Ty → Ty → m Bool) (chains : Path → m (List Chain)) (t target : Ty) : m Bool :=
  match t, target with
  | .generic g, _ => g.bounds.anyM fun b => holds b target
  | .named p as, .named q bs =>
    if p = q then
      if as.length = bs.length then (as.zip bs).allM fun d => holds d.1 d.2 else return false
    else do return (← superTypeAs holds chains p t q target).isSome
  | .fn _ ps r, .fn _ qs s =>
    if ps.length = qs.length then do
      if ← (qs.zip ps).allM fun d => holds d.1 d.2 then holds r.resultOf s.resultOf else return false
    else return false
  | _, _ => return false

/-- A step of an answer: `holds` answers the questions that it leads to. A generic with bounds asks for all of them. -/
def assignStep (holds : Ty → Ty → m Bool) (chains : Path → m (List Chain)) (t target : Ty) : m Bool :=
  match target with
  | .generic g =>
    if g.bounds.isEmpty then assignParts holds chains t target else g.bounds.allM fun b => holds t b
  | _ => assignParts holds chains t target

/-- Answers a question within a budget. A question that leads back to itself is answered with no. -/
def assignWith (chains : Path → m (List Chain)) : (budget : Nat) → (asked : List String) → Ty → Ty → m Bool
  | budget, asked, t, target =>
    match t.fits? target with
    | some answer => return answer
    | none =>
      if question t target ∈ asked then return false
      else
        match budget with
        | 0 => return false
        | budget + 1 => assignStep (assignWith chains budget (question t target :: asked)) chains t target

/-- The common type of two branches: the first if it fits the second, else the second if it fits the first. A branch
without a value, or about which nothing is known, takes the type of the other one. -/
def combineWith (chains : Path → m (List Chain)) (a b : Ty) : m (Option Ty) := do
  if a.isNever || a.absorbs then return some b
  if b.isNever || b.absorbs then return some a
  if ← assignWith chains maxDepth [] a b then return some a
  if ← assignWith chains maxDepth [] b a then return some b
  return none

end Rules

/-- Chains by the text of the path that they start at. -/
abbrev Memo := List (String × List Chain)

/-- How many sequences of `n` things there are that are not empty and repeat nothing. -/
def sequences : Nat → Nat
  | 0 => 0
  | n + 1 => (n + 1) * (1 + sequences n)

/-- All chains from `cur` on that extend `path`. No relation is used twice, so that `fuel` may be their number. -/
def walk (rels : List Relation) (holds : Ty → Ty → Bool) : (fuel : Nat) → (cur : Ty) → (path : Chain) → List Chain
  | 0, _, _ => []
  | fuel + 1, cur, path =>
    rels.flatMap fun r =>
      if r.isImpl && !path.uses r then
        match (r.step fun t u => (pure (holds t u) : Id Bool)) cur |>.run with
        | some (next, _) => (path ++ [r]) :: walk rels holds fuel next (path ++ [r])
        | none => []
      else []

/-- Repeats a walk with what it found, until it finds no more than before. -/
def rounds (walk : List Chain → List Chain) : (fuel : Nat) → (known : List Chain) → List Chain
  | 0, known => known
  | fuel + 1, known =>
    let found := walk known
    if found.length ≤ known.length then found else rounds walk fuel found

/-- The chains of a path while other searches are open. An open search answers with what it has found so far. -/
def searchWith (rels : List Relation) (memo : Memo) (holds : Memo → Ty → Ty → Bool) (searching : Memo) (p : Path) :
    List Chain :=
  match memo.lookup p.render, searching.lookup p.render with
  | some chains, _ => chains
  | none, some chains => chains
  | none, none =>
    rounds (fun known => walk rels (holds ((p.render, known) :: searching)) rels.length (.named p []) [])
      (sequences rels.length + 1) []

/-- Answers a question that came up in a search. -/
def assignIn (rels : List Relation) (memo : Memo) :
    (budget : Nat) → (searching : Memo) → (asked : List String) → Ty → Ty → Bool
  | budget, searching, asked, t, target =>
    match t.fits? target with
    | some answer => answer
    | none =>
      if question t target ∈ asked then false
      else
        match budget with
        | 0 => false
        | budget + 1 =>
          let asked := question t target :: asked
          let holds (searching : Memo) (t u : Ty) : Bool := assignIn rels memo budget searching asked t u
          (assignStep (fun t u => (pure (holds searching t u) : Id Bool))
            (fun p => pure (searchWith rels memo holds searching p)) t target).run

/-- The chains that start at a path, given what the memo holds. The search does not depend on the question that led
to it. -/
def search (rels : List Relation) (memo : Memo) (p : Path) : List Chain :=
  searchWith rels memo (fun searching t u => assignIn rels memo maxDepth searching [] t u) [] p

def chains (rels : List Relation) (p : Path) : StateM Memo (List Chain) := fun memo =>
  let found := search rels memo p
  (found, if (memo.lookup p.render).isSome then memo else (p.render, found) :: memo)

/-- Whether a value of type `t` can be used where `target` is expected. -/
def isAssignable (rels : List Relation) (t target : Ty) : StateM Memo Bool :=
  assignWith (chains rels) maxDepth [] t target

def combine (rels : List Relation) (a b : Ty) : StateM Memo (Option Ty) := combineWith (chains rels) a b

end TraitCheck
