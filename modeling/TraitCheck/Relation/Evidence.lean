import TraitCheck.Relation.Assign

/-!
Evidence that a value can be seen as a trait, or a function as one of another type: the relations that code for the
conversion needs.
-/

namespace TraitCheck

/--
* `view`: the relations on the way to a trait by the names of what they provide, and for each generic of the first one
  the evidence for its bounds
* `fn`: evidence for parameters and result of a function, where it is needed
-/
inductive Evidence where
  | view (via : List (String × Relation)) (generics : List (List Evidence))
  | fn (params : List (Option Evidence)) (result : Option Evidence)
  deriving Inhabited

namespace Evidence

/-- Adds a relation under its name, in name order. -/
def addVia (r : Relation) : List (String × Relation) → List (String × Relation)
  | [] => [(r.name, r)]
  | (n, s) :: rest =>
    if r.name = n then (n, r) :: rest
    else if r.name < n then (r.name, r) :: (n, s) :: rest
    else (n, s) :: addVia r rest

/-- The relations of a chain by name; the last one of a name stays. -/
def viaChain (c : Chain) : List (String × Relation) := c.foldl (fun via r => addVia r via) []

mutual

def render : Evidence → String
  | .view via generics =>
    "upcast\x7b" ++ ", ".intercalate (via.map fun (n, r) => n ++ ": " ++ r.render) ++ renderGenerics generics ++ "\x7d"
  | .fn params result =>
    "upcast fn(" ++ ", ".intercalate (renderParams params) ++ "): " ++ renderOption result

def renderAll : List Evidence → List String
  | [] => []
  | e :: es => e.render :: renderAll es

def renderGenerics : List (List Evidence) → String
  | [] => ""
  | bounds :: rest => "; [" ++ ", ".intercalate (renderAll bounds) ++ "]" ++ renderGenerics rest

def renderOption : Option Evidence → String
  | none => "_"
  | some e => e.render

def renderParams : List (Option Evidence) → List String
  | [] => []
  | p :: ps => renderOption p :: renderParams ps

end

mutual

def relations : Evidence → List Relation
  | .view via generics => via.map (·.2) ++ relationsOfGenerics generics
  | .fn params result => relationsOfParams params ++ relationsOfOption result

def relationsOfAll : List Evidence → List Relation
  | [] => []
  | e :: es => e.relations ++ relationsOfAll es

def relationsOfGenerics : List (List Evidence) → List Relation
  | [] => []
  | bounds :: rest => relationsOfAll bounds ++ relationsOfGenerics rest

def relationsOfOption : Option Evidence → List Relation
  | none => []
  | some e => e.relations

def relationsOfParams : List (Option Evidence) → List Relation
  | [] => []
  | p :: ps => relationsOfOption p ++ relationsOfParams ps

end

end Evidence

inductive EvidenceError where
  | notATrait (t : Ty)
  | tooDeep
  deriving Inhabited

section Search

variable {m : Type → Type} [Monad m] (rels : List Relation) (chains : Path → m (List Chain))

abbrev EvidenceT (m : Type → Type) (α : Type) := ExceptT EvidenceError m α

/-- The relation that the declaration of a trait gives. -/
def traitRelation? (p : Path) : Option Relation := rels.find? fun r => r.kind = .trait && r.path = p

def isTrait : Ty → Bool
  | .named p _ => (traitRelation? rels p).isSome
  | _ => false

/-- A value that is of a trait already is seen as that trait through its declaration. -/
def identityView (p : Path) (args : List Ty) : EvidenceT m Evidence :=
  match traitRelation? rels p with
  | some r => return .view [(r.name, r)] []
  | none => throw (.notATrait (.named p args))

/-- The evidence for one bound of a generic with a value; a bound that is no trait needs none. -/
def boundEvidence (view : Ty → Path → List Ty → EvidenceT m (Option Evidence)) (value bound : Ty) :
    EvidenceT m Evidence := do
  if isTrait rels bound then
    match bound with
    | .named p args =>
      match ← view value p args with
      | some e => return e
      | none => identityView rels p args
    | _ => return .view [] []
  else return .view [] []

def viewFromBounds (view : Ty → Path → List Ty → EvidenceT m (Option Evidence)) (p : Path) (args : List Ty) :
    List Ty → EvidenceT m (Option Evidence)
  | [] => return none
  | .named q bargs :: rest => do
    if q = p then return some (← identityView rels p args)
    match ← view (.named q bargs) p args with
    | some e => return some e
    | none => viewFromBounds view p args rest
  | _ :: rest => viewFromBounds view p args rest

/-- The evidence that a value can be seen as a trait. There is none if it is of that trait already. -/
def viewAs : (fuel : Nat) → Ty → Path → List Ty → EvidenceT m (Option Evidence)
  | 0, _, _, _ => throw .tooDeep
  | fuel + 1, t, p, args =>
    match t with
    | .named q _ => do
      if q = p then return none
      match ← ExceptT.lift (superTypeAs (assignWith chains maxDepth []) chains q t p (.named p args)) with
      | none => return none
      | some [] => return none
      | some (first :: rest) =>
        let b := Ty.unify t first.forType
        let generics ← first.generics.mapM fun g =>
          g.bounds.mapM fun bound =>
            boundEvidence rels (viewAs fuel) ((b.get? g.name).getD .hole) (bound.substitute [b])
        return some (.view (Evidence.viaChain (first :: rest)) generics)
    | .generic g => viewFromBounds rels (viewAs fuel) p args g.bounds
    | _ => return none

def evidenceAll (evidence : Ty → Ty → EvidenceT m (Option Evidence)) : List (Ty × Ty) →
    EvidenceT m (List (Option Evidence))
  | [] => return []
  | (source, goal) :: rest => return (← evidence source goal) :: (← evidenceAll evidence rest)

/-- The evidence for a function of type `ps → r` where `qs → s` is expected, and whether it needs any. Arguments flow
the other way. -/
def fnEvidence (evidence : Ty → Ty → EvidenceT m (Option Evidence)) (ps : List Ty) (r : Ty) (qs : List Ty) (s : Ty) :
    EvidenceT m (Option (Evidence × Bool)) := do
  if ps.length = qs.length then
    let params ← evidenceAll evidence (qs.zip ps)
    let result ← evidence r.resultOf s.resultOf
    return some (.fn params result, params.any Option.isSome || result.isSome)
  else return none

/-- The evidence that a value of type `source` needs in a place of type `goal`. -/
def evidenceWith : (fuel : Nat) → (source goal : Ty) → EvidenceT m (Option Evidence)
  | 0, _, _ => throw .tooDeep
  | fuel + 1, source, goal =>
    match goal with
    | .named p args => if isTrait rels goal then viewAs rels chains (fuel + 1) source p args else return none
    | .fn _ qs s =>
      match source with
      | .fn _ ps r => do
        match ← fnEvidence (evidenceWith fuel) ps r qs s with
        | some (e, true) => return some e
        | _ => return none
      | _ => return none
    | _ => return none

end Search

/-- Evidence is nested at most this deep. -/
def evidenceFuel : Nat := 10000

end TraitCheck
