import TraitCheck.Ty.Bindings

/-!
Replacing generics by types, and reading bindings off an argument that is laid over a parameter.
-/

namespace TraitCheck.Ty

mutual

/-- Replaces every generic that no enclosing function type declares. `own` lists the declared names; the result
of a function type becomes explicit. -/
def replace (f : Generic Ty → Ty) (own : List String) : Ty → Ty
  | .generic g => if g.name ∈ own then .generic g else f g
  | .named p args => .named p (replaceAll f own args)
  | .fn gs ps r =>
    let own' := gs.map (·.name) ++ own
    .fn gs (replaceAll f own' ps) (if r.isPending then unit else replace f own' r)
  | t => t

def replaceAll (f : Generic Ty → Ty) (own : List String) : List Ty → List Ty
  | [] => []
  | t :: ts => replace f own t :: replaceAll f own ts

end

mutual

/-- The generics that `replace` meets, in order and with repetitions. -/
def occurrencesIn (own : List String) : Ty → List (Generic Ty)
  | .generic g => if g.name ∈ own then [] else [g]
  | .named _ args => occurrencesInAll own args
  | .fn gs ps r =>
    let own' := gs.map (·.name) ++ own
    occurrencesInAll own' ps ++ (if r.isPending then [] else occurrencesIn own' r)
  | _ => []

def occurrencesInAll (own : List String) : List Ty → List (Generic Ty)
  | [] => []
  | t :: ts => occurrencesIn own t ++ occurrencesInAll own ts

end

def occurrences (t : Ty) : List (Generic Ty) := occurrencesIn [] t

/-- Substitutes from the first of `maps` that binds a name, and leaves other generics as they are. -/
def substitute (maps : List Bindings) (t : Ty) : Ty :=
  t.replace (fun g => (Bindings.lookupIn maps g.name).getD (.generic g)) []

/-- Substitutes from the first of `maps` that binds a name, and puts holes for other generics. -/
def substituteOrHole (maps : List Bindings) (t : Ty) : Ty :=
  t.replace (fun g => (Bindings.lookupIn maps g.name).getD .hole) []

mutual

/-- Lays `arg` over `param`: a generic of `param` is bound to what stands in its place, the leftmost place first.
Arguments without a counterpart bind nothing. -/
def unifyInto (acc : Bindings) : (param arg : Ty) → Bindings
  | .generic g, arg => if arg.absorbs then acc else acc.insertIfNew g.name arg
  | .named _ params, .named _ args => unifyAllInto acc params args
  | .fn _ params r, .fn _ args s =>
    let acc := unifyAllInto acc params args
    if r.isPending then acc else unifyInto acc r s.resultOf
  | _, _ => acc

def unifyAllInto (acc : Bindings) : (params args : List Ty) → Bindings
  | p :: ps, a :: as => unifyAllInto (unifyInto acc p a) ps as
  | _, _ => acc

end

/-- The bindings under which `param` has the shape of `arg`. -/
def unify (arg param : Ty) : Bindings := unifyInto .empty param arg

mutual

/-- The generics that occur in a type, the last one first. -/
def collectNames (acc : List String) : Ty → List String
  | .generic g => if g.name ∈ acc then acc else g.name :: acc
  | .named _ args => collectNamesAll acc args
  | .fn _ ps r => collectNames (collectNamesAll acc ps) r
  | _ => acc

def collectNamesAll (acc : List String) : List Ty → List String
  | [] => acc
  | t :: ts => collectNamesAll (collectNames acc t) ts

end

/-- The names of the generics that occur in a type, in the order of their first occurrence. -/
def genericNames (t : Ty) : List String := (collectNames [] t).reverse

mutual

/-- Puts the results of closures that are complete by now in their places. -/
def complete (result? : Nat → Option Ty) : Ty → Ty
  | .named p args => .named p (completeAll result? args)
  | .fn gs ps (.ongoing i) => .fn gs (completeAll result? ps) ((result? i).getD (.ongoing i))
  | .fn gs ps r => .fn gs (completeAll result? ps) (complete result? r)
  | t => t

def completeAll (result? : Nat → Option Ty) : List Ty → List Ty
  | [] => []
  | t :: ts => complete result? t :: completeAll result? ts

end

mutual

/-- The closures whose results a type waits for. -/
def waits : Ty → List Nat
  | .named _ args => waitsAll args
  | .fn _ ps (.ongoing i) => waitsAll ps ++ [i]
  | .fn _ ps r => waitsAll ps ++ waits r
  | _ => []

def waitsAll : List Ty → List Nat
  | [] => []
  | t :: ts => waits t ++ waitsAll ts

end

end TraitCheck.Ty
