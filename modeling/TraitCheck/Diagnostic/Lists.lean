import TraitCheck.Diagnostic.Basic

/-!
Named diagnostic lists. Lists are shared: two names may stand for one list, and then see the same additions.
-/

namespace TraitCheck.Diagnostic

/-- The lists, and for each name the list that it stands for, the latest first. -/
structure Lists where
  lists : List (List Diagnostic) := []
  names : List (String × Nat) := []

namespace Lists

/-- The list of a name; a name that was never used has none. -/
def get? (s : Lists) (name : String) : Option (List Diagnostic) := do s.lists[← s.names.lookup name]?

def extend (s : Lists) (i : Nat) (ds : List Diagnostic) : Lists := { s with lists := s.lists.modify i (· ++ ds) }

/-- Adds diagnostics to a list, which is created if need be. -/
def add (s : Lists) (name : String) (ds : List Diagnostic) : Lists :=
  match s.names.lookup name with
  | some i => s.extend i ds
  | none => { lists := s.lists ++ [ds], names := (name, s.lists.length) :: s.names }

/-- Adds all of one list to another. A name without a list takes over the other one itself. -/
def merge (s : Lists) (name other : String) : Lists :=
  match s.names.lookup name, s.names.lookup other with
  | some i, some _ => s.extend i ((s.get? other).getD [])
  | none, some j => { s with names := (name, j) :: s.names }
  | _, none => s

end Lists

end TraitCheck.Diagnostic
