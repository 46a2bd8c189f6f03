/-!
Stacks, shown from the bottom up.
-/

namespace TraitCheck

/-- The top is the head of the list. -/
structure Stack (α : Type) where
  top : List α := []
  deriving Inhabited

namespace Stack

variable {α : Type}

def empty : Stack α := ⟨[]⟩

def push (s : Stack α) (a : α) : Stack α := ⟨a :: s.top⟩

def peek? (s : Stack α) : Option α := s.top.head?

def pop (s : Stack α) : Stack α := ⟨s.top.tail⟩

def size (s : Stack α) : Nat := s.top.length

/-- The elements, the bottom first. -/
def items (s : Stack α) : List α := s.top.reverse

def modifyTop (s : Stack α) (f : α → α) : Stack α :=
  match s.top with
  | [] => s
  | a :: rest => ⟨f a :: rest⟩

end Stack

end TraitCheck
