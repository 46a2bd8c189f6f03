/-!
Sorting lists. Elements of which neither is below the other keep their order.
-/

namespace TraitCheck

variable {α : Type} (le : α → α → Bool)

/-- Adds an element to a sorted list, in front of what is equal to it. -/
def insertBy (a : α) : List α → List α
  | [] => [a]
  | b :: l => if le a b then a :: b :: l else b :: insertBy a l

def sortBy : List α → List α
  | [] => []
  | a :: l => insertBy le a (sortBy l)

theorem mem_insertBy {a b : α} {l : List α} : b ∈ insertBy le a l ↔ b = a ∨ b ∈ l := by
  induction l with
  | nil => simp [insertBy]
  | cons c l ih =>
    rw [insertBy]
    split
    · simp
    · simp [ih, or_left_comm]

theorem mem_sortBy {b : α} {l : List α} : b ∈ sortBy le l ↔ b ∈ l := by
  induction l with
  | nil => simp [sortBy]
  | cons a l ih => simp [sortBy, mem_insertBy, ih]

end TraitCheck
