/-!
The edit distance of two texts.
-/

namespace TraitCheck.Text

/-- One row of the table of distances. `corner` and `left` are the entries above to the left and to the left. -/
def nextRow {α : Type} [DecidableEq α] (a : α) (corner left : Nat) : List α → List Nat → List Nat
  | b :: bs, above :: row =>
    let entry := if a = b then corner else min (min corner left) above + 1
    entry :: nextRow a above entry bs row
  | _, _ => []

/-- The rows after the one given, down to the last one. -/
def lastRow {α : Type} [DecidableEq α] (t : List α) : (first : Nat) → (row : List Nat) → List α → List Nat
  | first, row, [] => first :: row
  | first, row, a :: as => lastRow t (first + 1) (nextRow a first (first + 1) t row) as

/-- How many elements have to be inserted, removed or replaced to get from one list to the other. -/
def distance {α : Type} [DecidableEq α] (s t : List α) : Nat :=
  (lastRow t 0 ((List.range t.length).map (· + 1)) s).getLastD 0

end TraitCheck.Text
