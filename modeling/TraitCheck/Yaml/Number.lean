/-!
Which texts are numbers. Underscores between digits do not count.
-/

namespace TraitCheck.Yaml

/-! ### Whole numbers -/

def digits? (base : Nat) : (value : Nat) → List Char → Option Nat
  | value, [] => some value
  | value, c :: cs =>
    let d :=
      if c.isDigit then some (c.toNat - '0'.toNat)
      else if 'a' ≤ c && c ≤ 'f' then some (c.toNat - 'a'.toNat + 10)
      else if 'A' ≤ c && c ≤ 'F' then some (c.toNat - 'A'.toNat + 10)
      else none
    match d with
    | some d => if d < base then digits? base (value * base + d) cs else none
    | none => none

/-- One digit at least. -/
def inBase? (base : Nat) (cs : List Char) : Option Nat := if cs.isEmpty then none else digits? base 0 cs

/-- A whole number without its sign: a base may be given as in `0x`, `0o` and `0b`, and a leading zero means base
eight. -/
def natural? (cs : List Char) : Option Nat :=
  match cs with
  | '0' :: 'x' :: rest | '0' :: 'X' :: rest => inBase? 16 rest
  | '0' :: 'o' :: rest | '0' :: 'O' :: rest => inBase? 8 rest
  | '0' :: 'b' :: rest | '0' :: 'B' :: rest => inBase? 2 rest
  | '0' :: c :: rest => inBase? 8 (c :: rest)
  | cs => inBase? 10 cs

/-- Whether a text with an optional sign, read by `read`, is a number of 64 bits of which one is the sign. -/
def isSigned (read : List Char → Option Nat) : List Char → Bool
  | '-' :: cs => (read cs).any (· ≤ Nat.pow 2 63)
  | '+' :: cs => (read cs).any (· < Nat.pow 2 63)
  | cs => (read cs).any (· < Nat.pow 2 63)

/-- Whole numbers: those that fit into 64 bits with a sign, and those that fit only without. -/
inductive Width where
  | signed
  | unsigned
  deriving DecidableEq

/-- The width of a whole number without underscores. The sign may also follow the base. -/
def width? (cs : List Char) : Option Width :=
  let afterBase := match cs with
    | '0' :: 'b' :: rest => isSigned (inBase? 2) rest
    | '0' :: 'o' :: rest => isSigned (inBase? 8) rest
    | _ => false
  if isSigned natural? cs then some .signed
  else if (natural? cs).any (· < Nat.pow 2 64) then some .unsigned
  else if afterBase then some .signed
  else none

/-! ### Numbers with a point or an exponent -/

/-- The digits before and after the point and the exponent. -/
structure Decimal where
  whole : List Char
  fraction : List Char
  exponent : Int

/-- An exponent, zero if there is none. -/
def exponent? : List Char → Option Int
  | [] => some 0
  | c :: cs =>
    if c ≠ 'e' && c ≠ 'E' then none
    else
      match cs with
      | '-' :: cs => (inBase? 10 cs).map fun n => -(n : Int)
      | '+' :: cs => (inBase? 10 cs).map Int.ofNat
      | cs => (inBase? 10 cs).map Int.ofNat

/-- A decimal number. There must be a digit before the exponent. -/
def decimal? (cs : List Char) : Option Decimal := do
  let unsigned := match cs with
    | '+' :: rest | '-' :: rest => rest
    | _ => cs
  let whole := unsigned.takeWhile Char.isDigit
  let rest := unsigned.dropWhile Char.isDigit
  let (fraction, rest) := match rest with
    | '.' :: more => (more.takeWhile Char.isDigit, more.dropWhile Char.isDigit)
    | _ => ([], rest)
  if whole.isEmpty && fraction.isEmpty then none
  return ⟨whole, fraction, ← exponent? rest⟩

/-- Whether a number is smaller than what rounds to infinity in 64 bits. -/
def Decimal.isFinite (d : Decimal) : Bool :=
  let digits := (d.whole ++ d.fraction).dropWhile (· = '0')
  let shift := d.exponent - d.fraction.length
  let size := (digits.length : Int) + shift
  let limit := Nat.pow 2 1024 - Nat.pow 2 970
  if digits.isEmpty || size < 309 then true
  else if 309 < size then false
  else
    match digits? 10 0 digits with
    | some n => if 0 ≤ shift then n * Nat.pow 10 shift.toNat < limit else n < limit * Nat.pow 10 (-shift).toNat
    | none => false

/-- Whether each underscore stands between two digits. -/
def underscoresFit : (before : Option Char) → List Char → Bool
  | _, [] => true
  | before, '_' :: rest => before.any Char.isDigit && rest.head?.any Char.isDigit && underscoresFit (some '_') rest
  | _, c :: rest => underscoresFit (some c) rest

end TraitCheck.Yaml
