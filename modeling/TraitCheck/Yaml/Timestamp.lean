/-!
Which texts are dates, alone or with a time of day.
-/

namespace TraitCheck.Yaml

namespace Timestamp

def isLeap (year : Nat) : Bool := year % 4 = 0 && (year % 100 ≠ 0 || year % 400 = 0)

def daysIn (year month : Nat) : Nat :=
  if month = 2 then (if isLeap year then 29 else 28) else if month ∈ [4, 6, 9, 11] then 30 else 31

def digit (c : Char) : Nat := c.toNat - '0'.toNat

def short? : List Char → Option (Nat × List Char)
  | a :: b :: rest =>
    if !a.isDigit then none
    else if b.isDigit then some (digit a * 10 + digit b, rest)
    else some (digit a, b :: rest)
  | [a] => if a.isDigit then some (digit a, []) else none
  | [] => none

def char? (c : Char) : List Char → Option (List Char)
  | d :: rest => if c = d then some rest else none
  | [] => none

/-- A date like `2001-1-23`, with four digits for the year. -/
def date? (cs : List Char) : Option (List Char) := do
  let year := cs.takeWhile Char.isDigit
  if year.length ≠ 4 then none
  let cs ← char? '-' (cs.drop 4)
  let (month, cs) ← short? cs
  let cs ← char? '-' cs
  let (day, cs) ← short? cs
  let year := year.foldl (fun n c => n * 10 + digit c) 0
  if 1 ≤ month && month ≤ 12 && 1 ≤ day && day ≤ daysIn year month then some cs else none

def dropFraction : List Char → List Char
  | p :: d :: rest => if (p = '.' || p = ',') && d.isDigit then rest.dropWhile Char.isDigit else p :: d :: rest
  | cs => cs

def time? (cs : List Char) : Option (List Char) := do
  let (hour, cs) ← short? cs
  let cs ← char? ':' cs
  let (minute, cs) ← short? cs
  let cs ← char? ':' cs
  let (second, cs) ← short? cs
  if hour < 24 && minute < 60 && second < 60 then some (dropFraction cs) else none

/-- A time zone: `Z` or a difference like `+01:00`. -/
def isZone : List Char → Bool
  | ['Z'] => true
  | [sign, a, b, ':', c, d] =>
    (sign = '+' || sign = '-') && [a, b, c, d].all Char.isDigit && digit a * 10 + digit b ≤ 24 &&
      digit c * 10 + digit d ≤ 60
  | _ => false

end Timestamp

/-- Whether a text is a date, a date and a time with a zone behind a `T`, or a date and a time behind spaces. -/
def isTimestamp (text : String) : Bool :=
  match Timestamp.date? text.toList with
  | none => false
  | some [] => true
  | some (c :: rest) =>
    if c = 'T' || c = 't' then (Timestamp.time? rest).any Timestamp.isZone
    else c = ' ' && (Timestamp.time? (rest.dropWhile (· = ' '))).any List.isEmpty

end TraitCheck.Yaml
