import TraitCheck.Text.Quoted

/-!
Levels of log records. A level is written as a name and an offset, as in `info+2`.
-/

namespace TraitCheck

inductive LevelError where
  | unknownName
  | badNumber (text : String)
  | outOfRange (text : String)
  deriving DecidableEq, Inhabited

namespace Level

def debug : Int := -4
def info : Int := 0
def warn : Int := 4
def error : Int := 8

/-- The upper case of a letter as far as the names of levels go: the dotless i counts as an i. -/
def upper (c : Char) : Char := if c = 'ı' then 'I' else c.toUpper

def ofName? (name : List Char) : Option Int :=
  match String.ofList (name.map upper) with
  | "DEBUG" => some debug
  | "INFO" => some info
  | "WARN" => some warn
  | "ERROR" => some error
  | _ => none

def readDigits (text : String) : (value : Nat) → List Char → Except LevelError Nat
  | value, [] => return value
  | value, c :: cs =>
    if c.isDigit then
      let next := value * 10 + (c.toNat - '0'.toNat)
      if next < Nat.pow 2 64 then readDigits text next cs else throw (.outOfRange text)
    else throw (.badNumber text)

def readOffset (text : String) (negative : Bool) (digits : List Char) : Except LevelError Int := do
  if digits.isEmpty then throw (.badNumber text)
  let n ← readDigits text 0 digits
  if negative then
    if n ≤ Nat.pow 2 63 then return -(n : Int) else throw (.outOfRange text)
  else if n < Nat.pow 2 63 then return (n : Int) else throw (.outOfRange text)

/-- Reads a level. Sums are those of 64 bits. -/
def parse (text : String) : Except LevelError Int := do
  let cs := text.toList
  let isSign (c : Char) : Bool := c = '+' || c = '-'
  let name := cs.takeWhile (!isSign ·)
  let offset ← match cs.dropWhile (!isSign ·) with
    | [] => pure 0
    | sign :: digits => readOffset (String.ofList (sign :: digits)) (sign = '-') digits
  match ofName? name with
  | some level => return Int.bmod (level + offset) (Nat.pow 2 64)
  | none => throw .unknownName

def signed (n : Int) : String := if n < 0 then toString n else "+" ++ toString n

/-- A level as the name below it and the difference. -/
def render (level : Int) : String :=
  let above (name : String) (base : Int) : String :=
    if level = base then name else name ++ signed (level - base)
  if level < info then above "DEBUG" debug
  else if level < warn then above "INFO" info
  else if level < error then above "WARN" warn
  else above "ERROR" error

end Level

def LevelError.message (text : String) (e : LevelError) : String :=
  "slog: level string " ++ Text.quote text ++ ": " ++
    match e with
    | unknownName => "unknown name"
    | badNumber n => "strconv.Atoi: parsing " ++ Text.quote n ++ ": invalid syntax"
    | outOfRange n => "strconv.Atoi: parsing " ++ Text.quote n ++ ": value out of range"

end TraitCheck
