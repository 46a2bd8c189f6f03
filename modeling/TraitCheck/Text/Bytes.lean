/-!
Text out of bytes, and bytes out of their base 64 form.
-/

namespace TraitCheck.Text

def sextet? (c : Char) : Option Nat :=
  if 'A' ≤ c && c ≤ 'Z' then some (c.toNat - 'A'.toNat)
  else if 'a' ≤ c && c ≤ 'z' then some (c.toNat - 'a'.toNat + 26)
  else if '0' ≤ c && c ≤ '9' then some (c.toNat - '0'.toNat + 52)
  else if c = '+' then some 62
  else if c = '/' then some 63
  else none

/-- The bytes of groups of four digits, of which the last may be filled up with equals signs. -/
def base64Groups : List Char → Option (List Nat)
  | [] => some []
  | [a, b, '=', '='] => do
    let n := (← sextet? a) * 64 + (← sextet? b)
    return [n / 16]
  | [a, b, c, '='] => do
    let n := ((← sextet? a) * 64 + (← sextet? b)) * 64 + (← sextet? c)
    return [n / 1024, n / 4 % 256]
  | a :: b :: c :: d :: rest => do
    let n := (((← sextet? a) * 64 + (← sextet? b)) * 64 + (← sextet? c)) * 64 + (← sextet? d)
    return n / 65536 :: n / 256 % 256 :: n % 256 :: (← base64Groups rest)
  | _ => none

/-- The bytes of a text in base 64, in which line breaks do not count. -/
def base64? (cs : List Char) : Option (List Nat) := base64Groups (cs.filter fun c => c ≠ '\n' && c ≠ '\r')

/-- The character that bytes begin with and what is behind it. A byte that begins no character is replaced. -/
def firstChar (b : Nat) (rest : List Nat) : Char × List Nat :=
  let isTail (n : Nat) : Bool := 0x80 ≤ n && n < 0xC0
  let bad := (Char.ofNat 0xFFFD, rest)
  if b < 0x80 then (Char.ofNat b, rest)
  else
    match rest with
    | c :: rest₁ =>
      if !isTail c then bad
      else if 0xC2 ≤ b && b < 0xE0 then (Char.ofNat ((b - 0xC0) * 64 + (c - 0x80)), rest₁)
      else
        match rest₁ with
        | d :: rest₂ =>
          let n := ((b - 0xE0) * 64 + (c - 0x80)) * 64 + (d - 0x80)
          if !isTail d then bad
          else if 0xE0 ≤ b && b < 0xF0 then
            if n < 0x800 || (0xD800 ≤ n && n < 0xE000) then bad else (Char.ofNat n, rest₂)
          else
            match rest₂ with
            | e :: rest₃ =>
              let n := (((b - 0xF0) * 64 + (c - 0x80)) * 64 + (d - 0x80)) * 64 + (e - 0x80)
              if isTail e && 0xF0 ≤ b && 0x10000 ≤ n && n < 0x110000 then (Char.ofNat n, rest₃) else bad
            | [] => bad
        | [] => bad
    | [] => bad

def ofBytes : (fuel : Nat) → List Nat → List Char
  | 0, _ | _, [] => []
  | fuel + 1, b :: rest =>
    let (c, rest) := firstChar b rest
    c :: ofBytes fuel rest

def ofBase64? (text : String) : Option String :=
  (base64? text.toList).map fun bytes => String.ofList (ofBytes bytes.length bytes)

end TraitCheck.Text
