/-!
White space, text without it at its ends, and the parts of a text.
-/

namespace TraitCheck.Text

/-- The characters with the property White_Space. -/
def isBlank (c : Char) : Bool :=
  let n := c.toNat
  (9 ≤ n && n ≤ 13) || n = 0x20 || n = 0x85 || n = 0xa0 || n = 0x1680 || (0x2000 ≤ n && n ≤ 0x200a) || n = 0x2028 ||
    n = 0x2029 || n = 0x202f || n = 0x205f || n = 0x3000

def trimEnd (p : Char → Bool) (cs : List Char) : List Char := (cs.reverse.dropWhile p).reverse

def trim (p : Char → Bool) (cs : List Char) : List Char := trimEnd p (cs.dropWhile p)

/-- Cuts a text at every separator. There is always at least one piece. -/
def pieces (sep : Char) : List Char → List (List Char)
  | [] => [[]]
  | c :: rest =>
    if c = sep then [] :: pieces sep rest
    else
      match pieces sep rest with
      | [] => [[c]]
      | piece :: others => (c :: piece) :: others

def split (sep : Char) (text : String) : List String := (pieces sep text.toList).map String.ofList

/-- The parts of a text between commas, without white space around them; empty parts are left out. -/
def commaParts (text : String) : List String :=
  ((split ',' text).map fun part => String.ofList (trim isBlank part.toList)).filter (!·.isEmpty)

end TraitCheck.Text
