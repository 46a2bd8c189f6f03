/-!
Character classes of YAML text and a cursor over it. Lines and columns count from zero, columns in characters. Text is
read in by pieces, each only when it is needed, so that what stands far behind the end of a document is never looked at.
-/

namespace TraitCheck.Yaml

def isBlank (c : Char) : Bool := c = ' ' || c = '\t'

def isBreak (c : Char) : Bool := c = '\n' || c = '\r' || c = '\u0085' || c = '\u2028' || c = '\u2029'

/-- Letters, digits, `_` and `-`: what anchors and tag handles are made of. -/
def isWordChar (c : Char) : Bool := c.isAlphanum || c = '_' || c = '-'

def isAllowed (c : Char) : Bool :=
  let n := c.toNat
  n = 0x09 || n = 0x0A || n = 0x0D || (0x20 ≤ n && n ≤ 0x7E) || n = 0x85 || (0xA0 ≤ n && n ≤ 0xD7FF) ||
    (0xE000 ≤ n && n ≤ 0xFFFD) || 0x10000 ≤ n

def orderMark : Char := '\ufeff'

/-- Whether a word ends here: at a blank, at a line break or at the end of the text. -/
def atGap : List Char → Bool
  | [] => true
  | c :: _ => isBlank c || isBreak c

def atLineEnd : List Char → Bool
  | [] => true
  | c :: _ => isBreak c

/-- Whether a document marker stands here, three equal characters and then a gap. -/
def atMarker (m : Char) : List Char → Bool
  | a :: b :: c :: rest => a = m && b = m && c = m && atGap rest
  | _ => false

def atDocumentMarker (cs : List Char) : Bool := atMarker '-' cs || atMarker '.' cs

/-- How a line break reads in a scalar: only the two Unicode separators stay as they are. -/
def breakText (c : Char) : Char := if c = '\u2028' || c = '\u2029' then c else '\n'

structure Mark where
  index : Nat
  line : Nat
  column : Nat
  deriving Inhabited, Repr, DecidableEq

/-! ### Pieces -/

/-- Characters that are read in at once: how many, and whether a document may hold them all. -/
structure Piece where
  length : Nat
  allowed : Bool
  deriving Inhabited

def pieceSize : Nat := 512

/-- Cuts a text into pieces. There is room for `room` more bytes in the first one, which has `length` characters. -/
def cutPieces : (room length : Nat) → (allowed : Bool) → List Char → List Piece
  | _, length, allowed, [] => [⟨length, allowed⟩]
  | room, length, allowed, c :: cs =>
    if c.utf8Size ≤ room then cutPieces (room - c.utf8Size) (length + 1) (allowed && isAllowed c) cs
    else ⟨length, allowed⟩ :: cutPieces (pieceSize - c.utf8Size) 1 (isAllowed c) cs

/-- A place in a text with what has been read in from there on. The end of the text counts as a character. `marked` says
whether the cursor was at a byte order mark when text was last read in. -/
structure Window where
  mark : Mark
  ready : Nat
  pieces : List Piece
  marked : Bool
  deriving Inhabited

namespace Window

/-- Reads in pieces up to `n` characters. A character that is not allowed makes this fail. -/
def readIn (n : Nat) : (ready : Nat) → List Piece → Option (Nat × List Piece)
  | ready, [] => some (if ready < n then ready + 1 else ready, [])
  | ready, p :: ps =>
    if n ≤ ready then some (ready, p :: ps)
    else if p.allowed then readIn n (ready + p.length) ps
    else none

/-- Makes sure that `n` characters of the text here are read in. -/
def need (n : Nat) (text : List Char) (w : Window) : Option Window :=
  if n ≤ w.ready then some w
  else do
    let (ready, pieces) ← readIn n w.ready w.pieces
    return { w with ready := ready, pieces := pieces, marked := text.head? = some orderMark }

def add (w : Window) (n : Nat) : Window :=
  { w with mark := ⟨w.mark.index + n, w.mark.line, w.mark.column + n⟩, ready := w.ready - n }

def next (w : Window) : Window := w.add 1

def nextLine (w : Window) (n : Nat) : Window :=
  { w with mark := ⟨w.mark.index + n, w.mark.line + 1, 0⟩, ready := w.ready - n }

end Window

/-! ### The cursor -/

structure Cursor where
  rest : List Char
  window : Window
  deriving Inhabited

namespace Cursor

def ofText (text : List Char) (room : Nat) : Cursor := ⟨text, ⟨⟨0, 0, 0⟩, 0, cutPieces room 0 true text, false⟩⟩

def mark (c : Cursor) : Mark := c.window.mark

def need (n : Nat) (c : Cursor) : Option Cursor := return { c with window := ← c.window.need n c.rest }

def skip (c : Cursor) : Cursor := ⟨c.rest.drop 1, c.window.next⟩

/-- Past one line break, which may be two characters. -/
def skipBreak (c : Cursor) : Option Cursor := do
  let c ← c.need 2
  match c.rest with
  | '\r' :: '\n' :: rest => return ⟨rest, c.window.nextLine 2⟩
  | _ :: rest => return ⟨rest, c.window.nextLine 1⟩
  | [] => return c

def skipWhileFrom (p : Char → Bool) : List Char → Window → Option Cursor
  | [], w => return ⟨[], ← w.need 1 []⟩
  | c :: rest, w => do
    let w ← w.need 1 (c :: rest)
    if p c then skipWhileFrom p rest w.next else return ⟨c :: rest, w⟩

def skipWhile (p : Char → Bool) (c : Cursor) : Option Cursor := skipWhileFrom p c.rest c.window

/-- To the end of the line, the break left in place. -/
def skipLine (c : Cursor) : Option Cursor := c.skipWhile fun x => !isBreak x

def skipGapsFrom : List Char → Window → Option Cursor
  | [], w => return ⟨[], ← w.need 1 []⟩
  | '\r' :: '\n' :: rest, w => do
    let w ← w.need 2 ('\r' :: '\n' :: rest)
    skipGapsFrom rest (w.nextLine 2)
  | c :: rest, w => do
    let w ← w.need 1 (c :: rest)
    if isBlank c then skipGapsFrom rest w.next
    else if isBreak c then
      let w ← w.need 2 (c :: rest)
      skipGapsFrom rest (w.nextLine 1)
    else return ⟨c :: rest, w⟩

/-! ### Comments -/

/-- How far comments are looked for. -/
def commentReach : Nat := 512

/-- Looks whether a comment comes next, after characters that `pass` lets through, while `w` stays at the text `here`.
The characters `seen` were looked at already. -/
def commentAhead (pass : Char → Bool) (here : List Char) : (seen : Nat) → List Char → Window → Option (Bool × Window)
  | seen, ahead, w =>
    if commentReach ≤ seen then some (false, w)
    else do
      let w ← w.need (seen + 1) here
      match ahead with
      | [] => return (false, w)
      | c :: rest => if pass c then commentAhead pass here (seen + 1) rest w else return (c = '#', w)

/-- Past a comment that follows on the same line, if there is one. -/
def skipTrailingComment (c : Cursor) : Option Cursor := do
  let (found, w) ← commentAhead isBlank c.rest 0 c.rest c.window
  let c := { c with window := w }
  if found then (← c.skipWhile isBlank).skipLine else return c

/-- Past a comment and the comments on the lines after it, up to the end of the last one. -/
def skipComments : Nat → Cursor → Option Cursor
  | 0, c => some c
  | fuel + 1, c => do
    let c ← (← c.skipLine).need 2
    let pass (x : Char) : Bool := isBlank x || x = '\n' || x = '\r'
    match c.rest with
    | [] => return c
    | x :: rest =>
      if !pass x then return c
      let (found, w) ← commentAhead pass c.rest 1 rest c.window
      let c := { c with window := w }
      if found then skipComments fuel (← skipGapsFrom c.rest c.window) else return c

end Cursor

end TraitCheck.Yaml
