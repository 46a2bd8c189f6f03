import TraitCheck.Yaml.Cursor

/-!
The text of scalars: quoted, plain and block style, with the folding of their lines.
-/

namespace TraitCheck.Yaml

/-- The text of a scalar so far, the last character first, and the blanks and line breaks seen since. -/
structure Fold where
  text : List Char := []
  blanks : List Char := []
  lead : List Char := []
  trail : List Char := []
  broken : Bool := false

namespace Fold

/-- Blanks count only as long as no line break follows them. -/
def addBlank (f : Fold) (c : Char) : Fold := if f.broken then f else { f with blanks := c :: f.blanks }

def addBreak (f : Fold) (c : Char) : Fold :=
  if f.broken then { f with trail := breakText c :: f.trail }
  else { f with blanks := [], lead := [breakText c], broken := true }

/-- The text with what was put off: one line break is a space, of several the first is dropped. -/
def settled (f : Fold) : List Char :=
  if f.broken then
    match f.lead with
    | ['\n'] => if f.trail.isEmpty then ' ' :: f.text else f.trail ++ f.text
    | lead => f.trail ++ lead ++ f.text
  else f.blanks ++ f.text

def addChar (f : Fold) (c : Char) : Fold := { text := c :: f.settled }

/-- A line break that is written away: it and the blanks after it leave no trace. -/
def addEscapedBreak (f : Fold) : Fold := { text := f.settled, broken := true }

end Fold

def hexDigit? (c : Char) : Option Nat :=
  if '0' ≤ c && c ≤ '9' then some (c.toNat - '0'.toNat)
  else if 'a' ≤ c && c ≤ 'f' then some (c.toNat - 'a'.toNat + 10)
  else if 'A' ≤ c && c ≤ 'F' then some (c.toNat - 'A'.toNat + 10)
  else none

def hexValue? (digits : List Char) : Option Nat :=
  digits.foldl (fun acc c => do return (← acc) * 16 + (← hexDigit? c)) (some 0)

/-- The character of a numeric escape. Surrogates are no characters. -/
def escapedCode? (digits : List Char) : Option Char := do
  let n ← hexValue? digits
  if (0xD800 ≤ n && n ≤ 0xDFFF) || 0x10FFFF < n then none else some (Char.ofNat n)

def simpleEscape? : Char → Option Char
  | '0' => some '\x00'
  | 'a' => some '\x07'
  | 'b' => some '\x08'
  | 't' => some '\t'
  | '\t' => some '\t'
  | 'n' => some '\n'
  | 'v' => some '\x0b'
  | 'f' => some '\x0c'
  | 'r' => some '\r'
  | 'e' => some '\x1b'
  | ' ' => some ' '
  | '"' => some '"'
  | '\'' => some '\''
  | '\\' => some '\\'
  | 'N' => some '\u0085'
  | '_' => some '\u00a0'
  | 'L' => some '\u2028'
  | 'P' => some '\u2029'
  | _ => none

/-- Where a scalar over several lines is being read: at the start of a word, in a word, between words, or right after a
line break that is written away. -/
inductive Spot where
  | start
  | word
  | gap
  | joint
  deriving DecidableEq

/-- Reads on after an opening quote. Gives the text and the cursor past the closing quote. -/
def quotedText (double : Bool) : Spot → List Char → Window → Fold → Option (List Char × Cursor)
  | _, [], _, _ => none
  | spot, c :: rest, w, f => do
    if isBlank c then
      let w ← if spot = .start then w.need 4 (c :: rest) else some w
      quotedText double .gap rest (← w.next.need 1 rest) (f.addBlank c)
    else if isBreak c then
      let w ← if spot = .start then w.need 4 (c :: rest) else some w
      let w ← w.need 2 (c :: rest)
      match c, rest with
      | '\r', '\n' :: rest => quotedText double .gap rest (← (w.nextLine 2).need 1 rest) (f.addBreak c)
      | _, rest => quotedText double .gap rest (← (w.nextLine 1).need 1 rest) (f.addBreak c)
    else if spot = .joint && c = '"' then return (f.settled.reverse, ⟨rest, w.next⟩)
    else
      let w ← if spot = .word then some w else w.need 4 (c :: rest)
      if spot ≠ .word && w.mark.column = 0 && atDocumentMarker (c :: rest) then none
      else if double then
        if c = '"' then return (f.settled.reverse, ⟨rest, w.next⟩)
        else if c = '\\' then
          match rest with
          | [] => none
          | e :: rest =>
            if isBreak e then
              let w ← w.need 3 (c :: e :: rest)
              match e, rest with
              | '\r', '\n' :: rest =>
                quotedText double .joint rest (← (w.next.nextLine 2).need 1 rest) f.addEscapedBreak
              | _, rest => quotedText double .joint rest (← (w.next.nextLine 1).need 1 rest) f.addEscapedBreak
            else
              let w := w.add 2
              match simpleEscape? e with
              | some x => quotedText double .word rest (← w.need 2 rest) (f.addChar x)
              | none =>
                match e, rest with
                | 'x', a :: b :: rest =>
                  let w ← w.need 2 (a :: b :: rest)
                  let x ← escapedCode? [a, b]
                  quotedText double .word rest (← (w.add 2).need 2 rest) (f.addChar x)
                | 'u', a :: b :: c :: d :: rest =>
                  let w ← w.need 4 (a :: b :: c :: d :: rest)
                  let x ← escapedCode? [a, b, c, d]
                  quotedText double .word rest (← (w.add 4).need 2 rest) (f.addChar x)
                | 'U', a :: b :: c :: d :: a' :: b' :: c' :: d' :: rest =>
                  let w ← w.need 8 (a :: b :: c :: d :: a' :: b' :: c' :: d' :: rest)
                  let x ← escapedCode? [a, b, c, d, a', b', c', d']
                  quotedText double .word rest (← (w.add 8).need 2 rest) (f.addChar x)
                | _, _ => none
        else quotedText double .word rest (← w.next.need 2 rest) (f.addChar c)
      else if c = '\'' then
        match rest with
        | '\'' :: rest => quotedText double .word rest (← (w.add 2).need 2 rest) (f.addChar '\'')
        | rest => return (f.settled.reverse, ⟨rest, w.next⟩)
      else quotedText double .word rest (← w.next.need 2 rest) (f.addChar c)

/-- Whether a plain scalar ends before the first character. -/
def endsPlain (flow : Bool) : List Char → Bool
  | [] => true
  | ':' :: rest => atGap rest
  | c :: _ => flow && (c = ',' || c = '?' || c = '[' || c = ']' || c = '\x7b' || c = '\x7d')

/-- Reads a plain scalar. Gives its text, the cursor past the blanks after it, and whether a line break was among
them. `indent` is the least column of a continuation line. -/
def plainText (flow : Bool) (indent : Nat) : Spot → List Char → Window → Fold → Option (List Char × Cursor × Bool)
  | spot, [], w, f => do
    let dedented := spot = .gap && !flow && w.mark.column < indent
    let w ← if spot = .word || dedented then some w else w.need 4 []
    return (f.text.reverse, ⟨[], w⟩, f.broken)
  | spot, c :: rest, w, f => do
    let done (w : Window) : Option (List Char × Cursor × Bool) := some (f.text.reverse, ⟨c :: rest, w⟩, f.broken)
    if isBlank c then
      if f.broken && w.mark.column < indent && c = '\t' then none
      else plainText flow indent .gap rest (← w.next.need 1 rest) (f.addBlank c)
    else if isBreak c then
      let w ← w.need 2 (c :: rest)
      match c, rest with
      | '\r', '\n' :: rest => plainText flow indent .gap rest (← (w.nextLine 2).need 1 rest) (f.addBreak c)
      | _, rest => plainText flow indent .gap rest (← (w.nextLine 1).need 1 rest) (f.addBreak c)
    else if spot = .gap && !flow && w.mark.column < indent then done w
    else
      let w ← if spot = .word then some w else w.need 4 (c :: rest)
      if spot ≠ .word && ((w.mark.column = 0 && atDocumentMarker (c :: rest)) || c = '#') then done w
      else if endsPlain flow (c :: rest) then done w
      else plainText flow indent .word rest (← w.next.need 2 rest) (f.addChar c)

/-- What happens to the line breaks at the end of a block scalar. -/
inductive Chomping where
  | strip
  | clip
  | keep
  deriving DecidableEq

/-- Empty lines of a block scalar: eats indentation and line breaks up to the first line with text. Indentation
zero means that it is still to be found. Gives the widest indentation and the breaks, the last one first. -/
def blockBreaks (indent : Nat) : List Char → Window → Nat → List Char → Option (Nat × List Char × Cursor)
  | [], w, widest, breaks => do
    let w ← w.need 1 []
    return (max widest w.mark.column, breaks, ⟨[], w⟩)
  | c :: rest, w, widest, breaks => do
    let w ← w.need 1 (c :: rest)
    let inIndent := indent = 0 || w.mark.column < indent
    if c = ' ' && inIndent then blockBreaks indent rest w.next widest breaks
    else if c = '\t' && inIndent then none
    else if isBreak c then
      let w ← w.need 2 (c :: rest)
      let widest := max widest w.mark.column
      match c, rest with
      | '\r', '\n' :: rest => blockBreaks indent rest (w.nextLine 2) widest (breakText c :: breaks)
      | _, rest => blockBreaks indent rest (w.nextLine 1) widest (breakText c :: breaks)
    else return (max widest w.mark.column, breaks, ⟨c :: rest, w⟩)

/-- The lines of a block scalar. `lead` is the break that ended the previous line, `trail` are the breaks of the
empty lines since, the last one first. -/
def blockLines (literal : Bool) (indent : Nat) (chomping : Chomping) :
    Nat → Cursor → (text lead trail : List Char) → (wasBlank : Bool) → Option (List Char × Cursor)
  | 0, _, _, _, _, _ => none
  | fuel + 1, c, text, lead, trail, wasBlank => do
    if c.mark.column = indent && !c.rest.isEmpty then
      let isBlankLine := c.rest.head?.any isBlank
      let text :=
        if !literal && !wasBlank && !isBlankLine && lead = ['\n'] then
          if trail.isEmpty then ' ' :: text else text
        else lead ++ text
      let text := trail ++ text
      let line := c.rest.takeWhile fun x => !isBreak x
      let c ← c.skipLine
      let lead := c.rest.head?.toList.map breakText
      let c ← c.skipBreak
      let (_, trail, c) ← blockBreaks indent c.rest c.window 0 []
      blockLines literal indent chomping fuel c (line.reverse ++ text) lead trail isBlankLine
    else
      let text := if chomping = .strip then text else lead ++ text
      let text := if chomping = .keep then trail ++ text else text
      return (text.reverse, c)

def chomping? (c : Cursor) : Option (Option Chomping × Cursor) := do
  let c ← c.need 1
  match c.rest with
  | '+' :: _ => return (some .keep, c.skip)
  | '-' :: _ => return (some .strip, c.skip)
  | _ => return (none, c)

/-- An explicit indentation, zero if there is none. It must not be written as zero. -/
def indentation? (c : Cursor) : Option (Nat × Cursor) := do
  let c ← c.need 1
  match c.rest with
  | [] => return (0, c)
  | '0' :: _ => none
  | d :: _ => return if d.isDigit then (d.toNat - '0'.toNat, c.skip) else (0, c)

/-- The indicators after `|` or `>`: chomping and an explicit indentation, in either order. -/
def blockHeader (c : Cursor) : Option (Chomping × Nat × Cursor) := do
  match ← chomping? c with
  | (some chomping, c) =>
    let (n, c) ← indentation? c
    return (chomping, n, c)
  | (none, c) =>
    match ← indentation? c with
    | (0, c) => return (.clip, 0, c)
    | (n, c) =>
      let (chomping, c) ← chomping? c
      return (chomping.getD .clip, n, c)

/-- Past blanks and a comment up to the end of the line, where nothing else may stand. -/
def toLineEnd (c : Cursor) : Option Cursor := do
  let c ← c.skipWhile isBlank
  let c ← if c.rest.head? = some '#' then c.skipLine else some c
  if !atLineEnd c.rest then none
  if c.rest.isEmpty then return c else c.skipBreak

/-- Reads a block scalar after its `|` or `>`. `outer` is the indentation of the enclosing block, -1 outside of
all blocks. -/
def blockText (literal : Bool) (outer : Int) (c : Cursor) : Option (List Char × Cursor) := do
  let (chomping, increment, c) ← blockHeader c
  let c ← toLineEnd c
  let declared := if increment = 0 then 0 else (if outer < 0 then increment else outer.toNat + increment)
  let (widest, trail, c) ← blockBreaks declared c.rest c.window 0 []
  let indent := if declared = 0 then max (max widest (outer + 1).toNat) 1 else declared
  let c ← c.need 1
  blockLines literal indent chomping (c.rest.length + 1) c [] [] trail false

end TraitCheck.Yaml
