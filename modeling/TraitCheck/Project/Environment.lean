import TraitCheck.Text.Blank

/-!
Files of variables, as in `KEY=value`. A colon may stand for the equals sign, `export` may stand in front, values may be
quoted, and `$` brings in variables of lines before.
-/

namespace TraitCheck.Environment

abbrev Vars := List (String × String)

def isSpace (c : Char) : Bool :=
  c = '\t' || c = '\x0b' || c = '\x0c' || c = '\r' || c = ' ' || c = '\u0085' || c = '\u00a0'

def isLineEnd (c : Char) : Bool := c = '\n' || c = '\r'

/-- A carriage return before a line feed is dropped. -/
def dropReturns : List Char → List Char
  | '\r' :: '\n' :: rest => '\n' :: dropReturns rest
  | c :: rest => c :: dropReturns rest
  | [] => []

def toStatement : (fuel : Nat) → List Char → List Char
  | 0, cs => cs
  | fuel + 1, cs =>
    match cs.dropWhile Text.isBlank with
    | '#' :: rest => toStatement fuel (rest.dropWhile (· ≠ '\n'))
    | cs => cs

/-! ### Keys -/

/-- The bytes above ASCII that keys may contain: those that stand for letters and numbers, and for spaces, when each
byte is taken as a character. -/
def isKeyByte (b : UInt8) : Bool :=
  let n := b.toNat
  n ∈ [0x85, 0xa0, 0xaa, 0xb2, 0xb3, 0xb5, 0xb9, 0xba, 0xbc, 0xbd, 0xbe] || (0xc0 ≤ n && n ≠ 0xd7 && n ≠ 0xf7)

def isKeyChar (c : Char) : Bool :=
  if c.toNat < 0x80 then isSpace c || c.isAlphanum || c = '_' || c = '.'
  else (String.singleton c).toUTF8.toList.all isKeyByte

def dropExport (cs : List Char) : List Char :=
  match cs with
  | 'e' :: 'x' :: 'p' :: 'o' :: 'r' :: 't' :: c :: rest => if isSpace c then rest.dropWhile isSpace else cs
  | _ => cs

/-- The key of a statement and what follows its sign. Without a sign the key is empty and all of the text follows, of
which there must be some. -/
def readKey (cs : List Char) : Option (String × List Char) :=
  let cs := dropExport (cs.dropWhile isSpace)
  let isSign (c : Char) : Bool := c = '=' || c = ':'
  match cs.dropWhile fun c => isKeyChar c && !isSign c with
  | [] => if cs.isEmpty then none else some ("", cs.dropWhile isSpace)
  | c :: rest =>
    if isSign c then
      let key := cs.takeWhile fun c => isKeyChar c && !isSign c
      some (String.ofList (Text.trimEnd Text.isBlank key), rest.dropWhile isSpace)
    else none

/-! ### Values -/

def isNameChar (c : Char) : Bool := c.isUpper || c.isDigit || c = '_'

/-- What follows a dollar sign: an opening parenthesis, an opening brace, a name and a closing brace, each of which may
be missing. Gives the text, the name and the rest. -/
def readReference (cs : List Char) : List Char × List Char × List Char :=
  let (paren, cs) := match cs with
    | '(' :: rest => (['('], rest)
    | _ => ([], cs)
  let (brace, cs) := match cs with
    | '\x7b' :: rest => (['\x7b'], rest)
    | _ => ([], cs)
  let name := cs.takeWhile isNameChar
  let cs := cs.dropWhile isNameChar
  let (close, cs) := match cs with
    | '\x7d' :: rest => (['\x7d'], rest)
    | _ => ([], cs)
  (paren ++ brace ++ name ++ close, name, cs)

/-- Puts the values of variables for references to them. A backslash in front keeps a reference as it is. -/
def expand (vars : Vars) : (fuel : Nat) → List Char → List Char
  | 0, cs => cs
  | fuel + 1, cs =>
    match cs with
    | [] => []
    | '\\' :: '$' :: rest =>
      let (text, _, rest) := readReference rest
      '$' :: text ++ expand vars fuel rest
    | '$' :: rest =>
      let (text, name, rest) := readReference rest
      let shown := if name.isEmpty then '$' :: text else ((vars.lookup (String.ofList name)).getD "").toList
      shown ++ expand vars fuel rest
    | c :: rest => c :: expand vars fuel rest

def expandAll (vars : Vars) (cs : List Char) : List Char := expand vars (cs.length + 1) cs

def lineEscapes : List Char → List Char
  | '\\' :: 'n' :: rest => '\n' :: lineEscapes rest
  | '\\' :: 'r' :: rest => '\r' :: lineEscapes rest
  | '\\' :: '\n' :: rest => '\\' :: '\n' :: lineEscapes rest
  | '\\' :: c :: rest => '\\' :: c :: lineEscapes rest
  | c :: rest => c :: lineEscapes rest
  | [] => []

/-- Drops backslashes, except before a dollar sign. -/
def dropBackslashes : List Char → List Char
  | '\\' :: '$' :: rest => '\\' :: '$' :: dropBackslashes rest
  | '\\' :: c :: rest => c :: dropBackslashes rest
  | c :: rest => c :: dropBackslashes rest
  | [] => []

/-- A line without its comment, which begins at the last sign for one that white space stands before. The line is given
backwards; nothing is left if there is no such sign. -/
def beforeComment : List Char → List Char
  | '#' :: c :: rest => if isSpace c then c :: rest else beforeComment (c :: rest)
  | _ :: rest => beforeComment rest
  | [] => []

def dropComment (line : List Char) : List Char :=
  match beforeComment line.reverse with
  | [] => line
  | before => before.reverse

/-- The text up to the closing quote, which no backslash stands before, and what is behind it. `before` is the text so
far, the last character first. -/
def toQuote (quote : Char) : (before : List Char) → List Char → Option (List Char × List Char)
  | _, [] => none
  | before, c :: rest =>
    if c = quote && before.head? ≠ some '\\' then some (before.reverse, rest) else toQuote quote (c :: before) rest

def quotedValue (vars : Vars) (quote : Char) (cs : List Char) : Option (List Char × List Char) := do
  let (text, rest) ← toQuote quote [quote] cs
  let value := Text.trim (· = quote) text
  return (if quote = '"' then expandAll vars (dropBackslashes (lineEscapes value)) else value, rest)

/-- A value and what is behind it. Without quotes it ends with its line, or before a comment. -/
def readValue (vars : Vars) (cs : List Char) : Option (List Char × List Char) :=
  match cs with
  | '"' :: rest => quotedValue vars '"' rest
  | '\'' :: rest => quotedValue vars '\'' rest
  | _ =>
    let line := cs.takeWhile (!isLineEnd ·)
    some (expandAll vars (Text.trim isSpace (dropComment line)), cs.dropWhile (!isLineEnd ·))

/-! ### Files -/

def readStatements : (fuel : Nat) → Vars → List Char → Option Vars
  | 0, vars, _ => return vars
  | fuel + 1, vars, cs => do
    match toStatement (cs.length + 1) cs with
    | [] => return vars
    | cs =>
      let (key, rest) ← readKey cs
      let (value, rest) ← readValue vars rest
      readStatements fuel ((key, String.ofList value) :: vars) rest

/-- The variables of a file, the latest first; nothing if it is malformed. -/
def parse (text : String) : Option Vars :=
  let cs := dropReturns text.toList
  readStatements (cs.length + 1) [] cs

end TraitCheck.Environment
