import TraitCheck.Yaml.Scalar

/-!
Tokens of YAML text and the scanner that produces them. A key is known as such only when the `:` after it is read;
its tokens are then put in before those already scanned.
-/

namespace TraitCheck.Yaml

inductive TokenKind where
  | streamStart
  | streamEnd
  | version (major minor : Nat)
  | tagHandle (handle uri : String)
  | documentStart
  | documentEnd
  | blockSequence
  | blockMapping
  | blockEnd
  | flowSequenceStart
  | flowSequenceEnd
  | flowMappingStart
  | flowMappingEnd
  | blockEntry
  | flowEntry
  | key
  | value
  | alias (name : String)
  | anchor (name : String)
  | tag (handle suffix : String)
  | scalar (text : String) (plain : Bool)
  deriving DecidableEq, Inhabited

structure Token where
  kind : TokenKind
  start : Mark
  stop : Mark
  deriving Inhabited

/-- A place where a key without `?` may have started: the number of its first token, whether the text makes no sense
unless it was a key, and whether the scanner reads on to decide this before the token is taken. A level that has not
seen such a place yet has an impossible one at its start. -/
structure KeyCandidate where
  possible : Bool := false
  required : Bool := false
  awaited : Bool := false
  number : Nat := 0
  mark : Mark := ⟨0, 0, 0⟩

/-- The scanner. `tokens` holds all tokens from the start, of which `taken` were consumed. There is one key
candidate for each open flow collection and one for the block level, the innermost first. `size` is the length of the
whole text, which bounds the steps over what is left of it. -/
structure Scanner where
  cursor : Cursor
  size : Nat
  tokens : Array Token := #[]
  taken : Nat := 0
  indent : Int := -1
  indents : List Int := []
  keyAllowed : Bool := true
  keys : List KeyCandidate := [{}]

namespace Scanner

def ofCursor (c : Cursor) : Scanner :=
  { cursor := c, size := c.rest.length, tokens := #[⟨.streamStart, ⟨0, 0, 0⟩, ⟨0, 0, 0⟩⟩] }

def inFlow (s : Scanner) : Bool := 1 < s.keys.length

def column (s : Scanner) : Nat := s.cursor.mark.column

def push (s : Scanner) (kind : TokenKind) (start stop : Mark) : Scanner :=
  { s with tokens := s.tokens.push ⟨kind, start, stop⟩ }

def take (s : Scanner) (kind : TokenKind) (n : Nat) : Scanner :=
  let stop := n.repeat Cursor.skip s.cursor
  { s.push kind s.cursor.mark stop.mark with cursor := stop }

/-- Puts a token before the one of a number. It comes last if that one was taken already. -/
def insert (s : Scanner) (number : Nat) (kind : TokenKind) (m : Mark) : Scanner :=
  if number < s.taken then s.push kind m m
  else { s with tokens := s.tokens.insertIdxIfInBounds number ⟨kind, m, m⟩ }

/-- How deep blocks may be nested, and flow collections. -/
def maxDepth : Nat := 10000

/-- Closes the blocks that are indented deeper than the column. -/
def closeBlocks (s : Scanner) (column : Int) : Scanner :=
  if s.inFlow then s else loop s.indents s
where
  loop : List Int → Scanner → Scanner
    | [], s => s
    | outer :: indents, s =>
      if column < s.indent then
        loop indents { s.push .blockEnd s.cursor.mark s.cursor.mark with indent := outer, indents := indents }
      else s

/-- Opens a block at the column if it is indented deeper than the current one. -/
def openBlock (s : Scanner) (column : Nat) (number : Nat) (kind : TokenKind) (m : Mark) : Option Scanner :=
  if s.inFlow || (column : Int) ≤ s.indent then some s
  else if maxDepth ≤ s.indents.length then none
  else some { s.insert number kind m with indent := column, indents := s.indent :: s.indents }

/-- Gives up the candidate of the current level. -/
def dropKey (s : Scanner) : Option Scanner :=
  match s.keys with
  | k :: keys =>
    if !k.possible then some s
    else if k.required then none
    else some { s with keys := { k with possible := false } :: keys }
  | [] => some s

def saveKey (s : Scanner) : Option Scanner :=
  if s.keyAllowed then do
    let required := !s.inFlow && s.indent = s.column
    let s ← s.dropKey
    return { s with keys := ⟨true, required, true, s.tokens.size, s.cursor.mark⟩ :: s.keys.drop 1 }
  else some s

/-- A key stands on one line and has at most 1024 characters. -/
def isStale (s : Scanner) (k : KeyCandidate) : Bool :=
  k.mark.line < s.cursor.mark.line || k.mark.index + 1024 < s.cursor.mark.index

/-- Past blanks, line breaks and comments. A tab does not indent a block. -/
def skipToToken : Nat → Scanner → Option Scanner
  | 0, s => some s
  | fuel + 1, s => do
    let c ← s.cursor.need 1
    let c := if c.mark.column = 0 && c.window.marked then c.skip else c
    let c ← c.skipWhile fun x => x = ' ' || (x = '\t' && (s.inFlow || !s.keyAllowed))
    let c ← if c.rest.head? = some '#' then c.skipComments (s.size + 1) else some c
    if c.rest.head?.any isBreak then
      skipToToken fuel { s with cursor := ← c.skipBreak, keyAllowed := s.keyAllowed || !s.inFlow }
    else return { s with cursor := c }

def skipTrailingComment (s : Scanner) : Option Scanner :=
  return { s with cursor := ← s.cursor.skipTrailingComment }

def fetchStreamEnd (s : Scanner) : Option Scanner := do
  let m := s.cursor.mark
  let m := if m.column = 0 then m else ⟨m.index, m.line + 1, 0⟩
  let s := { s with cursor := { s.cursor with window := { s.cursor.window with mark := m } } }
  let s ← (s.closeBlocks (-1)).dropKey
  return { s.push .streamEnd m m with keyAllowed := false }

def fetchDocumentMarker (s : Scanner) (kind : TokenKind) : Option Scanner := do
  let s ← (s.closeBlocks (-1)).dropKey
  return { s.take kind 3 with keyAllowed := false }

def fetchFlowStart (s : Scanner) (kind : TokenKind) : Option Scanner := do
  let s ← s.saveKey
  if maxDepth < s.keys.length then none
  let level : KeyCandidate := { number := s.tokens.size, mark := s.cursor.mark }
  ({ s.take kind 1 with keys := level :: s.keys, keyAllowed := true }).skipTrailingComment

/-- The end of a flow collection. If there was no place for a key in it, whether it is a key itself is not waited
for. -/
def fetchFlowEnd (s : Scanner) (kind : TokenKind) : Option Scanner := do
  let s ← s.dropKey
  let keys :=
    match s.keys with
    | level :: outer :: keys =>
      (if outer.number = level.number then { outer with awaited := false } else outer) :: keys
    | keys => keys
  ({ s.take kind 1 with keys := keys, keyAllowed := false }).skipTrailingComment

def fetchFlowEntry (s : Scanner) : Option Scanner := do
  let s ← s.dropKey
  ({ s.take .flowEntry 1 with keyAllowed := true }).skipTrailingComment

def fetchBlockEntry (s : Scanner) : Option Scanner := do
  if !s.inFlow && !s.keyAllowed then none
  let s ← s.openBlock s.column s.tokens.size .blockSequence s.cursor.mark
  let s ← s.dropKey
  return { s.take .blockEntry 1 with keyAllowed := true }

def fetchKey (s : Scanner) : Option Scanner := do
  if !s.inFlow && !s.keyAllowed then none
  let s ← s.openBlock s.column s.tokens.size .blockMapping s.cursor.mark
  let s ← s.dropKey
  ({ s.take .key 1 with keyAllowed := !s.inFlow }).skipTrailingComment

def fetchValue (s : Scanner) : Option Scanner := do
  let k := s.keys.headD {}
  let stale := s.isStale k
  if k.possible && stale && k.required then none
  let keys := { k with possible := false } :: s.keys.drop 1
  if k.possible && !stale then
    let s ← (s.insert k.number .key k.mark).openBlock k.mark.column k.number .blockMapping k.mark
    ({ s with keys := keys, keyAllowed := false }.take .value 1).skipTrailingComment
  else
    if !s.inFlow && !s.keyAllowed then none
    let s ← s.openBlock s.column s.tokens.size .blockMapping s.cursor.mark
    ({ s with keys := keys, keyAllowed := !s.inFlow }.take .value 1).skipTrailingComment

def fetchAnchor (s : Scanner) (kind : String → TokenKind) : Option Scanner := do
  let s ← s.saveKey
  let start := s.cursor.mark
  let word := s.cursor.skip
  let stop ← word.skipWhile isWordChar
  let name := word.rest.takeWhile isWordChar
  if name.isEmpty || !(atGap stop.rest || stop.rest.head?.any (fun c => c ∈ "?:,]\x7d%@\x60".toList)) then none
  let s := { s.push (kind (String.ofList name)) start stop.mark with cursor := stop, keyAllowed := false }
  s.skipTrailingComment

/-! ### Tags -/

def isUriChar (c : Char) : Bool := isWordChar c || c ∈ ";/?:@&=+$,.!~*'()[]%".toList

/-- How many bytes follow the first byte of an encoded character. -/
def octetsAfter? (n : Nat) : Option Nat :=
  if n < 0x80 then some 0
  else if 0xC0 ≤ n && n < 0xE0 then some 1
  else if 0xE0 ≤ n && n < 0xF0 then some 2
  else if 0xF0 ≤ n && n < 0xF8 then some 3
  else none

/-- The characters of a tag, with `%` escapes undone. Each escape stands for one byte, which is kept as a character; of
the bytes that make up a character `more` are still to come. -/
def uriText : (more : Nat) → List Char → Window → Option (List Char × Cursor)
  | 0, [], w => return ([], ⟨[], ← w.need 1 []⟩)
  | _ + 1, [], _ => none
  | more, '%' :: a :: b :: rest, w => do
    let w ← (← w.need 1 ('%' :: a :: b :: rest)).need 3 ('%' :: a :: b :: rest)
    let n ← hexValue? [a, b]
    let more ← match more with
      | 0 => octetsAfter? n
      | more + 1 => if 0x80 ≤ n && n < 0xC0 then some more else none
    let (text, c) ← uriText more rest (w.add 3)
    return (Char.ofNat n :: text, c)
  | 0, c :: rest, w => do
    let w ← w.need 1 (c :: rest)
    if c = '%' then none
    else if isUriChar c then
      let (text, c') ← uriText 0 rest w.next
      return (c :: text, c')
    else return ([], ⟨c :: rest, w⟩)
  | _ + 1, _ :: _, _ => none

def uri (c : Cursor) : Option (List Char × Cursor) := uriText 0 c.rest c.window

/-- An exclamation mark, a word, and another exclamation mark if there is one. -/
def tagHandle (c : Cursor) : Option (List Char × Cursor) := do
  let c ← c.need 1
  if c.rest.head? ≠ some '!' then none
  let stop ← c.skip.skipWhile isWordChar
  let word := '!' :: c.skip.rest.takeWhile isWordChar
  if stop.rest.head? = some '!' then return (word ++ ['!'], stop.skip) else return (word, stop)

def fetchTag (s : Scanner) : Option Scanner := do
  let s ← s.saveKey
  let c ← s.cursor.need 2
  let (handle, suffix, stop) ←
    if c.skip.rest.head? = some '<' then do
      let (suffix, stop) ← uri c.skip.skip
      if suffix.isEmpty || stop.rest.head? ≠ some '>' then none
      pure (([] : List Char), suffix, stop.skip)
    else do
      let (handle, c) ← tagHandle c
      if 1 < handle.length && handle.getLast? = some '!' then
        let (suffix, stop) ← uri c
        if suffix.isEmpty then none
        pure (handle, suffix, stop)
      else
        let (text, stop) ← uri c
        let suffix := handle.drop 1 ++ text
        pure (if suffix.isEmpty then ([], ['!'], stop) else (['!'], suffix, stop))
  let stop ← stop.need 1
  if !atGap stop.rest then none
  let s := { s.push (.tag (String.ofList handle) (String.ofList suffix)) s.cursor.mark stop.mark with
    cursor := stop, keyAllowed := false }
  s.skipTrailingComment

/-! ### Scalars and directives -/

def fetchBlockScalar (s : Scanner) (literal : Bool) : Option Scanner := do
  let s ← s.dropKey
  let (text, stop) ← blockText literal s.indent s.cursor.skip
  return { s.push (.scalar (String.ofList text) false) s.cursor.mark stop.mark with
    cursor := stop, keyAllowed := true }

def fetchQuoted (s : Scanner) (double : Bool) : Option Scanner := do
  let s ← s.saveKey
  let start := s.cursor.skip
  let (text, stop) ← quotedText double .start start.rest start.window {}
  let s := { s.push (.scalar (String.ofList text) false) s.cursor.mark stop.mark with
    cursor := stop, keyAllowed := false }
  s.skipTrailingComment

def fetchPlain (s : Scanner) : Option Scanner := do
  let s ← s.saveKey
  let (text, stop, broken) ← plainText s.inFlow (s.indent + 1).toNat .start s.cursor.rest s.cursor.window {}
  let s := { s.push (.scalar (String.ofList text) true) s.cursor.mark stop.mark with
    cursor := stop, keyAllowed := broken }
  if broken then return s else s.skipTrailingComment

def versionNumber (c : Cursor) : Option (Nat × Cursor) := do
  let digits := c.rest.takeWhile Char.isDigit
  if digits.isEmpty || 2 < digits.length then none
  return (digits.foldl (fun n d => n * 10 + (d.toNat - '0'.toNat)) 0, ← c.skipWhile Char.isDigit)

def fetchDirective (s : Scanner) : Option Scanner := do
  let s ← (s.closeBlocks (-1)).dropKey
  let start := s.cursor.mark
  let word := s.cursor.skip
  let name := word.rest.takeWhile isWordChar
  let c ← word.skipWhile isWordChar
  if !atGap c.rest then none
  let c ← c.skipWhile isBlank
  let (kind, c) ←
    if name = "YAML".toList then do
      let (major, c) ← versionNumber c
      if c.rest.head? ≠ some '.' then none
      let (minor, c) ← versionNumber c.skip
      pure (TokenKind.version major minor, c)
    else if name = "TAG".toList then do
      let (handle, c) ← tagHandle c
      if handle ≠ ['!'] && handle.getLast? ≠ some '!' then none
      let c ← c.need 1
      if !(c.rest.head?.any isBlank) then none
      let (text, c) ← uri (← c.skipWhile isBlank)
      if text.isEmpty || !atGap c.rest then none
      pure (TokenKind.tagHandle (String.ofList handle) (String.ofList text), c)
    else none
  return { s.push kind start c.mark with cursor := ← toLineEnd c, keyAllowed := false }

/-- Scans on by one step, which adds at least one token. -/
def fetch (s : Scanner) : Option Scanner := do
  let s ← s.skipToToken (s.size + 1)
  let s := s.closeBlocks s.column
  let s := { s with cursor := ← s.cursor.need 4 }
  match s.cursor.rest with
  | [] => s.fetchStreamEnd
  | c :: rest =>
    if s.column = 0 && c = '%' then s.fetchDirective
    else if s.column = 0 && atMarker '-' (c :: rest) then s.fetchDocumentMarker .documentStart
    else if s.column = 0 && atMarker '.' (c :: rest) then s.fetchDocumentMarker .documentEnd
    else
      match c with
      | '[' => s.fetchFlowStart .flowSequenceStart
      | '\x7b' => s.fetchFlowStart .flowMappingStart
      | ']' => s.fetchFlowEnd .flowSequenceEnd
      | '\x7d' => s.fetchFlowEnd .flowMappingEnd
      | ',' => s.fetchFlowEntry
      | '-' => if atGap rest then s.fetchBlockEntry else s.fetchPlain
      | '?' => if s.inFlow || atGap rest then s.fetchKey else s.fetchPlain
      | ':' => if s.inFlow || atGap rest then s.fetchValue else s.fetchPlain
      | '*' => s.fetchAnchor .alias
      | '&' => s.fetchAnchor .anchor
      | '!' => s.fetchTag
      | '|' => if s.inFlow then none else s.fetchBlockScalar true
      | '>' => if s.inFlow then none else s.fetchBlockScalar false
      | '\'' => s.fetchQuoted false
      | '"' => s.fetchQuoted true
      | c => if isBlank c || c ∈ "#%@\x60".toList then none else s.fetchPlain

/-- Whether more has to be scanned before the next token is known: two tokens are read ahead, and a key candidate
must be decided before it is consumed. -/
def wantsMore (s : Scanner) : Option Bool :=
  if s.taken + 2 < s.tokens.size then
    match s.keys.find? fun k => k.possible && k.awaited && k.number = s.taken with
    | some k => if s.isStale k then (if k.required then none else some false) else some true
    | none => some false
  else some true

def fill : Nat → Scanner → Option Scanner
  | 0, s => some s
  | fuel + 1, s => do
    if ← s.wantsMore then (← s.fetch).fill fuel else return s

def peek (s : Scanner) : Option (Token × Scanner) := do
  let s ← s.fill (s.size + 4)
  return (← s.tokens[s.taken]?, s)

def drop (s : Scanner) : Scanner := { s with taken := s.taken + 1 }

end Scanner

end TraitCheck.Yaml
