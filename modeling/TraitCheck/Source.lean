/-!
Positions in a set of source files. A position is a number: each file covers the numbers from its base on, one for
each byte and one for its end. Zero is no position.
-/

namespace TraitCheck

structure Range where
  start : Int
  stop : Int
  deriving DecidableEq, Inhabited, Repr

namespace Range

def none : Range := ⟨0, 0⟩

def point (p : Int) : Range := ⟨p, p⟩

/-- From the start of one range to the end of another. -/
def between (a b : Range) : Range := ⟨a.start, b.stop⟩

def render (r : Range) : String :=
  if r.start = r.stop then toString r.start else toString r.start ++ "-" ++ toString r.stop

end Range

/-- A file with the byte offsets at which its lines start. A line starts where a byte follows. -/
structure SourceFile where
  name : String
  base : Nat
  size : Nat
  lines : List Nat
  deriving Inhabited

/-- The line starts of a text whose first byte has the given offset. `fresh` says that a line starts there. -/
def lineStarts : (offset : Nat) → (fresh : Bool) → List Char → List Nat
  | _, _, [] => []
  | offset, fresh, c :: rest =>
    let later := lineStarts (offset + c.utf8Size) (c = '\n') rest
    if fresh then offset :: later else later

/-- A place that can be shown. Line zero means that only the file is known. -/
structure Position where
  file : String
  line : Nat
  column : Nat
  deriving DecidableEq, Inhabited

namespace Position

def render (p : Position) : String :=
  let place := toString p.line ++ ":" ++ toString p.column
  if p.line = 0 then (if p.file.isEmpty then "-" else p.file)
  else if p.file.isEmpty then place
  else p.file ++ ":" ++ place

end Position

namespace SourceFile

/-- The position of a line and column, both from one. A line the file does not have is no position. -/
def pos (f : SourceFile) (line column : Nat) : Int :=
  if line = 0 then 0
  else
    match f.lines[line - 1]? with
    | some start => (f.base + start + column : Int) - 1
    | none => 0

/-- The last line that starts at or before the offset. -/
def locate (offset : Nat) : (line : Nat) → List Nat → Nat × Nat
  | line, start :: next :: rest =>
    if next ≤ offset then locate offset (line + 1) (next :: rest) else (line + 1, offset - start + 1)
  | line, [start] => (line + 1, offset - start + 1)
  | _, [] => (0, 0)

def position (f : SourceFile) (p : Int) : Position :=
  let offset := min (p - f.base).toNat f.size
  let (line, column) := locate offset 0 f.lines
  ⟨f.name, line, column⟩

def covers (f : SourceFile) (p : Int) : Bool := (f.base : Int) ≤ p && p ≤ (f.base + f.size : Int)

end SourceFile

/-- The files, the first one added first. -/
structure FileSet where
  files : List SourceFile := []
  deriving Inhabited

namespace FileSet

def nextBase (s : FileSet) : Nat :=
  match s.files.getLast? with
  | some f => f.base + f.size + 1
  | none => 1

def newFile (s : FileSet) (name text : String) : SourceFile :=
  ⟨name, s.nextBase, text.utf8ByteSize + 1, lineStarts 0 true text.toList⟩

def add (s : FileSet) (f : SourceFile) : FileSet := ⟨s.files ++ [f]⟩

/-- The place of a position; one outside of all files has none. -/
def position (s : FileSet) (p : Int) : Position :=
  if p = 0 then ⟨"", 0, 0⟩
  else
    match s.files.find? (·.covers p) with
    | some f => f.position p
    | none => ⟨"", 0, 0⟩

/-- The line and column of a position, both zero outside of all files. -/
def renderPlace (s : FileSet) (p : Int) : String :=
  if p = 0 then "-" else toString (s.position p).line ++ ":" ++ toString (s.position p).column

end FileSet

end TraitCheck
