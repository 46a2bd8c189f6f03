/-!
Identifier paths such as `std::op::Add`: the canonical names of modules and of everything declared in them.
-/

namespace TraitCheck

/-- A sequence of name segments. The empty path names nothing. -/
structure Path where
  segments : List String
  deriving DecidableEq, Repr, Inhabited

namespace Path

/-- What stands between two segments of a written path. -/
def separator : String := "::"

/-- Cuts a text at every separator, from the left. There is always at least one piece. -/
def split : List Char → List (List Char)
  | [] => [[]]
  | ':' :: ':' :: rest => [] :: split rest
  | c :: rest =>
    match split rest with
    | [] => [[c]]
    | piece :: pieces => (c :: piece) :: pieces

def parse (text : String) : Path := ⟨(split text.toList).map String.ofList⟩

def render (p : Path) : String := separator.intercalate p.segments

/-- A path of at least one segment. -/
def ofSegments? : List String → Option Path
  | [] => none
  | s :: ss => some ⟨s :: ss⟩

def empty : Path := ⟨[]⟩

def isEmpty (p : Path) : Bool := p.segments.isEmpty

def length (p : Path) : Nat := p.segments.length

def first (p : Path) : String := p.segments.headD ""

def last (p : Path) : String := p.segments.getLastD ""

/-- Whether `q` is an initial part of `p`; every path starts with itself. -/
def startsWith (p q : Path) : Bool := q.segments.isPrefixOf p.segments

def append (p q : Path) : Path := ⟨p.segments ++ q.segments⟩

instance : Append Path := ⟨append⟩

def child (p : Path) (name : String) : Path := ⟨p.segments ++ [name]⟩

/-- The path without its last segment, if something is left. -/
def parent? (p : Path) : Option Path :=
  if p.length < 2 then none else some ⟨p.segments.dropLast⟩

/-- The path without its first segment, if something is left. -/
def tail? (p : Path) : Option Path :=
  if p.length < 2 then none else some ⟨p.segments.tail⟩

instance : ToString Path := ⟨render⟩

end Path

end TraitCheck
