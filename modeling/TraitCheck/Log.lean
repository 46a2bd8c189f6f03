import TraitCheck.Syntax.Show
import TraitCheck.Syntax.Visit

/-!
Log records and their filter. A record below warnings passes only if one of its sections is enabled.
-/

namespace TraitCheck.Syntax

def Node.describe : Node → String
  | .expr e => e.show
  | .pattern p => p.show
  | .stmt (.fn f) => "fn " ++ f.name
  | .stmt (.type d) => "type " ++ d.name
  | .stmt (.trait d) => "trait " ++ d.name
  | n => n.info.range.render

end TraitCheck.Syntax

namespace TraitCheck.Log

/-- The key of the attribute that names the section of a record. -/
def sectionKey : String := "section"

/-- Records of this level and above pass whatever their section is. -/
def warnLevel : Int := 4

def defaultSections : List String := ["check", "project"]

/-- The value of an attribute: a text, a node, or a node that is described when the record is written. -/
inductive Value where
  | text (s : String)
  | node (n : Syntax.Node)
  | deferred (n : Syntax.Node)

namespace Value

def render : Value → String
  | .text s => s
  | .node n => n.info.range.render
  | .deferred n => n.describe

/-- The name of a section. As long as a node is not described it goes by its address, of which the start is known. -/
def sectionName : Value → String
  | .deferred _ => "\x7b0xc000"
  | v => v.render

def defer : Value → Value
  | .node n => .deferred n
  | v => v

end Value

structure Attr where
  key : String
  value : Value

/-- What a logger adds before the attributes of a record. -/
inductive Item where
  | attr (a : Attr)
  | group (name : String)

/-- A logger; `describes` says that it describes nodes. -/
structure Logger where
  describes : Bool := false
  context : List Item := []

namespace Logger

def prepare (l : Logger) (attrs : List Attr) : List Attr :=
  if l.describes then attrs.map fun a => { a with value := a.value.defer } else attrs

def withAttrs (l : Logger) (attrs : List Attr) : Logger :=
  { l with context := l.context ++ (l.prepare attrs).map .attr }

/-- A group without a name is none. -/
def withGroup (l : Logger) (name : String) : Logger :=
  if name.isEmpty then l else { l with context := l.context ++ [.group name] }

def attrs (l : Logger) : List Attr :=
  l.context.filterMap fun
    | .attr a => some a
    | .group _ => none

end Logger

structure Record where
  level : Int
  message : String
  attrs : List Attr

def sectionsOf (attrs : List Attr) : List String := (attrs.filter (·.key = sectionKey)).map (·.value.sectionName)

/-- A section is enabled together with all whose name it starts. -/
def sectionEnabled (enabled : List String) (name : String) : Bool := enabled.any (·.isPrefixOf name)

/-- Whether a record passes, given the enabled sections. -/
def passes (enabled : List String) (l : Logger) (r : Record) : Bool :=
  warnLevel ≤ r.level || (sectionsOf (l.attrs ++ l.prepare r.attrs)).any (sectionEnabled enabled)

def Item.render : Item → String
  | .attr a => a.key ++ "=" ++ a.value.render
  | .group name => name ++ "\x7b"

/-- The attributes of a record that passed, those of its logger first. -/
def shown (l : Logger) (r : Record) : List String := (l.context ++ (l.prepare r.attrs).map Item.attr).map Item.render

end TraitCheck.Log
