import TraitCheck.Text.Bytes
import TraitCheck.Yaml.Node
import TraitCheck.Yaml.Number
import TraitCheck.Yaml.Timestamp

/-!
What scalars stand for. A tag, if there is a known one, must fit the text.
-/

namespace TraitCheck.Yaml

inductive Meaning where
  | null
  | bool (b : Bool)
  | integer (width : Width)
  | float
  | timestamp
  | text (s : String)
  deriving DecidableEq

/-- The names of infinity and of what is no number. -/
def floatNames : List String :=
  [".inf", ".Inf", ".INF", "+.inf", "+.Inf", "+.INF", "-.inf", "-.Inf", "-.INF", ".nan", ".NaN", ".NAN"]

def numberMeaning (text : String) : Meaning :=
  let cs := text.toList.filter (· ≠ '_')
  match width? cs with
  | some w => .integer w
  | none => if (decimal? cs).any (·.isFinite) then .float else .text text

/-- What a text stands for when nothing but its tag says that it is no string. Only where `dates` says so may it be a
date. -/
def impliedMeaning (dates : Bool) (text : String) : Meaning :=
  let cs := text.toList
  if isNullText text then .null
  else
    match boolOfText? text with
    | some b => .bool b
    | none =>
      if text ∈ floatNames then .float
      else if cs.head? = some '.' then
        if underscoresFit none cs && (decimal? (cs.filter (· ≠ '_'))).any (·.isFinite) then .float else .text text
      else if cs.head?.any fun c => c.isDigit || c = '+' || c = '-' then
        if dates && isTimestamp text then .timestamp else numberMeaning text
      else .text text

/-- The meaning of a scalar, or nothing if its tag does not fit. Tags that are not known do not matter. -/
def meaning? (tag text : String) : Option Meaning :=
  match tag with
  | "!!null" => if impliedMeaning false text = .null then some .null else none
  | "!!bool" =>
    match impliedMeaning false text with
    | .bool b => some (.bool b)
    | _ => none
  | "!!int" =>
    match impliedMeaning false text with
    | .integer w => some (.integer w)
    | _ => none
  | "!!float" =>
    match impliedMeaning false text with
    | .float | .integer .signed => some .float
    | _ => none
  | "!!timestamp" => if impliedMeaning true text = .timestamp then some .timestamp else none
  | "!!binary" => (Text.ofBase64? text).map .text
  | _ => some (.text text)

/-- A truth value. Text may use the longer list of words. A null is false. -/
def Meaning.bool? : Meaning → Option Bool
  | .null => some false
  | .bool b => some b
  | .text s =>
    if s ∈ ["y", "Y", "yes", "Yes", "YES", "on", "On", "ON"] then some true
    else if s ∈ ["n", "N", "no", "No", "NO", "off", "Off", "OFF"] then some false
    else none
  | _ => none

def Document.bool? (d : Document) (n : Node) : Option Bool := do
  match d.follow n with
  | .scalar _ tag text => (← meaning? tag text).bool?
  | _ => none

end TraitCheck.Yaml
