/-!
Trees of YAML documents. A scalar keeps its text as it reads; its tag says what kind of value it stands for.
-/

namespace TraitCheck.Yaml

/-- A place in a document, lines and columns from one. -/
structure Place where
  line : Nat
  column : Nat
  deriving DecidableEq, Inhabited, Repr

/-- A node of a document. An alias has the number of the node that it stands for, which may be a node around it. -/
inductive Node where
  | scalar (place : Place) (tag text : String)
  | sequence (place : Place) (tag : String) (items : List Node)
  | mapping (place : Place) (tag : String) (entries : List (Node × Node))
  | alias (place : Place) (name : String) (target : Nat)
  deriving Inhabited

def nullTag : String := "!!null"
def boolTag : String := "!!bool"
def stringTag : String := "!!str"
def mergeTag : String := "!!merge"

def isNullText (text : String) : Bool := text ∈ ["", "~", "null", "Null", "NULL"]

def boolOfText? (text : String) : Option Bool :=
  if text ∈ ["true", "True", "TRUE"] then some true
  else if text ∈ ["false", "False", "FALSE"] then some false
  else none

/-- The tag of a plain scalar without one. Numbers and dates count as text, which is what they are used as. -/
def plainTag (text : String) : String :=
  if isNullText text then nullTag
  else if (boolOfText? text).isSome then boolTag
  else if text = "<<" then mergeTag
  else stringTag

namespace Node

def place : Node → Place
  | .scalar p _ _ | .sequence p _ _ | .mapping p _ _ | .alias p _ _ => p

def tag : Node → String
  | .scalar _ t _ | .sequence _ t _ | .mapping _ t _ => t
  | .alias _ _ _ => ""

/-- The text of a scalar, the name of an alias, nothing for collections. -/
def text : Node → String
  | .scalar _ _ t => t
  | .alias _ n _ => n
  | _ => ""

def isNull (n : Node) : Bool := n.tag = nullTag

end Node

/-- A document: its root, and the nodes that aliases stand for in the order of their numbers. -/
structure Document where
  root : Node
  targets : List Node := []

def Document.follow (d : Document) : Node → Node
  | .alias _ _ i => d.targets.getD i default
  | n => n

end TraitCheck.Yaml
