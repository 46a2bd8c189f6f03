import TraitCheck.Ty.Substitution

/-!
Relations between types and traits, and chains of them.
-/

namespace TraitCheck

/-- Where a relation comes from: the declaration of a trait, an impl of a trait, or an impl of a type's own methods. -/
inductive Relation.Kind where
  | trait
  | impl
  | inherent
  deriving DecidableEq, Inhabited

/-- A value of type `forType` can be seen as `path` with the given arguments. The declaration of a trait relates the
trait with itself, and an inherent impl its type with itself. The number is the place in the list of relations. -/
structure Relation where
  id : Nat
  kind : Relation.Kind
  path : Path
  args : List Ty
  forType : Ty
  generics : List (Generic Ty)
  deriving Inhabited

namespace Relation

/-- What a value is seen as. -/
def target (r : Relation) : Ty := .named r.path r.args

/-- The name of the trait or, for an inherent impl, of the type. -/
def name (r : Relation) : String := r.path.render

/-- The path of the type that the relation is for; empty if that is no declared type. -/
def forPath (r : Relation) : Path := r.forType.path?.getD .empty

/-- A blanket relation is for every type that satisfies the bounds. -/
def isBlanket (r : Relation) : Bool :=
  match r.forType with
  | .generic _ => true
  | _ => false

/-- Only impls of traits are steps of chains. -/
def isImpl (r : Relation) : Bool := r.kind = .impl

def render (r : Relation) : String :=
  match r.kind with
  | .inherent => "impl " ++ r.forType.render
  | .trait => "trait " ++ r.target.render
  | .impl => "impl " ++ r.target.render ++ " for " ++ r.forType.render

end Relation

/-- Relations one after the other, each for what the one before provides. -/
abbrev Chain := List Relation

def Chain.uses (c : Chain) (r : Relation) : Bool := c.any (·.id = r.id)

end TraitCheck
