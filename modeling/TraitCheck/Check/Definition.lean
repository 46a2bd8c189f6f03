import TraitCheck.Sort
import TraitCheck.Syntax.Basic
import TraitCheck.Relation.Evidence

/-!
What names stand for. Every definition knows its syntax, and those at the top of a module know that module by number.
-/

namespace TraitCheck

/-- The kinds of definitions. A scope may bind one name once for each kind. -/
inductive Kind where
  | module
  | var
  | fn
  | trait
  | impl
  | type
  | variant
  | method
  | generic
  | param
  | self
  deriving DecidableEq, Inhabited

namespace Kind

def render : Kind → String
  | module => "module"
  | var => "variable"
  | fn => "function"
  | trait => "trait"
  | impl => "impl"
  | type => "type"
  | variant => "variant"
  | method => "method"
  | generic => "generic"
  | param => "parameter"
  | self => "Self"

def list : List Kind := [module, var, fn, trait, impl, type, variant, method, generic, param, self]

/-- What can stand for a value. -/
def values : List Kind := [var, param, fn, variant, method]

/-- What can stand for a type. -/
def types : List Kind := [self, generic, type, trait]

def modules : List Kind := [module]

/-- What an import can name, in the order in which it is looked for. -/
def any : List Kind := values ++ types ++ modules

end Kind

structure TypeDecl where
  node : Syntax.TypeDef
  path : Path
  module : Nat
  deriving Inhabited

/-- The last variant of a name. -/
def TypeDecl.variant? (d : TypeDecl) (name : String) : Option Syntax.Variant :=
  d.node.variants.reverse.find? (·.name = name)

structure TraitDecl where
  node : Syntax.Trait
  path : Path
  module : Nat
  deriving Inhabited

structure ImplDecl where
  node : Syntax.Impl
  module : Nat
  deriving Inhabited

/-- What methods are declared in. -/
inductive Owner where
  | trait (d : TraitDecl)
  | impl (d : ImplDecl)
  deriving Inhabited

structure Method where
  node : Syntax.Fn
  owner : Owner
  deriving Inhabited

namespace Owner

def kind : Owner → Kind
  | trait _ => .trait
  | impl _ => .impl

def module : Owner → Nat
  | trait d => d.module
  | impl d => d.module

def pub : Owner → Bool
  | trait d => d.node.pub
  | impl d => d.node.pub

def id : Owner → Nat
  | trait d => d.node.info.id
  | impl d => d.node.info.id

def fns : Owner → List Syntax.Fn
  | trait d => d.node.methods
  | impl d => d.node.methods

/-- The last method of a name in the body. -/
def method? (o : Owner) (name : String) : Option Method :=
  (o.fns.reverse.find? (·.name = name)).map (⟨·, o⟩)

end Owner

/-- A function. One that is declared in a block has its signature with it. -/
structure Function where
  node : Syntax.Fn
  path : Path
  module : Option Nat
  signature : Option Ty
  deriving Inhabited

/-- Where the type of a variable is: with a node, or known from the start. -/
inductive VarType where
  | slot (id : Nat)
  | known (t : Ty)
  deriving Inhabited

/-- A variable, bound by a definition or, without one, by a pattern. -/
structure Variable where
  name : String
  node : Option Syntax.Let
  type : VarType
  module : Option Nat
  deriving Inhabited

inductive Definition where
  | module (id : Nat)
  | var (v : Variable)
  | fn (f : Function)
  | trait (d : TraitDecl)
  | impl (d : ImplDecl)
  | type (d : TypeDecl)
  | variant (d : TypeDecl) (v : Syntax.Variant)
  | method (m : Method)
  | generic (g : Generic Ty)
  | param (p : Syntax.Param)
  | self (owner : Owner) (t : Ty)
  deriving Inhabited

namespace Definition

def kind : Definition → Kind
  | module _ => .module
  | var _ => .var
  | fn _ => .fn
  | trait _ => .trait
  | impl _ => .impl
  | type _ => .type
  | variant _ _ => .variant
  | method _ => .method
  | generic _ => .generic
  | param _ => .param
  | self _ _ => .self

def isPublic : Definition → Bool
  | var v => (v.node.map (·.pub)).getD true
  | fn f => f.node.pub
  | trait d => d.node.pub
  | impl d => d.node.pub
  | type d | variant d _ => d.node.pub
  | method m => m.owner.pub
  | module _ | generic _ | param _ | self _ _ => true

def module? : Definition → Option Nat
  | var v => v.module
  | fn f => f.module
  | trait d => some d.module
  | impl d => some d.module
  | type d | variant d _ => some d.module
  | method m => some m.owner.module
  | module _ | generic _ | param _ | self _ _ => none

end Definition

/-- A relation with the declaration that it comes from and, for an impl of a trait, the trait. -/
structure Instance where
  relation : Relation
  owner : Owner
  implemented : Option TraitDecl
  module : Nat
  deriving Inhabited

namespace Instance

def trait? (i : Instance) : Option TraitDecl :=
  match i.owner with
  | .trait d => some d
  | .impl _ => if i.relation.kind = .inherent then none else i.implemented

/-- A method of the body or, for an impl of a trait, of that trait. -/
def method? (i : Instance) (name : String) : Option Method :=
  (i.owner.method? name).or <|
    match i.owner with
    | .trait _ => none
    | .impl _ => i.trait?.bind fun d => (Owner.trait d).method? name

end Instance

/-- The body that is being checked: its result, which is absent if it is not known yet, and what was returned so
far. -/
structure BodyScope where
  name : String
  result : Ty
  returns : List Ty
  deriving Inhabited

/-- Names and what they stand for. In the body of a trait or an impl there is also `Self`. -/
structure Scope where
  defs : List ((Kind × String) × Definition) := []
  self : Option (Owner × Ty) := none
  body : Option BodyScope := none
  deriving Inhabited

namespace Scope

def empty : Scope := {}

def get? (s : Scope) (kind : Kind) (name : String) : Option Definition := s.defs.lookup (kind, name)

/-- Binds a name of the kind of the definition; what had that kind and name before is hidden. -/
def define (s : Scope) (name : String) (d : Definition) : Scope := { s with defs := ((d.kind, name), d) :: s.defs }

/-- Tries kinds in order. -/
def find? (s : Scope) (kinds : List Kind) (name : String) : Option Definition := kinds.findSome? (s.get? · name)

/-- The names that are bound, in order and once each. -/
def names (s : Scope) : List String := (sortBy (· ≤ ·) (s.defs.map (·.1.2))).eraseDups

end Scope

end TraitCheck
