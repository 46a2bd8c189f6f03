import TraitCheck.Source

/-!
The syntax tree of a module. Every node knows its range and its number; numbers tell nodes apart.
-/

namespace TraitCheck.Syntax

structure Info where
  range : Range := .none
  id : Nat := 0
  deriving Inhabited, DecidableEq, Repr

structure TypeParam (τ : Type) where
  info : Info
  name : String
  bounds : List τ
  deriving Inhabited

inductive TypeExpr where
  | named (info : Info) (names : List String) (args : List TypeExpr)
  | fn (info : Info) (generics : List (TypeParam TypeExpr)) (params : List TypeExpr) (result : Option TypeExpr)
  | hole (info : Info)
  deriving Inhabited

abbrev GenericDecl := TypeParam TypeExpr

def TypeExpr.info : TypeExpr → Info
  | .named i _ _ | .fn i _ _ _ | .hole i => i

/-- A parameter. The receiver and the parameters of closures may go without a type. -/
structure Param where
  info : Info
  name : String
  type : Option TypeExpr
  deriving Inhabited

/-- An import. With `nested` imports it stands for each of them under its path. -/
inductive Use where
  | mk (info : Info) (pub : Bool) (path : List String) (wildcard : Bool) (nested : List Use)
  deriving Inhabited

namespace Use

def info : Use → Info
  | mk i _ _ _ _ => i

def pub : Use → Bool
  | mk _ p _ _ _ => p

def path : Use → List String
  | mk _ _ p _ _ => p

def wildcard : Use → Bool
  | mk _ _ _ w _ => w

def nested : Use → List Use
  | mk _ _ _ _ n => n

end Use

structure FieldDef where
  info : Info
  pub : Bool
  name : String
  type : Option TypeExpr
  deriving Inhabited

structure Variant where
  info : Info
  name : String
  fields : List FieldDef
  deriving Inhabited

def Variant.field? (v : Variant) (name : String) : Option FieldDef := v.fields.find? (·.name = name)

structure TypeDef where
  info : Info
  pub : Bool
  name : String
  generics : List GenericDecl
  variants : List Variant
  deriving Inhabited

inductive LiteralKind where
  | int
  | float
  | string
  | char
  | bool
  deriving DecidableEq, Inhabited

def LiteralKind.render : LiteralKind → String
  | .int => "int"
  | .float => "float"
  | .string => "string"
  | .char => "char"
  | .bool => "bool"

structure Literal where
  info : Info
  kind : LiteralKind
  value : String
  deriving Inhabited

/-- A name, possibly qualified and with type arguments. -/
structure Ident where
  info : Info
  names : List String
  args : List TypeExpr
  deriving Inhabited

/-- A field in a constructor pattern. Without a pattern the field is bound to a variable of its name. -/
structure FieldPattern (π : Type) where
  info : Info
  name : String
  pattern : Option π
  deriving Inhabited

inductive Pattern where
  | bind (info : Info) (name : String)
  | hole (info : Info)
  | literal (info : Info) (lit : Literal)
  | variant (info : Info) (ident : Ident) (fields : List (FieldPattern Pattern))
  deriving Inhabited

def Pattern.info : Pattern → Info
  | .bind i _ | .hole i | .literal i _ | .variant i _ _ => i

structure Block (σ : Type) where
  info : Info
  statements : List σ
  deriving Inhabited

/-- A function, or a method in a trait or an impl. Without a body it is only declared. -/
structure FnDef (σ : Type) where
  info : Info
  pub : Bool
  name : String
  generics : List GenericDecl
  params : List Param
  result : Option TypeExpr
  body : Option (Block σ)
  deriving Inhabited

def receiverName : String := "self"

def FnDef.hasReceiver {σ : Type} (f : FnDef σ) : Bool := f.params.head?.any (·.name = receiverName)

structure Closure (σ : Type) where
  info : Info
  params : List Param
  result : Option TypeExpr
  body : Block σ
  deriving Inhabited

structure Clause (ε σ : Type) where
  info : Info
  patterns : List Pattern
  guard : Option ε
  body : Block σ
  deriving Inhabited

structure VarDef (ε : Type) where
  info : Info
  pub : Bool
  name : String
  type : Option TypeExpr
  value : ε
  deriving Inhabited

structure TraitDef (σ : Type) where
  info : Info
  pub : Bool
  name : String
  generics : List GenericDecl
  methods : List (FnDef σ)
  deriving Inhabited

/-- An implementation of a trait for a type or, without a trait, of methods of the type's own. -/
structure ImplDef (σ : Type) where
  info : Info
  pub : Bool
  generics : List GenericDecl
  trait : Option TypeExpr
  forType : Option TypeExpr
  methods : List (FnDef σ)
  deriving Inhabited

mutual

inductive Expr where
  | ident (i : Ident)
  | literal (l : Literal)
  | call (info : Info) (callee : Expr) (args : List Expr)
  | method (info : Info) (receiver : Expr) (name : String) (typeArgs : List TypeExpr) (args : List Expr)
  | field (info : Info) (receiver : Expr) (name : String)
  | binary (info : Info) (op : String) (left right : Expr)
  | unary (info : Info) (op : String) (operand : Expr)
  | closure (c : Closure Stmt)
  | cond (info : Info) (test : Expr) (yes : Block Stmt) (no : Option (Block Stmt))
  | switch (info : Info) (scrutinee : Expr) (clauses : List (Clause Expr Stmt))
  | list (info : Info) (elements : List Expr)
  | block (b : Block Stmt)

inductive Stmt where
  | var (d : VarDef Expr)
  | fn (d : FnDef Stmt)
  | trait (d : TraitDef Stmt)
  | impl (d : ImplDef Stmt)
  | type (d : TypeDef)
  | ret (info : Info) (value : Option Expr)
  | expr (info : Info) (e : Expr)

end

instance : Inhabited Expr := ⟨.literal default⟩
instance : Inhabited Stmt := ⟨.ret default none⟩

abbrev Body := Block Stmt
abbrev Fn := FnDef Stmt
abbrev Trait := TraitDef Stmt
abbrev Impl := ImplDef Stmt
abbrev Lambda := Closure Stmt
abbrev Arm := Clause Expr Stmt
abbrev Let := VarDef Expr

def Expr.info : Expr → Info
  | .ident i => i.info
  | .literal l => l.info
  | .call i _ _ | .method i _ _ _ _ | .field i _ _ | .binary i _ _ _ | .unary i _ _ | .cond i _ _ _
  | .switch i _ _ | .list i _ => i
  | .closure c => c.info
  | .block b => b.info

def Stmt.info : Stmt → Info
  | .var d => d.info
  | .fn d => d.info
  | .trait d => d.info
  | .impl d => d.info
  | .type d => d.info
  | .ret i _ | .expr i _ => i

structure Module where
  info : Info
  uses : List Use
  statements : List Stmt
  deriving Inhabited

end TraitCheck.Syntax
