import Mathlib.Tactic.Common
import TraitCheck.Syntax.Number

/-! Trees in which every path has a segment, every field has a type and every impl is for a type. -/

namespace TraitCheck.Syntax

inductive TypeExpr.WellFormed : TypeExpr → Prop
  | named (info : Info) {names : List String} {args : List TypeExpr} (hnames : names ≠ [])
      (hargs : ∀ t ∈ args, WellFormed t) : WellFormed (.named info names args)
  | fn (info : Info) {generics : List (TypeParam TypeExpr)} {params : List TypeExpr} {result : Option TypeExpr}
      (hgenerics : ∀ g ∈ generics, ∀ b ∈ g.bounds, WellFormed b) (hparams : ∀ t ∈ params, WellFormed t)
      (hresult : ∀ t, result = some t → WellFormed t) : WellFormed (.fn info generics params result)
  | hole (info : Info) : WellFormed (.hole info)

def GenericDecl.WellFormed (g : GenericDecl) : Prop := ∀ b ∈ g.bounds, b.WellFormed

def Param.WellFormed (p : Param) : Prop := ∀ t, p.type = some t → t.WellFormed

def FieldDef.WellFormed (f : FieldDef) : Prop := ∃ t, f.type = some t ∧ t.WellFormed

structure TypeDef.WellFormed (d : TypeDef) : Prop where
  generics : ∀ g ∈ d.generics, g.WellFormed
  fields : ∀ v ∈ d.variants, ∀ f ∈ v.fields, f.WellFormed

structure Ident.WellFormed (i : Ident) : Prop where
  names : i.names ≠ []
  args : ∀ t ∈ i.args, t.WellFormed

inductive Pattern.WellFormed : Pattern → Prop
  | bind (info : Info) (name : String) : WellFormed (.bind info name)
  | hole (info : Info) : WellFormed (.hole info)
  | literal (info : Info) (l : Literal) : WellFormed (.literal info l)
  | variant (info : Info) {ident : Ident} {fields : List (FieldPattern Pattern)} (hident : ident.WellFormed)
      (hfields : ∀ f ∈ fields, ∀ p, f.pattern = some p → WellFormed p) : WellFormed (.variant info ident fields)

mutual

inductive Expr.WellFormed : Expr → Prop
  | ident {i : Ident} (h : i.WellFormed) : Expr.WellFormed (.ident i)
  | literal (l : Literal) : Expr.WellFormed (.literal l)
  | call (info : Info) {callee : Expr} {args : List Expr} (hcallee : Expr.WellFormed callee)
      (hargs : ∀ a ∈ args, Expr.WellFormed a) : Expr.WellFormed (.call info callee args)
  | method (info : Info) {receiver : Expr} (name : String) {typeArgs : List TypeExpr} {args : List Expr}
      (hreceiver : Expr.WellFormed receiver) (htypes : ∀ t ∈ typeArgs, t.WellFormed)
      (hargs : ∀ a ∈ args, Expr.WellFormed a) : Expr.WellFormed (.method info receiver name typeArgs args)
  | field (info : Info) {receiver : Expr} (name : String) (h : Expr.WellFormed receiver) :
      Expr.WellFormed (.field info receiver name)
  | binary (info : Info) (op : String) {left right : Expr} (hleft : Expr.WellFormed left)
      (hright : Expr.WellFormed right) : Expr.WellFormed (.binary info op left right)
  | unary (info : Info) (op : String) {operand : Expr} (h : Expr.WellFormed operand) :
      Expr.WellFormed (.unary info op operand)
  | closure {c : Closure Stmt} (hparams : ∀ p ∈ c.params, p.WellFormed)
      (hresult : ∀ t, c.result = some t → t.WellFormed) (hbody : ∀ s ∈ c.body.statements, Stmt.WellFormed s) :
      Expr.WellFormed (.closure c)
  | cond (info : Info) {test : Expr} {yes : Block Stmt} {no : Option (Block Stmt)} (htest : Expr.WellFormed test)
      (hyes : ∀ s ∈ yes.statements, Stmt.WellFormed s)
      (hno : ∀ b, no = some b → ∀ s ∈ b.statements, Stmt.WellFormed s) : Expr.WellFormed (.cond info test yes no)
  | switch (info : Info) {scrutinee : Expr} {clauses : List (Clause Expr Stmt)}
      (hscrutinee : Expr.WellFormed scrutinee) (hpatterns : ∀ c ∈ clauses, ∀ p ∈ c.patterns, p.WellFormed)
      (hguards : ∀ c ∈ clauses, ∀ g, c.guard = some g → Expr.WellFormed g)
      (hbodies : ∀ c ∈ clauses, ∀ s ∈ c.body.statements, Stmt.WellFormed s) :
      Expr.WellFormed (.switch info scrutinee clauses)
  | list (info : Info) {elements : List Expr} (h : ∀ e ∈ elements, Expr.WellFormed e) :
      Expr.WellFormed (.list info elements)
  | block {b : Block Stmt} (h : ∀ s ∈ b.statements, Stmt.WellFormed s) : Expr.WellFormed (.block b)

inductive Stmt.WellFormed : Stmt → Prop
  | var {d : VarDef Expr} (htype : ∀ t, d.type = some t → t.WellFormed) (hvalue : Expr.WellFormed d.value) :
      Stmt.WellFormed (.var d)
  | fn {d : FnDef Stmt} (hgenerics : ∀ g ∈ d.generics, g.WellFormed) (hparams : ∀ p ∈ d.params, p.WellFormed)
      (hresult : ∀ t, d.result = some t → t.WellFormed)
      (hbody : ∀ b, d.body = some b → ∀ s ∈ b.statements, Stmt.WellFormed s) : Stmt.WellFormed (.fn d)
  | trait {d : TraitDef Stmt} (hgenerics : ∀ g ∈ d.generics, g.WellFormed)
      (hmethods : ∀ m ∈ d.methods, Stmt.WellFormed (.fn m)) : Stmt.WellFormed (.trait d)
  | impl {d : ImplDef Stmt} (hgenerics : ∀ g ∈ d.generics, g.WellFormed)
      (htrait : ∀ t, d.trait = some t → t.WellFormed) (hfor : ∃ t, d.forType = some t ∧ t.WellFormed)
      (hmethods : ∀ m ∈ d.methods, Stmt.WellFormed (.fn m)) : Stmt.WellFormed (.impl d)
  | type {d : TypeDef} (h : d.WellFormed) : Stmt.WellFormed (.type d)
  | ret (info : Info) {value : Option Expr} (h : ∀ e, value = some e → Expr.WellFormed e) :
      Stmt.WellFormed (.ret info value)
  | expr (info : Info) {e : Expr} (h : Expr.WellFormed e) : Stmt.WellFormed (.expr info e)

end

abbrev Body.WellFormed (b : Body) : Prop := ∀ s ∈ b.statements, s.WellFormed

abbrev Fn.WellFormed (f : Fn) : Prop := (Stmt.fn f).WellFormed

structure Arm.WellFormed (c : Arm) : Prop where
  patterns : ∀ p ∈ c.patterns, p.WellFormed
  guard : ∀ g, c.guard = some g → g.WellFormed
  body : Body.WellFormed c.body

end TraitCheck.Syntax
