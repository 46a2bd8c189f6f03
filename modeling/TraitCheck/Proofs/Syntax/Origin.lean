import Mathlib.Data.List.Forall2
import TraitCheck.Syntax.Decode

/-! Where trees are read from. A tree comes from a node of a document if its parts come from the nodes under the keys that
they are written at. `P` is what is known of each node of a tree and the node of the document that it comes from. -/

namespace TraitCheck

namespace Yaml.Node

def entries : Yaml.Node → List (Yaml.Node × Yaml.Node)
  | .mapping _ _ entries => entries
  | _ => []

def fields (n : Yaml.Node) : Syntax.Decode.Fields := ⟨n, n.entries⟩

def value? (n : Yaml.Node) (key : String) : Option Yaml.Node := n.fields.get? key

def elements : Yaml.Node → List Yaml.Node
  | .sequence _ _ items => items
  | _ => []

/-- The elements of the list under a key, of which there are none without the key. -/
def items (n : Yaml.Node) (key : String) : List Yaml.Node := (n.value? key).elim [] elements

/-- The statements of a block, which is a list of them or a mapping with one. -/
def statements : Yaml.Node → List Yaml.Node
  | .sequence _ _ items => items
  | n => n.items "statements"

end Yaml.Node

namespace Syntax

variable (P : Info → Yaml.Node → Prop)

/-! ### Types and patterns -/

mutual

inductive TypeExpr.From : TypeExpr → Yaml.Node → Prop
  | named {i names args n} (h : P i n) (hargs : List.Forall₂ TypeExpr.From args (n.items "args")) :
      TypeExpr.From (.named i names args) n
  | fn {i generics params result n} (h : P i n)
      (hgenerics : List.Forall₂ GenericDecl.From generics (n.items "generics"))
      (hparams : List.Forall₂ TypeExpr.From params (n.items "params"))
      (hresult : Option.Rel TypeExpr.From result (n.value? "returns")) :
      TypeExpr.From (.fn i generics params result) n
  | hole {i n} (h : P i n) : TypeExpr.From (.hole i) n

inductive GenericDecl.From : GenericDecl → Yaml.Node → Prop
  | mk {g n} (h : P g.info n) (hbounds : List.Forall₂ TypeExpr.From g.bounds (n.items "bounds")) : GenericDecl.From g n

end

def Literal.From (l : Literal) (n : Yaml.Node) : Prop := P l.info n

structure Ident.From (i : Ident) (n : Yaml.Node) : Prop where
  info : P i.info n
  args : List.Forall₂ (TypeExpr.From P) i.args (n.items "args")

structure Param.From (p : Param) (n : Yaml.Node) : Prop where
  info : P p.info n
  type : Option.Rel (TypeExpr.From P) p.type (n.value? "type")

structure FieldDef.From (f : FieldDef) (n : Yaml.Node) : Prop where
  info : P f.info n
  type : Option.Rel (TypeExpr.From P) f.type (n.value? "type")

structure Variant.From (v : Variant) (n : Yaml.Node) : Prop where
  info : P v.info n
  fields : List.Forall₂ (FieldDef.From P) v.fields (n.items "fields")

mutual

inductive Pattern.From : Pattern → Yaml.Node → Prop
  | bind {i name n} (h : P i n) : Pattern.From (.bind i name) n
  | hole {i n} (h : P i n) : Pattern.From (.hole i) n
  | literal {i l n} (h : P i n) (hvalue : Option.Rel (Literal.From P) (some l) (n.value? "value")) :
      Pattern.From (.literal i l) n
  | variant {i ident fields n} (h : P i n) (hname : Option.Rel P (some ident.info) (n.value? "name"))
      (hfields : List.Forall₂ FieldPattern.From fields (n.items "fields")) : Pattern.From (.variant i ident fields) n

inductive FieldPattern.From : FieldPattern Pattern → Yaml.Node → Prop
  | mk {f n} (h : P f.info n) (hpattern : Option.Rel Pattern.From f.pattern (n.value? "pattern")) : FieldPattern.From f n

end

/-! ### Expressions and statements -/

mutual

inductive Expr.From : Expr → Yaml.Node → Prop
  | ident {i n} (h : i.From P n) : Expr.From (.ident i) n
  | literal {l n} (h : l.From P n) : Expr.From (.literal l) n
  | call {i callee args n} (h : P i n) (hcallee : Option.Rel Expr.From (some callee) (n.value? "callee"))
      (hargs : List.Forall₂ Expr.From args (n.items "args")) : Expr.From (.call i callee args) n
  | method {i receiver name types args n} (h : P i n)
      (hreceiver : Option.Rel Expr.From (some receiver) (n.value? "receiver"))
      (htypes : List.Forall₂ (TypeExpr.From P) types (n.items "type-args"))
      (hargs : List.Forall₂ Expr.From args (n.items "args")) : Expr.From (.method i receiver name types args) n
  | field {i receiver name n} (h : P i n) (hreceiver : Option.Rel Expr.From (some receiver) (n.value? "receiver")) :
      Expr.From (.field i receiver name) n
  | binary {i op left right n} (h : P i n) (hleft : Option.Rel Expr.From (some left) (n.value? "left"))
      (hright : Option.Rel Expr.From (some right) (n.value? "right")) : Expr.From (.binary i op left right) n
  | unary {i op operand n} (h : P i n) (hoperand : Option.Rel Expr.From (some operand) (n.value? "operand")) :
      Expr.From (.unary i op operand) n
  | closure {c n} (h : P c.info n) (hparams : List.Forall₂ (Param.From P) c.params (n.items "params"))
      (hresult : Option.Rel (TypeExpr.From P) c.result (n.value? "returns"))
      (hbody : Option.Rel Body.From (some c.body) (n.value? "body")) : Expr.From (.closure c) n
  | cond {i test yes no n} (h : P i n) (htest : Option.Rel Expr.From (some test) (n.value? "cond"))
      (hyes : Option.Rel Body.From (some yes) (n.value? "then")) (hno : Option.Rel Body.From no (n.value? "else")) :
      Expr.From (.cond i test yes no) n
  | switch {i scrutinee arms n} (h : P i n)
      (hscrutinee : Option.Rel Expr.From (some scrutinee) (n.value? "scrutinee"))
      (harms : List.Forall₂ Arm.From arms (n.items "clauses")) : Expr.From (.switch i scrutinee arms) n
  | list {i elements n} (h : P i n) (helements : List.Forall₂ Expr.From elements (n.items "elements")) :
      Expr.From (.list i elements) n
  | block {b n} (h : Body.From b n) : Expr.From (.block b) n

inductive Stmt.From : Stmt → Yaml.Node → Prop
  | var {d n} (h : P d.info n) (htype : Option.Rel (TypeExpr.From P) d.type (n.value? "type"))
      (hvalue : Option.Rel Expr.From (some d.value) (n.value? "value")) : Stmt.From (.var d) n
  | fn {d n} (h : Fn.From d n) : Stmt.From (.fn d) n
  | trait {d n} (h : P d.info n) (hgenerics : List.Forall₂ (GenericDecl.From P) d.generics (n.items "generics"))
      (hmethods : List.Forall₂ Fn.From d.methods (n.items "methods")) : Stmt.From (.trait d) n
  | impl {d n} (h : P d.info n) (hgenerics : List.Forall₂ (GenericDecl.From P) d.generics (n.items "generics"))
      (htrait : Option.Rel (TypeExpr.From P) d.trait (n.value? "trait"))
      (hfor : Option.Rel (TypeExpr.From P) d.forType (n.value? "for"))
      (hmethods : List.Forall₂ Fn.From d.methods (n.items "methods")) : Stmt.From (.impl d) n
  | type {d n} (h : P d.info n) (hgenerics : List.Forall₂ (GenericDecl.From P) d.generics (n.items "generics"))
      (hvariants : List.Forall₂ (Variant.From P) d.variants (n.items "variants")) : Stmt.From (.type d) n
  | ret {i value n} (h : P i n) (hvalue : Option.Rel Expr.From value (n.value? "value")) : Stmt.From (.ret i value) n
  | expr {i e n} (h : P i n) (he : Expr.From e n) : Stmt.From (.expr i e) n

inductive Body.From : Body → Yaml.Node → Prop
  | mk {b n} (h : P b.info n) (hstatements : List.Forall₂ Stmt.From b.statements n.statements) : Body.From b n

inductive Fn.From : Fn → Yaml.Node → Prop
  | mk {f n} (h : P f.info n) (hgenerics : List.Forall₂ (GenericDecl.From P) f.generics (n.items "generics"))
      (hparams : List.Forall₂ (Param.From P) f.params (n.items "params"))
      (hresult : Option.Rel (TypeExpr.From P) f.result (n.value? "returns"))
      (hbody : Option.Rel Body.From f.body (n.value? "body")) : Fn.From f n

inductive Arm.From : Arm → Yaml.Node → Prop
  | mk {a n} (h : P a.info n)
      (hpatterns : List.Forall₂ (Pattern.From P) a.patterns (n.items "patterns" ++ (n.value? "pattern").toList))
      (hguard : Option.Rel Expr.From a.guard (n.value? "guard"))
      (hbody : Option.Rel Body.From (some a.body) (n.value? "body")) : Arm.From a n

end

/-! ### Modules -/

inductive Use.From : Use → Yaml.Node → Prop
  | mk {i pub path wildcard nested n} (h : P i n) (hnested : List.Forall₂ Use.From nested (n.items "nested")) :
      Use.From (.mk i pub path wildcard nested) n

structure Module.From (m : Module) (n : Yaml.Node) : Prop where
  info : P m.info n
  uses : List.Forall₂ (Use.From P) m.uses (n.items "uses")
  statements : List.Forall₂ (Stmt.From P) m.statements (n.items "statements")

end Syntax

end TraitCheck
