import Mathlib.Tactic.Common
import TraitCheck.Syntax.Basic

/-! Syntax trees without their positions and numbers. -/

namespace TraitCheck.Syntax

mutual

def TypeExpr.bare : TypeExpr → TypeExpr
  | .named _ ns as => .named {} ns (bareTypes as)
  | .fn _ gs ps r => .fn {} (bareGenerics gs) (bareTypes ps) (bareOptType r)
  | .hole _ => .hole {}

def bareTypes : List TypeExpr → List TypeExpr
  | [] => []
  | t :: ts => t.bare :: bareTypes ts

def bareOptType : Option TypeExpr → Option TypeExpr
  | none => none
  | some t => some t.bare

def bareGenerics : List (TypeParam TypeExpr) → List (TypeParam TypeExpr)
  | [] => []
  | ⟨_, n, bs⟩ :: gs => ⟨{}, n, bareTypes bs⟩ :: bareGenerics gs

end

def GenericDecl.bare (g : GenericDecl) : GenericDecl := ⟨{}, g.name, bareTypes g.bounds⟩

def Param.bare (p : Param) : Param := ⟨{}, p.name, bareOptType p.type⟩

mutual

def Use.bare : Use → Use
  | .mk _ p path w us => .mk {} p path w (bareUses us)

def bareUses : List Use → List Use
  | [] => []
  | u :: us => u.bare :: bareUses us

end

def FieldDef.bare (f : FieldDef) : FieldDef := ⟨{}, f.pub, f.name, bareOptType f.type⟩

def Variant.bare (v : Variant) : Variant := ⟨{}, v.name, v.fields.map FieldDef.bare⟩

def TypeDef.bare (d : TypeDef) : TypeDef := ⟨{}, d.pub, d.name, bareGenerics d.generics, d.variants.map Variant.bare⟩

def Literal.bare (l : Literal) : Literal := ⟨{}, l.kind, l.value⟩

def Ident.bare (i : Ident) : Ident := ⟨{}, i.names, bareTypes i.args⟩

mutual

def Pattern.bare : Pattern → Pattern
  | .bind _ n => .bind {} n
  | .hole _ => .hole {}
  | .literal _ l => .literal {} l.bare
  | .variant _ i fs => .variant {} i.bare (bareFieldPatterns fs)

def bareFieldPatterns : List (FieldPattern Pattern) → List (FieldPattern Pattern)
  | [] => []
  | ⟨_, n, some p⟩ :: fs => ⟨{}, n, some p.bare⟩ :: bareFieldPatterns fs
  | ⟨_, n, none⟩ :: fs => ⟨{}, n, none⟩ :: bareFieldPatterns fs

end

def bareFieldPattern (f : FieldPattern Pattern) : FieldPattern Pattern := ⟨{}, f.name, f.pattern.map Pattern.bare⟩

mutual

def Expr.bare : Expr → Expr
  | .ident i => .ident i.bare
  | .literal l => .literal l.bare
  | .call _ f as => .call {} f.bare (bareExprs as)
  | .method _ r n ts as => .method {} r.bare n (bareTypes ts) (bareExprs as)
  | .field _ r n => .field {} r.bare n
  | .binary _ o l r => .binary {} o l.bare r.bare
  | .unary _ o e => .unary {} o e.bare
  | .closure ⟨_, ps, r, b⟩ => .closure ⟨{}, ps.map Param.bare, bareOptType r, bareBlock b⟩
  | .cond _ c y n => .cond {} c.bare (bareBlock y) (bareOptBlock n)
  | .switch _ e cs => .switch {} e.bare (bareClauses cs)
  | .list _ es => .list {} (bareExprs es)
  | .block b => .block (bareBlock b)

def bareExprs : List Expr → List Expr
  | [] => []
  | e :: es => e.bare :: bareExprs es

def bareOptExpr : Option Expr → Option Expr
  | none => none
  | some e => some e.bare

def bareBlock : Block Stmt → Block Stmt
  | ⟨_, ss⟩ => ⟨{}, bareStmts ss⟩

def bareOptBlock : Option (Block Stmt) → Option (Block Stmt)
  | none => none
  | some b => some (bareBlock b)

def bareClauses : List (Clause Expr Stmt) → List (Clause Expr Stmt)
  | [] => []
  | ⟨_, ps, g, b⟩ :: cs => ⟨{}, ps.map Pattern.bare, bareOptExpr g, bareBlock b⟩ :: bareClauses cs

def Stmt.bare : Stmt → Stmt
  | .var ⟨_, p, n, t, e⟩ => .var ⟨{}, p, n, bareOptType t, e.bare⟩
  | .fn f => .fn (bareFn f)
  | .trait ⟨_, p, n, gs, fs⟩ => .trait ⟨{}, p, n, bareGenerics gs, bareMethods fs⟩
  | .impl ⟨_, p, gs, t, ft, fs⟩ => .impl ⟨{}, p, bareGenerics gs, bareOptType t, bareOptType ft, bareMethods fs⟩
  | .type d => .type d.bare
  | .ret _ e => .ret {} (bareOptExpr e)
  | .expr _ e => .expr {} e.bare

def bareStmts : List Stmt → List Stmt
  | [] => []
  | s :: ss => s.bare :: bareStmts ss

def bareFn : FnDef Stmt → FnDef Stmt
  | ⟨_, p, n, gs, ps, r, b⟩ =>
    ⟨{}, p, n, bareGenerics gs, ps.map Param.bare, bareOptType r, bareOptBlock b⟩

def bareMethods : List (FnDef Stmt) → List (FnDef Stmt)
  | [] => []
  | f :: fs => bareFn f :: bareMethods fs

end

def Arm.bare (c : Arm) : Arm := ⟨{}, c.patterns.map Pattern.bare, bareOptExpr c.guard, bareBlock c.body⟩

def Module.bare (m : Module) : Module := ⟨{}, bareUses m.uses, bareStmts m.statements⟩

/-! ### Parts -/

@[simp] lemma bareTypes_eq (ts : List TypeExpr) : bareTypes ts = ts.map TypeExpr.bare := by
  induction ts with
  | nil => rfl
  | cons t ts ih => simp [bareTypes, ih]

@[simp] lemma bareOptType_eq (t : Option TypeExpr) : bareOptType t = t.map TypeExpr.bare := by
  cases t <;> rfl

@[simp] lemma bareGenerics_eq (gs : List GenericDecl) : bareGenerics gs = gs.map GenericDecl.bare := by
  induction gs with
  | nil => rfl
  | cons g gs ih => simp [bareGenerics, GenericDecl.bare, ih]

@[simp] lemma bareUses_eq (us : List Use) : bareUses us = us.map Use.bare := by
  induction us with
  | nil => rfl
  | cons u us ih => simp [bareUses, ih]

@[simp] lemma bareFieldPatterns_eq (fs : List (FieldPattern Pattern)) :
    bareFieldPatterns fs = fs.map bareFieldPattern := by
  induction fs with
  | nil => rfl
  | cons f fs ih =>
    obtain ⟨_, _, _ | _⟩ := f <;> simp [bareFieldPatterns, bareFieldPattern, ih]

@[simp] lemma bareExprs_eq (es : List Expr) : bareExprs es = es.map Expr.bare := by
  induction es with
  | nil => rfl
  | cons e es ih => simp [bareExprs, ih]

@[simp] lemma bareOptExpr_eq (e : Option Expr) : bareOptExpr e = e.map Expr.bare := by
  cases e <;> rfl

@[simp] lemma bareOptBlock_eq (b : Option (Block Stmt)) : bareOptBlock b = b.map bareBlock := by
  cases b <;> rfl

@[simp] lemma bareClauses_eq (cs : List Arm) : bareClauses cs = cs.map Arm.bare := by
  induction cs with
  | nil => rfl
  | cons c cs ih => simp [bareClauses, Arm.bare, ih]

@[simp] lemma bareStmts_eq (ss : List Stmt) : bareStmts ss = ss.map Stmt.bare := by
  induction ss with
  | nil => rfl
  | cons s ss ih => simp [bareStmts, ih]

@[simp] lemma bareMethods_eq (fs : List Fn) : bareMethods fs = fs.map bareFn := by
  induction fs with
  | nil => rfl
  | cons f fs ih => simp [bareMethods, ih]

end TraitCheck.Syntax
