import TraitCheck.Syntax.Basic

/-!
Numbering the nodes of a module, so that no two of them have the same number.
-/

namespace TraitCheck.Syntax

/-- A step that uses up numbers. -/
abbrev Numbering (α : Type) := StateM Nat α

def Info.number (i : Info) : Numbering Info := do
  let n ← get
  set (n + 1)
  return { i with id := n }

mutual

def TypeExpr.number : TypeExpr → Numbering TypeExpr
  | .named i ns as => do return .named (← i.number) ns (← numberTypes as)
  | .fn i gs ps r => do return .fn (← i.number) (← numberGenerics gs) (← numberTypes ps) (← numberOptType r)
  | .hole i => do return .hole (← i.number)

def numberTypes : List TypeExpr → Numbering (List TypeExpr)
  | [] => return []
  | t :: ts => do return (← t.number) :: (← numberTypes ts)

def numberOptType : Option TypeExpr → Numbering (Option TypeExpr)
  | none => return none
  | some t => do return some (← t.number)

def numberGenerics : List (TypeParam TypeExpr) → Numbering (List (TypeParam TypeExpr))
  | [] => return []
  | ⟨i, n, bs⟩ :: gs => do return ⟨← i.number, n, ← numberTypes bs⟩ :: (← numberGenerics gs)

end

def Param.number (p : Param) : Numbering Param :=
  return { p with info := ← p.info.number, type := ← numberOptType p.type }

def FieldDef.number (f : FieldDef) : Numbering FieldDef :=
  return { f with info := ← f.info.number, type := ← numberOptType f.type }

def Variant.number (v : Variant) : Numbering Variant :=
  return { v with info := ← v.info.number, fields := ← v.fields.mapM FieldDef.number }

def TypeDef.number (d : TypeDef) : Numbering TypeDef :=
  return { d with
    info := ← d.info.number, generics := ← numberGenerics d.generics, variants := ← d.variants.mapM Variant.number }

def Literal.number (l : Literal) : Numbering Literal := return { l with info := ← l.info.number }

def Ident.number (i : Ident) : Numbering Ident :=
  return { i with info := ← i.info.number, args := ← numberTypes i.args }

mutual

def Pattern.number : Pattern → Numbering Pattern
  | .bind i n => do return .bind (← i.number) n
  | .hole i => do return .hole (← i.number)
  | .literal i l => do return .literal (← i.number) (← l.number)
  | .variant i n fs => do return .variant (← i.number) (← n.number) (← numberFieldPatterns fs)

def numberFieldPatterns : List (FieldPattern Pattern) → Numbering (List (FieldPattern Pattern))
  | [] => return []
  | ⟨i, n, some p⟩ :: fs => do return ⟨← i.number, n, some (← p.number)⟩ :: (← numberFieldPatterns fs)
  | ⟨i, n, none⟩ :: fs => do return ⟨← i.number, n, none⟩ :: (← numberFieldPatterns fs)

end

mutual

def Expr.number : Expr → Numbering Expr
  | .ident i => do return .ident (← i.number)
  | .literal l => do return .literal (← l.number)
  | .call i f as => do return .call (← i.number) (← f.number) (← numberExprs as)
  | .method i r n ts as => do
    return .method (← i.number) (← r.number) n (← numberTypes ts) (← numberExprs as)
  | .field i r n => do return .field (← i.number) (← r.number) n
  | .binary i o l r => do return .binary (← i.number) o (← l.number) (← r.number)
  | .unary i o e => do return .unary (← i.number) o (← e.number)
  | .closure ⟨i, ps, r, b⟩ => do
    return .closure ⟨← i.number, ← ps.mapM Param.number, ← numberOptType r, ← numberBlock b⟩
  | .cond i c y n => do return .cond (← i.number) (← c.number) (← numberBlock y) (← numberOptBlock n)
  | .switch i e cs => do return .switch (← i.number) (← e.number) (← numberClauses cs)
  | .list i es => do return .list (← i.number) (← numberExprs es)
  | .block b => do return .block (← numberBlock b)

def numberExprs : List Expr → Numbering (List Expr)
  | [] => return []
  | e :: es => do return (← e.number) :: (← numberExprs es)

def numberOptExpr : Option Expr → Numbering (Option Expr)
  | none => return none
  | some e => do return some (← e.number)

def numberBlock : Block Stmt → Numbering (Block Stmt)
  | ⟨i, ss⟩ => do return ⟨← i.number, ← numberStmts ss⟩

def numberOptBlock : Option (Block Stmt) → Numbering (Option (Block Stmt))
  | none => return none
  | some b => do return some (← numberBlock b)

def numberClauses : List (Clause Expr Stmt) → Numbering (List (Clause Expr Stmt))
  | [] => return []
  | ⟨i, ps, g, b⟩ :: cs => do
    return ⟨← i.number, ← ps.mapM Pattern.number, ← numberOptExpr g, ← numberBlock b⟩ :: (← numberClauses cs)

def Stmt.number : Stmt → Numbering Stmt
  | .var ⟨i, p, n, t, e⟩ => do return .var ⟨← i.number, p, n, ← numberOptType t, ← e.number⟩
  | .fn f => do return .fn (← numberFn f)
  | .trait ⟨i, p, n, gs, fs⟩ => do return .trait ⟨← i.number, p, n, ← numberGenerics gs, ← numberMethods fs⟩
  | .impl ⟨i, p, gs, t, ft, fs⟩ => do
    return .impl ⟨← i.number, p, ← numberGenerics gs, ← numberOptType t, ← numberOptType ft, ← numberMethods fs⟩
  | .type d => do return .type (← d.number)
  | .ret i e => do return .ret (← i.number) (← numberOptExpr e)
  | .expr i e => do return .expr (← i.number) (← e.number)

def numberStmts : List Stmt → Numbering (List Stmt)
  | [] => return []
  | s :: ss => do return (← s.number) :: (← numberStmts ss)

def numberFn : FnDef Stmt → Numbering (FnDef Stmt)
  | ⟨i, p, n, gs, ps, r, b⟩ => do
    return ⟨← i.number, p, n, ← numberGenerics gs, ← ps.mapM Param.number, ← numberOptType r, ← numberOptBlock b⟩

def numberMethods : List (FnDef Stmt) → Numbering (List (FnDef Stmt))
  | [] => return []
  | f :: fs => do return (← numberFn f) :: (← numberMethods fs)

end

/-- Numbers the nodes of a module; imports keep theirs. -/
def Module.number (m : Module) : Numbering Module :=
  return { m with info := ← m.info.number, statements := ← numberStmts m.statements }

end TraitCheck.Syntax
