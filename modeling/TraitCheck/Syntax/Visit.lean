import TraitCheck.Syntax.Basic

/-!
The nodes of a module in the order of a depth-first walk. Written types are not visited, and of a field pattern
only the pattern in it is.
-/

namespace TraitCheck.Syntax

inductive Node where
  | module (m : Module)
  | stmt (s : Stmt)
  | param (p : Param)
  | fieldDef (f : FieldDef)
  | expr (e : Expr)
  | pattern (p : Pattern)
  | clause (c : Arm)

def Node.info : Node → Info
  | .module m => m.info
  | .stmt s => s.info
  | .param p => p.info
  | .fieldDef f => f.info
  | .expr e => e.info
  | .pattern p => p.info
  | .clause c => c.info

mutual

def Pattern.nodes : Pattern → List Node
  | .literal i l => [.pattern (.literal i l), .expr (.literal l)]
  | .variant i n fs => .pattern (.variant i n fs) :: fieldNodes fs
  | p => [.pattern p]

def fieldNodes : List (FieldPattern Pattern) → List Node
  | [] => []
  | ⟨_, _, some p⟩ :: fs => p.nodes ++ fieldNodes fs
  | ⟨_, _, none⟩ :: fs => fieldNodes fs

end

def TypeDef.fieldDefs (d : TypeDef) : List FieldDef := d.variants.flatMap (·.fields)

mutual

def Expr.nodes : Expr → List Node
  | .ident i => [.expr (.ident i)]
  | .literal l => [.expr (.literal l)]
  | .call i f as => .expr (.call i f as) :: f.nodes ++ exprNodes as
  | .method i r n ts as => .expr (.method i r n ts as) :: r.nodes ++ exprNodes as
  | .field i r n => .expr (.field i r n) :: r.nodes
  | .binary i o l r => .expr (.binary i o l r) :: l.nodes ++ r.nodes
  | .unary i o e => .expr (.unary i o e) :: e.nodes
  | .closure ⟨i, ps, r, b⟩ => .expr (.closure ⟨i, ps, r, b⟩) :: ps.map .param ++ blockNodes b
  | .cond i c y n => .expr (.cond i c y n) :: c.nodes ++ blockNodes y ++ optBlockNodes n
  | .switch i e cs => .expr (.switch i e cs) :: e.nodes ++ clauseNodes cs
  | .list i es => .expr (.list i es) :: exprNodes es
  | .block b => blockNodes b

def exprNodes : List Expr → List Node
  | [] => []
  | e :: es => e.nodes ++ exprNodes es

def optExprNodes : Option Expr → List Node
  | none => []
  | some e => e.nodes

def blockNodes : Block Stmt → List Node
  | ⟨i, ss⟩ => .expr (.block ⟨i, ss⟩) :: stmtNodes ss

def optBlockNodes : Option (Block Stmt) → List Node
  | none => []
  | some b => blockNodes b

def clauseNodes : List (Clause Expr Stmt) → List Node
  | [] => []
  | ⟨i, ps, g, b⟩ :: cs =>
    .clause ⟨i, ps, g, b⟩ :: ps.flatMap Pattern.nodes ++ optExprNodes g ++ blockNodes b ++ clauseNodes cs

def Stmt.nodes : Stmt → List Node
  | .var ⟨i, p, n, t, e⟩ => .stmt (.var ⟨i, p, n, t, e⟩) :: e.nodes
  | .fn f => fnNodes f
  | .trait ⟨i, p, n, gs, fs⟩ => .stmt (.trait ⟨i, p, n, gs, fs⟩) :: methodNodes fs
  | .impl ⟨i, p, gs, t, ft, fs⟩ => .stmt (.impl ⟨i, p, gs, t, ft, fs⟩) :: methodNodes fs
  | .type d => .stmt (.type d) :: d.fieldDefs.map .fieldDef
  | .ret i e => .stmt (.ret i e) :: optExprNodes e
  | .expr i e => .stmt (.expr i e) :: e.nodes

def stmtNodes : List Stmt → List Node
  | [] => []
  | s :: ss => s.nodes ++ stmtNodes ss

def fnNodes : FnDef Stmt → List Node
  | ⟨i, p, n, gs, ps, r, b⟩ => .stmt (.fn ⟨i, p, n, gs, ps, r, b⟩) :: ps.map .param ++ optBlockNodes b

def methodNodes : List (FnDef Stmt) → List Node
  | [] => []
  | f :: fs => fnNodes f ++ methodNodes fs

end

def Module.nodes (m : Module) : List Node := .module m :: stmtNodes m.statements

end TraitCheck.Syntax
