import TraitCheck.Proofs.Syntax.Form
import TraitCheck.Syntax.Visit

/-! Properties of nodes that pass on to their parts, and so to everything that is written in them. -/

namespace TraitCheck.Syntax

/-- A property of the nodes with some numbers that passes on to their parts. -/
structure Hereditary (F : Form) where
  Holds : Nat → Prop
  parts : ∀ id, Holds id → ∀ p ∈ (F.node id).parts, Holds p

variable {F : Form} (H : Hereditary F) {k l : List Node}

def Within (l : List Node) : Prop := ∀ x, .expr x ∈ l → x.Fits F ∧ H.Holds x.info.id

variable {H}

/-! ### Lists of nodes -/

@[simp] lemma within_nil : Within H [] := by simp [Within]

@[simp] lemma within_append : Within H (k ++ l) ↔ Within H k ∧ Within H l := by
  refine ⟨fun h => ⟨fun x hx => h x (List.mem_append_left _ hx), fun x hx => h x (List.mem_append_right _ hx)⟩, ?_⟩
  exact fun h x hx => (List.mem_append.mp hx).elim (h.1 x) (h.2 x)

@[simp] lemma within_expr {x : Expr} : Within H (.expr x :: l) ↔ (x.Fits F ∧ H.Holds x.info.id) ∧ Within H l := by
  refine ⟨fun h => ⟨h x (List.mem_cons_self ..), fun y hy => h y (List.mem_cons_of_mem _ hy)⟩, fun h y hy => ?_⟩
  obtain heq | hy := List.mem_cons.mp hy
  · exact Node.expr.inj heq ▸ h.1
  · exact h.2 y hy

@[simp] lemma within_stmt {s : Stmt} : Within H (.stmt s :: l) ↔ Within H l := by simp [Within]

@[simp] lemma within_clause {c : Arm} : Within H (.clause c :: l) ↔ Within H l := by simp [Within]

@[simp] lemma within_pattern {p : Pattern} : Within H (.pattern p :: l) ↔ Within H l := by simp [Within]

@[simp] lemma within_params (ps : List Param) : Within H (ps.map .param) := by simp [Within]

@[simp] lemma within_fieldDefs (fs : List FieldDef) : Within H (fs.map .fieldDef) := by simp [Within]

lemma within_flatMap {α : Type} {f : α → List Node} {l : List α} (h : ∀ a ∈ l, Within H (f a)) :
    Within H (l.flatMap f) := by
  intro x hx
  obtain ⟨a, ha, hx⟩ := List.mem_flatMap.mp hx
  exact h a ha x hx

/-! ### Patterns -/

mutual

lemma Pattern.within : (p : Pattern) → p.Fits F → (∀ q ∈ p.parts, H.Holds q) → Within H p.nodes
  | .bind _ _, _, _ | .hole _, _, _ => by simp [Pattern.nodes]
  | .literal _ l, hp, h => by
    have hliteral : (Expr.literal l).Fits F := by
      refine ⟨fun _ => .literal l, ?_⟩
      rw [Expr.marks, Form.marks_cons]
      exact ⟨hp.literal, Form.marks_nil⟩
    rw [Pattern.nodes, within_pattern, within_expr]
    exact ⟨⟨hliteral, h l.info.id (by simp [Pattern.parts])⟩, within_nil⟩
  | .variant _ _ fs, hp, h => by
    simpa [Pattern.nodes] using fieldPatterns_within fs hp.variant.2.2 (by simpa [Pattern.parts] using h)

lemma fieldPatterns_within : (fs : List (FieldPattern Pattern)) → (∀ f ∈ fs, ∀ p, f.pattern = some p → p.Fits F) →
    (∀ q ∈ fieldParts fs, H.Holds q) → Within H (fieldNodes fs)
  | [], _, _ => by simp [fieldNodes]
  | ⟨i, n, some p⟩ :: fs, hfs, h => by
    rw [fieldParts, List.forall_mem_append] at h
    rw [fieldNodes, within_append]
    refine ⟨p.within (hfs ⟨i, n, some p⟩ (by simp) p rfl) h.1, ?_⟩
    exact fieldPatterns_within fs (fun f hf => hfs f (List.mem_cons_of_mem _ hf)) h.2
  | ⟨_, _, none⟩ :: fs, hfs, h => by
    rw [fieldParts] at h
    rw [fieldNodes]
    exact fieldPatterns_within fs (fun f hf => hfs f (List.mem_cons_of_mem _ hf)) h

end

/-! ### Expressions and statements -/

lemma Hereditary.of_fits {x : Expr} (hx : x.Fits F) (h : H.Holds x.info.id) : ∀ p ∈ x.parts, H.Holds p :=
  hx.parts ▸ H.parts _ h

mutual

lemma Expr.within : (x : Expr) → x.Fits F → H.Holds x.info.id → Within H x.nodes
  | .ident i, hx, h => by simpa [Expr.nodes] using ⟨hx, h⟩
  | .literal l, hx, h => by simpa [Expr.nodes] using ⟨hx, h⟩
  | .call i f as, hx, h => by
    have hparts := Hereditary.of_fits hx h
    simp only [Expr.parts, List.forall_mem_cons] at hparts
    simp only [Expr.nodes, List.cons_append, within_expr, within_append]
    exact ⟨⟨hx, h⟩, f.within hx.call.1 hparts.1, exprs_within as hx.call.2 hparts.2⟩
  | .method i r n ts as, hx, h => by
    have hparts := Hereditary.of_fits hx h
    simp only [Expr.parts, List.forall_mem_cons] at hparts
    simp only [Expr.nodes, List.cons_append, within_expr, within_append]
    exact ⟨⟨hx, h⟩, r.within hx.method.1 hparts.1, exprs_within as hx.method.2.2 hparts.2⟩
  | .field i r n, hx, h => by
    have hparts := Hereditary.of_fits hx h
    rw [Expr.nodes, within_expr]
    exact ⟨⟨hx, h⟩, r.within hx.field (hparts _ (by simp [Expr.parts]))⟩
  | .binary i o l r, hx, h => by
    have hparts := Hereditary.of_fits hx h
    simp only [Expr.nodes, List.cons_append, within_expr, within_append]
    exact ⟨⟨hx, h⟩, l.within hx.binary.1 (hparts _ (by simp [Expr.parts])), r.within hx.binary.2 (hparts _ (by simp [Expr.parts]))⟩
  | .unary i o e, hx, h => by
    have hparts := Hereditary.of_fits hx h
    rw [Expr.nodes, within_expr]
    exact ⟨⟨hx, h⟩, e.within hx.unary (hparts _ (by simp [Expr.parts]))⟩
  | .closure ⟨i, ps, r, b⟩, hx, h => by
    have hparts := Hereditary.of_fits hx h
    simp only [Expr.nodes, List.cons_append, within_expr, within_append]
    exact ⟨⟨hx, h⟩, within_params ps, block_within b hx.closure.2.2.2 (hparts _ (by simp [Expr.parts]))⟩
  | .cond i c y n, hx, h => by
    obtain ⟨hc, hy, hn⟩ := hx.cond
    have hparts := Hereditary.of_fits hx h
    simp only [Expr.parts, List.forall_mem_cons] at hparts
    simp only [Expr.nodes, List.cons_append, within_expr, within_append]
    exact ⟨⟨hx, h⟩, ⟨c.within hc hparts.1, block_within y hy hparts.2.1⟩, optBlock_within n hn hparts.2.2⟩
  | .switch i e cs, hx, h => by
    have hparts := Hereditary.of_fits hx h
    simp only [Expr.parts, List.forall_mem_cons] at hparts
    simp only [Expr.nodes, List.cons_append, within_expr, within_append]
    exact ⟨⟨hx, h⟩, e.within hx.switch.1 hparts.1, clauses_within cs hx.switch.2 hparts.2⟩
  | .list i es, hx, h => by
    have hparts := Hereditary.of_fits hx h
    rw [Expr.nodes, within_expr]
    exact ⟨⟨hx, h⟩, exprs_within es hx.list hparts⟩
  | .block b, hx, h => block_within b hx.block h

lemma exprs_within : (es : List Expr) → (∀ x ∈ es, x.Fits F) → (∀ p ∈ es.map (·.info.id), H.Holds p) →
    Within H (exprNodes es)
  | [], _, _ => by simp [exprNodes]
  | e :: es, hes, h => by
    rw [List.forall_mem_cons] at hes
    rw [List.map_cons, List.forall_mem_cons] at h
    rw [exprNodes, within_append]
    exact ⟨e.within hes.1 h.1, exprs_within es hes.2 h.2⟩

lemma optExpr_within : (e : Option Expr) → (∀ x, e = some x → x.Fits F) → (∀ p ∈ e.toList.map (·.info.id), H.Holds p) →
    Within H (optExprNodes e)
  | none, _, _ => by simp [optExprNodes]
  | some e, he, h => e.within (he e rfl) (h _ (by simp))

lemma block_within : (b : Block Stmt) → Body.Fits F b → H.Holds b.info.id → Within H (blockNodes b)
  | ⟨i, ss⟩, hb, h => by
    have hparts := Hereditary.of_fits hb.expr h
    rw [blockNodes, within_expr]
    exact ⟨⟨hb.expr, h⟩, stmts_within ss hb.statements hparts⟩

lemma optBlock_within : (b : Option (Block Stmt)) → (∀ c, b = some c → Body.Fits F c) →
    (∀ p ∈ b.toList.map (·.info.id), H.Holds p) → Within H (optBlockNodes b)
  | none, _, _ => by simp [optBlockNodes]
  | some b, hb, h => block_within b (hb b rfl) (h _ (by simp))

lemma clauses_within : (cs : List (Clause Expr Stmt)) → (∀ c ∈ cs, Arm.Fits F c) → (∀ p ∈ cs.flatMap Arm.parts, H.Holds p) →
    Within H (clauseNodes cs)
  | [], _, _ => by simp [clauseNodes]
  | ⟨i, ps, g, b⟩ :: cs, hcs, h => by
    rw [List.forall_mem_cons] at hcs
    simp only [List.flatMap_cons, Arm.parts, List.forall_mem_append] at h
    obtain ⟨⟨hps, hg, hb⟩, hrest⟩ := h
    simp only [clauseNodes, List.cons_append, within_clause, within_append]
    refine ⟨⟨⟨within_flatMap fun p hp => p.within (hcs.1.patterns p hp) fun q hq => ?_, optExpr_within g hcs.1.guard hg⟩,
      block_within b hcs.1.body (hb _ (by simp))⟩, clauses_within cs hcs.2 hrest⟩
    exact hps q (List.mem_flatMap.mpr ⟨p, hp, hq⟩)

lemma Stmt.within : (s : Stmt) → s.Fits F → (∀ p ∈ s.parts, H.Holds p) → Within H s.nodes
  | .var ⟨i, p, n, t, e⟩, hs, h => by
    rw [Stmt.nodes, within_stmt]
    exact e.within hs.var.2.2 (h _ (by simp [Stmt.parts]))
  | .fn f, hs, h => fn_within f hs h
  | .trait ⟨i, p, n, gs, fs⟩, hs, h => by
    rw [Stmt.nodes, within_stmt]
    exact methods_within fs hs.trait.2 h
  | .impl ⟨i, p, gs, t, ft, fs⟩, hs, h => by
    rw [Stmt.nodes, within_stmt]
    exact methods_within fs hs.impl.2.2.2 h
  | .type d, _, _ => by simp [Stmt.nodes]
  | .ret i e, hs, h => by
    rw [Stmt.nodes, within_stmt]
    exact optExpr_within e hs.ret h
  | .expr i e, hs, h => by
    rw [Stmt.nodes, within_stmt]
    exact e.within hs.expr (h _ (by simp [Stmt.parts]))

lemma stmts_within : (ss : List Stmt) → (∀ s ∈ ss, s.Fits F) → (∀ p ∈ ss.flatMap Stmt.parts, H.Holds p) →
    Within H (stmtNodes ss)
  | [], _, _ => by simp [stmtNodes]
  | s :: ss, hss, h => by
    rw [List.forall_mem_cons] at hss
    rw [List.flatMap_cons, List.forall_mem_append] at h
    rw [stmtNodes, within_append]
    exact ⟨s.within hss.1 h.1, stmts_within ss hss.2 h.2⟩

lemma fn_within : (f : FnDef Stmt) → Fn.Fits F f → (∀ p ∈ Fn.parts f, H.Holds p) → Within H (fnNodes f)
  | ⟨i, p, n, gs, ps, r, b⟩, hf, h => by
    simp only [fnNodes, List.cons_append, within_stmt, within_append]
    exact ⟨within_params ps, optBlock_within b hf.fn.2.2.2.2 h⟩

lemma methods_within : (fs : List (FnDef Stmt)) → (∀ f ∈ fs, Fn.Fits F f) → (∀ p ∈ fs.flatMap Fn.parts, H.Holds p) →
    Within H (methodNodes fs)
  | [], _, _ => by simp [methodNodes]
  | f :: fs, hfs, h => by
    rw [List.forall_mem_cons] at hfs
    rw [List.flatMap_cons, List.forall_mem_append] at h
    rw [methodNodes, within_append]
    exact ⟨fn_within f hfs.1 h.1, methods_within fs hfs.2 h.2⟩

end

/-! ### Modules -/

lemma mem_stmtNodes {n : Node} {l : List Stmt} : n ∈ stmtNodes l ↔ ∃ s ∈ l, n ∈ s.nodes := by
  induction l with
  | nil => simp [stmtNodes]
  | cons s l ih => simp [stmtNodes, ih]

lemma exists_of_mem_nodes {m : Module} {x : Expr} (h : .expr x ∈ m.nodes) : ∃ s ∈ m.statements, .expr x ∈ s.nodes := by
  obtain heq | h := List.mem_cons.mp h
  · cases heq
  · exact mem_stmtNodes.mp h

lemma Stmt.Fits.expr_of_mem {s : Stmt} (h : s.Fits F) {x : Expr} (hx : .expr x ∈ s.nodes) : x.Fits F := by
  let all : Hereditary F := ⟨fun _ => True, fun _ _ _ _ => trivial⟩
  exact (Stmt.within (H := all) s h (fun _ _ => trivial) x hx).1

end TraitCheck.Syntax
