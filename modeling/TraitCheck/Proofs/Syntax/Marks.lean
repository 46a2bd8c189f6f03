import TraitCheck.Proofs.Syntax.WellFormed

/-! The nodes of a tree by their numbers. Numbering tells all of them apart, so that a number says whether its node is a
closure and which nodes are its parts. It keeps trees well-formed. -/

namespace TraitCheck.Syntax

/-- The number of a node, whether the node is a closure, and the numbers of the expressions in it that are checked on the
way to its type. -/
structure Mark where
  id : Nat
  isClosure : Bool
  parts : List Nat

def Info.mark (i : Info) : Mark := ⟨i.id, false, []⟩

/-! ### Parts -/

mutual

def Pattern.parts : Pattern → List Nat
  | .bind _ _ | .hole _ => []
  | .literal _ l => [l.info.id]
  | .variant _ _ fs => fieldParts fs

def fieldParts : List (FieldPattern Pattern) → List Nat
  | [] => []
  | ⟨_, _, some p⟩ :: fs => p.parts ++ fieldParts fs
  | ⟨_, _, none⟩ :: fs => fieldParts fs

end

def Fn.parts (f : Fn) : List Nat := f.body.toList.map (·.info.id)

def Stmt.parts : Stmt → List Nat
  | .var d => [d.value.info.id]
  | .fn f => Fn.parts f
  | .trait d => d.methods.flatMap Fn.parts
  | .impl d => d.methods.flatMap Fn.parts
  | .type _ => []
  | .ret _ e => e.toList.map (·.info.id)
  | .expr _ e => [e.info.id]

def Arm.parts (c : Arm) : List Nat :=
  c.patterns.flatMap Pattern.parts ++ (c.guard.toList.map (·.info.id) ++ [c.body.info.id])

def Expr.parts : Expr → List Nat
  | .ident _ | .literal _ => []
  | .call _ f as => f.info.id :: as.map (·.info.id)
  | .method _ r _ _ as => r.info.id :: as.map (·.info.id)
  | .field _ r _ => [r.info.id]
  | .binary _ _ l r => [l.info.id, r.info.id]
  | .unary _ _ e => [e.info.id]
  | .closure c => [c.body.info.id]
  | .cond _ c y n => c.info.id :: y.info.id :: n.toList.map (·.info.id)
  | .switch _ e cs => e.info.id :: cs.flatMap Arm.parts
  | .list _ es => es.map (·.info.id)
  | .block b => b.statements.flatMap Stmt.parts

def Expr.isClosure : Expr → Bool
  | .closure _ => true
  | _ => false

def Expr.mark (e : Expr) : Mark := ⟨e.info.id, e.isClosure, e.parts⟩

@[simp] lemma Info.mark_id (i : Info) : i.mark.id = i.id := rfl

@[simp] lemma Expr.mark_id (e : Expr) : e.mark.id = e.info.id := rfl

/-! ### Marks of trees -/

mutual

def Pattern.marks : Pattern → List Mark
  | .bind i _ | .hole i => [i.mark]
  | .literal i l => [i.mark, l.info.mark]
  | .variant i n fs => i.mark :: n.info.mark :: fieldMarks fs

def fieldMarks : List (FieldPattern Pattern) → List Mark
  | [] => []
  | ⟨_, _, some p⟩ :: fs => p.marks ++ fieldMarks fs
  | ⟨_, _, none⟩ :: fs => fieldMarks fs

end

def Variant.marks (v : Variant) : List Mark := v.fields.map (·.info.mark)

mutual

def Expr.marks : Expr → List Mark
  | .ident i => [(Expr.ident i).mark]
  | .literal l => [(Expr.literal l).mark]
  | .call i f as => (Expr.call i f as).mark :: (f.marks ++ exprMarks as)
  | .method i r n ts as => (Expr.method i r n ts as).mark :: (r.marks ++ exprMarks as)
  | .field i r n => (Expr.field i r n).mark :: r.marks
  | .binary i o l r => (Expr.binary i o l r).mark :: (l.marks ++ r.marks)
  | .unary i o e => (Expr.unary i o e).mark :: e.marks
  | .closure ⟨i, ps, r, b⟩ => (Expr.closure ⟨i, ps, r, b⟩).mark :: (ps.map (·.info.mark) ++ blockMarks b)
  | .cond i c y n => (Expr.cond i c y n).mark :: (c.marks ++ (blockMarks y ++ optBlockMarks n))
  | .switch i e cs => (Expr.switch i e cs).mark :: (e.marks ++ clauseMarks cs)
  | .list i es => (Expr.list i es).mark :: exprMarks es
  | .block b => blockMarks b

def exprMarks : List Expr → List Mark
  | [] => []
  | e :: es => e.marks ++ exprMarks es

def optExprMarks : Option Expr → List Mark
  | none => []
  | some e => e.marks

def blockMarks : Block Stmt → List Mark
  | ⟨i, ss⟩ => (Expr.block ⟨i, ss⟩).mark :: stmtMarks ss

def optBlockMarks : Option (Block Stmt) → List Mark
  | none => []
  | some b => blockMarks b

def clauseMarks : List (Clause Expr Stmt) → List Mark
  | [] => []
  | ⟨_, ps, g, b⟩ :: cs => ps.flatMap Pattern.marks ++ (optExprMarks g ++ (blockMarks b ++ clauseMarks cs))

def Stmt.marks : Stmt → List Mark
  | .var ⟨i, _, _, _, e⟩ => ⟨i.id, false, [e.info.id]⟩ :: e.marks
  | .fn f => fnMarks f
  | .trait ⟨i, _, _, _, fs⟩ => i.mark :: methodMarks fs
  | .impl ⟨i, _, _, _, _, fs⟩ => i.mark :: methodMarks fs
  | .type d => d.info.mark :: d.variants.flatMap Variant.marks
  | .ret i e => i.mark :: optExprMarks e
  | .expr i e => i.mark :: e.marks

def stmtMarks : List Stmt → List Mark
  | [] => []
  | s :: ss => s.marks ++ stmtMarks ss

def fnMarks : FnDef Stmt → List Mark
  | ⟨i, _, _, _, ps, _, b⟩ => i.mark :: (ps.map (·.info.mark) ++ optBlockMarks b)

def methodMarks : List (FnDef Stmt) → List Mark
  | [] => []
  | f :: fs => fnMarks f ++ methodMarks fs

end

/-! ### Numbering -/

def ids (l : List Mark) : List Nat := l.map (·.id)

@[simp] lemma ids_nil : ids [] = [] := rfl

@[simp] lemma ids_cons (m : Mark) (l : List Mark) : ids (m :: l) = m.id :: ids l := rfl

@[simp] lemma ids_append (k l : List Mark) : ids (k ++ l) = ids k ++ ids l := List.map_append

@[simp] lemma ids_map {α : Type} (f : α → Info) (l : List α) : ids (l.map fun a => (f a).mark) = l.map fun a => (f a).id :=
  List.map_map

@[simp] lemma ids_flatMap {α : Type} (f : α → List Mark) (l : List α) : ids (l.flatMap f) = l.flatMap fun a => ids (f a) :=
  List.map_flatMap

structure Ascends (low high : Nat) (l : List Nat) : Prop where
  le : low ≤ high
  within : ∀ n ∈ l, low ≤ n ∧ n < high
  sorted : l.Pairwise (· < ·)

lemma Ascends.nil (n : Nat) : Ascends n n [] := ⟨Nat.le_refl n, by simp, .nil⟩

lemma Ascends.append {low mid high : Nat} {k l : List Nat} (hk : Ascends low mid k) (hl : Ascends mid high l) :
    Ascends low high (k ++ l) := by
  have := hk.le
  have := hl.le
  refine ⟨by omega, fun m hm => ?_, List.pairwise_append.mpr ⟨hk.sorted, hl.sorted, fun m hm n hn => ?_⟩⟩
  · obtain hm | hm := List.mem_append.mp hm
    · have := hk.within m hm
      omega
    · have := hl.within m hm
      omega
  · have := hk.within m hm
    have := hl.within n hn
    omega

section

variable {α β : Type}

/-- Steps that use the given numbers of their result up, in order. The result of what was well-formed is as described. -/
def Marking (wf : Prop) (P : α → Prop) (used : α → List Nat) (x : Numbering α) : Prop :=
  ∀ n, Ascends n (x.run n).2 (used (x.run n).1) ∧ (wf → P (x.run n).1)

def MarkingAfter (done : List Nat) (wf : Prop) (P : α → Prop) (used : α → List Nat) (x : Numbering α) : Prop :=
  ∀ low n, Ascends low n done → Ascends low (x.run n).2 (used (x.run n).1) ∧ (wf → P (x.run n).1)

variable {done : List Nat} {wf wf' : Prop} {P : α → Prop} {Q : β → Prop} {used : α → List Nat} {used' : β → List Nat}
  {x : Numbering α}

lemma Marking.after (h : MarkingAfter [] wf P used x) : Marking wf P used x := fun n => h n n (.nil n)

lemma MarkingAfter.pure {a : α} (h : used a = done) (ha : wf → P a) : MarkingAfter done wf P used (Pure.pure a) := by
  intro low n hdone
  rw [← h] at hdone
  exact ⟨hdone, ha⟩

lemma Marking.pure {a : α} (h : used a = []) (ha : wf → P a) : Marking wf P used (Pure.pure a) := .after (.pure h ha)

lemma MarkingAfter.bind {f : α → Numbering β} (hx : Marking wf' P used x) (hwf : wf → wf')
    (hf : ∀ a, (wf → P a) → MarkingAfter (done ++ used a) wf Q used' (f a)) : MarkingAfter done wf Q used' (x >>= f) :=
  fun low n hdone => hf _ (fun h => (hx n).2 (hwf h)) low _ (hdone.append (hx n).1)

lemma MarkingAfter.info (i : Info) {f : Info → Numbering β} (hf : ∀ j, MarkingAfter (done ++ [j.id]) wf Q used' (f j)) :
    MarkingAfter done wf Q used' (i.number >>= f) := by
  intro low n hdone
  refine hf _ low _ (hdone.append ⟨Nat.le_succ n, fun m hm => ?_, List.pairwise_singleton _ _⟩)
  obtain rfl := List.mem_singleton.mp hm
  exact ⟨Nat.le_refl _, Nat.lt_succ_self _⟩

lemma MarkingAfter.skip (i : Info) {f : Info → Numbering β} (hf : ∀ j, MarkingAfter done wf Q used' (f j)) :
    MarkingAfter done wf Q used' (i.number >>= f) := by
  intro low n hdone
  have hskip : Ascends low (n + 1) (done ++ []) := hdone.append ⟨Nat.le_succ n, by simp, .nil⟩
  rw [List.append_nil] at hskip
  exact hf _ low _ hskip

lemma Marking.mapM {l : List α} {f : α → Numbering β} {wf : α → Prop} (h : ∀ a ∈ l, Marking (wf a) Q used' (f a)) :
    Marking (∀ a ∈ l, wf a) (fun bs => ∀ b ∈ bs, Q b) (fun bs => bs.flatMap used') (l.mapM f) := by
  induction l with
  | nil => exact .pure rfl (by simp)
  | cons a l ih =>
    rw [List.mapM_cons]
    refine .after (.bind (h a (by simp)) (fun hwf => hwf a (by simp)) fun b hb => ?_)
    refine .bind (ih fun c hc => h c (List.mem_cons_of_mem _ hc)) (fun hwf c hc => hwf c (List.mem_cons_of_mem _ hc)) ?_
    exact fun bs hbs => .pure (by simp) fun hwf => List.forall_mem_cons.mpr ⟨hb hwf, hbs hwf⟩

end

mutual

lemma TypeExpr.marking : (t : TypeExpr) → Marking t.WellFormed TypeExpr.WellFormed (fun _ => []) t.number
  | .named i _ as => by
    rw [TypeExpr.number]
    refine .after (.skip i fun _ => .bind (types_marking as) (fun h => by cases h; assumption) fun _ has => ?_)
    exact .pure rfl fun h => .named _ (by cases h; assumption) (has h)
  | .fn i gs ps r => by
    rw [TypeExpr.number]
    refine .after (.skip i fun _ => .bind (generics_marking gs) (fun h => by cases h; assumption) fun _ hgs => ?_)
    refine .bind (types_marking ps) (fun h => by cases h; assumption) fun _ hps => ?_
    refine .bind (optType_marking r) (fun h => by cases h; assumption) fun _ hr => ?_
    exact .pure rfl fun h => .fn _ (hgs h) (hps h) (hr h)
  | .hole i => .after (.skip i fun _ => .pure rfl fun _ => .hole _)

lemma types_marking : (ts : List TypeExpr) → Marking (∀ t ∈ ts, t.WellFormed) (fun ts => ∀ t ∈ ts, TypeExpr.WellFormed t)
    (fun _ => []) (numberTypes ts)
  | [] => .pure rfl (by simp)
  | t :: ts => by
    rw [numberTypes]
    refine .after (.bind t.marking (fun h => h t (by simp)) fun _ ht => ?_)
    refine .bind (types_marking ts) (fun h u hu => h u (List.mem_cons_of_mem _ hu)) fun _ hts => ?_
    exact .pure rfl fun h => List.forall_mem_cons.mpr ⟨ht h, hts h⟩

lemma optType_marking : (t : Option TypeExpr) → Marking (∀ u, t = some u → u.WellFormed)
    (fun t => ∀ u, t = some u → TypeExpr.WellFormed u) (fun _ => []) (numberOptType t)
  | none => .pure rfl (by simp)
  | some t => by
    rw [numberOptType]
    exact .after (.bind t.marking (fun h => h t rfl) fun _ ht => .pure rfl (by simpa using ht))

lemma generics_marking : (gs : List GenericDecl) → Marking (∀ g ∈ gs, g.WellFormed)
    (fun gs => ∀ g ∈ gs, GenericDecl.WellFormed g) (fun _ => []) (numberGenerics gs)
  | [] => .pure rfl (by simp)
  | ⟨i, n, bs⟩ :: gs => by
    rw [numberGenerics]
    refine .after (.skip i fun _ => .bind (types_marking bs) (fun h => h ⟨i, n, bs⟩ (by simp)) fun _ hbs => ?_)
    refine .bind (generics_marking gs) (fun h g hg => h g (List.mem_cons_of_mem _ hg)) fun _ hgs => ?_
    exact .pure rfl fun h => List.forall_mem_cons.mpr ⟨hbs h, hgs h⟩

end

lemma someType_marking (t : Option TypeExpr) : Marking (∃ u, t = some u ∧ u.WellFormed)
    (fun t => ∃ u, t = some u ∧ TypeExpr.WellFormed u) (fun _ => []) (numberOptType t) := by
  cases t with
  | none => exact .pure rfl (by simp)
  | some t =>
    rw [numberOptType]
    exact .after (.bind t.marking (by simp) fun u hu => .pure rfl fun h => ⟨u, rfl, hu h⟩)

lemma Param.marking (p : Param) : Marking p.WellFormed Param.WellFormed (fun p => [p.info.id]) p.number :=
  .after (.info p.info fun _ => .bind (optType_marking p.type) (fun h => h) fun _ ht => .pure (by simp) ht)

lemma params_marking (ps : List Param) : Marking (∀ p ∈ ps, p.WellFormed) (fun ps => ∀ p ∈ ps, Param.WellFormed p)
    (fun ps => ps.map (·.info.id)) (ps.mapM Param.number) := by
  have h := Marking.mapM (l := ps) fun p _ => p.marking
  simpa only [← List.map_eq_flatMap] using h

lemma FieldDef.marking (f : FieldDef) : Marking f.WellFormed FieldDef.WellFormed (fun f => [f.info.id]) f.number :=
  .after (.info f.info fun _ => .bind (someType_marking f.type) (fun h => h) fun _ ht => .pure (by simp) ht)

lemma Variant.marking (v : Variant) : Marking (∀ f ∈ v.fields, f.WellFormed)
    (fun v => ∀ f ∈ Variant.fields v, f.WellFormed) (fun x => ids (Variant.marks x)) v.number := by
  refine .after (.skip v.info fun _ => .bind (Marking.mapM fun f _ => f.marking) (fun h => h) fun _ hfs => .pure ?_ hfs)
  simp [Variant.marks, ← List.map_eq_flatMap]

lemma Literal.marking (l : Literal) : Marking True (fun _ => True) (fun l => [l.info.id]) l.number :=
  .after (.info l.info fun _ => .pure (by simp) fun h => h)

lemma Ident.marking (i : Ident) : Marking i.WellFormed Ident.WellFormed (fun i => [i.info.id]) i.number :=
  .after (.info i.info fun _ => .bind (types_marking i.args) (·.args) fun _ has =>
    .pure (by simp) fun h => ⟨h.names, has h⟩)

mutual

lemma Pattern.marking : (p : Pattern) → Marking p.WellFormed Pattern.WellFormed (fun x => ids (Pattern.marks x)) p.number
  | .bind i n => .after (.info i fun _ => .pure (by simp [Pattern.marks]) fun _ => .bind _ n)
  | .hole i => .after (.info i fun _ => .pure (by simp [Pattern.marks]) fun _ => .hole _)
  | .literal i l => .after (.info i fun _ => .bind l.marking (fun _ => trivial) fun _ _ =>
      .pure (by simp [Pattern.marks]) fun _ => .literal _ _)
  | .variant i n fs => by
    rw [Pattern.number]
    refine .after (.info i fun _ => .bind n.marking (fun h => by cases h; assumption) fun _ hn => ?_)
    refine .bind (fields_marking fs) (fun h => by cases h; assumption) fun _ hfs => ?_
    exact .pure (by simp [Pattern.marks]) fun h => .variant _ (hn h) (hfs h)

lemma fields_marking : (fs : List (FieldPattern Pattern)) → Marking (∀ f ∈ fs, ∀ p, f.pattern = some p → p.WellFormed)
    (fun fs => ∀ f ∈ fs, ∀ p, f.pattern = some p → Pattern.WellFormed p) (fun x => ids (fieldMarks x))
    (numberFieldPatterns fs)
  | [] => .pure rfl (by simp)
  | ⟨i, n, some p⟩ :: fs => by
    rw [numberFieldPatterns]
    refine .after (.skip i fun _ => .bind p.marking (fun h => h ⟨i, n, some p⟩ (by simp) p rfl) fun _ hp => ?_)
    refine .bind (fields_marking fs) (fun h f hf => h f (List.mem_cons_of_mem _ hf)) fun _ hfs => ?_
    exact .pure (by simp [fieldMarks]) fun h => List.forall_mem_cons.mpr ⟨by simpa using hp h, hfs h⟩
  | ⟨i, n, none⟩ :: fs => by
    rw [numberFieldPatterns]
    refine .after (.skip i fun _ => ?_)
    refine .bind (fields_marking fs) (fun h f hf => h f (List.mem_cons_of_mem _ hf)) fun _ hfs => ?_
    exact .pure (by simp [fieldMarks]) fun h => List.forall_mem_cons.mpr ⟨by simp, hfs h⟩

end

mutual

lemma Expr.marking : (e : Expr) → Marking e.WellFormed Expr.WellFormed (fun x => ids (Expr.marks x)) e.number
  | .ident i => .after (.bind i.marking (fun h => by cases h; assumption) fun _ hi =>
      .pure (by simp [Expr.marks, Expr.info]) fun h => .ident (hi h))
  | .literal l => .after (.bind l.marking (fun _ => trivial) fun _ _ =>
      .pure (by simp [Expr.marks, Expr.info]) fun _ => .literal _)
  | .call i f as => by
    rw [Expr.number]
    refine .after (.info i fun _ => .bind f.marking (fun h => by cases h; assumption) fun _ hf => ?_)
    refine .bind (exprs_marking as) (fun h => by cases h; assumption) fun _ has => ?_
    exact .pure (by simp [Expr.marks, Expr.info]) fun h => .call _ (hf h) (has h)
  | .method i r n ts as => by
    rw [Expr.number]
    refine .after (.info i fun _ => .bind r.marking (fun h => by cases h; assumption) fun _ hr => ?_)
    refine .bind (types_marking ts) (fun h => by cases h; assumption) fun _ hts => ?_
    refine .bind (exprs_marking as) (fun h => by cases h; assumption) fun _ has => ?_
    exact .pure (by simp [Expr.marks, Expr.info]) fun h => .method _ n (hr h) (hts h) (has h)
  | .field i r n => by
    rw [Expr.number]
    refine .after (.info i fun _ => .bind r.marking (fun h => by cases h; assumption) fun _ hr => ?_)
    exact .pure (by simp [Expr.marks, Expr.info]) fun h => .field _ n (hr h)
  | .binary i o l r => by
    rw [Expr.number]
    refine .after (.info i fun _ => .bind l.marking (fun h => by cases h; assumption) fun _ hl => ?_)
    refine .bind r.marking (fun h => by cases h; assumption) fun _ hr => ?_
    exact .pure (by simp [Expr.marks, Expr.info]) fun h => .binary _ o (hl h) (hr h)
  | .unary i o e => by
    rw [Expr.number]
    refine .after (.info i fun _ => .bind e.marking (fun h => by cases h; assumption) fun _ he => ?_)
    exact .pure (by simp [Expr.marks, Expr.info]) fun h => .unary _ o (he h)
  | .closure ⟨i, ps, r, b⟩ => by
    rw [Expr.number]
    refine .after (.info i fun _ => .bind (params_marking ps) (fun h => by cases h; assumption) fun _ hps => ?_)
    refine .bind (optType_marking r) (fun h => by cases h; assumption) fun _ hr => ?_
    refine .bind (block_marking b) (fun h => by cases h; assumption) fun _ hb => ?_
    exact .pure (by simp [Expr.marks, Expr.info]) fun h => .closure (hps h) (hr h) (hb h)
  | .cond i c y n => by
    rw [Expr.number]
    refine .after (.info i fun _ => .bind c.marking (fun h => by cases h; assumption) fun _ hc => ?_)
    refine .bind (block_marking y) (fun h => by cases h; assumption) fun _ hy => ?_
    refine .bind (optBlock_marking n) (fun h => by cases h; assumption) fun _ hn => ?_
    exact .pure (by simp [Expr.marks, Expr.info]) fun h => .cond _ (hc h) (hy h) (hn h)
  | .switch i e cs => by
    rw [Expr.number]
    refine .after (.info i fun _ => .bind e.marking (fun h => by cases h; assumption) fun _ he => ?_)
    refine .bind (clauses_marking cs) (fun h => ?_) fun _ hcs => .pure (by simp [Expr.marks, Expr.info]) fun h => ?_
    · cases h with
      | switch _ _ hpatterns hguards hbodies => exact fun c hc => ⟨hpatterns c hc, hguards c hc, hbodies c hc⟩
    · exact .switch _ (he h) (fun c hc => (hcs h c hc).patterns) (fun c hc => (hcs h c hc).guard)
        fun c hc => (hcs h c hc).body
  | .list i es => by
    rw [Expr.number]
    refine .after (.info i fun _ => .bind (exprs_marking es) (fun h => by cases h; assumption) fun _ hes => ?_)
    exact .pure (by simp [Expr.marks, Expr.info]) fun h => .list _ (hes h)
  | .block b => by
    rw [Expr.number]
    refine .after (.bind (block_marking b) (fun h => by cases h; assumption) fun _ hb => ?_)
    exact .pure (by simp [Expr.marks]) fun h => .block (hb h)

lemma exprs_marking : (es : List Expr) → Marking (∀ e ∈ es, e.WellFormed) (fun es => ∀ e ∈ es, Expr.WellFormed e)
    (fun x => ids (exprMarks x)) (numberExprs es)
  | [] => .pure rfl (by simp)
  | e :: es => by
    rw [numberExprs]
    refine .after (.bind e.marking (fun h => h e (by simp)) fun _ he => ?_)
    refine .bind (exprs_marking es) (fun h e he => h e (List.mem_cons_of_mem _ he)) fun _ hes => ?_
    exact .pure (by simp [exprMarks]) fun h => List.forall_mem_cons.mpr ⟨he h, hes h⟩

lemma optExpr_marking : (e : Option Expr) → Marking (∀ f, e = some f → f.WellFormed)
    (fun e => ∀ f, e = some f → Expr.WellFormed f) (fun x => ids (optExprMarks x)) (numberOptExpr e)
  | none => .pure rfl (by simp)
  | some e => by
    rw [numberOptExpr]
    refine .after (.bind e.marking (fun h => h e rfl) fun _ he => .pure (by simp [optExprMarks]) ?_)
    simpa using he

lemma block_marking : (b : Block Stmt) → Marking (Body.WellFormed b) Body.WellFormed (fun x => ids (blockMarks x))
    (numberBlock b)
  | ⟨i, ss⟩ => by
    rw [numberBlock]
    refine .after (.info i fun _ => .bind (stmts_marking ss) (fun h => h) fun _ hss => ?_)
    exact .pure (by simp [blockMarks, Expr.info]) hss

lemma optBlock_marking : (b : Option (Block Stmt)) → Marking (∀ c, b = some c → Body.WellFormed c)
    (fun b => ∀ c, b = some c → Body.WellFormed c) (fun x => ids (optBlockMarks x)) (numberOptBlock b)
  | none => .pure rfl (by simp)
  | some b => by
    rw [numberOptBlock]
    refine .after (.bind (block_marking b) (fun h => h b rfl) fun _ hb => .pure (by simp [optBlockMarks]) ?_)
    simpa using hb

lemma clauses_marking : (cs : List (Clause Expr Stmt)) → Marking (∀ c ∈ cs, Arm.WellFormed c)
    (fun cs => ∀ c ∈ cs, Arm.WellFormed c) (fun x => ids (clauseMarks x)) (numberClauses cs)
  | [] => .pure rfl (by simp)
  | ⟨i, ps, g, b⟩ :: cs => by
    rw [numberClauses]
    have hfirst (h : ∀ c ∈ ⟨i, ps, g, b⟩ :: cs, Arm.WellFormed c) := h ⟨i, ps, g, b⟩ (by simp)
    refine .after (.skip i fun _ => .bind (Marking.mapM fun p _ => p.marking) (fun h => (hfirst h).patterns) fun _ hps => ?_)
    refine .bind (optExpr_marking g) (fun h => (hfirst h).guard) fun _ hg => ?_
    refine .bind (block_marking b) (fun h => (hfirst h).body) fun _ hb => ?_
    refine .bind (clauses_marking cs) (fun h c hc => h c (List.mem_cons_of_mem _ hc)) fun _ hcs => ?_
    exact .pure (by simp [clauseMarks]) fun h => List.forall_mem_cons.mpr ⟨⟨hps h, hg h, hb h⟩, hcs h⟩

lemma Stmt.marking : (s : Stmt) → Marking s.WellFormed Stmt.WellFormed (fun x => ids (Stmt.marks x)) s.number
  | .var ⟨i, p, x, t, e⟩ => by
    rw [Stmt.number]
    refine .after (.info i fun _ => .bind (optType_marking t) (fun h => by cases h; assumption) fun _ ht => ?_)
    refine .bind e.marking (fun h => by cases h; assumption) fun _ he => ?_
    exact .pure (by simp [Stmt.marks]) fun h => .var (ht h) (he h)
  | .fn f => by
    rw [Stmt.number]
    exact .after (.bind (fn_marking f) (fun h => h) fun _ hf => .pure (by simp [Stmt.marks]) hf)
  | .trait ⟨i, p, x, gs, fs⟩ => by
    rw [Stmt.number]
    refine .after (.info i fun _ => .bind (generics_marking gs) (fun h => by cases h; assumption) fun _ hgs => ?_)
    refine .bind (methods_marking fs) (fun h => by cases h; assumption) fun _ hfs => ?_
    exact .pure (by simp [Stmt.marks]) fun h => .trait (hgs h) (hfs h)
  | .impl ⟨i, p, gs, t, ft, fs⟩ => by
    rw [Stmt.number]
    refine .after (.info i fun _ => .bind (generics_marking gs) (fun h => by cases h; assumption) fun _ hgs => ?_)
    refine .bind (optType_marking t) (fun h => by cases h; assumption) fun _ ht => ?_
    refine .bind (someType_marking ft) (fun h => by cases h; assumption) fun _ hft => ?_
    refine .bind (methods_marking fs) (fun h => by cases h; assumption) fun _ hfs => ?_
    exact .pure (by simp [Stmt.marks]) fun h => .impl (hgs h) (ht h) (hft h) (hfs h)
  | .type ⟨i, p, x, gs, vs⟩ => by
    have hdef : Stmt.WellFormed (.type ⟨i, p, x, gs, vs⟩) → TypeDef.WellFormed ⟨i, p, x, gs, vs⟩ := fun h => by
      cases h; assumption
    rw [Stmt.number, TypeDef.number, bind_assoc]
    refine .after (.info i fun _ => ?_)
    rw [bind_assoc]
    refine .bind (generics_marking gs) (fun h => (hdef h).generics) fun _ hgs => ?_
    rw [bind_assoc]
    refine .bind (Marking.mapM fun v _ => v.marking) (fun h => (hdef h).fields) fun _ hvs => ?_
    exact .pure (by simp [Stmt.marks]) fun h => .type ⟨hgs h, hvs h⟩
  | .ret i e => by
    rw [Stmt.number]
    refine .after (.info i fun _ => .bind (optExpr_marking e) (fun h => by cases h; assumption) fun _ he => ?_)
    exact .pure (by simp [Stmt.marks]) fun h => .ret _ (he h)
  | .expr i e => by
    rw [Stmt.number]
    refine .after (.info i fun _ => .bind e.marking (fun h => by cases h; assumption) fun _ he => ?_)
    exact .pure (by simp [Stmt.marks]) fun h => .expr _ (he h)

lemma stmts_marking : (ss : List Stmt) → Marking (∀ s ∈ ss, s.WellFormed) (fun ss => ∀ s ∈ ss, Stmt.WellFormed s)
    (fun x => ids (stmtMarks x)) (numberStmts ss)
  | [] => .pure rfl (by simp)
  | s :: ss => by
    rw [numberStmts]
    refine .after (.bind s.marking (fun h => h s (by simp)) fun _ hs => ?_)
    refine .bind (stmts_marking ss) (fun h t ht => h t (List.mem_cons_of_mem _ ht)) fun _ hss => ?_
    exact .pure (by simp [stmtMarks]) fun h => List.forall_mem_cons.mpr ⟨hs h, hss h⟩

lemma fn_marking : (f : FnDef Stmt) → Marking (Fn.WellFormed f) Fn.WellFormed (fun x => ids (fnMarks x)) (numberFn f)
  | ⟨i, p, x, gs, ps, r, b⟩ => by
    rw [numberFn]
    refine .after (.info i fun _ => .bind (generics_marking gs) (fun h => by cases h; assumption) fun _ hgs => ?_)
    refine .bind (params_marking ps) (fun h => by cases h; assumption) fun _ hps => ?_
    refine .bind (optType_marking r) (fun h => by cases h; assumption) fun _ hr => ?_
    refine .bind (optBlock_marking b) (fun h => by cases h; assumption) fun _ hb => ?_
    exact .pure (by simp [fnMarks]) fun h => .fn (hgs h) (hps h) (hr h) (hb h)

lemma methods_marking : (fs : List (FnDef Stmt)) → Marking (∀ f ∈ fs, Fn.WellFormed f)
    (fun fs => ∀ f ∈ fs, Fn.WellFormed f) (fun x => ids (methodMarks x)) (numberMethods fs)
  | [] => .pure rfl (by simp)
  | f :: fs => by
    rw [numberMethods]
    refine .after (.bind (fn_marking f) (fun h => h f (by simp)) fun _ hf => ?_)
    refine .bind (methods_marking fs) (fun h g hg => h g (List.mem_cons_of_mem _ hg)) fun _ hfs => ?_
    exact .pure (by simp [methodMarks]) fun h => List.forall_mem_cons.mpr ⟨hf h, hfs h⟩

end

lemma Module.marking (m : Module) : Marking (∀ s ∈ m.statements, s.WellFormed) (fun m => ∀ s ∈ Module.statements m, s.WellFormed)
    (fun m => ids (stmtMarks m.statements)) m.number :=
  .after (.skip m.info fun _ => .bind (stmts_marking m.statements) (fun h => h) fun _ hss => .pure (by simp) hss)

/-! ### Statements -/

lemma Stmt.exists_ids (s : Stmt) : ∃ l, ids s.marks = s.info.id :: l := by
  cases s with
  | fn d => exact ⟨_, congrArg ids (fnMarks.eq_def d)⟩
  | _ => exact ⟨_, rfl⟩

lemma sublist_stmtMarks (ss : List Stmt) : (ss.map (·.info.id)).Sublist (ids (stmtMarks ss)) := by
  induction ss with
  | nil => exact .slnil
  | cons s ss ih =>
    obtain ⟨l, hl⟩ := s.exists_ids
    rw [stmtMarks, ids_append, hl]
    simpa using ih.trans (List.sublist_append_right _ _)

lemma Module.distinct (m : Module) (n : Nat) : ((m.number.run n).1.statements.map (·.info.id)).Nodup :=
  ((m.marking n).1.sorted.imp Nat.ne_of_lt).sublist (sublist_stmtMarks _)

end TraitCheck.Syntax
