import TraitCheck.Proofs.Syntax.Marks

/-! What a check may take for granted about syntax trees, and what follows for their parts. -/

namespace TraitCheck.Syntax

/-- A form of syntax trees: whether all of them are well formed, and the marks of their nodes by number. -/
structure Form where
  strict : Prop
  node : Nat → Mark

namespace Form

variable (F : Form)

def Marks (l : List Mark) : Prop := ∀ m ∈ l, F.node m.id = m

def Leaf (id : Nat) : Prop := F.node id = ⟨id, false, []⟩

def Closure (id : Nat) : Prop := (F.node id).isClosure = true

end Form

lemma Form.Leaf.not_closure {F : Form} {id : Nat} (h : F.Leaf id) : ¬F.Closure id := by
  rw [Form.Leaf] at h
  simp [Form.Closure, h]

abbrev TypeExpr.Fits (F : Form) (t : TypeExpr) : Prop := F.strict → t.WellFormed

def GenericDecl.Fits (F : Form) (g : GenericDecl) : Prop := ∀ b ∈ g.bounds, b.Fits F

structure Param.Fits (F : Form) (p : Param) : Prop where
  type : ∀ t, p.type = some t → t.Fits F
  leaf : F.Leaf p.info.id

structure FieldDef.Fits (F : Form) (f : FieldDef) : Prop where
  type : F.strict → f.WellFormed
  leaf : F.Leaf f.info.id

structure TypeDef.Fits (F : Form) (d : TypeDef) : Prop where
  generics : ∀ g ∈ d.generics, GenericDecl.Fits F g
  fields : ∀ v ∈ d.variants, ∀ f ∈ v.fields, f.Fits F

structure Ident.Fits (F : Form) (i : Ident) : Prop where
  names : F.strict → i.names ≠ []
  args : ∀ t ∈ i.args, t.Fits F
  leaf : F.Leaf i.info.id

structure Pattern.Fits (F : Form) (p : Pattern) : Prop where
  wellFormed : F.strict → p.WellFormed
  marks : F.Marks p.marks

structure Expr.Fits (F : Form) (e : Expr) : Prop where
  wellFormed : F.strict → e.WellFormed
  marks : F.Marks e.marks

structure Stmt.Fits (F : Form) (s : Stmt) : Prop where
  wellFormed : F.strict → s.WellFormed
  marks : F.Marks s.marks

structure Body.Fits (F : Form) (b : Body) : Prop where
  wellFormed : F.strict → Body.WellFormed b
  marks : F.Marks (blockMarks b)

abbrev Fn.Fits (F : Form) (f : Fn) : Prop := (Stmt.fn f).Fits F

abbrev Lambda.Fits (F : Form) (c : Lambda) : Prop := (Expr.closure c).Fits F

structure Arm.Fits (F : Form) (c : Arm) : Prop where
  patterns : ∀ p ∈ c.patterns, p.Fits F
  guard : ∀ g, c.guard = some g → g.Fits F
  body : Body.Fits F c.body

variable {F : Form}

/-! ### Marks of parts -/

section Marks

@[simp] lemma Form.marks_nil : F.Marks [] := by simp [Form.Marks]

@[simp] lemma Form.marks_append {k l : List Mark} : F.Marks (k ++ l) ↔ F.Marks k ∧ F.Marks l := List.forall_mem_append

@[simp] lemma Form.marks_cons {m : Mark} {l : List Mark} : F.Marks (m :: l) ↔ F.node m.id = m ∧ F.Marks l :=
  List.forall_mem_cons

@[simp] lemma Form.marks_info {i : Info} : F.node i.id = i.mark ↔ F.Leaf i.id := Iff.rfl

@[simp] lemma Form.marks_flatMap {α : Type} {f : α → List Mark} {l : List α} :
    F.Marks (l.flatMap f) ↔ ∀ a ∈ l, F.Marks (f a) := by
  induction l with
  | nil => simp
  | cons a l ih => simp [ih]

@[simp] lemma Form.marks_map {α : Type} {f : α → Info} {l : List α} :
    F.Marks (l.map fun a => (f a).mark) ↔ ∀ a ∈ l, F.Leaf (f a).id := by
  induction l with
  | nil => simp
  | cons a l ih => simp [ih]

@[simp] lemma exprMarks_eq (es : List Expr) : exprMarks es = es.flatMap Expr.marks := by
  induction es with
  | nil => rfl
  | cons e es ih => simp [exprMarks, ih]

@[simp] lemma stmtMarks_eq (ss : List Stmt) : stmtMarks ss = ss.flatMap Stmt.marks := by
  induction ss with
  | nil => rfl
  | cons s ss ih => simp [stmtMarks, ih]

@[simp] lemma methodMarks_eq (fs : List (FnDef Stmt)) : methodMarks fs = fs.flatMap fnMarks := by
  induction fs with
  | nil => rfl
  | cons f fs ih => simp [methodMarks, ih]

def Arm.marks (c : Arm) : List Mark :=
  c.patterns.flatMap Pattern.marks ++ (optExprMarks c.guard ++ blockMarks c.body)

@[simp] lemma clauseMarks_eq (cs : List Arm) : clauseMarks cs = cs.flatMap Arm.marks := by
  induction cs with
  | nil => rfl
  | cons c cs ih => simp [clauseMarks, Arm.marks, ih]

@[simp] lemma fieldMarks_eq (fs : List (FieldPattern Pattern)) :
    fieldMarks fs = fs.flatMap fun f => f.pattern.elim [] Pattern.marks := by
  induction fs with
  | nil => rfl
  | cons f fs ih =>
    obtain ⟨i, n, p⟩ := f
    cases p <;> simp [fieldMarks, ih]

lemma Form.marks_optExpr {e : Option Expr} (h : F.Marks (optExprMarks e)) : ∀ f, e = some f → F.Marks f.marks := by
  rintro f rfl
  exact h

lemma Form.marks_optBlock {b : Option Body} (h : F.Marks (optBlockMarks b)) :
    ∀ c, b = some c → F.Marks (blockMarks c) := by
  rintro c rfl
  exact h

end Marks

/-! ### Parts of written types -/

namespace TypeExpr.Fits

variable {info : Info} {names : List String} {ts : List TypeExpr} {gs : List GenericDecl} {r : Option TypeExpr}

lemma named (h : (TypeExpr.named info names ts).Fits F) : (F.strict → names ≠ []) ∧ ∀ t ∈ ts, t.Fits F := by
  refine ⟨fun hs => ?_, fun t ht hs => ?_⟩
  · cases h hs with | named _ hnames _ => exact hnames
  · cases h hs with | named _ _ hargs => exact hargs t ht

lemma fn (h : (TypeExpr.fn info gs ts r).Fits F) :
    (∀ g ∈ gs, GenericDecl.Fits F g) ∧ (∀ t ∈ ts, t.Fits F) ∧ ∀ t, r = some t → t.Fits F := by
  refine ⟨fun g hg b hb hs => ?_, fun t ht hs => ?_, fun t ht hs => ?_⟩
  · cases h hs with | fn _ hgenerics _ _ => exact hgenerics g hg b hb
  · cases h hs with | fn _ _ hparams _ => exact hparams t ht
  · cases h hs with | fn _ _ _ hresult => exact hresult t ht

end TypeExpr.Fits

/-! ### Parts of expressions -/

namespace Expr.Fits

variable {info : Info} {i : Ident} {x y : Expr} {es : List Expr} {name : String} {ts : List TypeExpr} {b c : Body}
  {o : Option Body} {cs : List Arm} {l : Lambda}

lemma node (h : x.Fits F) : F.node x.info.id = x.mark := by
  have hmarks := h.marks
  cases x with
  | closure c =>
    simp only [Expr.marks, Form.marks_cons] at hmarks
    exact hmarks.1
  | block b =>
    obtain ⟨i, ss⟩ := b
    simp only [Expr.marks, blockMarks, Form.marks_cons] at hmarks
    exact hmarks.1
  | _ =>
    simp only [Expr.marks, Form.marks_cons] at hmarks
    exact hmarks.1

lemma closure_iff (h : x.Fits F) : F.Closure x.info.id ↔ x.isClosure = true := by
  rw [Form.Closure, h.node]
  rfl

lemma parts (h : x.Fits F) : (F.node x.info.id).parts = x.parts := by
  rw [h.node]
  rfl

lemma literal {l : Literal} (h : (Expr.literal l).Fits F) : F.Leaf l.info.id := h.node

lemma ident (h : (Expr.ident i).Fits F) : i.Fits F := by
  refine ⟨fun hs => ?_, fun t ht hs => ?_, h.node⟩
  · cases h.wellFormed hs with | ident hi => exact hi.names
  · cases h.wellFormed hs with | ident hi => exact hi.args t ht

lemma call (h : (Expr.call info x es).Fits F) : x.Fits F ∧ ∀ a ∈ es, a.Fits F := by
  have hmarks := h.marks
  simp only [Expr.marks, exprMarks_eq, Form.marks_cons, Form.marks_append, Form.marks_flatMap] at hmarks
  refine ⟨⟨fun hs => ?_, hmarks.2.1⟩, fun a ha => ⟨fun hs => ?_, hmarks.2.2 a ha⟩⟩
  · cases h.wellFormed hs with | call _ hcallee _ => exact hcallee
  · cases h.wellFormed hs with | call _ _ hargs => exact hargs a ha

lemma method (h : (Expr.method info x name ts es).Fits F) :
    x.Fits F ∧ (∀ t ∈ ts, t.Fits F) ∧ ∀ a ∈ es, a.Fits F := by
  have hmarks := h.marks
  simp only [Expr.marks, exprMarks_eq, Form.marks_cons, Form.marks_append, Form.marks_flatMap] at hmarks
  refine ⟨⟨fun hs => ?_, hmarks.2.1⟩, fun t ht hs => ?_, fun a ha => ⟨fun hs => ?_, hmarks.2.2 a ha⟩⟩
  · cases h.wellFormed hs with | method _ _ hreceiver _ _ => exact hreceiver
  · cases h.wellFormed hs with | method _ _ _ htypes _ => exact htypes t ht
  · cases h.wellFormed hs with | method _ _ _ _ hargs => exact hargs a ha

lemma field (h : (Expr.field info x name).Fits F) : x.Fits F := by
  have hmarks := h.marks
  simp only [Expr.marks, Form.marks_cons] at hmarks
  refine ⟨fun hs => ?_, hmarks.2⟩
  cases h.wellFormed hs with | field _ _ hx => exact hx

lemma binary (h : (Expr.binary info name x y).Fits F) : x.Fits F ∧ y.Fits F := by
  have hmarks := h.marks
  simp only [Expr.marks, Form.marks_cons, Form.marks_append] at hmarks
  refine ⟨⟨fun hs => ?_, hmarks.2.1⟩, ⟨fun hs => ?_, hmarks.2.2⟩⟩
  · cases h.wellFormed hs with | binary _ _ hleft _ => exact hleft
  · cases h.wellFormed hs with | binary _ _ _ hright => exact hright

lemma unary (h : (Expr.unary info name x).Fits F) : x.Fits F := by
  have hmarks := h.marks
  simp only [Expr.marks, Form.marks_cons] at hmarks
  refine ⟨fun hs => ?_, hmarks.2⟩
  cases h.wellFormed hs with | unary _ _ hx => exact hx

lemma closure (h : Lambda.Fits F l) : F.Closure l.info.id ∧ (∀ p ∈ l.params, p.Fits F) ∧
    (∀ t, l.result = some t → t.Fits F) ∧ Body.Fits F l.body := by
  have hmarks := h.marks
  have hid : F.Closure l.info.id := h.closure_iff.mpr rfl
  obtain ⟨i, ps, r, b⟩ := l
  simp only [Expr.marks, Form.marks_cons, Form.marks_append, Form.marks_map] at hmarks
  refine ⟨hid, fun p hp => ⟨fun t ht hs => ?_, hmarks.2.1 p hp⟩, fun t ht hs => ?_, ⟨fun hs => ?_, hmarks.2.2⟩⟩
  · cases h.wellFormed hs with | closure hparams _ _ => exact hparams p hp t ht
  · cases h.wellFormed hs with | closure _ hresult _ => exact hresult t ht
  · cases h.wellFormed hs with | closure _ _ hbody => exact hbody

lemma cond (h : (Expr.cond info x b o).Fits F) :
    x.Fits F ∧ Body.Fits F b ∧ ∀ c, o = some c → Body.Fits F c := by
  have hmarks := h.marks
  simp only [Expr.marks, Form.marks_cons, Form.marks_append] at hmarks
  obtain ⟨-, hx, hb, ho⟩ := hmarks
  refine ⟨⟨fun hs => ?_, hx⟩, ⟨fun hs => ?_, hb⟩, fun c hc => ⟨fun hs => ?_, Form.marks_optBlock ho c hc⟩⟩
  · cases h.wellFormed hs with | cond _ htest _ _ => exact htest
  · cases h.wellFormed hs with | cond _ _ hyes _ => exact hyes
  · cases h.wellFormed hs with | cond _ _ _ hno => exact hno c hc

lemma switch (h : (Expr.switch info x cs).Fits F) : x.Fits F ∧ ∀ c ∈ cs, Arm.Fits F c := by
  have hmarks := h.marks
  simp only [Expr.marks, clauseMarks_eq, Form.marks_cons, Form.marks_append, Form.marks_flatMap, Arm.marks] at hmarks
  obtain ⟨-, hx, hcs⟩ := hmarks
  refine ⟨⟨fun hs => ?_, hx⟩, fun c hc => ⟨fun p hp => ⟨fun hs => ?_, (hcs c hc).1 p hp⟩, fun g hg => ⟨fun hs => ?_,
    Form.marks_optExpr (hcs c hc).2.1 g hg⟩, ⟨fun hs => ?_, (hcs c hc).2.2⟩⟩⟩
  · cases h.wellFormed hs with | switch _ hscrutinee _ _ _ => exact hscrutinee
  · cases h.wellFormed hs with | switch _ _ hpatterns _ _ => exact hpatterns c hc p hp
  · cases h.wellFormed hs with | switch _ _ _ hguards _ => exact hguards c hc g hg
  · cases h.wellFormed hs with | switch _ _ _ _ hbodies => exact hbodies c hc

lemma list (h : (Expr.list info es).Fits F) : ∀ x ∈ es, x.Fits F := by
  have hmarks := h.marks
  simp only [Expr.marks, exprMarks_eq, Form.marks_cons, Form.marks_flatMap] at hmarks
  refine fun x hx => ⟨fun hs => ?_, hmarks.2 x hx⟩
  cases h.wellFormed hs with | list _ hes => exact hes x hx

lemma block (h : (Expr.block b).Fits F) : Body.Fits F b := by
  refine ⟨fun hs => ?_, h.marks⟩
  cases h.wellFormed hs with | block hb => exact hb

end Expr.Fits

lemma Body.Fits.expr {b : Body} (h : Body.Fits F b) : (Expr.block b).Fits F :=
  ⟨fun hs => .block (h.wellFormed hs), h.marks⟩

lemma Body.Fits.statements {b : Body} (h : Body.Fits F b) : ∀ s ∈ b.statements, s.Fits F := by
  have hmarks := h.marks
  obtain ⟨i, ss⟩ := b
  simp only [blockMarks, stmtMarks_eq, Form.marks_cons, Form.marks_flatMap] at hmarks
  exact fun s hs => ⟨fun hstrict => h.wellFormed hstrict s hs, hmarks.2 s hs⟩

lemma Pattern.Fits.variant {info : Info} {i : Ident} {fs : List (FieldPattern Pattern)}
    (h : (Pattern.variant info i fs).Fits F) :
    F.Leaf info.id ∧ i.Fits F ∧ ∀ f ∈ fs, ∀ p, f.pattern = some p → p.Fits F := by
  have hmarks := h.marks
  simp only [Pattern.marks, fieldMarks_eq, Form.marks_cons, Form.marks_flatMap] at hmarks
  obtain ⟨hinfo, hi, hfs⟩ := hmarks
  refine ⟨hinfo, ⟨fun hs => ?_, fun t ht hs => ?_, hi⟩, fun f hf p hp => ⟨fun hs => ?_, ?_⟩⟩
  · cases h.wellFormed hs with | variant _ hident _ => exact hident.names
  · cases h.wellFormed hs with | variant _ hident _ => exact hident.args t ht
  · cases h.wellFormed hs with | variant _ _ hfields => exact hfields f hf p hp
  · have := hfs f hf
    rwa [hp] at this

lemma Pattern.Fits.leaf {p : Pattern} (h : p.Fits F) : F.Leaf p.info.id := by
  have hmarks := h.marks
  cases p <;> simp only [Pattern.marks, Form.marks_cons] at hmarks <;> exact hmarks.1

lemma Pattern.Fits.literal {info : Info} {l : Literal} (h : (Pattern.literal info l).Fits F) : F.Leaf l.info.id := by
  have hmarks := h.marks
  simp only [Pattern.marks, Form.marks_cons] at hmarks
  exact hmarks.2.1

/-! ### Parts of statements -/

namespace Stmt.Fits

variable {info : Info} {e : Expr}

lemma var {d : Let} (h : (Stmt.var d).Fits F) :
    F.node d.info.id = ⟨d.info.id, false, [d.value.info.id]⟩ ∧ (∀ t, d.type = some t → t.Fits F) ∧ d.value.Fits F := by
  have hmarks := h.marks
  obtain ⟨i, p, n, t, e⟩ := d
  simp only [Stmt.marks, Form.marks_cons] at hmarks
  refine ⟨hmarks.1, fun t ht hs => ?_, ⟨fun hs => ?_, hmarks.2⟩⟩
  · cases h.wellFormed hs with | var htype _ => exact htype t ht
  · cases h.wellFormed hs with | var _ hvalue => exact hvalue

lemma fn {f : Fn} (h : Fn.Fits F f) : F.Leaf f.info.id ∧ (∀ g ∈ f.generics, GenericDecl.Fits F g) ∧
    (∀ p ∈ f.params, p.Fits F) ∧ (∀ t, f.result = some t → t.Fits F) ∧ ∀ b, f.body = some b → Body.Fits F b := by
  have hmarks := h.marks
  obtain ⟨i, pub, n, gs, ps, r, b⟩ := f
  simp only [Stmt.marks, fnMarks, Form.marks_cons, Form.marks_append, Form.marks_map] at hmarks
  obtain ⟨hid, hps, hb⟩ := hmarks
  refine ⟨hid, fun g hg b hmem hs => ?_, fun p hp => ⟨fun t ht hs => ?_, hps p hp⟩, fun t ht hs => ?_,
    fun c hc => ⟨fun hs => ?_, Form.marks_optBlock hb c hc⟩⟩
  · cases h.wellFormed hs with | fn hgenerics _ _ _ => exact hgenerics g hg b hmem
  · cases h.wellFormed hs with | fn _ hparams _ _ => exact hparams p hp t ht
  · cases h.wellFormed hs with | fn _ _ hresult _ => exact hresult t ht
  · cases h.wellFormed hs with | fn _ _ _ hbody => exact hbody c hc

lemma trait {d : Trait} (h : (Stmt.trait d).Fits F) :
    (∀ g ∈ d.generics, GenericDecl.Fits F g) ∧ ∀ f ∈ d.methods, Fn.Fits F f := by
  have hmarks := h.marks
  obtain ⟨i, p, n, gs, fs⟩ := d
  simp only [Stmt.marks, methodMarks_eq, Form.marks_cons, Form.marks_flatMap] at hmarks
  refine ⟨fun g hg b hb hs => ?_, fun f hf => ⟨fun hs => ?_, hmarks.2 f hf⟩⟩
  · cases h.wellFormed hs with | trait hgenerics _ => exact hgenerics g hg b hb
  · cases h.wellFormed hs with | trait _ hmethods => exact hmethods f hf

lemma impl {d : Impl} (h : (Stmt.impl d).Fits F) : (∀ g ∈ d.generics, GenericDecl.Fits F g) ∧
    (∀ t, d.trait = some t → t.Fits F) ∧ (F.strict → ∃ t, d.forType = some t ∧ t.WellFormed) ∧
    ∀ f ∈ d.methods, Fn.Fits F f := by
  have hmarks := h.marks
  obtain ⟨i, p, gs, t, ft, fs⟩ := d
  simp only [Stmt.marks, methodMarks_eq, Form.marks_cons, Form.marks_flatMap] at hmarks
  refine ⟨fun g hg b hb hs => ?_, fun t ht hs => ?_, fun hs => ?_, fun f hf => ⟨fun hs => ?_, hmarks.2 f hf⟩⟩
  · cases h.wellFormed hs with | impl hgenerics _ _ _ => exact hgenerics g hg b hb
  · cases h.wellFormed hs with | impl _ htrait _ _ => exact htrait t ht
  · cases h.wellFormed hs with | impl _ _ hfor _ => exact hfor
  · cases h.wellFormed hs with | impl _ _ _ hmethods => exact hmethods f hf

lemma type {d : TypeDef} (h : (Stmt.type d).Fits F) : d.Fits F := by
  have hmarks := h.marks
  simp only [Stmt.marks, Variant.marks, Form.marks_cons, Form.marks_flatMap, Form.marks_map] at hmarks
  refine ⟨fun g hg b hb hs => ?_, fun v hv f hf => ⟨fun hs => ?_, hmarks.2 v hv f hf⟩⟩
  · cases h.wellFormed hs with | type hd => exact hd.generics g hg b hb
  · cases h.wellFormed hs with | type hd => exact hd.fields v hv f hf

lemma ret {value : Option Expr} (h : (Stmt.ret info value).Fits F) : ∀ e, value = some e → e.Fits F := by
  have hmarks := h.marks
  simp only [Stmt.marks, Form.marks_cons] at hmarks
  refine fun e he => ⟨fun hs => ?_, Form.marks_optExpr hmarks.2 e he⟩
  cases h.wellFormed hs with | ret _ hvalue => exact hvalue e he

lemma expr (h : (Stmt.expr info e).Fits F) : e.Fits F := by
  have hmarks := h.marks
  simp only [Stmt.marks, Form.marks_cons] at hmarks
  refine ⟨fun hs => ?_, hmarks.2⟩
  cases h.wellFormed hs with | expr _ he => exact he

end Stmt.Fits

end TraitCheck.Syntax
