import TraitCheck.Proofs.Check.Closures

/-! Variables, calls and patterns in a sane state once the relations are built, under the assumption that the checks of
what is nested in them keep to the rules of bodies and leave it with types. What is written in them has types then, as
long as no error has been reported. -/

namespace TraitCheck.Check

open Regime
open Syntax (Expr Stmt)

variable {e : Setting} {nested : Nested} (he : e.built = true) (hn : SafeNested e nested)

/-! ### Variables -/

lemma not_closure_var {d : Syntax.Let} (h : (Stmt.var d).Fits e.toForm) : ¬e.Closure d.info.id := by
  simp [Syntax.Form.Closure, h.var.1]

include he hn in
lemma checkVar_types {d : Syntax.Let} (h : (Stmt.var d).Fits e.toForm) :
    Types e [] e.Whole [d.info.id, d.value.info.id] (checkVar nested d) := by
  have hid := not_closure_var h
  obtain ⟨hnode, htype, hvalue⟩ := h.var
  have hparts : (e.node d.info.id).parts = [d.value.info.id] := by rw [hnode]
  have hset {pre : List Nat} {t : Ty} (ht : e.Whole t) (hpre : d.value.info.id ∈ pre) :
      Types e pre e.Whole [d.info.id, d.value.info.id] (keepType d.info.id t) := by
    refine .bindIn (setSlot_types (fun hclosure => absurd hclosure hid) ht) (by simpa [hparts]) fun _ _ => ?_
    exact .pure ht (by simpa using .inr hpre)
  rw [checkVar]
  refine (typeOf?_safe htype).types.bind fun declared hdeclared => ?_
  refine (hn.expr d.value _ hvalue hdeclared.1).bind fun t ht => settle_then ht fun s r hs hr hleft => ?_
  split
  · exact hset hr.whole (by simp) s hs
  · next habsent =>
    refine (settleAgainst_types hn hvalue hr hdeclared.1 hs hleft).bindIn (by simp) fun t _ => ?_
    refine (expectAssignable_safe he _ _ _).types.skip fun _ => hset (hdeclared.1.whole ?_) (by simp)
    simpa using habsent

def topParts (v : Variable) : List Nat :=
  if v.module.isSome then v.node.toList.map (·.value.info.id) else []

include he hn in
lemma topVarType_types {v : Variable} (h : v.Known e) : Types e [] e.Whole (topParts v) (topVarType nested v) := by
  rw [topVarType]
  split
  · next m d hm hd =>
    have hparts : topParts v = [d.value.info.id] := by simp [topParts, hm, hd]
    refine .get fun s hs => ?_
    split
    · exact Types.bind (report_types _ rfl) (fun _ _ => .pure Setting.whole_unknown (List.subset_append_left _ _)) s hs
    · rw [hparts]
      have hvar : Types e [] e.Whole [d.value.info.id] (checkVar nested d) :=
        (checkVar_types he hn (h.node d hd)).last (by simp)
      exact (hvar.inModule m).whileTyping _ s hs
  · next hnone =>
    refine .pure Setting.whole_unknown ?_
    rw [topParts]
    split
    · next hm =>
      obtain ⟨m, hm⟩ := Option.isSome_iff_exists.mp hm
      cases hd : v.node with
      | none => simp
      | some d => exact absurd hd (hnone m d hm)
    · simp

include he hn in
lemma varType_top {v : Variable} (h : v.Known e) {d : Syntax.Let} (hnode : v.node = some d)
    (htype : v.type = .slot d.info.id) (hmodule : v.module.isSome) :
    Types e [] (fun _ => True) [d.value.info.id] (varType nested v) := by
  have hparts : topParts v = [d.value.info.id] := by simp [topParts, hmodule, hnode]
  have hnodeParts : (e.node d.info.id).parts = [d.value.info.id] := by rw [(h.node d hnode).var.1]
  rw [varType, htype]
  intro s hs
  refine .look (run_slot d.info.id s) ?_
  dsimp only
  split
  · exact (hparts ▸ topVarType_types he hn h).mono (fun _ _ => trivial) s hs
  · next habsent =>
    have hhas : s.Has d.info.id := by
      rw [State.Has]
      cases hd : s.slots[d.info.id]? with
      | some t => rfl
      | none => simp [hd, Ty.complete, Ty.isAbsent] at habsent
    refine .ofParts (not_closure_var (h.node d hnode)) hhas ?_
    rw [hnodeParts]
    have hknown := ((slot_safe d.info.id s hs.ready).ok _ s (run_slot d.info.id s)).2.2
    exact ((settle_safe hknown).types.last (by simp)).mono (fun _ _ => trivial) s hs

include he hn in
lemma varType_types {v : Variable} (h : v.Known e) : Types e [] e.Whole [] (varType nested v) := by
  have hrest {known : Ty} (hknown : e.Optional known) :
      Types e [] e.Whole [] (if known.isAbsent then topVarType nested v else settle known) :=
    .ite (fun _ => (topVarType_types he hn h).last (by simp)) fun habsent =>
      (settle_whole (hknown.whole (by simpa using habsent))).types
  rw [varType]
  split
  · exact (slot_safe _).types.bind fun known hknown => hrest hknown
  · next t ht => exact (completed_safe (h.type t ht)).types.bind fun known hknown => hrest hknown.1.optional

/-! ### Calls -/

include hn in
lemma checkAll_types {args : List Expr} (h : ∀ a ∈ args, a.Fits e.toForm) :
    Types e [] (fun _ => True) (args.map (·.info.id)) (checkAll nested args) := by
  rw [List.map_eq_flatMap]
  exact .forM fun a ha => (hn.expr a _ (h a ha) optional_absent).discard

include hn in
lemma checkAll_unknown {args : List Expr} (h : ∀ a ∈ args, a.Fits e.toForm) :
    Types e [] e.Whole (args.map (·.info.id)) (do
      checkAll nested args
      return Ty.unknown) :=
  (checkAll_types hn h).skip fun _ => .pure Setting.whole_unknown (by simp)

lemma wholeMap_append {k l : List Bindings} (hk : ∀ b ∈ k, e.WholeMap b) (hl : ∀ b ∈ l, e.WholeMap b) :
    ∀ b ∈ k ++ l, e.WholeMap b := List.forall_mem_append.mpr ⟨hk, hl⟩

include hn in
lemma checkArgs_types {maps : List Bindings} (hmaps : ∀ b ∈ maps, e.WholeMap b) {args : List Expr}
    (h : ∀ a ∈ args, a.Fits e.toForm) {params : List Ty} (hparams : ∀ p ∈ params, e.Whole p) {inferred : Bindings}
    (hinferred : e.WholeMap inferred) :
    Types e [] (fun r => e.WholeMap r.2) (args.map (·.info.id)) (checkArgs nested maps args params inferred) := by
  induction args generalizing params inferred with
  | nil =>
    simp only [checkArgs]
    exact .pure hinferred (by simp)
  | cons a args ih =>
    have ha := h a (by simp)
    replace ih := @ih fun b hb => h b (List.mem_cons_of_mem _ hb)
    cases params with
    | nil =>
      rw [checkArgs]
      refine (hn.expr a _ ha optional_absent).skip fun t => (ih (by simp) hinferred).bind fun r hr => ?_
      exact .pure hr (by simp)
    | cons p params =>
      have hp := hparams p (by simp)
      have hhint : e.Whole (p.substitute (maps ++ [inferred])) := fun hstrict =>
        (hp hstrict).substitute fun b hb => wholeMap_append hmaps (by simpa using hinferred) b hb hstrict
      rw [checkArgs]
      refine (hn.expr a _ ha hhint.optional).bind fun t ht => settle_then ht fun s r hs hr hleft => ?_
      refine (settleAgainst_types hn ha hr hhint.optional hs hleft).bindIn (by simp) fun t ht => ?_
      refine (ih (fun q hq => hparams q (List.mem_cons_of_mem _ hq)) fun hstrict => ?_).bind fun r hr => .pure hr (by simp)
      exact (hinferred hstrict).underlay ((ht hstrict).unify (hp hstrict))

include he in
lemma fitArguments_safe (maps : List Bindings) (args : List Expr) (ts params : List Ty) :
    Safe e (fun _ => True) (fitArguments maps args ts params) := by
  induction args generalizing ts params with
  | nil =>
    simp only [fitArguments]
    exact .pure trivial
  | cons a args ih =>
    cases ts with
    | nil => exact .pure trivial
    | cons t ts =>
      cases params with
      | nil => exact .pure trivial
      | cons p params =>
        rw [fitArguments]
        refine (isAssignable_safe he _ _).skip fun fits => .ite (fun _ => ?_) fun _ => ?_
        · exact (upcastTo_safe he _ _ _).skip fun _ => ih ts params
        · exact (report_safe _ _).skip fun _ => ih ts params

include he in
lemma checkBounds_safe (info : Syntax.Info) (maps : List Bindings) (generics : List (Generic Ty)) :
    Safe e (fun _ => True) (checkBounds info maps generics) := by
  refine .forM fun g _ => ?_
  split
  · refine .ite (fun _ => .pure trivial) fun _ => .forM fun b _ => ?_
    refine (isAssignable_safe he _ _).skip fun fits => ?_
    exact .ite (fun _ => .pure trivial) fun _ => report_safe _ _
  · exact .pure trivial

structure Callee.Known (e : Setting) (f : Callee) : Prop where
  params : ∀ p ∈ f.params, e.Whole p
  result : e.Whole f.result.resultOf

def finishCall (info : Syntax.Info) (f : Callee) (args : List Expr) (maps : List Bindings) (ts : List Ty) : Check Ty := do
  fitArguments maps args ts f.params
  checkBounds info maps f.generics
  if f.isConstructor then return f.result.resultOf.substituteOrHole maps
  else resolveGenerics (some info) maps f.result.resultOf

include he in
lemma finishCall_safe (info : Syntax.Info) {f : Callee} (hf : f.Known e) (args : List Expr) {maps : List Bindings}
    (hmaps : ∀ b ∈ maps, e.WholeMap b) (ts : List Ty) : Safe e e.Whole (finishCall info f args maps ts) := by
  refine (fitArguments_safe he _ _ _ _).skip fun _ => (checkBounds_safe he _ _ _).skip fun _ => ?_
  refine .ite (fun _ => .pure fun hstrict => ?_) fun _ => resolveGenerics_safe _ hmaps hf.result
  exact (hf.result hstrict).substituteOrHole fun b hb => hmaps b hb hstrict

def fromResult (f : Callee) (expected : Ty) : List Bindings :=
  if expected.absorbs then [] else [Ty.unify expected f.result.resultOf]

lemma wholeMap_fromResult {f : Callee} (hf : f.Known e) {expected : Ty} (hexpected : e.Optional expected) :
    ∀ b ∈ fromResult f expected, e.WholeMap b := by
  rw [fromResult]
  split
  · simp
  · next habsorbs =>
    have hwhole : e.Whole expected := hexpected.whole (by cases expected <;> simp_all [Ty.absorbs, Ty.isAbsent])
    have hunify : e.WholeMap (Ty.unify expected f.result.resultOf) := fun hstrict =>
      (hwhole hstrict).unify (hf.result hstrict)
    simpa using hunify

def callWith (nested : Nested) (info : Syntax.Info) (f : Callee) (explicit : List Syntax.TypeExpr) (args : List Expr)
    (receiver : List Bindings) (expected : Ty) : Check Ty := do
  let maps := (← explicitGenerics info f.generics explicit) :: receiver
  let (ts, inferred) ← checkArgs nested maps args f.params .empty
  finishCall info f args (maps ++ [inferred] ++ fromResult f expected) ts

lemma applyFn_eq (nested : Nested) (info : Syntax.Info) (f : Callee) (explicit : List Syntax.TypeExpr) (args : List Expr)
    (receiver : List Bindings) (expected : Ty) : applyFn nested info f explicit args receiver expected =
      if args.length = f.params.length then callWith nested info f explicit args receiver expected
      else report (some info) (.arityMismatch "arguments" f.params.length args.length) >>= fun _ =>
        callWith nested info f explicit args receiver expected := rfl

include he hn in
lemma applyFn_types (info : Syntax.Info) {f : Callee} (hf : f.Known e) {explicit : List Syntax.TypeExpr}
    (hexplicit : ∀ t ∈ explicit, t.Fits e.toForm) {args : List Expr} (hargs : ∀ a ∈ args, a.Fits e.toForm)
    {receiver : List Bindings} (hreceiver : ∀ b ∈ receiver, e.WholeMap b) {expected : Ty}
    (hexpected : e.Optional expected) :
    Types e [] e.Whole (args.map (·.info.id)) (applyFn nested info f explicit args receiver expected) := by
  have hcall : Types e [] e.Whole (args.map (·.info.id)) (callWith nested info f explicit args receiver expected) := by
    refine (explicitGenerics_safe _ _ hexplicit).types.bind fun b hb => ?_
    have hmaps : ∀ c ∈ b :: receiver, e.WholeMap c := List.forall_mem_cons.mpr ⟨hb, hreceiver⟩
    refine (checkArgs_types hn hmaps hargs hf.params fun _ => .empty).bind fun r hr => ?_
    have hall := wholeMap_append (wholeMap_append hmaps (l := [r.2]) (by simpa using hr)) (wholeMap_fromResult hf hexpected)
    exact (finishCall_safe he info hf args hall r.1).types.last (by simp)
  rw [applyFn_eq]
  exact .ite (fun _ => hcall) fun _ => (report_safe _ _).types.skip fun _ => hcall

include he in
lemma viewOf_safe (name : String) (rel : Relation) {recv : Ty} (hrecv : e.Whole recv) {bounds : List Ty}
    (h : ∀ b ∈ bounds, e.Whole b) : Safe e e.Whole (viewOf name rel recv bounds) := by
  induction bounds with
  | nil => exact .pure hrecv
  | cons b bs ih =>
    rw [viewOf]
    refine (candidates_safe he name b).skip fun cs => ?_
    exact .ite (fun _ => .pure (h b (by simp))) fun _ => ih fun c hc => h c (List.mem_cons_of_mem _ hc)

def WholeBinding (e : Setting) (r : Bindings × Option Ty) : Prop := e.WholeMap r.1 ∧ ∀ t, r.2 = some t → e.Whole t

include he in
lemma chainBindings_safe {view : Ty} (hview : e.Whole view) {c : Candidate} (h : c.Known e) :
    Safe e (WholeBinding e) (chainBindings view c) := by
  have hnone : WholeBinding e (.empty, none) := ⟨fun _ => .empty, nofun⟩
  refine .ite (fun _ => .pure ⟨fun hstrict => ?_, nofun⟩) fun _ => .ite (fun _ => .pure ⟨fun _ => .empty, ?_⟩) fun _ => ?_
  · exact (hview hstrict).unify (h.provider.relation hstrict).forType
  · intro t ht
    split at ht
    · exact Option.some.inj ht ▸ hview
    · cases ht
  · refine (instantiate_safe he hview h.chain).bind fun found hfound => ?_
    cases found with
    | none => exact .pure hnone
    | some x => exact .pure ⟨(hfound x rfl).2, fun t ht => Option.some.inj ht ▸ (hfound x rfl).1⟩

lemma traitBindings_safe {b : Bindings} (hb : e.WholeMap b) {trait : Option TraitDecl}
    (h : ∀ d, trait = some d → (Stmt.trait d.node).Fits e.toForm) {seenAs : Option Ty}
    (hseen : ∀ t, seenAs = some t → e.Whole t) : Safe e e.WholeMap (traitBindings b trait seenAs) := by
  rw [traitBindings.eq_def]
  split
  · refine (traitSelf_safe (h _ rfl)).bind fun self hself => .pure fun hstrict => ?_
    exact (hb hstrict).underlay ((hseen _ rfl hstrict).unify (hself hstrict))
  · exact .pure hb

include he in
lemma receiverBindings_safe {recv : Ty} (hrecv : e.Whole recv) {c : Candidate} (h : c.Known e) (name : String) :
    Safe e (fun r => e.WholeMap r.1) (receiverBindings recv c name) := by
  have hrest : ∀ {view : Ty}, e.Whole view → Safe e (fun r => e.WholeMap r.1) (do
      let r ← chainBindings view c
      let b ← traitBindings r.1 c.provider.trait? r.2
      return (b.insert selfName recv, r.2)) := fun hview =>
    (chainBindings_safe he hview h).bind fun r hr => (traitBindings_safe hr.1 (fun _ => h.provider.trait?) hr.2).bind
      fun b hb => .pure fun hstrict => (hb hstrict).insert _ (hrecv hstrict)
  rw [receiverBindings.eq_def]
  split
  · refine (viewOf_safe he _ _ hrecv fun b hb hstrict => ?_).bind fun view hview => hrest hview
    exact (hrecv hstrict).bounds b hb
  · exact hrest hrecv

lemma Setting.Signature.callee {generics : List (Generic Ty)} {params : List Ty} {result : Ty}
    (h : e.Whole (.fn generics params result)) {ps : List Ty} (hps : ∀ p ∈ ps, p ∈ params) (isConstructor : Bool) :
    Callee.Known e ⟨generics, ps, result, isConstructor⟩ :=
  ⟨fun p hp hstrict => (h hstrict).params p (hps p hp), fun hstrict => (h hstrict).result⟩

include he hn in
lemma dispatch_types (info : Syntax.Info) {recv : Expr} (hrecv : recv.Fits e.toForm) (name : String)
    {typeArgs : List Syntax.TypeExpr} (htypes : ∀ t ∈ typeArgs, t.Fits e.toForm) {args : List Expr}
    (hargs : ∀ a ∈ args, a.Fits e.toForm) {expected : Ty} (hexpected : e.Optional expected) :
    Types e [] e.Whole (recv.info.id :: args.map (·.info.id))
      (dispatch nested info recv name typeArgs args expected) := by
  have hskip : Types e [recv.info.id] e.Whole (recv.info.id :: args.map (·.info.id)) (do
      checkAll nested args
      return Ty.unknown) := (checkAll_unknown hn hargs).last (by simp)
  rw [dispatch]
  refine (hn.expr recv _ hrecv optional_absent).bind fun t ht => (settle_whole ht.whole).types.bind fun t ht => ?_
  refine .ite (fun _ => hskip) fun _ => ?_
  refine (resolveMethod_safe he _ _ _).types.bind fun found hfound => ?_
  cases found with
  | none => exact hskip
  | some c =>
    have hc := hfound c rfl
    refine .ite (fun _ => (report_safe _ _).types.skip fun _ => hskip) fun _ => ?_
    refine (methodSignature_safe hc.method).types.bind fun sig hsig => ?_
    cases sig with
    | fn generics params result =>
      refine (receiverBindings_safe he ht hc name).types.bind fun r hr => ?_
      have hcallee := Setting.Signature.callee hsig.whole (fun p hp => List.mem_of_mem_tail hp) false
      refine (applyFn_types he hn _ hcallee htypes hargs (by simpa using hr) hexpected).bind fun u hu => ?_
      cases r.2 with
      | none => exact .pure hu (by simp)
      | some trait =>
        refine .ite (fun _ => .pure hu (by simp)) fun _ => ?_
        exact (upcastTo_safe he _ _ _).types.skip fun _ => .pure hu (by simp)
    | _ => exact hskip

/-! ### Patterns -/

lemma variantSelf_safe (info : Syntax.Info) {d : TypeDecl} (h : d.node.Fits e.toForm) {expected : Ty}
    (hexpected : e.Whole expected) :
    Safe e (fun r => e.Whole r.1 ∧ e.WholeMap r.2) (variantSelf info d expected) := by
  rw [variantSelf.eq_def]
  refine (typeGenerics_safe h).skip fun generics => ?_
  have hself : e.Whole (.named d.path (Ty.holes generics.length)) ∧ e.WholeMap .empty :=
    ⟨fun _ => .named (.holes _), fun _ => .empty⟩
  dsimp only
  split
  · refine .ite (fun _ => (typeSelf_safe h).bind fun self hself => .pure ⟨hexpected, fun hstrict => ?_⟩) fun _ => ?_
    · exact (hexpected hstrict).unify (hself hstrict)
    · exact (report_safe _ _).skip fun _ => .pure hself
  · exact .ite (fun _ => .pure hself) fun _ => (report_safe _ _).skip fun _ => .pure hself

lemma fits_field? {d : Syntax.TypeDef} (h : d.Fits e.toForm) {v : Syntax.Variant} (hv : v ∈ d.variants)
    {name : String} {f : Syntax.FieldDef} (hf : v.field? name = some f) : f.Fits e.toForm :=
  h.fields v hv f (List.mem_of_find?_eq_some hf)

lemma patternField_safe {d : TypeDecl} (h : d.node.Fits e.toForm) {v : Syntax.Variant} (hv : v ∈ d.node.variants)
    {b : Bindings} (hb : e.WholeMap b) (info : Syntax.Info) (name : String) :
    Safe e e.Whole (patternField d v b info name) := by
  rw [patternField]
  split
  · exact (report_safe _ _).skip fun _ => .pure Setting.whole_unknown
  · next f hf =>
    have hrest : Safe e e.Whole (return (← fieldType d f).substituteOrHole [b]) :=
      (fieldType_safe h (fits_field? h hv hf)).bind fun t ht => .pure fun hstrict =>
        (ht hstrict).substituteOrHole (by simpa using hb hstrict)
    refine currentModule_safe.skip fun id => ?_
    exact .ite (fun _ => hrest) fun _ => (report_safe _ _).skip fun _ => hrest

mutual

lemma checkPattern_types (he : e.built = true) : (p : Syntax.Pattern) → p.Fits e.toForm → {expected : Ty} →
    e.Whole expected → Types e [] (fun _ => True) p.parts (checkPattern p expected)
  | .bind info name, h, _, hexpected => by
    rw [checkPattern]
    refine (setSlot_safe h.leaf hexpected).types.skip fun _ => ?_
    refine Safe.types (define_safe name (by simp [Definition.kind, Kind.locals]) ?_)
    exact ⟨by simp, by simp⟩
  | .hole info, h, _, hexpected => by
    rw [checkPattern]
    exact (setSlot_safe h.leaf hexpected).types
  | .literal info l, h, _, _ => by
    have hliteral : e.Whole (literalType l.kind) := fun _ => by cases l.kind <;> exact .named (by simp)
    rw [checkPattern, Syntax.Pattern.parts]
    refine (setSlot_leaf h.literal hliteral).skip fun _ => (setSlot_safe h.leaf hliteral).types.skip fun _ => ?_
    refine (isAssignable_safe he _ _).types.skip fun fits => ?_
    exact .ite (fun _ => .pure trivial (by simp)) fun _ => (report_safe _ _).types.last (by simp)
  | .variant info ident fields, h, _, hexpected => by
    obtain ⟨hleaf, hident, hfields⟩ := h.variant
    rw [checkPattern, Syntax.Pattern.parts]
    refine (pathOf_safe hident.names).types.skip fun p =>
      (resolveOrReport_safe _ _ [.variant] p).types.bind fun r hr => ?_
    match r, hr with
    | none, _ =>
      refine (setSlot_safe hleaf Setting.whole_unknown).types.skip fun _ => ?_
      exact checkFields_types he fields hfields fun _ _ => .pure Setting.whole_unknown
    | some ⟨_, d, _⟩, hr =>
      obtain ⟨hkind, hproper⟩ := hr _ rfl
      cases d <;> simp [Definition.kind] at hkind
      case variant d v =>
      refine Types.skip (Safe.types (Safe.note fun _ => rfl)) fun _ => ?_
      refine (variantSelf_safe info hproper.1 hexpected).types.bind fun r hr => ?_
      refine (setSlot_safe hleaf hr.1).types.skip fun _ => (setSlot_safe hident.leaf hr.1).types.skip fun _ => ?_
      exact checkFields_types he fields hfields fun info name => patternField_safe hproper.1 hproper.2 hr.2 info name

lemma checkFields_types (he : e.built = true) {fieldType : Syntax.Info → String → Check Ty} :
    (fs : List (Syntax.FieldPattern Syntax.Pattern)) → (∀ f ∈ fs, ∀ p, f.pattern = some p → p.Fits e.toForm) →
    (∀ info name, Safe e e.Whole (fieldType info name)) →
    Types e [] (fun _ => True) (Syntax.fieldParts fs) (checkFields fieldType fs)
  | [], _, _ => by
    rw [checkFields]
    exact .pure trivial (by simp [Syntax.fieldParts])
  | ⟨info, name, some p⟩ :: rest, h, htype => by
    rw [checkFields, Syntax.fieldParts]
    refine (htype info name).types.bind fun t ht => ?_
    refine (checkPattern_types he p (h ⟨info, name, some p⟩ (by simp) p rfl) ht).skip fun _ => ?_
    exact (checkFields_types he rest (fun f hf => h f (List.mem_cons_of_mem _ hf)) htype).last (by simp)
  | ⟨info, name, none⟩ :: rest, h, htype => by
    rw [checkFields, Syntax.fieldParts]
    refine (htype info name).types.bind fun t ht => ?_
    have hproper : (Definition.var ⟨name, none, .known t, none⟩).Proper e := by
      refine ⟨nofun, fun u hu => ?_⟩
      cases hu
      exact ht
    refine (define_safe name (by simp [Definition.kind, Kind.locals]) hproper).types.skip fun _ => ?_
    exact checkFields_types he rest (fun f hf => h f (List.mem_cons_of_mem _ hf)) htype

end

lemma checkCoverage_safe (info : Syntax.Info) (clauses : List Syntax.Arm) :
    Safe e (fun _ => True) (checkCoverage info clauses) := by
  refine .get fun s hs => ?_
  refine Keeps.skip (.forIn fun c _ => ?_) (fun _ => ?_) s hs
  · exact .ite (fun _ => .pure trivial) fun _ => (report_safe _ _).skip fun _ => .pure trivial
  · exact .ite (fun _ => .pure trivial) fun _ => report_safe _ _

end TraitCheck.Check
