import TraitCheck.Proofs.Check.Nested

/-! Expressions, blocks and statements in a sane state once the relations are built. Once they have been checked they have
types, with everything that is written in them, as long as no error has been reported. The levels are tied together by
induction on the depth. -/

namespace TraitCheck.Check

open Regime
open Syntax (Expr Stmt Body Lambda Arm)

variable {e : Setting} {nested : Nested} (he : e.built = true) (hn : SafeNested e nested)

/-! ### Names -/

variable {expected : Ty}

lemma variantType_safe {d : TypeDecl} (h : d.node.Fits e.toForm) {v : Syntax.Variant} (hv : v ∈ d.node.variants)
    (hexpected : e.Optional expected) : Safe e e.Whole (variantType d v expected) := by
  rw [variantType]
  refine (typeGenerics_safe h).skip fun generics => .ite (fun _ => ?_) fun _ => ?_
  · have hholes : e.Whole (.named d.path (Ty.holes generics.length)) := fun _ => .named (.holes _)
    split
    · refine .ite (fun _ => .pure fun hstrict => .named ?_) fun _ => .pure hholes
      exact (hexpected (by simp) hstrict).args
    · exact .pure hholes
  · refine (typeSelf_safe h).bind fun self hself => ?_
    refine Keeps.bind (.mapM fun f hf => fieldType_safe h (h.fields v hv f hf)) fun ts hts => .pure ?_
    exact Setting.whole_fn _ hts hself

lemma staticMethodType_safe {m : Method} (h : m.Known e) : Safe e e.Whole (staticMethodType m) := by
  rw [staticMethodType]
  refine (methodSignature_safe h).bind fun sig hsig => ?_
  have hwhole := hsig.whole
  split
  · have howner := h.owner
    split
    · next d heq =>
      rw [heq] at howner
      refine (traitGenerics_safe howner).skip fun _ => (traitSelfGeneric_safe howner).skip fun _ => ?_
      exact .pure fun hstrict => (hwhole hstrict).withGenerics _
    · exact .get fun s hs => .pure hs fun hstrict => (hwhole hstrict).withGenerics _
  · exact .pure hwhole

include he hn in
lemma identType_types {i : Syntax.Ident} (h : i.Fits e.toForm) (hexpected : e.Optional expected) :
    Types e [] (fun r => e.Whole r.1) [] (identType nested i expected) := by
  have hend {t : Ty} (ht : e.Whole t) (isConstructor : Bool) :
      Types e [] (fun r => e.Whole r.1) [] (pure (t, isConstructor)) := .pure ht (by simp)
  rw [identType]
  refine (pathOf_safe h.names).types.skip fun p => (resolveOrReport_safe _ _ Kind.values p).types.bind fun r hr => ?_
  cases r with
  | none => exact hend Setting.whole_unknown _
  | some r =>
    obtain ⟨path, d, module⟩ := r
    obtain ⟨hkind, hproper⟩ := hr _ rfl
    cases d <;> simp [Definition.kind, Kind.values] at hkind
    case var v => exact (varType_types he hn hproper).bind fun _ ht => hend ht _
    case fn f => exact (fnSignature_safe hproper).types.bind fun _ ht => hend ht.whole _
    case variant d v => exact (variantType_safe hproper.1 hproper.2 hexpected).types.bind fun _ ht => hend ht _
    case method m => exact (staticMethodType_safe hproper).types.bind fun _ ht => hend ht _
    case param p =>
      refine (slot_safe _).types.bind fun t ht => (settle_safe ht).types.bind fun t ht => hend ?_ _
      split
      · exact Setting.whole_unknown
      · next habsent => exact ht.1.whole (by simpa using habsent)

lemma whole_bindGenerics {b : Bindings} (hb : e.WholeMap b) (generics : List (Generic Ty)) {params : List Ty} {result : Ty}
    (h : e.Whole (.fn generics params result)) : e.Whole (bindGenerics b generics params result) := by
  intro hstrict
  have hwhole : (Ty.substitute [b] (.fn [] params result)).Whole :=
    ((h hstrict).withGenerics []).substitute (by simpa using hb hstrict)
  rw [bindGenerics]
  split
  · next heq =>
    rw [heq] at hwhole
    exact hwhole.withGenerics _
  · exact hwhole

include he hn in
lemma checkIdent_types {i : Syntax.Ident} (h : i.Fits e.toForm) (hexpected : e.Optional expected) :
    Types e [] e.Whole [] (checkIdent nested i expected) := by
  rw [checkIdent]
  refine (identType_types he hn h hexpected).bind fun r hr => .ite (fun _ => .pure hr (by simp)) fun _ => ?_
  obtain ⟨t, isConstructor⟩ := r
  dsimp only
  split
  · exact (explicitGenerics_safe _ _ h.args).types.bind fun b hb => .pure (whole_bindGenerics hb _ hr) (by simp)
  · exact (checkArity_safe _ _ _).types.discard.skip fun _ => .pure hr (by simp)

/-! ### Calls and operators -/

lemma given_of_not_closure {x : Expr} (h : x.Fits e.toForm) (hx : x.isClosure = false) {s : State} (hs : Checking e s)
    {t : Ty} (ht : e.Whole t) : Given e x t := by
  have hid : ¬e.Closure x.info.id := by simp [h.closure_iff, hx]
  exact ⟨ht, hs.toSteady.unheld_of_not_closure hid, fun hclosure => by simp [hx] at hclosure⟩

include he hn in
lemma calleeType_types {callee : Expr} (h : callee.Fits e.toForm) :
    Types e [] (fun r => Given e callee r.1 ∧ ∀ t ∈ r.2.2, Syntax.TypeExpr.Fits e.toForm t) [callee.info.id]
      (calleeType nested callee) := by
  intro s hs
  rw [calleeType.eq_def]
  split
  · next i =>
    have hident := h.ident
    refine Types.bind (identType_types he hn hident optional_absent) (fun r hr => ?_) s hs
    refine (setSlot_leaf hident.leaf hr).skip fun _ => ?_
    exact .pure ⟨given_of_not_closure h rfl hs hr, hident.args⟩ (by simp [Expr.info])
  · exact Types.bind (hn.expr callee _ h optional_absent) (fun t ht => .pure ⟨ht, by simp⟩ (by simp)) s hs

def TypesAny (e : Setting) (typing : Nested) : Prop := ∀ c ps t, Lambda.Fits e.toForm c → (∀ p ∈ ps, e.Whole p) →
  e.Optional t → Types e [] (fun r => r.isFn = true ∧ e.Whole r) [c.body.info.id] (typing.closure c ps t)

include hn in
lemma callClosure_types {typing : Nested} (hexpr : typing.expr = nested.expr) (htyping : TypesAny e typing)
    (info : Syntax.Info) {callee : Expr} (hcallee : callee.Fits e.toForm) {id arity : Nat}
    (hgiven : Given e callee (.closure id arity)) {args : List Expr} (h : ∀ a ∈ args, a.Fits e.toForm)
    (hexpected : e.Optional expected) :
    Types e [callee.info.id] e.Whole (args.map (·.info.id)) (callClosure typing info callee id arity args expected) := by
  have hargs : Types e [] (fun ts => ∀ t ∈ ts, e.Whole t) (args.map (·.info.id))
      (args.mapM fun a => do settle (← typing.expr a .absent)) := by
    rw [List.map_eq_flatMap, hexpr]
    refine .mapM fun a ha => (hn.expr a _ (h a ha) optional_absent).bind fun t ht => ?_
    exact (settle_whole ht.whole).types.last (by simp)
  refine hargs.bind fun ts hts => .get fun s hs => ?_
  split
  · next c hc =>
    obtain ⟨hfits, hid⟩ := hs.closures id c hc
    have hparts : (e.node c.info.id).parts = [c.body.info.id] := hfits.parts
    -- what is called is the closure itself, or stands for it and has a type already
    have hset {t : Ty} (ht : t.isFn = true ∧ e.Whole t) :
        Types e [c.body.info.id, callee.info.id] (fun _ => True) [] (setSlot callee.info.id t) := by
      by_cases hclosure : callee.isClosure = true
      · obtain rfl := hgiven.own hclosure id arity rfl
        exact (setSlot_types (fun _ => ⟨ht.1, hgiven.unheld⟩) ht.2).widen (by simp [← hid, hparts]) (by simp)
      · have hclosure : ¬ e.Closure callee.info.id := fun h => hclosure (hcallee.closure_iff.mp h)
        exact (setSlot_again hclosure ht.2).widen (by simp) (by simp)
    refine Types.ite (fun _ => ?_) (fun _ => ?_) s hs
    · refine (htyping c _ _ hfits hts hexpected).bind fun t ht => ?_
      refine .bindIn (hset ht) (by simp) fun _ _ => ?_
      split
      · exact .pure (fun hstrict => (ht.2 hstrict).result) (by simp)
      · exact .pure Setting.whole_unknown (by simp)
    · exact (report_safe _ _).types.skip fun _ => .pure Setting.whole_unknown (by simp)
  · exact .pure hs Setting.whole_unknown (by simp)

/-- The check of a call for which closures are typed in another way. -/
def checkCallBy (typing nested : Nested) (info : Syntax.Info) (callee : Expr) (args : List Expr) (expected : Ty) :
    Check Ty := do
  let (t, isConstructor, explicit) ← calleeType nested callee
  match ← settle t with
  | .fn generics params result =>
    applyFn nested info ⟨generics, params, result, isConstructor⟩ explicit args [] expected
  | .closure id arity => callClosure typing info callee id arity args expected
  | t =>
    unless t.absorbs do report (some callee.info) (.notCallable t)
    checkAll nested args
    return .unknown

lemma checkCall_eq (nested : Nested) : checkCall nested = checkCallBy nested nested := rfl

include he hn in
lemma checkCallBy_types {typing : Nested} (hexpr : typing.expr = nested.expr) (htyping : TypesAny e typing)
    (info : Syntax.Info) {callee : Expr} (hcallee : callee.Fits e.toForm) {args : List Expr}
    (hargs : ∀ a ∈ args, a.Fits e.toForm) (hexpected : e.Optional expected) :
    Types e [] e.Whole (callee.info.id :: args.map (·.info.id))
      (checkCallBy typing nested info callee args expected) := by
  rw [checkCallBy]
  refine (calleeType_types he hn hcallee).bind fun r hr => (settle_given hr.1).types.bind fun t ht => ?_
  split
  · have hcallee := Setting.Signature.callee ht.whole (fun _ hp => hp) r.2.1
    exact (applyFn_types he hn info hcallee hr.2 hargs (by simp) hexpected).last (by simp)
  · exact (callClosure_types hn hexpr htyping info hcallee ht hargs hexpected).widen (by simp) (by simp)
  · have hall : Types e [callee.info.id] e.Whole (callee.info.id :: args.map (·.info.id)) (do
        checkAll nested args
        return Ty.unknown) := (checkAll_unknown hn hargs).last (by simp)
    exact .ite (fun _ => hall) fun _ => (report_safe _ _).types.skip fun _ => hall

lemma whole_bool : e.Whole .bool := fun _ => .named (by simp)

include he hn in
lemma checkBool_types {x : Expr} (h : x.Fits e.toForm) : Types e [] (fun _ => True) [x.info.id] (checkBool nested x) :=
  (hn.expr x _ h whole_bool.optional).skip fun _ => (expectAssignable_safe he _ _ _).types.last (by simp)

include he hn in
lemma checkBinary_types (info : Syntax.Info) (op : String) {left right : Expr} (hleft : left.Fits e.toForm)
    (hright : right.Fits e.toForm) (hexpected : e.Optional expected) :
    Types e [] e.Whole [left.info.id, right.info.id] (checkBinary nested info op left right expected) := by
  rw [checkBinary]
  refine .ite (fun _ => ?_) fun hop => ?_
  · refine (checkBool_types he hn hleft).skip fun _ => (checkBool_types he hn hright).skip fun _ => ?_
    exact .pure whole_bool (by simp)
  · split
    · exact dispatch_types he hn info hleft _ (List.forall_mem_nil _) (List.forall_mem_singleton.mpr hright) hexpected
    · next hmethod =>
      simp only [Bool.or_eq_true, decide_eq_true_eq, not_or] at hop
      exact .throw (.inl (.inl ⟨hop.1, hop.2, hmethod⟩))

include he hn in
lemma checkUnary_types (info : Syntax.Info) (op : String) {operand : Expr} (h : operand.Fits e.toForm)
    (hexpected : e.Optional expected) :
    Types e [] e.Whole [operand.info.id] (checkUnary nested info op operand expected) := by
  rw [checkUnary]
  split
  · exact dispatch_types he hn info h _ (List.forall_mem_nil _) (List.forall_mem_nil _) hexpected
  · next hmethod => exact .throw (.inl (.inl hmethod))

/-! ### Fields -/

structure FieldView.Proper (e : Setting) (v : FieldView) : Prop where
  type : e.Optional v.type
  present : v.present ≠ 0 → e.Whole v.type

include he in
lemma add_safe {d : TypeDecl} (h : d.node.Fits e.toForm) {variant : Syntax.Variant} (hv : variant ∈ d.node.variants)
    {b : Bindings} (hb : e.WholeMap b) (name : String) {v : FieldView} (hview : v.Proper e) :
    Safe e (FieldView.Proper e) (FieldView.add d b name v variant) := by
  rw [FieldView.add]
  split
  · exact .pure hview
  · next f hf =>
    refine currentModule_safe.skip fun id => (fieldType_safe h (fits_field? h hv hf)).bind fun t ht => ?_
    have hsubst : e.Whole (t.substitute [b]) := fun hstrict => (ht hstrict).substitute (by simpa using hb hstrict)
    refine .ite (fun _ => .pure ⟨hsubst.optional, fun _ => hsubst⟩) fun habsent => ?_
    have hold : e.Whole v.type := hview.type.whole (by simpa using habsent)
    refine (combine_whole he hold hsubst).bind fun found hfound => ?_
    cases found with
    | some t => exact .pure ⟨(hfound t rfl).optional, fun _ => hfound t rfl⟩
    | none => exact .pure ⟨hview.type, fun _ => hold⟩

lemma typeDecl?_safe (t : Ty) :
    Safe e (fun r => ∀ d args, r = some (d, args) → d.node.Fits e.toForm ∧ ∃ p, t = .named p args) (typeDecl? t) := by
  rw [typeDecl?.eq_def]
  split
  · refine (qualified_safe [.type] _).bind fun r hr => ?_
    match r, hr with
    | none, _ => exact .pure (by simp)
    | some ⟨_, d, _⟩, hr =>
      obtain ⟨hkind, hproper⟩ := hr _ rfl
      cases d <;> simp [Definition.kind] at hkind
      refine .pure fun d args h => ?_
      obtain ⟨rfl, rfl⟩ := Prod.mk.inj (Option.some.inj h)
      exact ⟨hproper, _, rfl⟩
  · exact .pure (by simp)

lemma wholeMap_zip (generics : List (Generic Ty)) {args : List Ty} (h : ∀ a ∈ args, e.Whole a) {b : Bindings}
    (hb : e.WholeMap b) : e.WholeMap ((generics.zip args).foldl (fun b (g, a) => b.insert g.name a) b) := by
  have hzip : ∀ x ∈ generics.zip args, e.Whole x.2 := fun x hx => h x.2 (List.of_mem_zip hx).2
  generalize generics.zip args = l at hzip
  induction l generalizing b with
  | nil => exact hb
  | cons x l ih =>
    refine ih (fun hstrict => ?_) fun y hy => hzip y (List.mem_cons_of_mem _ hy)
    exact (hb hstrict).insert _ (hzip x (by simp) hstrict)

def fieldOf (info : Syntax.Info) (name : String) (t : Ty) : Check Ty := do
  if t.absorbs then return .unknown
  let missing : Check Ty := do
    report (some info) (.notFound "field" (t.render ++ "." ++ name))
    return .unknown
  match ← typeDecl? t with
  | none => missing
  | some (d, args) =>
    let generics ← typeGenerics d
    let b := (generics.zip args).foldl (fun b (g, a) => b.insert g.name a) Bindings.empty
    let v ← d.node.variants.foldlM (FieldView.add d b name) {}
    if v.present = 0 then missing
    else if v.narrow || v.present < d.node.variants.length then
      report (some info) (.narrowFieldAccess name d.path.render)
      return .unknown
    else
      if v.hidden then report (some info) (.privateAccess (d.path.render ++ "." ++ name))
      return v.type

lemma checkField_eq (nested : Nested) (info : Syntax.Info) (receiver : Expr) (name : String) :
    checkField nested info receiver name = (do
      let t ← settle (← nested.expr receiver .absent)
      fieldOf info name t) := rfl

include he in
lemma fieldOf_safe (info : Syntax.Info) (name : String) {t : Ty} (ht : e.Whole t) : Safe e e.Whole (fieldOf info name t) := by
  refine .ite (fun _ => .pure Setting.whole_unknown) fun _ => ?_
  have hmissing : Safe e e.Whole (do
      report (some info) (.notFound "field" (t.render ++ "." ++ name))
      return Ty.unknown) := (report_safe _ _).skip fun _ => .pure Setting.whole_unknown
  refine (typeDecl?_safe t).bind fun found hfound => ?_
  match found, hfound with
  | none, _ => exact hmissing
  | some (d, args), hfound =>
    obtain ⟨hd, p, rfl⟩ := hfound d args rfl
    refine (typeGenerics_safe hd).skip fun generics => ?_
    have hb := wholeMap_zip (e := e) generics (fun a ha hstrict => (ht hstrict).args a ha) fun _ => Bindings.Whole.empty
    have hstart : FieldView.Proper e {} := ⟨optional_absent, fun h => absurd rfl h⟩
    refine Keeps.bind (.foldlM (fun variant hv v hview => add_safe he hd hv hb name hview) hstart) fun v hview => ?_
    refine .ite (fun _ => hmissing) fun hpresent => .ite (fun _ => ?_) fun _ => ?_
    · exact (report_safe _ _).skip fun _ => .pure Setting.whole_unknown
    · have htype := hview.present hpresent
      exact .ite (fun _ => (report_safe _ _).skip fun _ => .pure htype) fun _ => .pure htype

include he hn in
lemma checkField_types (info : Syntax.Info) {receiver : Expr} (h : receiver.Fits e.toForm) (name : String) :
    Types e [] e.Whole [receiver.info.id] (checkField nested info receiver name) := by
  rw [checkField_eq]
  refine (hn.expr receiver _ h optional_absent).bind fun t ht => (settle_whole ht.whole).types.bind fun t ht => ?_
  exact (fieldOf_safe he info name ht).types.last (by simp)

/-! ### Branches and lists -/

include he hn in
lemma checkCond_types (info : Syntax.Info) {test : Expr} (htest : test.Fits e.toForm) {yes : Body}
    (hyes : Body.Fits e.toForm yes) {no : Option Body} (hno : ∀ b, no = some b → Body.Fits e.toForm b)
    (hexpected : e.Optional expected) : Types e [] e.Whole (test.info.id :: yes.info.id :: no.toList.map (·.info.id))
      (checkCond nested info test yes no expected) := by
  rw [checkCond.eq_def]
  refine (checkBool_types he hn htest).skip fun _ => (hn.block yes _ hyes hexpected).bind fun a ha => ?_
  split
  · exact .pure Setting.whole_unit (by simp)
  · refine (hn.block _ _ (hno _ rfl) hexpected).bind fun b hb => (combine_whole he ha hb).types.bind fun found hfound => ?_
    cases found with
    | some t => exact .pure (hfound t rfl) (by simp)
    | none => exact (report_safe _ _).types.skip fun _ => .pure Setting.whole_unknown (by simp)

include he hn in
lemma checkElements_types {elem : Ty} (hexpected : e.Optional expected) (helem : e.Optional elem)
    {es : List Expr} (h : ∀ x ∈ es, x.Fits e.toForm) :
    Types e [] e.Optional (es.map (·.info.id)) (checkElements nested expected elem es) := by
  induction es generalizing elem with
  | nil => exact .pure helem (by simp)
  | cons x es ih =>
    replace ih {elem : Ty} (helem : e.Optional elem) {pre : List Nat} :
        Types e (x.info.id :: pre) e.Optional (x.info.id :: es.map (·.info.id))
          (checkElements nested expected elem es) :=
      (@ih elem helem fun y hy => h y (List.mem_cons_of_mem _ hy)).last (by simp)
    rw [checkElements]
    refine (hn.expr x _ (h x (by simp)) hexpected).bind fun t ht => (settle_whole ht.whole).types.bind fun t ht => ?_
    refine .ite (fun _ => ih ht.optional) fun habsent => ?_
    refine (combine_whole he (helem.whole (by simpa using habsent)) ht).types.bind fun found hfound => ?_
    cases found with
    | some t => exact ih (hfound t rfl).optional
    | none => exact (report_safe _ _).types.skip fun _ => ih helem

lemma whole_list {t : Ty} (h : e.Whole t) : e.Whole (.list t) := fun hstrict => .named (by simpa using h hstrict)

def elementOf : Ty → Ty
  | .named p [t] => if p = Ty.listPath then t else .absent
  | _ => .absent

lemma optional_elementOf (h : e.Optional expected) : e.Optional (elementOf expected) := by
  rw [elementOf.eq_def]
  split
  · next t =>
    split
    · exact fun _ hstrict => (h (by simp) hstrict).args t (by simp)
    · exact optional_absent
  · exact optional_absent

lemma checkList_eq (nested : Nested) (elements : List Expr) (expected : Ty) : checkList nested elements expected = (do
    let elem ← checkElements nested (elementOf expected) .absent elements
    if !elem.isAbsent then return .list elem
    return .list (if (elementOf expected).isAbsent then .hole else elementOf expected)) := rfl

include he hn in
lemma checkList_types {elements : List Expr} (h : ∀ x ∈ elements, x.Fits e.toForm) (hexpected : e.Optional expected) :
    Types e [] e.Whole (elements.map (·.info.id)) (checkList nested elements expected) := by
  have helem := optional_elementOf hexpected
  rw [checkList_eq]
  refine (checkElements_types he hn helem optional_absent h).bind fun t ht => ?_
  split
  · next habsent => exact .pure (whole_list (ht.whole (by simpa using habsent))) (by simp)
  · refine .pure (whole_list ?_) (by simp)
    split
    · exact fun _ => .hole
    · next habsent => exact helem.whole (by simpa using habsent)

include he in
lemma join_safe (info : Syntax.Info) {result t : Ty} (hresult : e.Optional result) (ht : e.Whole t) :
    Safe e e.Whole (join info result t) := by
  refine .ite (fun _ => .pure ht) fun habsent => ?_
  refine (combine_whole he (hresult.whole (by simpa using habsent)) ht).bind fun found hfound => ?_
  cases found with
  | some t => exact .pure (hfound t rfl)
  | none => exact (report_safe _ _).skip fun _ => .pure Setting.whole_unknown

include he hn in
lemma checkClauses_types {scrutinee result : Ty} (hscrutinee : e.Whole scrutinee)
    (hexpected : e.Optional expected) (hresult : e.Optional result) {cs : List Syntax.Arm}
    (h : ∀ c ∈ cs, Syntax.Arm.Fits e.toForm c) :
    Types e [] e.Optional (cs.flatMap Arm.parts) (checkClauses nested scrutinee expected result cs) := by
  induction cs generalizing result with
  | nil => exact .pure hresult (by simp)
  | cons c cs ih =>
    have hc := h c (by simp)
    have hbody : Types e [] e.Whole [c.body.info.id] (nested.block c.body expected >>= join c.body.info result) :=
      (hn.block _ _ hc.body hexpected).bind fun t ht => (join_safe he _ hresult ht).types.last (by simp)
    rw [checkClauses]
    refine Types.bind (?_ : Types e [] e.Whole (Arm.parts c) _) fun result hresult => ?_
    · refine withScope_types hn local_empty ?_
      refine Types.skip (.forM fun p hp => checkPattern_types he p (hc.patterns p hp) hscrutinee) fun _ => ?_
      rw [Arm.parts]
      cases hg : c.guard with
      | some g => exact (checkBool_types he hn (hc.guard g hg)).skip fun _ => hbody.last (by simp)
      | none => exact hbody.last (by simp)
    · exact (ih hresult.optional fun d hd => h d (List.mem_cons_of_mem _ hd)).last (by simp)

include he hn in
lemma checkSwitch_types (info : Syntax.Info) {scrutinee : Expr} (hscrutinee : scrutinee.Fits e.toForm)
    {clauses : List Syntax.Arm} (h : ∀ c ∈ clauses, Syntax.Arm.Fits e.toForm c) (hexpected : e.Optional expected) :
    Types e [] e.Whole (scrutinee.info.id :: clauses.flatMap Arm.parts)
      (checkSwitch nested info scrutinee clauses expected) := by
  rw [checkSwitch]
  refine (hn.expr scrutinee _ hscrutinee optional_absent).bind fun t ht => (settle_whole ht.whole).types.bind fun t ht => ?_
  refine (checkClauses_types he hn ht hexpected optional_absent h).bind fun r hr => ?_
  refine (checkCoverage_safe _ _).types.skip fun _ => .pure ?_ (by simp)
  split
  · exact fun _ => .named (by simp)
  · next habsent => exact hr.whole (by simpa using habsent)

/-! ### Functions and statements -/

lemma Setting.Signature.exists_fn {sig : Ty} (h : e.Signature sig) : ∃ gs ps r, sig = .fn gs ps r := by
  have hfn := h.isFn
  cases sig <;> simp_all [Ty.isFn]

include he hn in
lemma checkFnBody_types {fn : Syntax.Fn} (h : Syntax.Fn.Fits e.toForm fn) {sig : Ty} (hsig : e.Signature sig) :
    Types e [] (fun _ => True) (Syntax.Fn.parts fn) (checkFnBody nested fn sig) := by
  obtain ⟨hleaf, hgenerics, -, -, hbody⟩ := h.fn
  obtain ⟨gs, ps, result, rfl⟩ := Setting.Signature.exists_fn hsig
  have hresult := (hsig.result _ _ _ rfl).optional
  rw [checkFnBody.eq_def, Syntax.Fn.parts]
  refine (setSlot_safe hleaf hsig.whole).types.skip fun _ => ?_
  cases hb : fn.body with
  | none => exact .pure trivial (by simp)
  | some body =>
    refine (declareGenerics_safe _ _ hgenerics).types.bind fun r hr => ?_
    have hscope : { fn.params.foldl (fun s p => s.define p.name (.param p)) r.1 with
        body := some ⟨fn.name, result, []⟩ : Scope }.Local e :=
      local_withBody (local_params hr.1 fn.params) ⟨hresult, by simp⟩
    refine withScope_types hn hscope ?_
    refine (hn.block body _ (hbody body hb) hresult).skip fun t => ?_
    exact (checkBodyReturns_safe he _ _ _ _).types.last (by simp)

include he hn in
lemma checkReturn_types (info : Syntax.Info) {value : Option Expr} (h : ∀ x, value = some x → x.Fits e.toForm) :
    Types e [] (fun _ => True) (value.toList.map (·.info.id)) (checkReturn nested info value) := by
  rw [checkReturn.eq_def]
  refine body?_safe.types.bind fun body hbody => ?_
  cases body with
  | none =>
    refine (report_safe _ _).types.skip fun _ => ?_
    cases value with
    | some x => exact (hn.expr x _ (h x rfl) optional_absent).discard
    | none => exact .pure trivial (by simp)
  | some b =>
    cases value with
    | some x =>
      refine (hn.expr x _ (h x rfl) (hbody b rfl).result).bind fun t ht => .ite (fun _ => ?_) fun _ => ?_
      · exact (addReturn_safe ht.whole).types.last (by simp)
      · exact (expectAssignable_safe he _ _ _).types.last (by simp)
    | none =>
      refine .ite (fun _ => (addReturn_safe Setting.whole_unit).types) fun _ => ?_
      refine (isAssignable_safe he _ _).types.skip fun fits => ?_
      exact .ite (fun _ => .pure trivial (by simp)) fun _ => (report_safe _ _).types

include he hn in
lemma checkStmt_types {s : Stmt} (h : s.Fits e.toForm) : Types e [] (fun _ => True) s.parts (checkStmt nested s) := by
  cases s with
  | var d =>
    have hproper : (Definition.var ⟨d.name, some d, .slot d.info.id, none⟩).Proper e :=
      ⟨fun d' hd => Option.some.inj hd ▸ h, nofun⟩
    refine (checkVar_types he hn h).discard.skip fun _ => ?_
    exact (define_safe _ (by simp [Definition.kind, Kind.locals]) hproper).types.last (by simp [Stmt.parts])
  | fn d =>
    refine (signatureOf_safe h _).types.bind fun sig hsig => ?_
    have hproper : (Definition.fn ⟨d, ⟨[d.name]⟩, none, some sig⟩).Proper e :=
      ⟨h, .inl rfl, fun t ht => Option.some.inj ht ▸ hsig⟩
    refine (define_safe _ (by simp [Definition.kind, Kind.locals]) hproper).types.skip fun _ => ?_
    exact checkFnBody_types he hn h hsig
  | ret info value => exact checkReturn_types he hn info h.ret
  | expr info x => exact (hn.expr _ _ h.expr optional_absent).discard
  | trait _ | impl _ | type _ => exact report_types _ rfl

include he hn in
lemma checkStmts_types (hexpected : e.Optional expected) {ss : List Stmt}
    (h : ∀ s ∈ ss, s.Fits e.toForm) : Types e [] e.Whole (ss.flatMap Stmt.parts) (checkStmts nested expected ss) := by
  induction ss with
  | nil => exact .pure Setting.whole_unit (by simp)
  | cons s ss ih =>
    rw [checkStmts.eq_def]
    split
    · next heq => cases heq
    · next info x heq =>
      obtain ⟨rfl, rfl⟩ := List.cons.inj heq
      refine ((hn.expr x _ (h (.expr info x) (by simp)).expr hexpected).last ?_).mono fun _ hr => hr.whole
      simp [Stmt.parts]
    · next heq =>
      obtain ⟨rfl, rfl⟩ := List.cons.inj heq
      refine (checkStmt_types he hn (h s (by simp))).skip fun _ => ?_
      exact (ih fun t ht => h t (List.mem_cons_of_mem _ ht)).last (by simp)

lemma keepType_types {x : Expr} (h : x.Fits e.toForm) (hx : x.isClosure = false) {y : Check Ty}
    (hy : Types e [] e.Whole x.parts y) : Types e [] (Given e x) [x.info.id] (y >>= keepType x.info.id) := by
  intro s hs
  have hid : ¬ e.Closure x.info.id := by simp [h.closure_iff, hx]
  have hparts : (e.node x.info.id).parts = x.parts := h.parts
  refine (hy s hs).bindIn (by simp) fun t ht => .bindIn (setSlot_types (fun hclosure => absurd hclosure hid) ht) ?_ ?_
  · simp [hparts]
  · exact fun _ _ => .pure (given_of_not_closure h hx hs ht) (by simp)

include he hn in
lemma checkBlock_types {b : Body} (h : Body.Fits e.toForm b) (hexpected : e.Optional expected) :
    Types e [] (Given e (.block b)) [b.info.id] (checkBlock nested b expected) := by
  refine keepType_types h.expr rfl (withScope_types hn local_empty ?_)
  refine (checkStmts_types he hn hexpected h.statements).bind fun t ht => .pure ?_ (by simp [Expr.parts])
  split
  · exact fun _ => .named (by simp)
  · exact ht

include he hn in
lemma checkExpr_types {x : Expr} (h : x.Fits e.toForm) (hexpected : e.Optional expected)
    (hcall : ∀ info callee args, x = .call info callee args →
      Types e [] e.Whole x.parts (checkCall nested info callee args expected)) (hclosure : ∀ c, x = .closure c →
      Types e [] (Given e x) [x.info.id] (checkClosure nested c expected >>= keepType c.info.id)) :
    Types e [] (Given e x) [x.info.id] (checkExpr nested x expected) := by
  cases x with
  | ident i => exact keepType_types h rfl (checkIdent_types he hn h.ident hexpected)
  | literal l =>
    refine keepType_types h rfl (.pure (fun _ => ?_) (List.nil_subset _))
    cases l.kind <;> exact .named (by simp)
  | call info callee args => exact keepType_types h rfl (hcall info callee args rfl)
  | method info receiver name typeArgs args =>
    obtain ⟨hreceiver, htypes, hargs⟩ := h.method
    exact keepType_types h rfl (dispatch_types he hn info hreceiver name htypes hargs hexpected)
  | field info receiver name => exact keepType_types h rfl (checkField_types he hn info h.field name)
  | binary info op left right =>
    exact keepType_types h rfl (checkBinary_types he hn info op h.binary.1 h.binary.2 hexpected)
  | unary info op operand => exact keepType_types h rfl (checkUnary_types he hn info op h.unary hexpected)
  | closure c => exact hclosure c rfl
  | cond info test yes no =>
    obtain ⟨htest, hyes, hno⟩ := h.cond
    exact keepType_types h rfl (checkCond_types he hn info htest hyes hno hexpected)
  | switch info scrutinee clauses =>
    exact keepType_types h rfl (checkSwitch_types he hn info h.switch.1 h.switch.2 hexpected)
  | list info elements => exact keepType_types h rfl (checkList_types he hn h.list hexpected)
  | block b =>
    intro s hs
    have hid : ¬ e.Closure b.info.id := fun hclosure => by
      cases h.closure_iff.mp hclosure
    refine (hn.block _ _ h.block hexpected s hs).bindIn (by simp) fun t ht => ?_
    refine .bindIn (setSlot_again hid ht) (by simp [Expr.info]) fun _ _ => ?_
    exact .pure (given_of_not_closure h rfl hs ht) (List.subset_append_left [b.info.id] _)

include he hn in
lemma checkExpr_plain (hwatch : e.toWatch = .none) {x : Expr} (h : x.Fits e.toForm)
    (hexpected : e.Optional expected) : Types e [] (Given e x) [x.info.id] (checkExpr nested x expected) := by
  have hopen (s : State) (id : Nat) : e.Open s id := Setting.open_of_none hwatch s id
  have hany : TypesAny e nested := fun c ps t hc hps ht s hs => hn.closure c ps t hc hps ht s hs (hopen s _)
  refine checkExpr_types he hn h hexpected (fun info callee args hx => ?_) fun c hx s hs => ?_
  · subst hx
    rw [checkCall_eq]
    exact checkCallBy_types he hn rfl hany info h.call.1 h.call.2 hexpected
  · subst hx
    exact checkClosure_types hn h hexpected hs (hopen s _)

lemma safeNested_zero : SafeNested e (levels 0) :=
  ⟨fun _ _ _ _ => .throw tooDeep_allowed, fun _ _ _ _ => .throw tooDeep_allowed,
    fun _ _ _ _ _ _ s hs _ => Types.throw tooDeep_allowed s hs, fun _ _ _ _ _ _ _ _ _ _ _ hrun => by cases hrun⟩

lemma levels_safe (hwatch : e.toWatch = .none) (he : e.built = true) (depth : Nat) : SafeNested e (levels depth) := by
  induction depth with
  | zero => exact safeNested_zero
  | succ n ih =>
    have hunheld (c : Lambda) : e.Unheld c.info.id := Setting.unheld_of_none hwatch _
    refine ⟨fun x t hx ht => ?_, fun b t hb ht => ?_, fun c ps t hc hps ht s hs _ => ?_,
      fun c ps t hc hps ht s a s' hs _ hrun => ?_⟩
    · exact checkExpr_plain he ih hwatch hx ht
    · exact (checkBlock_types he ih hb ht).mono fun _ hr => hr.whole
    · exact typeClosure_types he ih hc (hunheld c) hps ht s hs
    · exact typeClosure_settled he ih hc (hunheld c) hps ht hs hrun

end TraitCheck.Check
