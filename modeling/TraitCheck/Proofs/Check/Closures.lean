import Mathlib.Data.List.Nodup
import TraitCheck.Proofs.Check.Filled
import TraitCheck.Proofs.Check.Questions

/-! Closures in a sane state once the relations are built, under the assumption that the checks of what is nested in them
keep to the rules of bodies and leave it with types. Closures that were written in a scope have their types when it is
left. -/

namespace TraitCheck.Check

open Regime
open Syntax (Expr Stmt Body Lambda)

variable {α : Type} {P : α → Prop} {e : Setting} {pre post : List Nat}

/-- Checks of nested syntax that keep to the rules of bodies, and after which it has types. No type that is held is asked
for, a closure is only typed where it may be, and has its type afterwards, unless it was written once more meanwhile. -/
structure SafeNested (e : Setting) (nested : Nested) : Prop where
  expr : ∀ x t, x.Fits e.toForm → e.Optional t → Types e [] (Given e x) [x.info.id] (nested.expr x t)
  block : ∀ b t, Body.Fits e.toForm b → e.Optional t → Types e [] e.Whole [b.info.id] (nested.block b t)
  closure : ∀ c ps t, Lambda.Fits e.toForm c → (∀ p ∈ ps, e.Whole p) → e.Optional t → ∀ s, Checking e s →
    e.Open s c.info.id →
      TypesAt e [] (fun r => r.isFn = true ∧ e.Whole r) [c.body.info.id] (nested.closure c ps t) s
  typed : ∀ c ps t, Lambda.Fits e.toForm c → (∀ p ∈ ps, e.Whole p) → e.Optional t → ∀ s a s', Checking e s →
    e.Open s c.info.id → (nested.closure c ps t).run s = (.ok a, s') →
      s'.Settled (s'.pending.drop s.pending.length) c.info.id

lemma optional_absent : e.Optional .absent := fun h => absurd rfl h

variable {nested : Nested} (he : e.built = true) (hn : SafeNested e nested)

/-! ### Closures -/

lemma settle_safe {t : Ty} (ht : e.Optional t) : Safe e (fun r => e.Optional r ∧ (e.Whole t → e.Whole r)) (settle t) := by
  rw [settle.eq_def]
  split
  · refine (slot_safe _).bind fun typed htyped => .pure ?_
    split
    · next hisFn =>
      have hwhole : e.Whole typed := htyped.whole (by cases typed <;> simp [Ty.isFn, Ty.isAbsent] at hisFn ⊢)
      exact ⟨hwhole.optional, fun _ => hwhole⟩
    · exact ⟨ht, id⟩
  · exact .pure ⟨ht, id⟩

lemma settle_whole {t : Ty} (ht : e.Whole t) : Safe e e.Whole (settle t) :=
  (settle_safe ht.optional).mono fun _ hr => hr.2 ht

lemma Setting.Optional.fn {gs : List (Generic Ty)} {ps : List Ty} {r : Ty} (h : e.Optional (.fn gs ps r)) :
    (∀ p ∈ ps, e.Whole p) ∧ e.Whole r.resultOf :=
  have hwhole : e.Whole (.fn gs ps r) := h (by simp)
  ⟨fun p hp hstrict => (hwhole hstrict).params p hp, fun hstrict => (hwhole hstrict).result⟩

lemma run_slot (id : Nat) (s : State) :
    (slot id).run s = (.ok (((s.slots[id]?).getD .absent).complete fun i => s.results[i]?), s) := rfl

variable {s t : State}

lemma isFn_slot {id : Nat} :
    (((s.slots[id]?).getD .absent).complete fun i => s.results[i]?).isFn = true ↔ s.HasFn id := by
  rw [Ty.isFn_complete, State.HasFn]
  cases s.slots[id]? with
  | none => simp [Ty.isFn]
  | some t => simp

lemma exists_run_settle (t : Ty) (s : State) :
    ∃ r, (settle t).run s = (.ok r, s) ∧ ∀ id n, r = .closure id n → ¬s.HasFn id := by
  cases t with
  | closure id n =>
    rw [settle, run_bind_ok (run_slot id s)]
    refine ⟨_, rfl, ?_⟩
    split
    · next hisFn =>
      rintro k m hclosure
      rw [hclosure] at hisFn
      cases hisFn
    · next hisFn =>
      rintro k m hclosure
      obtain ⟨rfl, -⟩ := Ty.closure.inj hclosure
      rwa [isFn_slot] at hisFn
  | _ => exact ⟨_, rfl, nofun⟩

lemma settle_given {x : Expr} {t : Ty} (ht : Given e x t) : Safe e (Given e x) (settle t) := by
  rw [settle.eq_def]
  split
  · refine (slot_safe _).bind fun typed htyped => .pure ?_
    split
    · next hisFn =>
      refine .of_isFn hisFn (htyped.whole ?_) ht.unheld
      cases typed <;> simp [Ty.isFn, Ty.isAbsent] at hisFn ⊢
    · exact ht
  · exact .pure ht

lemma settle_then {x : Expr} {t : Ty} (ht : Given e x t) {f : Ty → Check α} (hf : ∀ s r, Checking e s → Given e x r →
    (∀ id n, r = .closure id n → e.Open s id) → TypesAt e pre P post (f r) s) : Types e pre P post (settle t >>= f) := by
  intro s hs
  obtain ⟨r, hrun, hleft⟩ := exists_run_settle t s
  have hr := ((settle_given ht s hs.ready).ok r s hrun).2.2
  exact .look hrun (hf s r hs hr fun id n hclosure _ => hleft id n hclosure)

include hn in
lemma settleAgainst_types {node : Expr} (hnode : node.Fits e.toForm) {t target : Ty} (ht : Given e node t)
    (htarget : e.Optional target) (hs : Checking e s) (hleft : ∀ id n, t = .closure id n → e.Open s id) :
    TypesAt e [node.info.id] e.Whole [] (settleAgainst nested node t target) s := by
  rw [settleAgainst.eq_def]
  split
  · next id n =>
    obtain ⟨u, hrun, -⟩ := exists_run_settle target s
    have hu := ((settle_safe htarget s hs.ready).ok u s hrun).2.2.1
    refine .look hrun (.get ?_)
    split
    · next c hc =>
      obtain ⟨hps, hr⟩ := Setting.Optional.fn hu
      obtain ⟨hfits, rfl⟩ := hs.closures _ c hc
      refine (hn.closure c _ _ hfits hps hr.optional s hs (hleft _ n rfl)).bindIn (by simp) fun typed htyped => ?_
      refine .ite (fun _ => .pure htyped.2 (by simp)) fun hid => ?_
      have hclosure : ¬ e.Closure node.info.id := fun h => hid (ht.own (hnode.closure_iff.mp h) _ n rfl).symm
      exact .bindIn (setSlot_again hclosure htyped.2) (by simp) fun _ _ => .pure htyped.2 (by simp)
    · exact .pure hs ht.whole (by simp)
  · exact .pure hs ht.whole (by simp)

include hn in
lemma typeUnused_types {c : Lambda} (h : Lambda.Fits e.toForm c) : Types e [] (fun _ => True) [] (typeUnused nested c) := by
  intro s hs
  rw [typeUnused]
  refine .look (run_slot c.info.id s) ?_
  split
  · exact .pure hs trivial (by simp)
  · next hisFn =>
    rw [isFn_slot] at hisFn
    refine (hn.closure c _ _ h (fun p hp => ?_) optional_absent s hs fun _ => hisFn).bindIn (by simp) fun _ _ =>
      .pure trivial (by simp)
    obtain ⟨_, -, rfl⟩ := List.mem_map.mp hp
    exact Setting.whole_unknown

lemma Onward.settled (h : Onward e noneDue s t) {n : Nat} (hle : n ≤ s.pending.length) {id : Nat}
    (hid : e.Closure id) (hs : s.Settled (s.pending.drop n) id) : t.Settled (t.pending.drop n) id := by
  obtain ⟨new, hpending, -, htyped⟩ := h.appended
  rw [hpending, List.drop_append_of_le_length hle]
  obtain hfn | ⟨p, hp, rfl⟩ := hs
  · refine (htyped id hid hfn).imp_right fun hwaits => ?_
    obtain ⟨q, hq, hqid⟩ := hwaits
    exact ⟨q, List.mem_append_right _ hq, hqid⟩
  · exact .inr ⟨p, List.mem_append_left _ hp, rfl⟩

lemma Onward.le_length (h : Onward e noneDue s t) : s.pending.length ≤ t.pending.length := by
  obtain ⟨new, hpending, -⟩ := h.appended
  simp [hpending]

include hn in
lemma typeUnused_settled {c : Lambda} (h : Lambda.Fits e.toForm c) (hs : Checking e s)
    (hrun : (typeUnused nested c).run s = (.ok (), t)) : t.Settled (t.pending.drop s.pending.length) c.info.id := by
  rw [typeUnused, run_bind_ok (run_slot c.info.id s)] at hrun
  split at hrun
  · next hfn =>
    cases hrun
    exact .inl (isFn_slot.mp hfn)
  · next hfn =>
    obtain ⟨a, s', hclosure, hrun⟩ := exists_of_run_bind hrun
    cases hrun
    rw [isFn_slot] at hfn
    refine hn.typed c _ _ h (fun p hp => ?_) optional_absent s a t hs (fun _ => hfn) hclosure
    obtain ⟨_, -, rfl⟩ := List.mem_map.mp hp
    exact Setting.whole_unknown

include hn in
lemma typeUnused_all {l : List PendingClosure} (h : ∀ p ∈ l, Lambda.Fits e.toForm p.node)
    (hs : Checking e s) (hrun : (l.forM fun p => typeUnused nested p.node).run s = (.ok (), t)) :
    ∀ p ∈ l, t.Settled (t.pending.drop s.pending.length) p.node.info.id := by
  induction l generalizing s with
  | nil => simp
  | cons q l ih =>
    rw [forM_cons] at hrun
    obtain ⟨_, s', hq, hrun⟩ := exists_of_run_bind hrun
    have hfirst := h q (by simp)
    have hl := fun p hp => h p (List.mem_cons_of_mem q hp)
    obtain ⟨hs', honward, -⟩ := (typeUnused_types hn hfirst s hs).keeps.ok _ s' hq
    have hrest := (Keeps.forM (R := bodies e) fun p hp => (typeUnused_types hn (hl p hp)).checks) s' hs'
    obtain ⟨-, honward', -⟩ := hrest.ok _ t hrun
    intro p hp
    obtain rfl | hp := List.mem_cons.mp hp
    · have hsettled := typeUnused_settled hn hfirst hs hq
      exact Onward.settled honward' (Onward.le_length honward) hfirst.closure.1 hsettled
    · -- what was written later was written after the first closure was typed as well
      refine (ih hl hs' hrun p hp).imp_right fun hwaits => ?_
      obtain ⟨r, hr, hrid⟩ := hwaits
      refine ⟨r, ?_, hrid⟩
      obtain ⟨k, hk⟩ := Nat.exists_eq_add_of_le (Onward.le_length honward)
      rw [hk, ← List.drop_drop] at hr
      exact List.mem_of_mem_drop hr

include hn in
lemma flushPending_flushes (frame depth fuel : Nat) :
    (flushing e (·.isDue frame depth)).Keeps (fun _ => True) (flushPending nested frame depth fuel) := by
  induction fuel with
  | zero => exact .throw tooDeep_allowed
  | succ fuel ih =>
    rw [flushPending]
    refine .get fun s hs => ?_
    dsimp only
    split
    · exact .pure hs trivial
    · have hfits : ∀ p ∈ s.pending.filter (·.isDue frame depth), Lambda.Fits e.toForm p.node := fun p hp =>
        hs.pending p (List.mem_filter.mp hp).1
      have hall : Checks e (fun _ => True) ((s.pending.filter (·.isDue frame depth)).forM fun p =>
          typeUnused nested p.node) := .forM fun p hp => (typeUnused_types hn (hfits p hp)).checks
      refine (Checks.dropping (hall s hs) fun _ t hrun p hp (hdue : p.isDue frame depth = true) => ?_).bind
        fun _ s' _ hs' _ => ih s' hs'
      exact typeUnused_all hn hfits hs hrun p (List.mem_filter.mpr ⟨hp, hdue⟩)

lemma not_isDue_of_flushPending {frame depth fuel : Nat}
    (h : (flushPending nested frame depth fuel).run s = (.ok (), t)) {p : PendingClosure} (hp : p ∈ t.pending) :
    p.isDue frame depth = false := by
  induction fuel generalizing s with
  | zero => cases h
  | succ fuel ih =>
    rw [flushPending, run_get_bind] at h
    dsimp only at h
    split at h
    · next hnone =>
      cases h
      have hall := List.filter_eq_nil_iff.mp (List.isEmpty_iff.mp hnone) p hp
      exact Bool.eq_false_iff.mpr hall
    · obtain ⟨_, _, -, h⟩ := exists_of_run_bind h
      exact ih h

include hn in
lemma withScope_checks {scope : Scope} (hscope : scope.Local e) {x : Check α} (hx : Checks e P x) :
    Checks e P (withScope nested scope x) := by
  refine Checks.inScope hscope fun s f fs hs htop => ?_
  -- what is checked in the scope leaves the frame on top with its number and its depth
  have hframe : ∀ {a : α} {s' : State}, x.run s = (.ok a, s') →
      ∃ g, s'.frames.top = g :: fs ∧ g.id = f.id ∧ g.depth = f.depth := by
    intro a s' hrun
    have hgrown : GrownTop s.frames.top s'.frames.top := ((hx s hs).ok a s' hrun).2.1.frames
    rw [htop] at hgrown
    obtain ⟨g, htop', hgrown⟩ := hgrown.exists_cons
    exact ⟨g, htop', hgrown.id, hgrown.depth⟩
  constructor
  · match hrun : x.run s with
    | (.error φ, s') => exact .fails (run_bind_error hrun _) ((hx s hs).error φ s' hrun)
    | (.ok a, s') =>
      obtain ⟨hs', honward, ha⟩ := (hx s hs).ok a s' hrun
      obtain ⟨g, htop', hid, hdepth⟩ := hframe hrun
      refine .after hrun (Onward.weaken honward _) (.after (run_frame htop') (Onward.refl s') ?_)
      rw [hid, hdepth]
      exact (Keeps.skip (flushPending_flushes hn _ _ _) fun _ => .pure ha) s' hs'
  · intro b t hrun p hp
    obtain ⟨a, s', hx', hrun⟩ := exists_of_run_bind hrun
    obtain ⟨g, htop', hid, hdepth⟩ := hframe hx'
    rw [run_bind_ok (run_frame htop')] at hrun
    obtain ⟨_, t', hflush, hrun⟩ := exists_of_run_bind hrun
    cases hrun
    rw [← hid, ← hdepth]
    exact not_isDue_of_flushPending hflush hp

include hn in
lemma flushPending_complete {opened : Nat → Prop} {frame depth fuel : Nat} (hs : Checking e s) (h : s.Complete e opened)
    (hrun : (flushPending nested frame depth fuel).run s = (.ok (), t)) : t.Complete e opened := by
  induction fuel generalizing s with
  | zero => cases hrun
  | succ fuel ih =>
    rw [flushPending, run_get_bind] at hrun
    dsimp only at hrun
    split at hrun
    · cases hrun
      exact h
    · obtain ⟨_, u, hround, hrest⟩ := exists_of_run_bind hrun
      have hfits : ∀ p ∈ s.pending.filter (·.isDue frame depth), Lambda.Fits e.toForm p.node := fun p hp =>
        hs.pending p (List.mem_filter.mp hp).1
      have hall := Types.forM fun p hp => typeUnused_types hn (hfits p hp)
      have hsettled {v : State} (hv : ((s.pending.filter (·.isDue frame depth)).forM fun p => typeUnused nested p.node).run s =
          (.ok (), v)) (p : PendingClosure) (hp : p ∈ s.pending) (hdue : p.isDue frame depth = true) :=
        typeUnused_all hn hfits hs hv p (List.mem_filter.mpr ⟨hp, hdue⟩)
      obtain ⟨hu, -, -⟩ := (Checks.dropping (hall.checks s hs) fun _ _ => hsettled).ok _ u hround
      refine ih hu ?_ hrest
      obtain ⟨v, hv, rfl⟩ := exists_of_run_bracket hround
      obtain ⟨new, hpending, -, -⟩ := Onward.appended ((hall.checks s hs).ok _ v hv).2.1
      have hdrop : v.pending.drop s.pending.length = new := by simp [hpending]
      have htake : v.pending.take s.pending.length = s.pending := by simp [hpending]
      rw [hdrop, htake]
      refine ((hall s hs).fills opened h (.nil s) _ v hv).1.drop hpending fun p hp hmem => ?_
      rw [← hdrop]
      exact hsettled hv p hp (by simpa [hp] using hmem)

include hn in
lemma withScope_types {scope : Scope} (hscope : scope.Local e) {x : Check α} (hx : Types e pre P post x) :
    Types e pre P post (withScope nested scope x) := by
  intro s hs
  refine ⟨withScope_checks hn hscope hx.checks s hs, fun opened hcomplete hpre a t hrun => ?_⟩
  have hready : Ready e (inner scope s) := hs.ready.inner hscope
  have hinner : Checking e (inner scope s) := ⟨⟨hready.toSane, hs.placed.inner scope, hs.awaited, hs.held⟩, hready.framed⟩
  unfold withScope inScope at hrun
  obtain ⟨u, hbody, rfl⟩ := exists_of_run_bracket hrun
  obtain ⟨b, v, hbody, hrest⟩ := exists_of_run_bind hbody
  obtain ⟨hv, -, -⟩ := (hx _ hinner).keeps.ok b v hbody
  obtain ⟨hcomplete, hpost⟩ := (hx _ hinner).fills opened hcomplete hpre b v hbody
  obtain ⟨f, fs, htop⟩ := List.exists_cons_of_ne_nil hv.framed
  rw [run_bind_ok (run_frame htop)] at hrest
  obtain ⟨_, w, hflush, hpure⟩ := exists_of_run_bind hrest
  cases hpure
  have hcalm : Calm v u := Onward.toCalm ((flushPending_flushes hn _ _ _ v hv).ok _ u hflush).2.1
  have hflushed : u.Complete e opened ∧ u.Filled post := ⟨flushPending_complete hn hv hcomplete hflush, hpost.calm hcalm⟩
  exact hflushed

include he in
lemma checkBodyReturns_safe (name : String) (body : Body) (bodyType result : Ty) :
    Safe e (fun _ => True) (checkBodyReturns name body bodyType result) := by
  rw [checkBodyReturns]
  split
  · exact .pure trivial
  · split
    · exact expectAssignable_safe he _ _ _
    · exact report_safe _ _

include he in
lemma combine_whole {a b : Ty} (ha : e.Whole a) (hb : e.Whole b) :
    Safe e (fun r => ∀ t, r = some t → e.Whole t) (combine a b) :=
  (combine_safe he a b).mono fun _ hr t ht => (hr t ht).elim (· ▸ ha) (· ▸ hb)

include he in
lemma combineReturns_safe (c : Lambda) {t : Ty} (ht : e.Whole t) {rs : List Ty} (hrs : ∀ r ∈ rs, e.Whole r) :
    Safe e e.Whole (combineReturns c t rs) := by
  induction rs generalizing t with
  | nil => exact .pure ht
  | cons r rs ih =>
    rw [combineReturns]
    refine (combine_whole he ht (hrs r (by simp))).bind fun found hfound => ?_
    cases found with
    | some t => exact ih (hfound t rfl) fun u hu => hrs u (List.mem_cons_of_mem _ hu)
    | none => exact (report_safe _ _).skip fun _ => .pure Setting.whole_unknown

lemma closureParams_safe {ps : List Syntax.Param} (h : ∀ p ∈ ps, p.Fits e.toForm) {given : List Ty}
    (hgiven : ∀ t ∈ given, e.Whole t) : Safe e (fun ts => ∀ t ∈ ts, e.Whole t) (closureParams ps given) := by
  induction ps generalizing given with
  | nil => exact .pure (by simp)
  | cons p ps ih =>
    have hp := h p (by simp)
    have hrest := ih (fun q hq => h q (List.mem_cons_of_mem _ hq)) fun t ht => hgiven t (List.mem_of_mem_tail ht)
    have hstep : ∀ t, e.Whole t → Safe e (fun ts => ∀ t ∈ ts, e.Whole t) (do
        setSlot p.info.id t
        return t :: (← closureParams ps given.tail)) := fun t ht =>
      (setSlot_safe hp.leaf ht).skip fun _ => hrest.bind fun ts hts => .pure (List.forall_mem_cons.mpr ⟨ht, hts⟩)
    rw [closureParams]
    dsimp only
    split
    · exact (paramType_safe hp).bind hstep
    · next habsent =>
      rw [pure_bind]
      refine hstep _ ?_
      cases given with
      | nil => simp [Ty.isAbsent] at habsent
      | cons t ts => exact hgiven t (by simp)

lemma local_params {sc : Scope} (h : sc.Local e) (ps : List Syntax.Param) :
    (ps.foldl (fun s p => s.define p.name (.param p)) sc).Local e := by
  induction ps generalizing sc with
  | nil => exact h
  | cons p ps ih =>
    have hproper : (Definition.param p).Proper e := trivial
    exact ih (local_define h (by simp [Definition.kind, Kind.locals]) hproper _)

def closureEnd (c : Lambda) (result : Ty) (id : Nat) (bodyType : Ty) : Check Unit := do
  if result.isAbsent then
    let returns := ((← body?).map (·.returns)).getD []
    setResult id (← combineReturns c bodyType (← returns.mapM completed))
  else
    checkBodyReturns "closure" c.body bodyType result
    setResult id result

def closureBody (nested : Nested) (c : Lambda) (result : Ty) (id : Nat) : Check Unit :=
  let scope := c.params.foldl (fun s p => s.define p.name (.param p)) Scope.empty
  withScope nested { scope with body := some ⟨"closure", result, []⟩ } (nested.block c.body result >>= closureEnd c result id)

include he in
lemma closureEnd_safe (c : Lambda) {result : Ty} (hresult : e.Optional result) (id : Nat) {bodyType : Ty}
    (hbody : e.Whole bodyType) : Safe e (fun _ => True) (closureEnd c result id bodyType) := by
  refine .ite (fun _ => ?_) fun habsent => ?_
  · refine body?_safe.bind fun b hb => ?_
    have hreturns : ∀ t ∈ (b.map (·.returns)).getD [], e.Whole t := by
      cases b with
      | none => simp
      | some b => exact (hb b rfl).returns
    have hcompleted : Safe e (fun ts => ∀ t ∈ ts, e.Whole t) (((b.map (·.returns)).getD []).mapM completed) :=
      .mapM fun t ht => (completed_safe (hreturns t ht)).mono fun _ hr => hr.1
    refine hcompleted.bind fun returns hall => (combineReturns_safe he c hbody hall).bind fun t ht => ?_
    exact setResult_safe _ ht
  · refine (checkBodyReturns_safe he _ _ _ _).skip fun _ => setResult_safe _ (hresult.whole ?_)
    simpa using habsent

lemma closureScope_local (c : Lambda) {result : Ty} (hresult : e.Optional result) :
    { c.params.foldl (fun s p => s.define p.name (.param p)) Scope.empty with
      body := some ⟨"closure", result, []⟩ : Scope }.Local e :=
  local_withBody (local_params local_empty c.params) ⟨hresult, by simp⟩

include he hn in
lemma closureBody_types {c : Lambda} (h : Lambda.Fits e.toForm c) {result : Ty} (hresult : e.Optional result) (id : Nat) :
    Types e [] (fun _ => True) [c.body.info.id] (closureBody nested c result id) := by
  refine withScope_types hn (closureScope_local c hresult) ?_
  refine (hn.block c.body _ h.closure.2.2.2 hresult).bind fun t ht => ?_
  exact (closureEnd_safe he c hresult id ht).types.last (by simp)

def closureHead (c : Lambda) (params : List Ty) : Check (List Ty × Ty × Nat) := do
  let params ← closureParams c.params params
  let written ← typeOf? c.result
  return (params, written, ← newResult)

lemma typeClosure_eq (c : Lambda) (params : List Ty) (expected : Ty) : typeClosure nested c params expected = (do
    let r ← closureHead c params
    setSlot c.info.id (.fn [] r.1 (.ongoing r.2.2))
    closureBody nested c (if r.2.1.isAbsent && expected.genericNames.isEmpty then expected else r.2.1) r.2.2
    completed (.fn [] r.1 (.ongoing r.2.2))) := by
  simp only [closureHead, bind_assoc, pure_bind]
  rfl

section TypeClosure

variable {c : Lambda} (h : Lambda.Fits e.toForm c) (hunheld : e.Unheld c.info.id) {params : List Ty}
  (hparams : ∀ p ∈ params, e.Whole p) {expected : Ty} (hexpected : e.Optional expected)

include h hparams in
lemma closureHead_safe : Safe e (fun r => (∀ p ∈ r.1, e.Whole p) ∧ e.Optional r.2.1) (closureHead c params) := by
  obtain ⟨-, hps, hresult, -⟩ := h.closure
  refine (closureParams_safe hps hparams).bind fun params hparams => (typeOf?_safe hresult).bind fun written hwritten => ?_
  exact newResult_safe.skip fun id => .pure ⟨hparams, hwritten.1⟩

include hexpected in
lemma closureResult_optional {written : Ty} (h : e.Optional written) :
    e.Optional (if written.isAbsent && expected.genericNames.isEmpty then expected else written) := by
  split
  · exact hexpected
  · exact h

lemma whole_running {ps : List Ty} (hps : ∀ p ∈ ps, e.Whole p) (id : Nat) : e.Whole (.fn [] ps (.ongoing id)) :=
  fun hstrict => .running (fun p hp => hps p hp hstrict) id

include he hn h hunheld hparams hexpected

lemma typeClosure_checks :
    Checks e (fun r => r.isFn = true ∧ e.Whole r) (typeClosure nested c params expected) := by
  rw [typeClosure_eq]
  refine (closureHead_safe h hparams).checks.bind fun r hr => ?_
  refine (setSlot_checks (fun _ => ⟨rfl, hunheld⟩) (whole_running hr.1 _)).skip fun _ => ?_
  refine (closureBody_types he hn h (closureResult_optional hexpected hr.2) _).checks.skip fun _ => ?_
  exact (completed_safe (whole_running hr.1 _)).checks.mono fun r hr => ⟨hr.2, hr.1⟩

lemma typeClosure_types :
    Types e [] (fun r => r.isFn = true ∧ e.Whole r) [c.body.info.id] (typeClosure nested c params expected) := by
  intro s hs
  refine ⟨typeClosure_checks he hn h hunheld hparams hexpected s hs, fun opened hcomplete _ a t hrun => ?_⟩
  rw [typeClosure_eq] at hrun
  obtain ⟨r, s₁, hhead, hrun⟩ := exists_of_run_bind hrun
  have hsafe := (closureHead_safe h hparams).types s hs
  obtain ⟨hs₁, -, hr⟩ := hsafe.keeps.ok r s₁ hhead
  obtain ⟨hcomplete, -⟩ := hsafe.fills opened hcomplete (.nil s) r s₁ hhead
  obtain ⟨_, s₂, hset, hrun⟩ := exists_of_run_bind hrun
  cases hset
  obtain ⟨hs₂, -, -⟩ :=
    (setSlot_checks (fun _ => ⟨rfl, hunheld⟩) (whole_running hr.1 r.2.2) s₁ hs₁).ok () (typed c.info.id _ s₁) rfl
  replace hcomplete : (typed c.info.id (.fn [] r.1 (.ongoing r.2.2)) s₁).Complete e (fun k => k = c.info.id ∨ opened k) :=
    hcomplete.typed rfl rfl (fun _ hp => hp) (fun _ hk => .inr hk) fun _ => .inr ⟨h.closure.1, .inl (.inl rfl)⟩
  obtain ⟨_, s₃, hbody, hrun⟩ := exists_of_run_bind hrun
  have hbodyTypes := closureBody_types he hn h (closureResult_optional hexpected hr.2) r.2.2 _ hs₂
  obtain ⟨hs₃, -, -⟩ := hbodyTypes.keeps.ok _ s₃ hbody
  obtain ⟨hcomplete, hbody⟩ := hbodyTypes.fills _ hcomplete (.nil _) _ s₃ hbody
  obtain ⟨-, hquiet, -⟩ := (completed_safe (whole_running hr.1 r.2.2) s₃ hs₃.ready).ok a t hrun
  replace hcomplete := hcomplete.quiet hquiet
  replace hbody := hbody.calm (Quiet.toCalm hquiet)
  refine ⟨fun hclean id hid => ?_, hbody⟩
  obtain hparts | ⟨hclosure, hopen | hwaits⟩ := hcomplete hclean id hid
  · exact .inl hparts
  · obtain rfl | hopen := hopen
    · have hparts : (e.node c.info.id).parts = [c.body.info.id] := h.parts
      left
      rw [hparts]
      exact hbody hclean
    · exact .inr ⟨hclosure, .inl hopen⟩
  · exact .inr ⟨hclosure, .inr hwaits⟩

lemma typeClosure_settled {s t : State} {a : Ty} (hs : Checking e s)
    (hrun : (typeClosure nested c params expected).run s = (.ok a, t)) :
    t.Settled (t.pending.drop s.pending.length) c.info.id := by
  rw [typeClosure_eq] at hrun
  obtain ⟨r, s₁, hhead, hrun⟩ := exists_of_run_bind hrun
  obtain ⟨hs₁, honward₁, hr⟩ := ((closureHead_safe h hparams).checks s hs).ok r s₁ hhead
  obtain ⟨_, s₂, hset, hrun⟩ := exists_of_run_bind hrun
  cases hset
  obtain ⟨hs₂, honward₂, -⟩ :=
    (setSlot_checks (fun _ => ⟨rfl, hunheld⟩) (whole_running hr.1 r.2.2) s₁ hs₁).ok () (typed c.info.id _ s₁) rfl
  have hfn : (typed c.info.id (.fn [] r.1 (.ongoing r.2.2)) s₁).HasFn c.info.id :=
    ⟨_, slots_typed_self _ _ _, rfl⟩
  have hrest := ((closureBody_types he hn h (closureResult_optional hexpected hr.2) r.2.2).checks.skip fun _ =>
    (completed_safe (whole_running hr.1 r.2.2)).checks) _ hs₂
  obtain ⟨-, honward₃, -⟩ := hrest.ok a t hrun
  have hle : s.pending.length ≤ s₁.pending.length := Onward.le_length honward₁
  exact Onward.settled honward₃ hle h.closure.1 (.inl hfn)

end TypeClosure

def deferred (c : Lambda) (f : Frame) (s : State) : State :=
  { s with pending := s.pending ++ [⟨c, f⟩], closures := s.closures.insert c.info.id c }

section Deferred

variable {c : Lambda} (h : Lambda.Fits e.toForm c) (hunheld : e.Unheld c.info.id) {f : Frame} {fs : List Frame} {s : State}
  (hs : Checking e s) (htop : s.frames.top = f :: fs)

include h in
lemma sane_deferred (hs : Sane e s) : Sane e (deferred c f s) := by
  refine { hs with closures := fun id c' hc' => ?_, pending := fun p hp => ?_ }
  · replace hc' : (s.closures.insert c.info.id c)[id]? = some c' := hc'
    rw [Std.TreeMap.getElem?_insert] at hc'
    split at hc'
    · next hid =>
      obtain rfl := Option.some.inj hc'
      exact ⟨h, by simpa [Nat.compare_eq_eq] using hid⟩
    · exact hs.closures id c' hc'
  · obtain hp | hp := List.mem_append.mp hp
    · exact hs.pending p hp
    · rwa [List.mem_singleton.mp hp]

include htop in
lemma placed_deferred (c : Lambda) (hs : s.Placed) : (deferred c f s).Placed := by
  have hmem : f ∈ s.frames.top := by simp [htop]
  refine ⟨hs.distinct, hs.known, fun p hp => ?_, fun p hp g hg hid => ?_, fun p hp => ?_⟩
  · obtain hp | hp := List.mem_append.mp hp
    · exact hs.written p hp
    · rw [List.mem_singleton.mp hp]
      exact hs.known f hmem
  · obtain hp | hp := List.mem_append.mp hp
    · exact hs.kept p hp g hg hid
    · -- the frame on top is the only one with its number
      obtain rfl := List.mem_singleton.mp hp
      obtain rfl : g = f := List.inj_on_of_nodup_map hs.distinct hg hmem hid
      exact .refl g
  · obtain hp | hp := List.mem_append.mp hp
    · exact hs.within p hp
    · rw [List.mem_singleton.mp hp]
      exact .inr (List.mem_map_of_mem hmem)

include h hs htop

include hunheld in
lemma checking_deferred (n : Nat) : Checking e (typed c.info.id (.closure c.info.id n) (deferred c f s)) := by
  have hsane : Sane e (deferred c f s) := sane_deferred h hs.toSane
  have hheld := held_typed (u := .closure c.info.id n) hs.toSteady fun _ => hunheld
  refine ⟨⟨sane_typed hsane _ fun _ => .closure _ _, { placed_deferred htop c hs.placed with }, fun id hid => ?_, hheld⟩,
    hs.framed⟩
  have hpending : (typed c.info.id (.closure c.info.id n) (deferred c f s)).pending = s.pending ++ [⟨c, f⟩] := rfl
  rw [hpending]
  by_cases hsame : c.info.id = id
  · exact .inr ⟨⟨c, f⟩, by simp, hsame⟩
  · have hold : (s.closures[id]?).isSome ∨ e.Closure id ∧ (s.slots[id]?).isSome := by
      refine hid.imp (fun hmem => ?_) fun hslot => ?_
      · replace hmem : ((s.closures.insert c.info.id c)[id]?).isSome := hmem
        rwa [Std.TreeMap.getElem?_insert, if_neg (by simpa [Nat.compare_eq_eq] using hsame)] at hmem
      · rwa [slots_typed_ne hsame] at hslot
    refine (hs.awaited id hold).imp (fun hfn => ?_) fun hwaits => ?_
    · obtain ⟨r, hr, hisFn⟩ := hfn
      exact ⟨r, (slots_typed_ne hsame _ _).trans hr, hisFn⟩
    · obtain ⟨p, hp, hpid⟩ := hwaits
      exact ⟨p, List.mem_append_left _ hp, hpid⟩

omit h hs in
lemma onward_deferred (n : Nat) :
    Onward e noneDue s (typed c.info.id (.closure c.info.id n) (deferred c f s)) := by
  have hpending : (typed c.info.id (.closure c.info.id n) (deferred c f s)).pending = s.pending ++ [⟨c, f⟩] := rfl
  refine .of_appended { calm_typed c.info.id (.closure c.info.id n) s with } hpending ?_ ?_
  · intro q hq
    obtain rfl := List.mem_singleton.mp hq
    exact .inr ⟨f, fs, htop, rfl, Nat.le_refl _⟩
  · intro id hid hfn
    by_cases hsame : c.info.id = id
    · exact .inr ⟨⟨c, f⟩, by simp, hsame⟩
    · obtain ⟨r, hr, hisFn⟩ := hfn
      exact .inl ⟨r, (slots_typed_ne hsame _ _).trans hr, hisFn⟩

include hunheld in
lemma deferred_types {n : Nat} {x : Check Ty}
    (hrun : x.run s = (.ok (.closure c.info.id n), typed c.info.id (.closure c.info.id n) (deferred c f s))) :
    TypesAt e [] (Given e (.closure c)) [c.info.id] x s := by
  refine ⟨.of_run hrun (checking_deferred h hunheld hs htop n) (onward_deferred htop n) ⟨fun _ => .closure _ _, hunheld, ?_⟩,
    ?_⟩
  · rintro - id n heq
    cases heq
    rfl
  · intro opened hcomplete _ a t hrun'
    rw [hrun] at hrun'
    cases hrun'
    refine ⟨hcomplete.typed rfl rfl (fun p hp => List.mem_append_left _ hp) (fun _ hk => hk) fun _ => .inr ?_, ?_⟩
    · refine ⟨h.closure.1, .inr ⟨?_, ⟨c, f⟩, by simp [typed, deferred], rfl⟩⟩
      rintro ⟨r, hr, hfn⟩
      rw [slots_typed_self] at hr
      cases hr
      cases hfn
    · intro _ k hk
      rw [List.mem_singleton.mp hk]
      exact has_typed _ _ _

end Deferred

def closureAlone (nested : Nested) (c : Lambda) : Check Ty := do
  if c.params.any (·.type.isNone) then
    let f ← frame
    modify fun s => { s with
      pending := s.pending ++ [⟨c, f⟩]
      closures := s.closures.insert c.info.id c }
    return .closure c.info.id c.params.length
  nested.closure c [] .absent

def keepType (id : Nat) (t : Ty) : Check Ty := do
  setSlot id t
  return t

include hn in
lemma checkClosure_types {c : Lambda} (h : Lambda.Fits e.toForm c) {expected : Ty} (hexpected : e.Optional expected)
    (hs : Checking e s) (hopen : e.Open s c.info.id) :
    TypesAt e [] (Given e (.closure c)) [c.info.id] (checkClosure nested c expected >>= keepType c.info.id) s := by
  have hparts : (e.node c.info.id).parts = [c.body.info.id] := h.parts
  have hunheld : e.Unheld c.info.id := hs.toSteady.unheld hopen
  have hset {y : Check Ty} (hy : TypesAt e [] (fun r => r.isFn = true ∧ e.Whole r) [c.body.info.id] y s) :
      TypesAt e [] (Given e (.closure c)) [c.info.id] (y >>= keepType c.info.id) s :=
    hy.bindIn (by simp) fun t ht => .bindIn (setSlot_types (fun _ => ⟨ht.1, hunheld⟩) ht.2) (by simp [hparts]) fun _ _ =>
      .pure (.of_isFn ht.1 ht.2 hunheld) (by simp)
  have halone : TypesAt e [] (Given e (.closure c)) [c.info.id] (closureAlone nested c >>= keepType c.info.id) s := by
    rw [closureAlone]
    split
    · obtain ⟨f, fs, htop⟩ := List.exists_cons_of_ne_nil hs.framed
      refine deferred_types h hunheld hs htop (n := c.params.length) ?_
      rw [bind_assoc, run_bind_ok (run_frame htop)]
      rfl
    · exact hset (hn.closure c _ _ h (by simp) optional_absent s hs hopen)
  rw [checkClosure, bind_assoc]
  obtain ⟨t, hrun, -⟩ := exists_run_settle expected s
  have ht := ((settle_safe hexpected s hs.ready).ok t s hrun).2.2.1
  refine .look hrun ?_
  cases t with
  | fn gs ps r =>
    obtain ⟨hps, hr⟩ := Setting.Optional.fn ht
    dsimp only
    split
    · exact hset (hn.closure c _ _ h hps hr.optional s hs hopen)
    · exact halone
  | _ => exact halone

end TraitCheck.Check
