import TraitCheck.Proofs.Relation.Evidence
import TraitCheck.Proofs.Relation.Plain

/-! Whether a value can be used as a trait, and evidence that it can be seen as one, are worked out separately. Both come
down to the chains from a named type, or from the bounds of a generic. -/

namespace TraitCheck

variable {rels : List Relation} {cs : Path → List Chain} {q p : Path} {as args : List Ty}

/-! ### Assignability -/

lemma assignBy_mono {n m : Nat} (hn : n ≤ m) {asked before : List String} (hasked : before ⊆ asked) {t u : Ty}
    (h : Says (assignBy cs n asked) t u) : Says (assignBy cs m before) t u := by
  induction n generalizing m asked before t u with
  | zero =>
    have hfits := assignBy_zero.mp h
    cases m with
    | zero => exact assignBy_zero.mpr hfits
    | succ m => exact assignBy_succ.mpr (Or.inl hfits)
  | succ n ih =>
    obtain ⟨m, rfl⟩ : ∃ k, m = k + 1 := ⟨m - 1, by omega⟩
    obtain hfits | ⟨hnone, hq, hstep⟩ := assignBy_succ.mp h
    · exact assignBy_succ.mpr (Or.inl hfits)
    · refine assignBy_succ.mpr (Or.inr ⟨hnone, fun hmem => hq (hasked hmem), ?_⟩)
      apply hstep.mono _ fun _ _ hc => hc
      intro t u h
      exact ih (by omega) (List.cons_subset_cons _ hasked) h

def HasWay (cs : Path → List Chain) (q : Path) (as : List Ty) (p : Path) (args : List Ty) : Prop :=
  ∃ c ∈ cs q, c.Fits (Says (assignBy cs maxDepth [])) (.named q as) p (.named p args)

lemma fits_named_ne (hne : q ≠ p) (hnever : q ≠ Ty.neverPath) : (Ty.named q as).fits? (.named p args) = none := by
  simp [Ty.fits?, Ty.absorbs, Ty.isNever, Ty.equal, hne, hnever]

lemma hasWay_of_assignBy (hne : q ≠ p) (hnever : q ≠ Ty.neverPath) {n : Nat} (hn : n ≤ maxDepth) {asked : List String}
    (h : Says (assignBy cs n asked) (.named q as) (.named p args)) : HasWay cs q as p args := by
  have hnone : (Ty.named q as).fits? (.named p args) = none := fits_named_ne hne hnever
  cases n with
  | zero => cases hnone.symm.trans (assignBy_zero.mp h)
  | succ n =>
    obtain hfits | ⟨-, -, hstep⟩ := assignBy_succ.mp h
    · cases hnone.symm.trans hfits
    · cases hstep with
      | parts hds _ => simp [questions, partQuestions, hne] at hds
      | chain _ hc hfits =>
        refine ⟨_, hc, hfits.mono fun _ _ => assignBy_mono (by omega) (by simp)⟩

lemma exists_bound_of_assignBy {g : Generic Ty} {n : Nat} {asked : List String}
    (h : Says (assignBy cs (n + 1) asked) (.generic g) (.named p args)) :
    ∃ b ∈ g.bounds, ∃ asked, Says (assignBy cs n asked) b (.named p args) := by
  obtain hfits | ⟨-, -, hstep⟩ := assignBy_succ.mp h
  · simp [Ty.fits?, Ty.absorbs, Ty.isNever, Ty.equal] at hfits
  · cases hstep with
    | parts hds hmet =>
      obtain ⟨b, hb, rfl⟩ := List.mem_map.mp hds
      exact ⟨b, hb, _, hmet _ (List.mem_singleton.mpr rfl)⟩

/-! ### Evidence -/

def seenBy (rels : List Relation) (cs : Path → List Chain) (fuel : Nat) (t : Ty) (p : Path) (args : List Ty) :
    Except EvidenceError (Option Evidence) :=
  (viewAs rels (fun p => (pure (cs p) : Id _)) fuel t p args).run.run

lemma viewThrough_ne_none {view : Ty → Path → List Ty → EvidenceT Id (Option Evidence)} {t : Ty} {c : Chain}
    (h : c ≠ []) : (viewThrough rels view t (some c)).run.run ≠ .ok none := by
  obtain ⟨r, c, rfl⟩ := List.exists_cons_of_ne_nil h
  rw [viewThrough, ExceptT.run_bind, Id.run_bind]
  intro hnone
  split at hnone
  · cases hnone
  · cases hnone

lemma seenBy_named (hne : q ≠ p) {fuel : Nat} :
    seenBy rels cs (fuel + 1) (.named q as) p args = .ok none ↔ ¬ HasWay cs q as p args := by
  have hway : (way (fun p => (pure (cs p) : Id _)) q as p args).run.isSome = true ↔ HasWay cs q as p args :=
    firstFit_run _
  have hseen : seenBy rels cs (fuel + 1) (.named q as) p args =
      (viewThrough rels (viewAs rels (fun p => (pure (cs p) : Id _)) fuel) (.named q as)
        (way (fun p => (pure (cs p) : Id _)) q as p args).run).run.run := by
    rw [seenBy, viewAs_named rels _ fuel hne]
    rfl
  rw [hseen, ← hway]
  cases hrun : (way (fun p => (pure (cs p) : Id _)) q as p args).run with
  | none => exact iff_of_true rfl (by simp)
  | some c =>
    have hnil : c ≠ [] := by
      rintro rfl
      obtain ⟨⟨r, hr, -⟩, -⟩ := fits_of_firstFit _ hrun
      cases hr
    exact iff_of_false (viewThrough_ne_none hnil) (by simp)

lemma viewFromBounds_eq_none {view : Ty → Path → List Ty → EvidenceT Id (Option Evidence)} {bounds : List Ty} :
    (viewFromBounds rels view p args bounds).run.run = .ok none ↔
      ∀ b ∈ bounds, ∀ q as, b = .named q as → q ≠ p ∧ (view (.named q as) p args).run.run = .ok none := by
  induction bounds with
  | nil => exact iff_of_true rfl (by simp)
  | cons b bounds ih =>
    rw [List.forall_mem_cons, ← ih]
    cases b with
    | named q as =>
      have hfirst : (∀ r bs, Ty.named q as = .named r bs → r ≠ p ∧ (view (.named r bs) p args).run.run = .ok none) ↔
          q ≠ p ∧ (view (.named q as) p args).run.run = .ok none := by
        refine ⟨fun h => h q as rfl, ?_⟩
        rintro h _ _ ⟨⟩
        exact h
      rw [hfirst, viewFromBounds]
      by_cases hqp : q = p
      · rw [if_pos hqp, identityView]
        refine iff_of_false ?_ fun h => h.1.1 hqp
        cases traitRelation? rels p <;> exact fun h => by cases h
      · rw [if_neg hqp, ExceptT.run_bind, Id.run_bind]
        cases hview : (view (.named q as) p args).run.run with
        | error e => exact iff_of_false (fun h => by cases h) (by simp)
        | ok o =>
          cases o with
          | none => simp [hqp]
          | some e => exact iff_of_false (fun h => by cases h) (by simp)
    | _ => simp [viewFromBounds]

lemma seenBy_generic {g : Generic Ty} {fuel : Nat} :
    seenBy rels cs (fuel + 2) (.generic g) p args = .ok none ↔
      ∀ b ∈ g.bounds, ∀ q as, b = .named q as → q ≠ p ∧ ¬ HasWay cs q as p args := by
  rw [seenBy, viewAs, viewFromBounds_eq_none]
  refine forall₂_congr fun b _ => forall₂_congr fun q as => forall_congr' fun _ => and_congr_right fun hne => ?_
  exact seenBy_named hne

/-! ### Where they agree -/

/-- A named type other than the trait, or a generic with named bounds. The type without values fits everywhere, and a bound
by another generic is not looked at. -/
def Ty.Viewable (p : Path) : Ty → Prop
  | .named q _ => q ≠ p ∧ q ≠ Ty.neverPath
  | .generic g => ∀ b ∈ g.bounds, ∃ q as, b = .named q as ∧ q ≠ Ty.neverPath
  | _ => False

lemma seenBy_of_assignBy {t : Ty} (ht : t.Viewable p) (fuel : Nat)
    (h : Says (assignBy cs maxDepth []) t (.named p args)) : seenBy rels cs (fuel + 2) t p args ≠ .ok none := by
  cases t with
  | named q as => exact fun hnone => (seenBy_named ht.1).mp hnone (hasWay_of_assignBy ht.1 ht.2 (Nat.le_refl _) h)
  | generic g =>
    intro hnone
    obtain ⟨b, hb, asked, hbound⟩ := exists_bound_of_assignBy (n := 63) h
    obtain ⟨q, as, rfl, hnever⟩ := ht b hb
    obtain ⟨hne, hway⟩ := seenBy_generic.mp hnone _ hb q as rfl
    exact hway (hasWay_of_assignBy hne hnever (by decide) hbound)
  | _ => exact ht.elim

section Holds

variable {names : Set Path} (hn : Faithful names rels)
include hn

lemma holds_of_hasWay (hne : q ≠ p) (ht : (Ty.named q as).Within names) (hu : (Ty.named p args).Within names)
    (h : HasWay (idealAt rels names) q as p args) : Holds rels (.named q as) (.named p args) := by
  obtain ⟨c, hc, hfits⟩ := h
  have hcs : ∀ p ∈ names, ∀ c ∈ idealAt rels names p, c.Walked rels (Holds rels) p := fun p hp c hc =>
    (mem_idealAt hn hp).mp hc
  exact (closed_holds hn).of_step (fun _ _ ht hu h => (closed_holds hn).assignBy_sound hcs ht hu h) hcs ht hu
    (.chain hne hc hfits)

lemma holds_of_seenBy {t : Ty} (htyped : t.Viewable p) (ht : t.Within names) (hu : (Ty.named p args).Within names)
    (hown : ∀ g, t = .generic g → ∀ as, .named p as ∈ g.bounds → Holds rels (.named p as) (.named p args))
    (fuel : Nat) (h : seenBy rels (idealAt rels names) (fuel + 2) t p args ≠ .ok none) : Holds rels t (.named p args) := by
  cases ht with
  | @named q as hq hargs =>
    have hway : HasWay (idealAt rels names) q as p args := by
      by_contra hno
      exact h ((seenBy_named htyped.1).mpr hno)
    exact holds_of_hasWay hn htyped.1 (.named hq hargs) hu hway
  | @generic g hbounds =>
    simp only [ne_eq, seenBy_generic, not_forall, not_and, not_not] at h
    obtain ⟨b, hb, q, as, rfl, hway⟩ := h
    have hbound : Holds rels (.named q as) (.named p args) := by
      by_cases hqp : q = p
      · subst hqp
        exact hown g rfl as hb
      · exact holds_of_hasWay hn hqp (hbounds _ hb) hu (hway hqp)
    refine .parts (List.mem_map.mpr ⟨_, hb, rfl⟩) fun d hd => ?_
    obtain rfl := List.mem_singleton.mp hd
    exact hbound
  | _ => exact htyped.elim

end Holds

namespace Check

variable {s u v w : State} {t : Ty}

lemma run_viewAs_seenBy (hs : s.built = true) (hw : ((viewAs t p args).run s).2.Later w) :
    ((viewAs t p args).run s).1 = (seenBy s.relations w.memo.at evidenceFuel t p args).mapError failureOf := by
  rw [run_viewAs hs] at hw ⊢
  obtain ⟨-, -, -, hseen⟩ := viewAs_runs (Set.mem_univ _) s.relations (chainsAlike_any s.relations w.memo.at)
    evidenceFuel t p args t.within_univ (Ty.within_univ _) s.memo trivial
  exact congrArg (Except.mapError failureOf) (hseen hw.memo.agrees_at)

lemma mapError_ok {r : Except EvidenceError (Option Evidence)} {o : Option Evidence} :
    r.mapError failureOf = .ok o ↔ r = .ok o := by
  cases r <;> simp [Except.mapError]

lemma exists_run_viewAs (hs : s.built = true) (htrait : isTrait s.relations (.named p args) = true)
    (hends : ((viewAs t p args).run s).1 ≠ .error .tooDeep) : ∃ o, ((viewAs t p args).run s).1 = .ok o := by
  have hview := congrArg Prod.fst (run_viewAs hs t p args)
  match hrun : ((TraitCheck.viewAs s.relations (chains s.relations) evidenceFuel t p args).run s.memo).1 with
  | .ok o => exact ⟨o, by rw [hview, hrun]; rfl⟩
  | .error (.notATrait a) => exact absurd hrun (viewAs_avoids evidenceFuel t htrait args s.memo a)
  | .error .tooDeep => exact absurd (by rw [hview, hrun]; rfl) hends

lemma exists_evidence (hs : s.built = true) (htrait : isTrait s.relations (.named p args) = true)
    (hends : ((viewAs t p args).run s).1 ≠ .error .tooDeep) (hnone : ((viewAs t p args).run s).1 ≠ .ok none) :
    ∃ e, ((viewAs t p args).run s).1 = .ok (some e) := by
  obtain ⟨o, ho⟩ := exists_run_viewAs hs htrait hends
  cases o with
  | none => exact absurd ho hnone
  | some e => exact ⟨e, ho⟩

lemma run_viewAs_ne_none (hu : u.built = true) (hv : v.built = true) (ht : t.Viewable p)
    (hw : ((isAssignable t (.named p args)).run u).2.Later w) (hw' : ((viewAs t p args).run v).2.Later w)
    (h : ((isAssignable t (.named p args)).run u).1 = .ok true) : ((viewAs t p args).run v).1 ≠ .ok none := by
  have hassign := (isAssignable_answers t (.named p args) u hu).2 w hw
  have hseen : seenBy v.relations w.memo.at evidenceFuel t p args ≠ .ok none :=
    seenBy_of_assignBy ht 9998 (Except.ok.inj (hassign.symm.trans h))
  rw [run_viewAs_seenBy hv hw']
  exact fun hnone => hseen (mapError_ok.mp hnone)

end Check

section Run

variable {s : State} (hs : s.Fresh) {names : Set Path} (hn : Faithful names s.relations)
  (hsh : Shallow s.relations names) {history : List Query} (hq : ∀ q ∈ history, q.Within names)
include hs hn hsh hq

lemma run_viewAs_after {t : Ty} (ht : t.Within names) (hu : (Ty.named p args).Within names) :
    ((Check.viewAs t p args).run (s.after history)).1 =
      (seenBy s.relations (idealAt s.relations names) evidenceFuel t p args).mapError Check.failureOf := by
  have hkept := kept_settled hn hsh
  obtain ⟨hbuilt, hrels, hmemo⟩ := Check.knows_after hkept (hs.knows hkept) hq
  obtain ⟨hm, -, -, hseen⟩ := viewAs_runs hn.unit s.relations (hkept.chainsAlike (idealAt s.relations names))
    evidenceFuel t p args ht hu _ hmemo
  rw [Check.run_viewAs hbuilt, hrels]
  exact congrArg (Except.mapError Check.failureOf) (hseen (hm.agrees hn))

lemma holds_of_run {t u : Ty} (ht : t.Within names) (hu : u.Within names)
    (h : ((Check.isAssignable t u).run (s.after history)).1 = .ok true) : Holds s.relations t u := by
  rw [run_isAssignable hs hn hsh hq ht hu] at h
  exact (closed_holds hn).assignBy_sound (fun p hp c hc => (mem_idealAt hn hp).mp hc) ht hu (Except.ok.inj h)

/-- What can be seen as a trait can be used as one, if 64 nested questions are enough to find it out and the bounds that
are this trait have its arguments. -/
lemma run_isAssignable_of_viewAs {t : Ty} (hview : t.Viewable p) (ht : t.Within names)
    (hu : (Ty.named p args).Within names)
    (hshallow : Holds s.relations t (.named p args) → HoldsIn s.relations maxDepth [] t (.named p args))
    (hown : ∀ g, t = .generic g → ∀ as, .named p as ∈ g.bounds →
      ((Check.isAssignable (.named p as) (.named p args)).run (s.after history)).1 = .ok true)
    {e : Evidence} (h : ((Check.viewAs t p args).run (s.after history)).1 = .ok (some e)) :
    ((Check.isAssignable t (.named p args)).run (s.after history)).1 = .ok true := by
  have hseen : seenBy s.relations (idealAt s.relations names) evidenceFuel t p args ≠ .ok none := by
    rw [run_viewAs_after hs hn hsh hq ht hu] at h
    intro hnone
    rw [hnone] at h
    cases h
  have hbound : ∀ g, t = .generic g → ∀ as, .named p as ∈ g.bounds → Holds s.relations (.named p as) (.named p args) := by
    rintro g rfl as hmem
    cases ht with
    | generic hbounds => exact holds_of_run hs hn hsh hq (hbounds _ hmem) hu (hown g rfl as hmem)
  have hholds := holds_of_seenBy hn hview ht hu hbound 9998 hseen
  rw [run_isAssignable hs hn hsh hq ht hu]
  exact congrArg Except.ok (assignBy_of_holdsIn hn ht hu (hshallow hholds) (List.Subset.refl _))

end Run

theorem viewed_iff_assignable {s : State} {t : Ty} (ht : t.Viewable p)
    (htrait : isTrait s.relations (.named p args) = true) :
    (∀ u v w : State, s.Later u → s.Later v → ((Check.isAssignable t (.named p args)).run u).2.Later w →
      ((Check.viewAs t p args).run v).2.Later w → ((Check.viewAs t p args).run v).1 ≠ .error .tooDeep →
      ((Check.isAssignable t (.named p args)).run u).1 = .ok true →
      ∃ e, ((Check.viewAs t p args).run v).1 = .ok (some e)) ∧
    ∀ (names : Set Path) (history : List Query), s.Fresh → Faithful names s.relations → Shallow s.relations names →
      (∀ q ∈ history, q.Within names) → t.Within names → (Ty.named p args).Within names →
      (Holds s.relations t (.named p args) → HoldsIn s.relations maxDepth [] t (.named p args)) →
      (∀ g, t = .generic g → ∀ as, .named p as ∈ g.bounds →
        ((Check.isAssignable (.named p as) (.named p args)).run (s.after history)).1 = .ok true) →
      ((Check.viewAs t p args).run (s.after history)).1 ≠ .error .tooDeep →
      (((Check.isAssignable t (.named p args)).run (s.after history)).1 = .ok true ↔
        ∃ e, ((Check.viewAs t p args).run (s.after history)).1 = .ok (some e)) := by
  constructor
  · intro u v w hu hv hw hw' hends hassign
    have hnone := Check.run_viewAs_ne_none hu.built hv.built ht hw hw' hassign
    exact Check.exists_evidence hv.built (hv.relations ▸ htrait) hends hnone
  · intro names history hfresh hn hsh hq htn hun hshallow hown hends
    refine ⟨fun hassign => ?_, fun ⟨e, he⟩ => ?_⟩
    · have hkept := kept_settled hn hsh
      obtain ⟨hbuilt, hrels, -⟩ := Check.knows_after hkept (hfresh.knows hkept) hq
      refine Check.exists_evidence hbuilt (hrels ▸ htrait) hends ?_
      rw [run_isAssignable hfresh hn hsh hq htn hun] at hassign
      rw [run_viewAs_after hfresh hn hsh hq htn hun]
      intro hnone
      exact seenBy_of_assignBy ht 9998 (Except.ok.inj hassign) (Check.mapError_ok.mp hnone)
    · exact run_isAssignable_of_viewAs hfresh hn hsh hq ht htn hun hshallow hown he

namespace Detour

def names : Set Path := { p | p ∈ [Ty.unitPath, item, alpha, beta, gamma] }

lemma named_within {p : Path} (hp : p ∈ names) : (Ty.named p []).Within names := .named hp (by simp)

lemma relations_cases {r : Relation} (hr : r ∈ state.relations) :
    (∃ id, ∃ p ∈ names, p ≠ Ty.neverPath ∧ r = trait id p) ∨
      ∃ id, ∃ p ∈ names, ∃ q ∈ names, q ≠ Ty.neverPath ∧ r = step id p q := by
  change r ∈ [trait 0 alpha, trait 1 beta, trait 2 gamma, step 3 item alpha, step 4 alpha beta, step 5 beta alpha,
    step 6 alpha gamma] at hr
  simp only [List.mem_cons, List.not_mem_nil, or_false] at hr
  have halpha : alpha ∈ names ∧ alpha ≠ Ty.neverPath := ⟨by simp [names], by decide⟩
  have hbeta : beta ∈ names ∧ beta ≠ Ty.neverPath := ⟨by simp [names], by decide⟩
  have hgamma : gamma ∈ names ∧ gamma ≠ Ty.neverPath := ⟨by simp [names], by decide⟩
  rcases hr with rfl | rfl | rfl | rfl | rfl | rfl | rfl
  · exact .inl ⟨0, alpha, halpha.1, halpha.2, rfl⟩
  · exact .inl ⟨1, beta, hbeta.1, hbeta.2, rfl⟩
  · exact .inl ⟨2, gamma, hgamma.1, hgamma.2, rfl⟩
  · exact .inr ⟨3, item, by simp [names], alpha, halpha.1, halpha.2, rfl⟩
  · exact .inr ⟨4, alpha, halpha.1, beta, hbeta.1, hbeta.2, rfl⟩
  · exact .inr ⟨5, beta, hbeta.1, alpha, halpha.1, halpha.2, rfl⟩
  · exact .inr ⟨6, alpha, halpha.1, gamma, hgamma.1, hgamma.2, rfl⟩

lemma plain : Plain state.relations where
  distinct := by decide
  impls := by
    intro r hr himpl
    obtain ⟨id, p, hp, -, rfl⟩ | ⟨id, p, hp, q, hq, hne, rfl⟩ := relations_cases hr
    · cases himpl
    · exact ⟨rfl, hne, Or.inl ⟨p, rfl, rfl⟩⟩

lemma faithful : Faithful names state.relations where
  injOn p hp q hq h := List.inj_on_of_nodup_map (f := Path.render) (by decide) hp hq h
  unit := by simp [names]
  relations := by
    intro r hr
    obtain ⟨id, p, hp, -, rfl⟩ | ⟨id, p, hp, q, hq, -, rfl⟩ := relations_cases hr
    · exact ⟨hp, by simp [trait], named_within hp, by simp [trait]⟩
    · exact ⟨hq, by simp [step], named_within hp, by simp [step]⟩

theorem item_viewed_as_gamma :
    state.Fresh ∧ Faithful names state.relations ∧ Shallow state.relations names ∧
    (Holds state.relations (.named item []) (.named gamma []) →
      HoldsIn state.relations maxDepth [] (.named item []) (.named gamma [])) ∧
    ((Check.isAssignable (.named item []) (.named gamma [])).run (state.after [.chains beta])).1 = .ok true ∧
    (∃ e, ((Check.viewAs (.named item []) gamma []).run (state.after [.chains beta])).1 = .ok (some e)) ∧
    ((Check.isAssignable (.named gamma []) (.named beta [])).run (state.after [.chains beta])).1 = .ok false ∧
    ¬ ∃ e, ((Check.viewAs (.named gamma []) beta []).run (state.after [.chains beta])).1 = .ok (some e) := by
  have hfresh : state.Fresh := ⟨rfl, rfl⟩
  have hshallow := plain.shallow names
  have hquery : ∀ q ∈ [Query.chains beta], q.Within names := by simp [Query.Within, names]
  have hitem := named_within (p := item) (by simp [names])
  have hbeta := named_within (p := beta) (by simp [names])
  have hgamma := named_within (p := gamma) (by simp [names])
  have hdepth (p q : Path) (h : Holds state.relations (.named p []) (.named q [])) :
      HoldsIn state.relations maxDepth [] (.named p []) (.named q []) := (h.reaches plain p q rfl rfl).holdsIn plain 63
  have hyes := (viewed_iff_assignable (s := state) (t := .named item []) (p := gamma)
    ⟨by decide, by decide⟩ rfl).2 names [.chains beta] hfresh faithful hshallow hquery hitem hgamma (hdepth _ _) (by simp)
    fun h => by cases h
  have hno := (viewed_iff_assignable (s := state) (t := .named gamma []) (p := beta) ⟨by decide, by decide⟩ rfl).2
    names [.chains beta] hfresh faithful hshallow hquery hgamma hbeta (hdepth _ _) (by simp) fun h => by cases h
  have hassign : ((Check.isAssignable (.named item []) (.named gamma [])).run (state.after [.chains beta])).1 = .ok true := rfl
  have hrefused : ((Check.isAssignable (.named gamma []) (.named beta [])).run (state.after [.chains beta])).1 = .ok false :=
    rfl
  refine ⟨hfresh, faithful, hshallow, hdepth _ _, hassign, hyes.mp hassign, hrefused, fun h => ?_⟩
  cases hrefused.symm.trans (hno.mpr h)

end Detour

/-! A trait `Keyed<K>`, a generic with the bound `Keyed<Number>`, and one whose bound is a generic with the bound
`Keyed<Word>`. -/

namespace Keys

def keyed : Path := ⟨["Keyed"]⟩

def number : Ty := .named ⟨["Number"]⟩ []
def word : Ty := .named ⟨["Word"]⟩ []

def key : Generic Ty := ⟨"K", "K", []⟩

def byNumber : Generic Ty := ⟨"T", "T", [.named keyed [number]]⟩

def nested : Generic Ty := ⟨"T", "T", [.generic ⟨"U", "U", [.named keyed [word]]⟩]⟩

def state : State := .of [⟨0, .trait, keyed, [.generic key], .named keyed [.generic key], [key]⟩]

/-- The first one is seen as `Keyed<Word>` though it cannot be used as such, and the second one can be used but not seen. -/
theorem views_differ : isTrait state.relations (.named keyed [word]) = true ∧
    ((Check.isAssignable (.generic byNumber) (.named keyed [word])).run state).1 = .ok false ∧
    (∃ e, ((Check.viewAs (.generic byNumber) keyed [word]).run state).1 = .ok (some e)) ∧
    ((Check.isAssignable (.generic nested) (.named keyed [word])).run state).1 = .ok true ∧
    ((Check.viewAs (.generic nested) keyed [word]).run state).1 = .ok none :=
  ⟨rfl, rfl, ⟨_, rfl⟩, rfl, rfl⟩

end Keys

end TraitCheck
