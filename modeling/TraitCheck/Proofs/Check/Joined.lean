import TraitCheck.Proofs.Check.Moves
import TraitCheck.Proofs.Check.Regime
import TraitCheck.Proofs.Relation.Reflexive

/-! The common type of branches. It is the type of a branch that fits all others before it, and what it is said to be
stays true: whoever asks later gets the same answers. -/

namespace TraitCheck

/-! ### Types that fit -/

namespace Ty

/-- The type of a branch without a value, or about which nothing is known. -/
def Neutral (t : Ty) : Prop := t.isNever = true ∨ t.absorbs = true

lemma neutral_iff {t : Ty} : t.Neutral ↔ (t.isNever || t.absorbs) = true := by simp [Neutral]

lemma neutral_of_isAbsent {t : Ty} (h : t.isAbsent = true) : t.Neutral := by
  cases t with
  | absent => exact .inr rfl
  | _ => cases h

lemma Neutral.fits? {t : Ty} (h : t.Neutral) (u : Ty) : t.fits? u = some true := by
  obtain h | h := h
  · cases t with
    | named p args =>
      unfold Ty.fits?
      split
      · rfl
      · simp [h]
    | _ => cases h
  · simp [Ty.fits?, h]

end Ty

namespace State

variable {s t u : State} {a b c : Ty}

/-- Whether a value of the second type can be used where the first one is expected. -/
def Accepts (s : State) (t u : Ty) : Prop := ((Check.isAssignable u t).run s).1 = .ok true

lemma accepts_of_fits (hs : s.built = true) (h : a.fits? b = some true) : s.Accepts b a := by
  obtain ⟨hlater, hanswer⟩ := Check.isAssignable_answers a b s hs
  rw [Accepts, hanswer _ (.refl hlater.built)]
  exact congrArg Except.ok (assignBy_succ.mpr (Or.inl h))

lemma accepts_self (hs : s.built = true) (t : Ty) : s.Accepts t t := accepts_of_fits hs t.fits?_self

lemma accepts_neutral (hs : s.built = true) (h : a.Neutral) (b : Ty) : s.Accepts b a := accepts_of_fits hs (h.fits? b)

/-! ### Two branches -/

/-- How two types are put together. Of two that know their values the first one is taken if it can be used as the second,
and the second one only if it is narrower. -/
inductive Combined (s : State) : Ty → Ty → Ty → Prop
  | skip {a b : Ty} (ha : a.Neutral) : Combined s a b b
  | keep {a b : Ty} (ha : ¬ a.Neutral) (hb : b.Neutral) : Combined s a b a
  | first {a b : Ty} (ha : ¬ a.Neutral) (hb : ¬ b.Neutral) (h : s.Accepts b a) : Combined s a b a
  | second {a b : Ty} (ha : ¬ a.Neutral) (hb : ¬ b.Neutral) (h : s.Accepts a b) (hn : ¬ s.Accepts b a) : Combined s a b b

lemma cases_of_combineWith {cs : Path → List Chain}
    (h : (combineWith (fun p => (pure (cs p) : Id _)) a b).run = some c) (ha : ¬ a.Neutral) (hb : ¬ b.Neutral) :
    (assignBy cs maxDepth [] a b).run = true ∧ c = a ∨
      (assignBy cs maxDepth [] a b).run = false ∧ (assignBy cs maxDepth [] b a).run = true ∧ c = b := by
  unfold combineWith at h
  rw [if_neg (mt Ty.neutral_iff.mpr ha), if_neg (mt Ty.neutral_iff.mpr hb)] at h
  change (if (assignBy cs maxDepth [] a b).run = true then some a
    else (if (assignBy cs maxDepth [] b a).run = true then some b else none : Id (Option Ty))) = some c at h
  split at h
  · next hfirst => exact .inl ⟨hfirst, (Option.some.inj h).symm⟩
  · next hfirst =>
    split at h
    · next hsecond => exact .inr ⟨Bool.eq_false_of_not_eq_true hfirst, hsecond, (Option.some.inj h).symm⟩
    · cases h

lemma exists_accepts_iff (hu : u.built = true) (a b : Ty) :
    ∃ w, u.Later w ∧ (u.Accepts b a ↔ (assignBy w.memo.at maxDepth [] a b).run = true) := by
  obtain ⟨hlater, hasked⟩ := Check.isAssignable_answers a b u hu
  refine ⟨_, hlater, ?_⟩
  rw [Accepts, hasked _ (.refl hlater.built), Except.ok.injEq]

lemma combined_of_run (hs : s.built = true) (h : (Check.combine a b).run s = (.ok (some c), t)) (hu : t.Later u) :
    u.Combined a b c := by
  obtain ⟨-, hanswer⟩ := Check.combine_answers a b s hs
  rw [h] at hanswer
  have hcombine (w : State) (hw : t.Later w) : (combineWith (fun p => (pure (w.memo.at p) : Id _)) a b).run = some c :=
    (Except.ok.inj (hanswer w hw)).symm
  by_cases ha : a.Neutral
  · have hc := hcombine u hu
    unfold combineWith at hc
    rw [if_pos (Ty.neutral_iff.mp ha)] at hc
    cases hc
    exact .skip ha
  by_cases hb : b.Neutral
  · have hc := hcombine u hu
    unfold combineWith at hc
    rw [if_neg (mt Ty.neutral_iff.mpr ha), if_pos (Ty.neutral_iff.mp hb)] at hc
    cases hc
    exact .keep ha hb
  -- the two questions leave different chains behind, and with each of them the types are put together alike
  obtain ⟨w, hw, hfirst⟩ := exists_accepts_iff hu.built a b
  obtain ⟨v, hv, hsecond⟩ := exists_accepts_iff hu.built b a
  by_cases hca : c = a
  · subst hca
    refine .first ha hb ?_
    obtain ⟨hyes, -⟩ | ⟨-, -, rfl⟩ := cases_of_combineWith (hcombine w (hu.trans hw)) ha hb
    · exact hfirst.mpr hyes
    · exact accepts_self hu.built c
  · obtain ⟨hno, -, rfl⟩ := (cases_of_combineWith (hcombine w (hu.trans hw)) ha hb).resolve_left fun h => hca h.2
    obtain ⟨-, hyes, -⟩ := (cases_of_combineWith (hcombine v (hu.trans hv)) ha hb).resolve_left fun h => hca h.2
    exact .second ha hb (hsecond.mpr hyes) fun haccept => by simp [hfirst.mp haccept] at hno

/-! ### Any number of branches -/

inductive Joined (s : State) : Ty → List Ty → Ty → Prop
  | done (r : Ty) : Joined s r [] r
  | next {r t u c : Ty} {ts : List Ty} (h : s.Combined r t u) (rest : Joined s u ts c) : Joined s r (t :: ts) c

/-- All branches can be used as the type, unless one of them is narrower than another. -/
def Fitting (s : State) (ts : List Ty) (c : Ty) : Prop :=
  (∀ t ∈ ts, s.Accepts c t) ∨ ∃ t ∈ ts, ∃ u ∈ ts, ¬ t.Neutral ∧ ¬ u.Neutral ∧ s.Accepts u t ∧ ¬ s.Accepts t u

variable {ts : List Ty}

lemma Joined.eq_first {r : Ty} (h : s.Joined r ts c) (hr : ¬ r.Neutral)
    (hm : ∀ t ∈ ts, ¬ t.Neutral → (s.Accepts t r ↔ s.Accepts r t)) :
    c = r ∧ ∀ t ∈ ts, ¬ t.Neutral → s.Accepts r t := by
  induction h with
  | done r => exact ⟨rfl, by simp⟩
  | @next r t u c ts h rest ih =>
    rw [List.forall_mem_cons] at hm
    cases h with
    | skip ha => exact absurd ha hr
    | keep ha hb =>
      obtain ⟨hc, hall⟩ := ih hr hm.2
      exact ⟨hc, List.forall_mem_cons.mpr ⟨fun ht => absurd hb ht, hall⟩⟩
    | first ha hb h =>
      obtain ⟨hc, hall⟩ := ih hr hm.2
      exact ⟨hc, List.forall_mem_cons.mpr ⟨fun ht => (hm.1 ht).mp h, hall⟩⟩
    | second ha hb h hn => exact absurd ((hm.1 hb).mpr h) hn

lemma Joined.fitting {r : Ty} (hs : s.built = true) (h : s.Joined r ts c) : s.Fitting (r :: ts) c := by
  by_cases hnarrow : ∃ t ∈ r :: ts, ∃ u ∈ r :: ts, ¬ t.Neutral ∧ ¬ u.Neutral ∧ s.Accepts u t ∧ ¬ s.Accepts t u
  · exact .inr hnarrow
  left
  have hm : ∀ t ∈ r :: ts, ∀ u ∈ r :: ts, ¬ t.Neutral → ¬ u.Neutral → s.Accepts u t → s.Accepts t u := by
    intro t ht u hu htn hun haccept
    by_contra hno
    exact hnarrow ⟨t, ht, u, hu, htn, hun, haccept, hno⟩
  clear hnarrow
  -- types without a value are skipped, and the first other one is kept
  induction ts generalizing r with
  | nil =>
    cases h
    simpa using accepts_self hs c
  | cons t ts ih =>
    by_cases hr : r.Neutral
    · cases h with
      | next hcombined rest =>
        cases hcombined with
        | skip _ =>
          have hall := ih rest fun x hx y hy => hm x (List.mem_cons_of_mem r hx) y (List.mem_cons_of_mem r hy)
          exact List.forall_mem_cons.mpr ⟨accepts_neutral hs hr c, hall⟩
        | keep ha _ => exact absurd hr ha
        | first ha _ _ => exact absurd hr ha
        | second ha _ _ _ => exact absurd hr ha
    · obtain ⟨rfl, hall⟩ := h.eq_first hr fun x hx hxn =>
        ⟨hm r (by simp) x (List.mem_cons_of_mem r hx) hr hxn, hm x (List.mem_cons_of_mem r hx) r (by simp) hxn hr⟩
      refine List.forall_mem_cons.mpr ⟨accepts_self hs c, fun x hx => ?_⟩
      by_cases hxn : x.Neutral
      · exact accepts_neutral hs hxn c
      · exact hall x hx hxn

lemma Joined.fitting_all {r : Ty} (hs : s.built = true) (hr : r.Neutral) (h : s.Joined r ts c) : s.Fitting ts c := by
  obtain hall | ⟨t, ht, u, hu, htn, hun, hnarrow⟩ := h.fitting hs
  · exact .inl fun t ht => hall t (List.mem_cons_of_mem r ht)
  · have hmem : ∀ x ∈ r :: ts, ¬ x.Neutral → x ∈ ts := by
      intro x hx hxn
      obtain rfl | hx := List.mem_cons.mp hx
      · exact absurd hr hxn
      · exact hx
    exact .inr ⟨t, hmem t ht htn, u, hmem u hu hun, htn, hun, hnarrow⟩

lemma Joined.neutral {r : Ty} (h : s.Joined r ts c) (hc : c.Neutral) : r.Neutral ∧ ∀ t ∈ ts, t.Neutral := by
  induction h with
  | done r => exact ⟨hc, by simp⟩
  | next h rest ih =>
    obtain ⟨hu, hall⟩ := ih hc
    cases h with
    | skip ha => exact ⟨ha, List.forall_mem_cons.mpr ⟨hu, hall⟩⟩
    | keep ha _ => exact absurd hu ha
    | first ha _ _ => exact absurd hu ha
    | second _ hb _ _ => exact absurd hu hb

lemma Joined.fitting_default (hs : s.built = true) (h : s.Joined .absent ts c) (d : Ty) :
    s.Fitting ts (if c.isAbsent then d else c) := by
  split
  · next habsent =>
    have hc : c.Neutral := Ty.neutral_of_isAbsent habsent
    exact .inl fun t ht => accepts_neutral hs ((h.neutral hc).2 t ht) d
  · exact h.fitting_all hs (.inr rfl)

lemma Combined.accepts (hs : s.built = true) (h : s.Combined a b c) :
    (c = a ∨ c = b) ∧ (¬ a.Neutral → ¬ b.Neutral → s.Accepts a c ∧ s.Accepts b c) ∧
      (s.Accepts c a ∧ s.Accepts c b ↔ a.Neutral ∨ b.Neutral ∨ s.Accepts a b ∧ s.Accepts b a) := by
  cases h with
  | skip ha => exact ⟨.inr rfl, fun hn => absurd ha hn, iff_of_true ⟨accepts_neutral hs ha _, accepts_self hs _⟩ (.inl ha)⟩
  | keep ha hb =>
    exact ⟨.inl rfl, fun _ hn => absurd hb hn, iff_of_true ⟨accepts_self hs _, accepts_neutral hs hb _⟩ (.inr (.inl hb))⟩
  | first ha hb h =>
    refine ⟨.inl rfl, fun _ _ => ⟨accepts_self hs _, h⟩, ?_⟩
    simp [ha, hb, h, accepts_self hs]
  | second ha hb h hn =>
    refine ⟨.inr rfl, fun _ _ => ⟨h, accepts_self hs _⟩, ?_⟩
    simp [ha, hb, hn]

/-! ### Reports -/

/-- Between two states a mismatch was reported at one of some places. -/
def Mismatched (s t : State) (places : List Syntax.Info) : Prop :=
  ∃ front d back, t.diagnostics = front ++ d :: back ∧ s.diagnostics <+: front ∧
    (∃ i ∈ places, d.range = some i.range) ∧ ∃ a b, d.cause = .branchMismatch a b ∨ d.cause = .typeMismatch a b

lemma Mismatched.mono {s' t' : State} {places more : List Syntax.Info} (h : s.Mismatched t places) (hs : s'.Updates s)
    (ht : t.Updates t') (hmore : places ⊆ more) : s'.Mismatched t' more := by
  obtain ⟨front, d, back, heq, hfront, ⟨i, hi, hrange⟩, hcause⟩ := h
  obtain ⟨rest, hrest⟩ := ht.diagnostics
  refine ⟨front, d, back ++ rest, ?_, hs.diagnostics.trans hfront, ⟨i, hmore hi, hrange⟩, hcause⟩
  rw [← hrest, heq]
  simp

/-- Between two states an action was taken and had a result. -/
def Gave {α : Type} (s t : State) (x : Check α) (a : α) : Prop :=
  ∃ u v, s.Updates u ∧ x.run u = (.ok a, v) ∧ v.Updates t

lemma Gave.mono {α : Type} {s' t' : State} {x : Check α} {r : α} (h : s.Gave t x r) (hs : s'.Updates s)
    (ht : t.Updates t') : s'.Gave t' x r := by
  obtain ⟨u, v, hu, hrun, hv⟩ := h
  exact ⟨u, v, hs.trans hu, hrun, hv.trans ht⟩

end State

namespace Check

open Syntax (Expr Body Arm Info)

variable {α : Type} {s t : State}

variable {info : Info} {expected r : Ty}

lemma exists_of_run_combine (hs : s.built = true) {a b : Ty} {f : Option Ty → Check α} {r : α}
    {cause : Diagnostic.Cause} (hcause : ∃ x y, cause = .branchMismatch x y ∨ cause = .typeMismatch x y)
    {k : PUnit → Check α} (hnone : f none = report (some info) cause >>= k) (hk : Moves true (k ⟨⟩))
    (h : (combine a b >>= f).run s = (.ok r, t)) : s.Mismatched t [info] ∨
      ∃ c u, s.Updates u ∧ (∀ w, u.Later w → w.Combined a b c) ∧ (f (some c)).run u = (.ok r, t) := by
  obtain ⟨o, u, hcombine, hrest⟩ := exists_of_run_bind h
  have hu : s.Updates u := (combine_moves a b).updates hs hcombine
  cases o with
  | none =>
    left
    rw [hnone, run_bind_ok (run_report _ _ _)] at hrest
    have hupdates := hk.updates (b := true) (by exact hu.built.trans hs) hrest
    have hmismatch : u.Mismatched { u with diagnostics := u.diagnostics ++ [diagnosticAt u (some info) cause] } [info] :=
      ⟨u.diagnostics, _, [], rfl, List.prefix_rfl, ⟨info, by simp, rfl⟩, hcause⟩
    exact hmismatch.mono hu hupdates (List.Subset.refl _)
  | some c => exact .inr ⟨c, u, hu, fun w hw => State.combined_of_run hs hcombine hw, hrest⟩

lemma exists_of_run_join (hs : s.built = true) {a b : Ty} {f : Option Ty → Check α} {r : α}
    {cause : Diagnostic.Cause} (hcause : ∃ x y, cause = .branchMismatch x y ∨ cause = .typeMismatch x y)
    {k : PUnit → Check α} (hnone : f none = report (some info) cause >>= k) (hk : Moves true (k ⟨⟩))
    (h : (if a.isAbsent then f (some b) else combine a b >>= f).run s = (.ok r, t)) : s.Mismatched t [info] ∨
      ∃ c u, s.Updates u ∧ (∀ w, u.Later w → w.Combined a b c) ∧ (f (some c)).run u = (.ok r, t) := by
  split at h
  · next habsent => exact .inr ⟨b, s, .refl s, fun _ _ => .skip (Ty.neutral_of_isAbsent habsent), h⟩
  · exact exists_of_run_combine hs hcause hnone hk h

lemma combined_of_run_join (hs : s.built = true) {a b : Ty} (h : (join info a b).run s = (.ok r, t)) :
    s.Mismatched t [info] ∨ ∀ w, t.Later w → w.Combined a b r := by
  rw [join] at h
  split at h
  · next habsent =>
    cases h
    exact .inr fun _ _ => .skip (Ty.neutral_of_isAbsent habsent)
  · obtain hmismatch | ⟨c, u, -, hcombined, hpure⟩ :=
      exists_of_run_combine hs ⟨a, b, .inl rfl⟩ (k := fun _ => pure .unknown) rfl (.pure _) h
    · exact .inl hmismatch
    · cases hpure
      exact .inr hcombined

variable {nested : Nested} (h : nested.Moves)
include h

lemma gave_of_run_withScope {scope : Scope} (hscope : scope.Fresh) {x : Check α} (hx : Moves true x) {r : α}
    (hs : s.built = true) (hrun : (withScope nested scope x).run s = (.ok r, t)) : s.Gave t x r := by
  unfold withScope inScope at hrun
  obtain ⟨u, hbody, rfl⟩ := exists_of_run_bracket hrun
  obtain ⟨r', v, hx', hrest⟩ := exists_of_run_bind hbody
  have hinner := (State.Update.inner s hscope.built).updates
  have hv := hx.updates (hinner.built.trans hs) hx'
  obtain ⟨f, w, hframe, hrest⟩ := exists_of_run_bind hrest
  have hw := hv.trans (frame_moves.updates rfl hframe)
  obtain ⟨_, u', hflush, hpure⟩ := exists_of_run_bind hrest
  cases hpure
  have hu := (flushPending_moves h _ _ _).updates (hw.built.trans (hinner.built.trans hs)) hflush
  exact ⟨_, v, hinner, hx', ((frame_moves.updates rfl hframe).trans hu).trans (State.Update.outer _).updates⟩

lemma checkCond_joined {test : Expr} {yes no : Body} (hs : s.built = true)
    (hrun : (checkCond nested info test yes (some no) expected).run s = (.ok r, t)) : s.Mismatched t [info] ∨
      ∃ a b, s.Gave t (nested.block yes expected) a ∧ s.Gave t (nested.block no expected) b ∧
        ∀ u, t.Later u → u.Combined a b r := by
  obtain ⟨_, s₁, htest, hrest⟩ := exists_of_run_bind hrun
  have h₁ : s.Updates s₁ := (checkBool_moves h test).updates hs htest
  obtain ⟨a, s₂, hyes, hrest⟩ := exists_of_run_bind hrest
  have h₂ : s₁.Updates s₂ := (h.block yes expected).updates (h₁.built.trans hs) hyes
  obtain ⟨b, s₃, hno, hrest⟩ := exists_of_run_bind hrest
  have hs₂ := (h₁.trans h₂).built.trans hs
  have h₃ : s₂.Updates s₃ := (h.block no expected).updates hs₂ hno
  obtain hmismatch | ⟨c, u, hu, hcombined, hpure⟩ :=
    exists_of_run_combine (h₃.built.trans hs₂) ⟨a, b, .inl rfl⟩ (k := fun _ => pure .unknown) rfl (.pure _) hrest
  · exact .inl (hmismatch.mono ((h₁.trans h₂).trans h₃) (.refl t) (List.Subset.refl _))
  · cases hpure
    exact .inr ⟨a, b, ⟨s₁, s₂, h₁, hyes, h₃.trans hu⟩, ⟨s₂, s₃, h₁.trans h₂, hno, hu⟩, hcombined⟩

lemma checkElements_joined {elem : Ty} {es : List Expr} (hs : s.built = true)
    (hrun : (checkElements nested expected elem es).run s = (.ok r, t)) : s.Mismatched t (es.map (·.info)) ∨
      ∃ ts, List.Forall₂ (fun e ty => s.Gave t (nested.expr e expected >>= settle) ty) es ts ∧
        ∀ u, t.Later u → u.Joined elem ts r := by
  induction es generalizing s elem with
  | nil =>
    cases hrun
    exact .inr ⟨[], .nil, fun u _ => .done _⟩
  | cons e es ih =>
    obtain ⟨ty, s₁, hexpr, hrest⟩ := exists_of_run_bind hrun
    obtain ⟨ty', s₂, hsettle, hrest⟩ := exists_of_run_bind hrest
    have h₁ : s.Updates s₁ := (h.expr e expected).updates hs hexpr
    have h₂ : s.Updates s₂ := h₁.trans ((settle_moves ty).updates rfl hsettle)
    have hs₂ := h₂.built.trans hs
    have hrun₂ : (nested.expr e expected >>= settle).run s = (.ok ty', s₂) := (run_bind_ok hexpr _).trans hsettle
    obtain hmismatch | ⟨c, u, hu, hcombined, hrest⟩ :=
      exists_of_run_join hs₂ (a := elem) (b := ty')
        ⟨elem, ty', .inr rfl⟩ rfl (checkElements_moves h _ _ _) hrest
    · exact .inl (hmismatch.mono h₂ (.refl t) (by simp))
    have hu' := h₂.trans hu
    have ht := (checkElements_moves h _ _ _).updates (hu'.built.trans hs) hrest
    obtain hmismatch | ⟨ts, hts, hjoined⟩ := ih (hu'.built.trans hs) hrest
    · exact .inl (hmismatch.mono hu' (.refl t) (by simp))
    · refine .inr ⟨ty' :: ts, .cons ⟨s, s₂, .refl s, hrun₂, hu.trans ht⟩ (hts.imp fun _ _ hgave => ?_), fun w hw => ?_⟩
      · exact hgave.mono hu' (.refl t)
      · exact .next (hcombined w ((ht.later (hu'.built.trans hs)).trans hw)) (hjoined w hw)

lemma checkClauses_joined {scrutinee result : Ty} {cs : List Arm} (hs : s.built = true)
    (hrun : (checkClauses nested scrutinee expected result cs).run s = (.ok r, t)) :
    s.Mismatched t (cs.map (·.body.info)) ∨
      ∃ ts, List.Forall₂ (fun c ty => s.Gave t (nested.block c.body expected) ty) cs ts ∧
        ∀ u, t.Later u → u.Joined result ts r := by
  induction cs generalizing s result with
  | nil =>
    cases hrun
    exact .inr ⟨[], .nil, fun u _ => .done _⟩
  | cons c cs ih =>
    obtain ⟨result', s', hscope, hrest⟩ := exists_of_run_bind hrun
    obtain ⟨u₀, v, hu₀, hclause, hv⟩ := gave_of_run_withScope h .empty (clause_moves h c _ _ _) hs hscope
    obtain ⟨_, u₁, hpatterns, hclause⟩ := exists_of_run_bind hclause
    have hu₁ := hu₀.trans ((Moves.forM fun p => checkPattern_moves p scrutinee).updates (hu₀.built.trans hs) hpatterns)
    obtain ⟨u₂, hu₂, hclause⟩ : ∃ u₂, s.Updates u₂ ∧
        (nested.block c.body expected >>= join c.body.info result).run u₂ = (.ok result', v) := by
      cases hguard : c.guard with
      | none =>
        rw [hguard] at hclause
        exact ⟨u₁, hu₁, hclause⟩
      | some g =>
        rw [hguard] at hclause
        obtain ⟨_, u₂, hcheck, hclause⟩ := exists_of_run_bind hclause
        exact ⟨u₂, hu₁.trans ((checkBool_moves h g).updates (hu₁.built.trans hs) hcheck), hclause⟩
    obtain ⟨ty, u₃, hblock, hclause⟩ := exists_of_run_bind hclause
    have hu₃ := (h.block c.body expected).updates (hu₂.built.trans hs) hblock
    have hs₃ := (hu₂.trans hu₃).built.trans hs
    have hv₃ := (join_moves c.body.info result ty).updates hs₃ hclause
    have hs' := ((hu₂.trans hu₃).trans hv₃).trans hv
    have ht := (checkClauses_moves h _ _ _ _).updates (hs'.built.trans hs) hrest
    obtain hmismatch | hcombined := combined_of_run_join hs₃ hclause
    · exact .inl (hmismatch.mono (hu₂.trans hu₃) (hv.trans ht) (by simp))
    obtain hmismatch | ⟨ts, hts, hjoined⟩ := ih (hs'.built.trans hs) hrest
    · exact .inl (hmismatch.mono hs' (.refl t) (by simp))
    · refine .inr ⟨ty :: ts, .cons ⟨u₂, u₃, hu₂, hblock, (hv₃.trans hv).trans ht⟩ (hts.imp fun _ _ hgave => ?_),
        fun w hw => ?_⟩
      · exact hgave.mono hs' (.refl t)
      · have hlater := (hv.trans ht).later (((hu₂.trans hu₃).trans hv₃).built.trans hs)
        exact .next (hcombined w (hlater.trans hw)) (hjoined w hw)

def expectedElement : Ty → Ty
  | .named p [t] => if p = Ty.listPath then t else .absent
  | _ => .absent

/-- The branches of an expression: how each one is checked, and where it is said that it does not fit. -/
def branches (nested : Nested) (expected : Ty) : Expr → List (Info × Check Ty)
  | .cond info _ yes (some no) => [(info, nested.block yes expected), (info, nested.block no expected)]
  | .list _ es => es.map fun e => (e.info, nested.expr e (expectedElement expected) >>= settle)
  | .switch _ _ cs => cs.map fun c => (c.body.info, nested.block c.body expected)
  | _ => []

/-- The type of an expression whose branches have a common one. -/
def typeFrom (c : Ty) : Expr → Ty
  | .list _ _ => .list c
  | _ => c

/-- The type of an expression comes from one that fits its branches, or a mismatch is reported. -/
def Fitted (nested : Nested) (e : Expr) (expected r : Ty) (s t : State) : Prop :=
  ∃ c, r = typeFrom c e ∧ (s.Mismatched t ((branches nested expected e).map (·.1)) ∨
    ∃ ts, List.Forall₂ (fun b ty => s.Gave t b.2 ty) (branches nested expected e) ts ∧ ∀ u, t.Later u → u.Fitting ts c)

lemma checkCond_fitted {test : Expr} {yes : Body} {no : Option Body} (hs : s.built = true)
    (hrun : (checkCond nested info test yes no expected).run s = (.ok r, t)) :
    Fitted nested (.cond info test yes no) expected r s t := by
  refine ⟨r, rfl, ?_⟩
  cases no with
  | none => exact .inr ⟨[], .nil, fun _ _ => .inl (by simp)⟩
  | some no =>
    obtain hmismatch | ⟨a, b, ha, hb, hcombined⟩ := checkCond_joined h hs hrun
    · exact .inl (hmismatch.mono (.refl s) (.refl t) (by simp [branches]))
    · exact .inr ⟨[a, b], .cons ha (.cons hb .nil), fun u hu =>
        (State.Joined.next (hcombined u hu) (.done r)).fitting hu.built⟩

lemma checkList_fitted {es : List Expr} (hs : s.built = true)
    (hrun : (checkList nested es expected).run s = (.ok r, t)) : Fitted nested (.list info es) expected r s t := by
  obtain ⟨c, t', hes, hpure⟩ := exists_of_run_bind hrun
  obtain ⟨d, rfl, rfl⟩ : ∃ d, r = .list (if c.isAbsent then d else c) ∧ t' = t := by
    cases habsent : c.isAbsent with
    | false =>
      rw [habsent] at hpure
      cases hpure
      exact ⟨c, rfl, rfl⟩
    | true =>
      rw [habsent] at hpure
      cases hpure
      exact ⟨_, rfl, rfl⟩
  refine ⟨_, rfl, ?_⟩
  obtain hmismatch | ⟨ts, hts, hjoined⟩ := checkElements_joined h hs hes
  · exact .inl (hmismatch.mono (.refl s) (.refl t') (by rw [branches, List.map_map]; exact List.Subset.refl _))
  · exact .inr ⟨ts, List.forall₂_map_left_iff.mpr hts, fun u hu => (hjoined u hu).fitting_default hu.built d⟩

lemma checkSwitch_fitted {scrutinee : Expr} {cs : List Arm} (hs : s.built = true)
    (hrun : (checkSwitch nested info scrutinee cs expected).run s = (.ok r, t)) :
    Fitted nested (.switch info scrutinee cs) expected r s t := by
  refine ⟨r, rfl, ?_⟩
  obtain ⟨ty, s₁, hexpr, hrest⟩ := exists_of_run_bind hrun
  have h₁ := (h.expr scrutinee .absent).updates hs hexpr
  obtain ⟨ty', s₂, hsettle, hrest⟩ := exists_of_run_bind hrest
  have h₂ := h₁.trans ((settle_moves ty).updates rfl hsettle)
  obtain ⟨c, t', hclauses, hrest⟩ := exists_of_run_bind hrest
  have ht' := (checkClauses_moves h _ _ _ _).updates (h₂.built.trans hs) hclauses
  obtain ⟨_, t'', hcoverage, hpure⟩ := exists_of_run_bind hrest
  have ht := (checkCoverage_moves info cs).updates rfl hcoverage
  cases hpure
  obtain hmismatch | ⟨ts, hts, hjoined⟩ := checkClauses_joined h (h₂.built.trans hs) hclauses
  · exact .inl (hmismatch.mono h₂ ht (by rw [branches, List.map_map]; exact List.Subset.refl _))
  · refine .inr ⟨ts, ?_, fun u hu => ?_⟩
    · exact List.forall₂_map_left_iff.mpr (hts.imp fun _ _ hgave => hgave.mono h₂ ht)
    · exact (hjoined u ((ht.later ((h₂.trans ht').built.trans hs)).trans hu)).fitting_default hu.built _

omit h in
lemma Fitted.mono {e : Expr} {t' : State} (hf : Fitted nested e expected r s t) (ht : t.Updates t')
    (hs : t.built = true) : Fitted nested e expected r s t' := by
  obtain ⟨c, hr, hcases⟩ := hf
  refine ⟨c, hr, ?_⟩
  obtain hmismatch | ⟨ts, hts, hfitting⟩ := hcases
  · exact .inl (hmismatch.mono (.refl s) ht (List.Subset.refl _))
  · exact .inr ⟨ts, hts.imp fun _ _ hgave => hgave.mono (.refl s) ht, fun u hu => hfitting u ((ht.later hs).trans hu)⟩

omit h in
lemma exists_of_run_kept {x : Check Ty} {id : Nat}
    (hrun : (x >>= fun ty => setSlot id ty >>= fun _ => pure ty).run s = (.ok r, t)) :
    t.slots[id]? = some r ∧ ∃ u, x.run s = (.ok r, u) ∧ u.Updates t := by
  obtain ⟨ty, u, hx, hrest⟩ := exists_of_run_bind hrun
  obtain ⟨_, v, hset, hpure⟩ := exists_of_run_bind hrest
  have hu := (setSlot_moves id ty).updates rfl hset
  cases hpure
  cases hset
  exact ⟨Std.TreeMap.getElem?_insert_self, u, hx, hu⟩

lemma checkExpr_fitted {e : Expr} (hs : s.built = true) (hrun : (checkExpr nested e expected).run s = (.ok r, t)) :
    t.slots[e.info.id]? = some r ∧ Fitted nested e expected r s t := by
  have hplain (hb : branches nested expected e = []) (hr : typeFrom r e = r) : Fitted nested e expected r s t := by
    refine ⟨r, hr.symm, .inr ⟨[], ?_, fun _ _ => .inl (by simp)⟩⟩
    rw [hb]
    exact .nil
  unfold checkExpr at hrun
  cases e with
  | cond info test yes no =>
    obtain ⟨hslot, u, hx, hu⟩ := exists_of_run_kept hrun
    exact ⟨hslot, (checkCond_fitted h hs hx).mono hu (((checkCond_moves h _ _ _ _ _).updates hs hx).built.trans hs)⟩
  | switch info scrutinee clauses =>
    obtain ⟨hslot, u, hx, hu⟩ := exists_of_run_kept hrun
    exact ⟨hslot, (checkSwitch_fitted h hs hx).mono hu (((checkSwitch_moves h _ _ _ _).updates hs hx).built.trans hs)⟩
  | list info elements =>
    obtain ⟨hslot, u, hx, hu⟩ := exists_of_run_kept hrun
    exact ⟨hslot, (checkList_fitted h hs hx).mono hu (((checkList_moves h _ _).updates hs hx).built.trans hs)⟩
  | literal l => exact ⟨(exists_of_run_kept (x := pure (literalType l.kind)) hrun).1, hplain rfl rfl⟩
  | _ => exact ⟨(exists_of_run_kept hrun).1, hplain rfl rfl⟩

end Check

/-- The common type of two branches is the narrower one, so that both fit where neither is narrower. The types of a
condition, a match or a list literal are put together so, in any state with relations. -/
theorem branches_fit_unless_narrower {s : State} (hs : s.built = true) :
    (∀ (a b c : Ty) (t u : State), (Check.combine a b).run s = (.ok (some c), t) → t.Later u →
      (c = a ∨ c = b) ∧ (¬ a.Neutral → ¬ b.Neutral → u.Accepts a c ∧ u.Accepts b c) ∧
        (u.Accepts c a ∧ u.Accepts c b ↔ a.Neutral ∨ b.Neutral ∨ u.Accepts a b ∧ u.Accepts b a)) ∧
    ∀ (n : Nat) (e : Syntax.Expr) (expected r : Ty) (t : State),
      ((Check.levels (n + 1)).expr e expected).run s = (.ok r, t) →
      t.slots[e.info.id]? = some r ∧ Check.Fitted (Check.levels n) e expected r s t := by
  refine ⟨fun a b c t u hrun hu => ?_, fun n e expected r t hrun => ?_⟩
  · exact (State.combined_of_run hs hrun hu).accepts hu.built
  · exact Check.checkExpr_fitted (Check.levels_moves n) hs hrun

namespace Shapes

def circleType : Ty := .named circle []
def shapeType : Ty := .named shape []

def numbers : Syntax.Expr := .list ⟨.none, 3⟩ [.literal ⟨⟨.none, 1⟩, .int, "1"⟩, .literal ⟨⟨.none, 2⟩, .int, "2"⟩]

theorem circle_is_narrower : state.built = true ∧
    (∃ t, (Check.combine shapeType circleType).run state = (.ok (some circleType), t) ∧ t.Later t ∧
      ¬ shapeType.Neutral ∧ ¬ circleType.Neutral ∧ t.Accepts shapeType circleType) ∧
    ∃ t, ((Check.levels 2).expr numbers .absent).run state = (.ok (.list .int), t) ∧
      t.slots[3]? = some (.list .int) ∧ Check.Fitted (Check.levels 1) numbers .absent (.list .int) state t := by
  have hshape : ¬ shapeType.Neutral := Ty.neutral_iff.not.mpr (by decide)
  have hcircle : ¬ circleType.Neutral := Ty.neutral_iff.not.mpr (by decide)
  refine ⟨rfl, ⟨_, rfl, .refl rfl, hshape, hcircle, ?_⟩, _, rfl, ?_⟩
  · exact (((branches_fit_unless_narrower (s := state) rfl).1 _ _ _ _ _ rfl (.refl rfl)).2.1 hshape hcircle).1
  · exact (branches_fit_unless_narrower (s := state) rfl).2 1 numbers .absent _ _ rfl

theorem shape_is_no_circle : state.built = true ∧
    ∃ t, (Check.combine circleType shapeType).run state = (.ok (some circleType), t) ∧ ¬ t.Accepts circleType shapeType := by
  refine ⟨rfl, _, rfl, ?_⟩
  intro h
  cases h

end Shapes

end TraitCheck
