import TraitCheck.Proofs.Relation.History
import TraitCheck.Proofs.Relation.Rounds

/-! Whatever is answered with yes can be derived. Neither the memo, nor what an open search has found so far, nor the
questions that are set aside because they led to themselves make more of it than the rules do. -/

namespace TraitCheck

variable {rels : List Relation} {names : Set Path} {D : Ty → Ty → Prop} {C : Path → Chain → Prop}

/-- A relation between types that is closed under the steps of an answer. `C` are the chains that may be used. -/
structure Closed (rels : List Relation) (names : Set Path) (D : Ty → Ty → Prop) (C : Path → Chain → Prop) : Prop where
  unit : Ty.unitPath ∈ names
  relations : ∀ r ∈ rels, r.Within names
  fits : ∀ t u, t.fits? u = some true → D t u
  step : ∀ t u, t.Within names → u.Within names → Step D C t u → D t u
  within : ∀ p c, C p c → c.Within names
  walked : ∀ p q c, p ∈ names → q ∈ names → p.render = q.render → c.Walked rels D p → C q c

def Memo.Usable (names : Set Path) (C : Path → Chain → Prop) (memo : Memo) : Prop :=
  ∀ p ∈ names, ∀ l, memo.lookup p.render = some l → ∀ c ∈ l, C p c

lemma Memo.Usable.cons {memo : Memo} (h : memo.Usable names C) {k : String} {l : List Chain}
    (hl : ∀ c ∈ l, ∀ p ∈ names, p.render = k → C p c) : Memo.Usable names C ((k, l) :: memo) := by
  intro p hp l' hl' c hc
  by_cases hk : p.render = k
  · have hsame : List.lookup p.render ((k, l) :: memo) = some l := by simp [hk]
    obtain rfl : l = l' := Option.some.inj (hsame.symm.trans hl')
    exact hl c hc p hp hk
  · rw [Memo.lookup_cons_ne hk] at hl'
    exact h p hp l' hl' c hc

lemma Met.imp_within {H K : Ty → Ty → Prop} (h : ∀ t u, t.Within names → u.Within names → H t u → K t u)
    {ds : List (Ty × Ty)} (hw : QuestionsWithin names ds) (hd : Met H ds) : Met K ds :=
  fun d hmem => h _ _ (hw d hmem).1 (hw d hmem).2 (hd d hmem)

lemma Chain.Of.within (hr : ∀ r ∈ rels, r.Within names) {c : Chain} (h : c.Of rels) : c.Within names :=
  fun r hmem => hr r (h.impls r hmem).1

lemma Chain.Of.demands_within (hunit : Ty.unitPath ∈ names) (hr : ∀ r ∈ rels, r.Within names) {c : Chain}
    (h : c.Of rels) {p : Path} (hp : p ∈ names) : QuestionsWithin names (c.demands (.named p [])) :=
  (h.within hr).demands hunit (.named hp (by simp))

lemma Step.imp_within {H K : Ty → Ty → Prop} {C' : Path → Chain → Prop} (hunit : Ty.unitPath ∈ names)
    (hH : ∀ t u, t.Within names → u.Within names → H t u → K t u)
    (hC : ∀ p ∈ names, ∀ c, C' p c → C p c ∧ c.Within names) {t u : Ty} (ht : t.Within names) (hu : u.Within names)
    (h : Step H C' t u) : Step K C t u := by
  cases h with
  | parts hds hd => exact .parts hds (hd.imp_within hH (questions_within hunit ht hu hds))
  | chain hne hc hfits =>
    obtain ⟨he, super, hview, hd, hs⟩ := hfits
    cases ht with
    | named hp hargs =>
      obtain ⟨hc, hcw⟩ := hC _ hp _ hc
      have ht := Ty.Within.named hp hargs
      exact .chain hne hc ⟨he, super, hview, hd.imp_within hH (hcw.demands hunit ht),
        hH _ _ (hcw.view hunit ht hview) hu hs⟩

namespace Closed

variable (h : Closed rels names D C)
include h

lemma of_step {H : Ty → Ty → Prop} {C' : Path → Chain → Prop}
    (hH : ∀ t u, t.Within names → u.Within names → H t u → D t u) (hC : ∀ p ∈ names, ∀ c, C' p c → C p c) {t u : Ty}
    (ht : t.Within names) (hu : u.Within names) (hs : Step H C' t u) : D t u :=
  h.step t u ht hu (hs.imp_within h.unit hH (fun p hp c hc => ⟨hC p hp c hc, h.within p c (hC p hp c hc)⟩) ht hu)

lemma assignBy_sound {cs : Path → List Chain} (hcs : ∀ p ∈ names, ∀ c ∈ cs p, C p c) {budget : Nat}
    {asked : List String} {t u : Ty} (ht : t.Within names) (hu : u.Within names)
    (hs : Says (assignBy cs budget asked) t u) : D t u := by
  induction budget generalizing asked t u with
  | zero => exact h.fits t u (assignBy_zero.mp hs)
  | succ budget ih =>
    rcases assignBy_succ.mp hs with hf | ⟨-, -, hstep⟩
    · exact h.fits t u hf
    · exact h.of_step (fun t u ht hu hs => ih ht hu hs) hcs ht hu hstep

lemma searchWith_sound {memo : Memo} (hm : memo.Usable names C) {holds : Memo → Ty → Ty → Bool}
    (hholds : ∀ searching, Memo.Usable names C searching → ∀ t u, t.Within names → u.Within names →
      holds searching t u = true → D t u) {searching : Memo} (hs : searching.Usable names C) {p : Path}
    (hp : p ∈ names) : ∀ c ∈ searchWith rels memo holds searching p, C p c := by
  cases hml : memo.lookup p.render with
  | some l => simpa [searchWith, hml] using hm p hp l hml
  | none =>
    cases hsl : searching.lookup p.render with
    | some l => simpa [searchWith, hml, hsl] using hs p hp l hsl
    | none =>
      -- the chains found so far may be used for every name with this text
      have hfound : ∀ c ∈ rounds (searchRound rels holds searching p) (sequences rels.length + 1) [],
          ∀ q ∈ names, p.render = q.render → C q c := by
        refine rounds_induct (P := fun known => ∀ c ∈ known, ∀ q ∈ names, p.render = q.render → C q c) ?_ _ (by simp)
        intro known hk c hc q hq hpq
        have hopen : Memo.Usable names C ((p.render, known) :: searching) :=
          hs.cons fun c hc q hq hqp => hk c hc q hq hqp.symm
        obtain ⟨hof, hview, hd⟩ := mem_walk.mp hc
        have hw := hof.demands_within h.unit h.relations hp
        exact h.walked p q c hp hq hpq ⟨hof, hview, hd.imp_within (hholds _ hopen) hw⟩
      rw [searchWith_rounds rels holds hml hsl]
      exact fun c hc => hfound c hc p hp rfl

lemma finds_sound {memo : Memo} (hm : memo.Usable names C) {budget : Nat} {asked : List String} {searching : Memo}
    (hs : searching.Usable names C) {t u : Ty} (ht : t.Within names) (hu : u.Within names)
    (hf : Finds rels memo budget asked searching t u) : D t u := by
  induction budget generalizing asked searching t u with
  | zero => exact h.fits t u (finds_zero.mp hf)
  | succ budget ih =>
    rcases finds_succ.mp hf with hf | ⟨-, -, hstep⟩
    · exact h.fits t u hf
    · refine h.of_step (fun t u ht hu hf => ih hs ht hu hf) (fun p hp => ?_) ht hu hstep
      exact h.searchWith_sound hm (fun searching hs t u ht hu hf => ih hs ht hu hf) hs hp

lemma search_sound {memo : Memo} (hm : memo.Usable names C) {p : Path} (hp : p ∈ names) :
    ∀ c ∈ search rels memo p, C p c :=
  h.searchWith_sound hm (fun _ hs _ _ ht hu hf => h.finds_sound hm hs ht hu hf) (by simp [Memo.Usable]) hp

end Closed

/-! ### Derivations -/

/-- That a value of the first type can be used where the second one is expected, by a finite derivation. -/
inductive Derives (rels : List Relation) : Ty → Ty → Prop
  | absorbs {t u : Ty} (h : t.absorbs = true ∨ u.absorbs = true) : Derives rels t u
  | closure {u : Ty} (i : Nat) {n : Nat} (h : closureFits n u = true) : Derives rels (.closure i n) u
  | never {t : Ty} (h : t.isNever = true) (u : Ty) : Derives rels t u
  | equal {t u : Ty} (h : t.equal u = true) : Derives rels t u
  | allBounds {t : Ty} {g : Generic Ty} (hne : g.bounds ≠ []) (h : ∀ b ∈ g.bounds, Derives rels t b) :
      Derives rels t (.generic g)
  | someBound {b u : Ty} {g : Generic Ty} (hb : b ∈ g.bounds) (h : Derives rels b u) : Derives rels (.generic g) u
  | args {as bs : List Ty} (p : Path) (hlen : as.length = bs.length) (h : ∀ d ∈ as.zip bs, Derives rels d.1 d.2) :
      Derives rels (.named p as) (.named p bs)
  | fn {ps qs : List Ty} {r s : Ty} (gs hs : List (Generic Ty)) (hlen : ps.length = qs.length)
      (hps : ∀ d ∈ qs.zip ps, Derives rels d.1 d.2) (hr : Derives rels r.resultOf s.resultOf) :
      Derives rels (.fn gs ps r) (.fn hs qs s)
  | chain {t u super : Ty} {c : Chain} (hc : c.Of rels) (hview : c.view t = some super)
      (hd : ∀ d ∈ c.demands t, Derives rels d.1 d.2) (hs : Derives rels super u) : Derives rels t u

lemma derives_of_fits {t u : Ty} (h : t.fits? u = some true) : Derives rels t u := by
  unfold Ty.fits? at h
  split at h
  next ha => exact .absorbs (Bool.or_eq_true_iff.mp ha)
  next =>
    split at h
    next => exact .closure _ (Option.some.inj h)
    next =>
      split at h
      next hn =>
        rcases Bool.or_eq_true_iff.mp hn with hn | he
        · exact .never hn u
        · exact .equal he
      next => cases h

lemma derives_of_partQuestions {t u : Ty} {ds : List (Ty × Ty)} (h : ds ∈ partQuestions t u)
    (hd : Met (Derives rels) ds) : Derives rels t u := by
  unfold partQuestions at h
  split at h
  next g =>
    obtain ⟨b, hb, rfl⟩ := List.mem_map.mp h
    exact .someBound hb (hd (b, u) (by simp))
  next p as q bs =>
    split_ifs at h with hsame
    · obtain ⟨rfl, hlen⟩ := hsame
      obtain rfl := List.mem_singleton.mp h
      exact .args p hlen hd
    · cases h
  next gs ps r hs qs s =>
    split_ifs at h with hlen
    · obtain rfl := List.mem_singleton.mp h
      obtain ⟨hps, hr⟩ := met_append.mp hd
      exact .fn gs hs hlen hps (hr (r.resultOf, s.resultOf) (by simp))
    · cases h
  next => cases h

lemma derives_of_step {t u : Ty} (h : Step (Derives rels) (fun _ c => c.Of rels) t u) : Derives rels t u := by
  cases h with
  | @parts _ _ ds hds hd =>
    unfold questions at hds
    split at hds
    next g =>
      split_ifs at hds with hb
      · exact derives_of_partQuestions hds hd
      · obtain rfl := List.mem_singleton.mp hds
        exact .allBounds (by simpa using hb) fun b hmem => hd (t, b) (List.mem_map.mpr ⟨b, hmem, rfl⟩)
    next => exact derives_of_partQuestions hds hd
  | chain _ hc hfits =>
    obtain ⟨-, super, hview, hd, hs⟩ := hfits
    exact .chain hc hview hd hs

/-! ### Any history -/

lemma Query.within_univ (q : Query) : q.Within Set.univ := by
  cases q with
  | assignable t u | combine t u => exact ⟨t.within_univ, u.within_univ⟩
  | chains p => trivial
  | candidates _ recv => exact recv.within_univ
  | upcast t p args => exact ⟨t.within_univ, (Ty.named p args).within_univ⟩

lemma State.Fresh.knows_after {s : State} (hs : s.Fresh) {I : Memo → Prop} (hI : Kept s.relations Set.univ I)
    (history : List Query) : Check.Knows s.relations I (s.after history) :=
  Check.knows_after hI (hs.knows hI) fun q _ => q.within_univ

lemma closed_derives (rels : List Relation) : Closed rels Set.univ (Derives rels) (fun _ c => c.Of rels) where
  unit := trivial
  relations r _ := r.within_univ
  fits _ _ := derives_of_fits
  step _ _ _ _ := derives_of_step
  within _ _ _ r _ := r.within_univ
  walked _ _ _ _ _ _ hc := hc.1

lemma kept_of (rels : List Relation) : Kept rels Set.univ (Memo.Usable Set.univ fun _ c => c.Of rels) where
  unit := trivial
  start := by simp [Memo.Usable]
  within _ _ _ _ _ _ _ r _ := r.within_univ
  add _ hm p _ _ := hm.cons fun c hc _ _ _ => (closed_derives rels).search_sound hm (Set.mem_univ p) c hc

def Memo.at (memo : Memo) (p : Path) : List Chain := (memo.lookup p.render).getD []

lemma Memo.agrees_at (memo : Memo) : memo.Agrees memo.at := by
  intro p l hl
  simp [Memo.at, hl]

lemma Memo.Usable.of_at {memo : Memo} (h : memo.Usable names C) {p : Path} (hp : p ∈ names) :
    ∀ c ∈ memo.at p, C p c := by
  cases hl : memo.lookup p.render with
  | none => simp [Memo.at, hl]
  | some l => simpa [Memo.at, hl] using h p hp l hl

theorem derives_of_isAssignable {s : State} (hs : s.Fresh) (history : List Query) {t target : Ty}
    (h : ((Check.isAssignable t target).run (s.after history)).1 = .ok true) : Derives s.relations t target := by
  have hq : ∀ q ∈ history, q.Within Set.univ := by
    intro q _
    cases q with
    | assignable t u | combine t u => exact ⟨t.within_univ, u.within_univ⟩
    | chains p => trivial
    | candidates _ recv => exact recv.within_univ
    | upcast t p args => exact ⟨t.within_univ, (Ty.named p args).within_univ⟩
  obtain ⟨answer, memo, hm, hrun, hanswer⟩ :=
    run_isAssignable_after hs (kept_of s.relations) hq t.within_univ target.within_univ
  obtain rfl : answer = true := Except.ok.inj (hrun.symm.trans h)
  have hsays : Says (assignBy memo.at maxDepth []) t target := (hanswer memo.at memo.agrees_at).symm
  exact (closed_derives s.relations).assignBy_sound (fun p hp => hm.of_at hp) t.within_univ target.within_univ hsays

def State.of (rels : List Relation) : State :=
  { instances := rels.map fun r => { (default : Instance) with relation := r }, built := true }

/-! `impl Shape for Circle`, and two impls that give `Shown` to what has `Shape` and `Shape` to what has `Shown`. -/

namespace Shapes

def circle : Path := ⟨["Circle"]⟩
def point : Path := ⟨["Point"]⟩
def shape : Path := ⟨["Shape"]⟩
def shown : Path := ⟨["Shown"]⟩

def fitting (p : Path) : Generic Ty := ⟨"T", "T", [.named p []]⟩

def relations : List Relation :=
  [⟨0, .impl, shape, [], .named circle [], []⟩, ⟨1, .impl, shown, [], .generic (fitting shape), [fitting shape]⟩,
    ⟨2, .impl, shape, [], .generic (fitting shown), [fitting shown]⟩]

def state : State := .of relations

lemma fresh : state.Fresh := ⟨rfl, rfl⟩

def history : List Query := [.chains shape, .assignable (.named point []) (.named shown [])]

theorem circle_shown : state.Fresh ∧
    ((Check.isAssignable (.named circle []) (.named shown [])).run (state.after history)).1 = .ok true ∧
    Derives state.relations (.named circle []) (.named shown []) :=
  ⟨fresh, rfl, derives_of_isAssignable fresh history rfl⟩

end Shapes

end TraitCheck
