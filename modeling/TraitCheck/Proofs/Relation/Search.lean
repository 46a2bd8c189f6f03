import TraitCheck.Proofs.Relation.Sound

/-! What a search finds, whatever is in the memo: all chains whose bounds hold, if none of these bounds needs too many
questions at a time. -/

namespace TraitCheck

variable {rels : List Relation} {names : Set Path}

/-- The answer that a question has if nothing limits the search for it. A chain has to be one that a walk finds. -/
inductive Holds (rels : List Relation) : Ty → Ty → Prop
  | fits {t u : Ty} (h : t.fits? u = some true) : Holds rels t u
  | parts {t u : Ty} {ds : List (Ty × Ty)} (h : ds ∈ questions t u) (hd : ∀ d ∈ ds, Holds rels d.1 d.2) : Holds rels t u
  | chain {p q : Path} {as bs : List Ty} {super : Ty} {c : Chain} (hne : p ≠ q) (hc : c.Of rels)
      (hwalk : (c.view (.named p [])).isSome = true) (hw : ∀ d ∈ c.demands (.named p []), Holds rels d.1 d.2)
      (hend : c.EndsAt q) (hview : c.view (.named p as) = some super)
      (hd : ∀ d ∈ c.demands (.named p as), Holds rels d.1 d.2) (hs : Holds rels super (.named q bs)) :
      Holds rels (.named p as) (.named q bs)

/-- The same with at most `depth` questions at a time, and none of them in the words of another. -/
def HoldsIn (rels : List Relation) : (depth : Nat) → (asked : List String) → Ty → Ty → Prop
  | 0, _, t, u => t.fits? u = some true
  | depth + 1, asked, t, u => t.fits? u = some true ∨ t.fits? u = none ∧ question t u ∉ asked ∧
      Step (HoldsIn rels depth (question t u :: asked))
        (Chain.Walked rels (HoldsIn rels depth (question t u :: asked))) t u

lemma holds_of_step {t u : Ty} (h : Step (Holds rels) (Chain.Walked rels (Holds rels)) t u) : Holds rels t u := by
  cases h with
  | parts hds hd => exact .parts hds hd
  | chain hne hc hfits =>
    obtain ⟨hof, hwalk, hw⟩ := hc
    obtain ⟨hend, super, hview, hd, hs⟩ := hfits
    exact .chain hne hof hwalk hw hend hview hd hs

variable {p : Path} {asked : List String} {memo searching : Memo} {budget : Nat}

lemma Chain.Walked.mono {H K : Ty → Ty → Prop} (h : ∀ t u, H t u → K t u) {c : Chain}
    (hc : c.Walked rels H p) : c.Walked rels K p :=
  ⟨hc.1, hc.2.1, hc.2.2.mono h⟩

lemma HoldsIn.holds {depth : Nat} {t u : Ty} (h : HoldsIn rels depth asked t u) : Holds rels t u := by
  induction depth generalizing asked t u with
  | zero => exact .fits h
  | succ depth ih =>
    rcases h with hf | ⟨-, -, hstep⟩
    · exact .fits hf
    · exact holds_of_step (hstep.mono (fun _ _ => ih) fun _ _ hc => hc.mono fun _ _ => ih)

lemma closed_holds (hn : Faithful names rels) :
    Closed rels names (Holds rels) fun p c => c.Walked rels (Holds rels) p where
  unit := hn.unit
  relations := hn.relations
  fits _ _ := .fits
  step _ _ _ _ := holds_of_step
  within _ _ hc := hc.1.within hn.relations
  walked _ _ _ hp hq hpq hc := hn.injOn hp hq hpq ▸ hc

/-! ### Open searches -/

/-- Open searches, each of which has found what it can find with the budget that it was started with. What is asked now
is part of all of them. -/
inductive Ripe (rels : List Relation) (names : Set Path) (memo : Memo) : Nat → List String → Memo → Prop
  | nil (budget : Nat) (asked : List String) : Ripe rels names memo budget asked []
  | cons {budget start : Nat} {asked before : List String} {p : Path} {l : List Chain} {searching : Memo}
      (hp : p ∈ names) (hb : budget ≤ start) (ha : before ⊆ asked)
      (hl : ∀ c : Chain, c.Walked rels (Finds rels memo start before ((p.render, l) :: searching)) p → c ∈ l)
      (hs : Ripe rels names memo start before searching) :
      Ripe rels names memo budget asked ((p.render, l) :: searching)

lemma Ripe.deeper {start : Nat} {before : List String}
    (h : Ripe rels names memo start before searching) (hb : budget ≤ start) (ha : before ⊆ asked) :
    Ripe rels names memo budget asked searching := by
  cases h with
  | nil => exact .nil budget asked
  | cons hp hb' ha' hl hs => exact .cons hp (Nat.le_trans hb hb') (List.Subset.trans ha' ha) hl hs

lemma Ripe.lookup (hn : Faithful names rels)
    (h : Ripe rels names memo budget asked searching) (hp : p ∈ names) {l : List Chain}
    (hl : searching.lookup p.render = some l) : ∃ start before outer, budget ≤ start ∧ before ⊆ asked ∧
      Ripe rels names memo start before ((p.render, l) :: outer) ∧
      ∀ c : Chain, c.Walked rels (Finds rels memo start before ((p.render, l) :: outer)) p → c ∈ l := by
  induction h with
  | nil => simp at hl
  | @cons budget start asked before q l' searching hq hb ha hl' hs ih =>
    by_cases hpq : p.render = q.render
    · obtain rfl := hn.injOn hp hq hpq
      obtain rfl : l' = l := by simpa using hl
      exact ⟨start, before, searching, hb, ha, .cons hq (Nat.le_refl _) (List.Subset.refl _) hl' hs, hl'⟩
    · rw [Memo.lookup_cons_ne hpq] at hl
      obtain ⟨start', before', outer, hb', ha', hripe, hall⟩ := ih hl
      exact ⟨start', before', outer, Nat.le_trans hb hb', List.Subset.trans ha' ha, hripe, hall⟩

def Memo.Full (rels : List Relation) (names : Set Path) (memo : Memo) : Prop :=
  ∀ p ∈ names, ∀ l, memo.lookup p.render = some l → ∀ c : Chain, c.Walked rels (Holds rels) p → c ∈ l

lemma finds_of_fits {t u : Ty} (h : t.fits? u = some true) : Finds rels memo budget asked searching t u := by
  cases budget with
  | zero => exact finds_zero.mpr h
  | succ budget => exact finds_succ.mpr (Or.inl h)

lemma Chain.Walked.imp_within (hn : Faithful names rels) {H K : Ty → Ty → Prop}
    (h : ∀ t u, t.Within names → u.Within names → H t u → K t u) (hp : p ∈ names) {c : Chain}
    (hc : c.Walked rels H p) : c.Walked rels K p :=
  ⟨hc.1, hc.2.1, hc.2.2.imp_within h (hc.1.demands_within hn.unit hn.relations hp)⟩

lemma mem_of_walked {l : List Chain} (hm : memo.lookup p.render = none) (hs : searching.lookup p.render = none)
    (hl : l = searchWith rels memo (fun searching => assignIn rels memo budget searching asked) searching p) {c : Chain}
    (hc : c.Walked rels (Finds rels memo budget asked ((p.render, l) :: searching)) p) : c ∈ l := by
  have hg : Growing fun searching => assignIn rels memo budget searching asked := finds_growing budget asked
  have hfixed := searchWith_fixed rels hg hm hs
  rw [← hl] at hfixed
  exact hfixed ▸ mem_walk.mpr hc

lemma finds_of_holdsIn (hn : Faithful names rels) (hm : memo.Full rels names) {depth : Nat}
    {avoided : List String} {t u : Ty} (ht : t.Within names) (hu : u.Within names)
    (h : HoldsIn rels depth avoided t u) (hb : depth ≤ budget)
    (ha : asked ⊆ avoided) (hs : Ripe rels names memo budget asked searching) :
    Finds rels memo budget asked searching t u := by
  induction depth generalizing avoided t u budget asked searching with
  | zero => exact finds_of_fits h
  | succ depth ih =>
    obtain ⟨budget, rfl⟩ : ∃ b, budget = b + 1 := ⟨budget - 1, by omega⟩
    rcases h with hf | ⟨hnone, hq, hstep⟩
    · exact finds_of_fits hf
    have ha' := List.cons_subset_cons (question t u) ha
    have hs' := hs.deeper (Nat.le_succ budget) (List.subset_cons_self (question t u) asked)
    refine finds_succ.mpr (Or.inr ⟨hnone, fun hmem => hq (ha hmem), ?_⟩)
    refine hstep.imp_within hn.unit (fun t u ht hu h => ih ht hu h (by omega) ha' hs') (fun p hp c hc => ?_) ht hu
    refine ⟨?_, hc.1.within hn.relations⟩
    -- a chain that is needed is in the memo, or with an open search, which had more budget, or found by a new one
    cases hml : memo.lookup p.render with
    | some l => simpa [searchWith, hml] using hm p hp l hml c (hc.mono fun _ _ => HoldsIn.holds)
    | none =>
      cases hsl : searching.lookup p.render with
      | some l =>
        obtain ⟨start, before, outer, hb', hbefore, hripe, hall⟩ := hs.lookup hn hp hsl
        have hfound := hall c (hc.imp_within hn (fun t u ht hu h =>
          ih ht hu h (by omega) (List.subset_cons_of_subset _ (List.Subset.trans hbefore ha)) hripe) hp)
        simpa [searchWith, hml, hsl] using hfound
      | none =>
        obtain ⟨l, hl⟩ : ∃ l, l = searchWith rels memo
            (fun searching => assignIn rels memo budget searching (question t u :: asked)) searching p := ⟨_, rfl⟩
        have hopen := Ripe.cons hp (Nat.le_refl _) (List.Subset.refl _) (fun c => mem_of_walked hml hsl hl) hs'
        have hwalked := hc.imp_within hn (fun t u ht hu h => ih ht hu h (by omega) ha' hopen) hp
        exact hl ▸ mem_of_walked hml hsl hl hwalked

/-! ### The list of a name -/

open scoped Classical in
noncomputable def ideal (rels : List Relation) (p : Path) : List Chain :=
  walk rels (fun t u => decide (Holds rels t u)) rels.length (.named p []) []

lemma mem_ideal {c : Chain} : c ∈ ideal rels p ↔ c.Walked rels (Holds rels) p := by
  rw [ideal, mem_walk]
  simp only [decide_eq_true_eq]

/-- Every bound on the way from a name that holds at all holds within the depth that there may be. -/
def Shallow (rels : List Relation) (names : Set Path) : Prop :=
  ∀ p ∈ names, ∀ c : Chain, c.Of rels → ∀ d ∈ c.demands (.named p []),
    Holds rels d.1 d.2 → HoldsIn rels maxDepth [] d.1 d.2

def Memo.Settled (rels : List Relation) (names : Set Path) (memo : Memo) : Prop :=
  ∀ k l, memo.lookup k = some l → ∃ p ∈ names, p.render = k ∧ ideal rels p = l

section Settled

variable (hn : Faithful names rels)
include hn

lemma Memo.Settled.lookup {memo : Memo} (hm : memo.Settled rels names) {p : Path} (hp : p ∈ names) {l : List Chain}
    (hl : memo.lookup p.render = some l) : l = ideal rels p := by
  obtain ⟨q, hq, hpq, rfl⟩ := hm _ l hl
  rw [hn.injOn hq hp hpq]

lemma Memo.Settled.usable {memo : Memo} (hm : memo.Settled rels names) :
    memo.Usable names fun p c => c.Walked rels (Holds rels) p := by
  intro p hp l hl c hc
  exact mem_ideal.mp (hm.lookup hn hp hl ▸ hc)

lemma Memo.Settled.full {memo : Memo} (hm : memo.Settled rels names) : memo.Full rels names := by
  intro p hp l hl c hc
  exact hm.lookup hn hp hl ▸ mem_ideal.mpr hc

lemma finds_iff_holds (hsh : Shallow rels names) {memo : Memo} (hm : memo.Settled rels names) {p : Path}
    (hp : p ∈ names) (hml : memo.lookup p.render = none) {c : Chain} (hc : c.Of rels) {d : Ty × Ty}
    (hd : d ∈ c.demands (.named p [])) :
    Finds rels memo maxDepth [] [(p.render, search rels memo p)] d.1 d.2 ↔ Holds rels d.1 d.2 := by
  obtain ⟨ht, hu⟩ := hc.demands_within hn.unit hn.relations hp d hd
  constructor
  · refine (closed_holds hn).finds_sound (hm.usable hn) (Memo.Usable.cons (by simp [Memo.Usable]) ?_) ht hu
    intro c hc q hq hqp
    rw [hn.injOn hq hp hqp]
    exact (closed_holds hn).search_sound (hm.usable hn) hp c hc
  · intro hh
    refine finds_of_holdsIn hn (hm.full hn) ht hu (hsh p hp c hc d hd hh) (Nat.le_refl _) (List.Subset.refl _) ?_
    refine .cons hp (Nat.le_refl _) (List.Subset.refl _) (fun c hc => ?_) (.nil _ _)
    exact mem_of_walked hml List.lookup_nil rfl hc

open scoped Classical in
lemma search_eq_ideal (hsh : Shallow rels names) {memo : Memo} (hm : memo.Settled rels names) {p : Path}
    (hp : p ∈ names) : search rels memo p = ideal rels p := by
  cases hml : memo.lookup p.render with
  | some l => rw [search_of_lookup hml, hm.lookup hn hp hml]
  | none =>
    have hg : Growing fun searching => assignIn rels memo maxDepth searching [] := finds_growing maxDepth []
    have hfixed : walk rels (assignIn rels memo maxDepth [(p.render, search rels memo p)] []) rels.length
        (.named p []) [] = search rels memo p := searchWith_fixed rels hg hml List.lookup_nil
    rw [← hfixed]
    -- both are walks of the same relations, so that equal answers give the order as well
    refine List.Sublist.antisymm (walk_path_sublist fun c hc d hd hf => ?_) (walk_path_sublist fun c hc d hd hh => ?_)
    · exact decide_eq_true ((finds_iff_holds hn hsh hm hp hml hc hd).mp hf)
    · exact (finds_iff_holds hn hsh hm hp hml hc hd).mpr (of_decide_eq_true hh)

lemma kept_settled (hsh : Shallow rels names) : Kept rels names (Memo.Settled rels names) where
  unit := hn.unit
  start := by simp [Memo.Settled]
  within memo hm k l hl c hc := by
    obtain ⟨p, -, -, rfl⟩ := hm k l hl
    exact (mem_ideal.mp hc).1.within hn.relations
  add memo hm p hp _ := by
    intro k l hl
    by_cases hk : k = p.render
    · refine ⟨p, hp, hk.symm, ?_⟩
      rw [← search_eq_ideal hn hsh hm hp]
      simpa [hk] using hl
    · rw [Memo.lookup_cons_ne hk] at hl
      exact hm k l hl

end Settled

/-! ### Any history -/

open scoped Classical in
noncomputable def idealAt (rels : List Relation) (names : Set Path) (p : Path) : List Chain :=
  if h : ∃ q ∈ names, q.render = p.render then ideal rels h.choose else []

lemma idealAt_of_render (hn : Faithful names rels) {q : Path} (hq : q ∈ names) (hqp : q.render = p.render) :
    idealAt rels names p = ideal rels q := by
  have h : ∃ q ∈ names, q.render = p.render := ⟨q, hq, hqp⟩
  obtain ⟨hmem, hrender⟩ := h.choose_spec
  rw [idealAt, dif_pos h, hn.injOn hmem hq (hrender.trans hqp.symm)]

lemma mem_idealAt (hn : Faithful names rels) (hp : p ∈ names) {c : Chain} :
    c ∈ idealAt rels names p ↔ c.Walked rels (Holds rels) p := by
  rw [idealAt_of_render hn hp rfl, mem_ideal]

lemma Memo.Settled.agrees (hn : Faithful names rels) (hm : memo.Settled rels names) :
    memo.Agrees (idealAt rels names) := by
  intro p l hl
  obtain ⟨q, hq, hqp, rfl⟩ := hm _ l hl
  exact idealAt_of_render hn hq hqp

lemma assignBy_of_holdsIn (hn : Faithful names rels) {depth : Nat} {avoided : List String} {t u : Ty}
    (ht : t.Within names) (hu : u.Within names) (h : HoldsIn rels depth avoided t u)
    (ha : asked ⊆ avoided) : Says (assignBy (idealAt rels names) depth asked) t u := by
  induction depth generalizing avoided t u asked with
  | zero => exact assignBy_zero.mpr h
  | succ depth ih =>
    rcases h with hf | ⟨hnone, hq, hstep⟩
    · exact assignBy_succ.mpr (Or.inl hf)
    refine assignBy_succ.mpr (Or.inr ⟨hnone, fun hmem => hq (ha hmem), ?_⟩)
    refine hstep.imp_within hn.unit (fun t u ht hu h => ih ht hu h (List.cons_subset_cons _ ha)) ?_ ht hu
    exact fun p hp c hc => ⟨(mem_idealAt hn hp).mpr (hc.mono fun _ _ => HoldsIn.holds), hc.1.within hn.relations⟩

section Run

variable {s : State} (hs : s.Fresh) (hn : Faithful names s.relations) (hsh : Shallow s.relations names)
  {history : List Query} (hq : ∀ q ∈ history, q.Within names)
include hs hn hsh hq

lemma run_isAssignable {t u : Ty} (ht : t.Within names) (hu : u.Within names) :
    ((Check.isAssignable t u).run (s.after history)).1 =
      .ok (assignBy (idealAt s.relations names) maxDepth [] t u).run := by
  obtain ⟨answer, memo, hm, hrun, hanswer⟩ := run_isAssignable_after hs (kept_settled hn hsh) hq ht hu
  rw [hrun, hanswer _ (hm.agrees hn)]

lemma run_chainsOf {p : Path} (hp : p ∈ names) :
    ((Check.chainsOf p).run (s.after history)).1 = .ok (ideal s.relations p) := by
  have hkept := kept_settled hn hsh
  have hknows := Check.knows_after hkept (hs.knows hkept) hq
  rw [Check.chainsOf, Check.run_ask _ hknows, ← search_eq_ideal hn hsh hknows.memo hp]
  rfl

end Run

end TraitCheck
