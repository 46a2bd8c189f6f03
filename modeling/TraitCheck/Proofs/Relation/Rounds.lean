import TraitCheck.Proofs.Relation.Chain

/-! A search repeats its walk until nothing is added, and the fuel suffices for that. More that is known leads to more
that is found. -/

namespace TraitCheck

open List (Sublist)

/-! ### Rounds -/

section Rounds

variable {f : List Chain → List Chain}

lemma rounds_induct {P : List Chain → Prop} (hf : ∀ known, P known → P (f known)) (fuel : Nat) {known : List Chain}
    (hk : P known) : P (rounds f fuel known) := by
  induction fuel generalizing known with
  | zero => exact hk
  | succ fuel ih =>
    rw [rounds]
    split_ifs
    · exact hf known hk
    · exact ih (hf known hk)

lemma rounds_fixed {n : Nat} (hmono : ∀ a b, Sublist a b → Sublist (f a) (f b)) (hn : ∀ l, (f l).length ≤ n)
    {fuel : Nat} {known : List Chain} (hk : Sublist known (f known)) (hfuel : n < fuel + known.length) :
    f (rounds f fuel known) = rounds f fuel known := by
  induction fuel generalizing known with
  | zero =>
    have hle := hk.length_le
    have := hn known
    omega
  | succ fuel ih =>
    rw [rounds]
    split_ifs with hlen
    · have heq : known = f known := hk.eq_of_length_le hlen
      rw [← heq, ← heq]
    · exact ih (hmono _ _ hk) (by omega)

end Rounds

/-! ### Walks -/

section Walks

variable {rels : List Relation} {holds holds' : Ty → Ty → Bool}

lemma walk_sublist {fuel : Nat} {cur : Ty} {path : Chain}
    (h : ∀ c : Chain, c ≠ [] → (∀ r ∈ c, r ∈ rels ∧ r.isImpl = true) → ((path ++ c).map (·.id)).Nodup →
      ∀ d ∈ c.demands cur, holds d.1 d.2 = true → holds' d.1 d.2 = true) (hp : (path.map (·.id)).Nodup) :
    Sublist (walk rels holds fuel cur path) (walk rels holds' fuel cur path) := by
  induction fuel generalizing cur path with
  | zero => simp [walk]
  | succ fuel ih =>
    unfold walk
    refine .flatMap_right _ fun r hr => ?_
    split_ifs with hnew
    · rw [Bool.and_eq_true, Bool.not_eq_true', Chain.uses_eq_false] at hnew
      have hp' := Chain.distinct_snoc hp hnew.2
      by_cases hm : r.matches cur = true ∧ Met (holds · · = true) (r.demands (Ty.unify cur r.forType))
      · have hd : Met (holds' · · = true) (r.demands (Ty.unify cur r.forType)) := by
          intro d hmem
          refine h [r] (by simp) (by simpa using ⟨hr, hnew.1⟩) hp' d ?_ (hm.2 d hmem)
          simpa [Chain.demands, hm.1] using hmem
        rw [step_of_met (fun t u => pure (holds t u)) hm.1 hm.2, step_of_met (fun t u => pure (holds' t u)) hm.1 hd]
        refine .cons_cons _ (ih (fun c hne himpls hnodup d hmem => ?_) hp')
        refine h (r :: c) (by simp) (by simpa using ⟨⟨hr, hnew.1⟩, himpls⟩) (by simpa using hnodup) d ?_
        simp [Chain.demands, hm.1, hmem]
      · rw [step_of_not_met (fun t u => pure (holds t u)) fun hmatch hd => hm ⟨hmatch, hd⟩]
        exact List.nil_sublist _
    · exact .refl _

lemma walk_path_sublist {p : Path} (h : ∀ c : Chain, c.Of rels → ∀ d ∈ c.demands (.named p []),
    holds d.1 d.2 = true → holds' d.1 d.2 = true) :
    Sublist (walk rels holds rels.length (.named p []) []) (walk rels holds' rels.length (.named p []) []) :=
  walk_sublist (fun c hne himpls hnodup => h c ⟨hne, himpls, hnodup⟩) (by simp)

def unused (rels : List Relation) (path : Chain) : List Relation := rels.filter fun r => r.isImpl && !path.uses r

lemma unused_snoc_lt {path : Chain} {r : Relation} (hr : r ∈ unused rels path) :
    (unused rels (path ++ [r])).length < (unused rels path).length := by
  have heq : unused rels (path ++ [r]) = (unused rels path).filter fun s => !decide (r.id = s.id) := by
    rw [unused, unused, List.filter_filter]
    refine List.filter_congr fun s _ => ?_
    cases s.isImpl <;> simp [Chain.uses, Bool.and_comm]
  rw [heq, List.length_filter_lt_length_iff_exists]
  exact ⟨r, hr, by simp⟩

lemma length_flatMap_le {α β : Type} {l : List α} {f : α → List β} {P : α → Bool} {n : Nat}
    (h : ∀ a ∈ l, (f a).length ≤ if P a then n else 0) : (l.flatMap f).length ≤ (l.filter P).length * n := by
  induction l with
  | nil => simp
  | cons a l ih =>
    have ha := h a (by simp)
    have hl := ih fun b hb => h b (List.mem_cons_of_mem _ hb)
    rw [List.flatMap_cons, List.length_append, List.filter_cons]
    split_ifs at ha ⊢
    · rw [List.length_cons, Nat.succ_mul]
      omega
    · omega

lemma sequences_mono {m n : Nat} (h : m ≤ n) : sequences m ≤ sequences n := by
  induction n generalizing m with
  | zero => simp_all
  | succ n ih =>
    cases m with
    | zero => simp [sequences]
    | succ m =>
      have hle := ih (Nat.le_of_succ_le_succ h)
      rw [sequences, sequences]
      exact Nat.mul_le_mul h (by omega)

lemma length_walk_le (fuel : Nat) (cur : Ty) (path : Chain) :
    (walk rels holds fuel cur path).length ≤ sequences (unused rels path).length := by
  induction fuel generalizing cur path with
  | zero => simp [walk]
  | succ fuel ih =>
    generalize hn : (unused rels path).length = n
    have hstep : (walk rels holds (fuel + 1) cur path).length ≤ n * (1 + sequences (n - 1)) := by
      rw [← hn, walk]
      refine length_flatMap_le fun r hr => ?_
      split_ifs with hnew
      · have hlt := unused_snoc_lt (List.mem_filter.mpr ⟨hr, hnew⟩)
        cases (r.step (fun t u => (pure (holds t u) : Id Bool)) cur).run with
        | none => simp
        | some e =>
          have hrest := Nat.le_trans (ih e.1 (path ++ [r])) (sequences_mono (Nat.le_sub_one_of_lt hlt))
          simpa [Nat.add_comm] using hrest
      · simp
    cases n with
    | zero => simpa [sequences] using hstep
    | succ n => exact hstep

end Walks

/-! ### Searches -/

def Memo.Below (lower upper : Memo) : Prop :=
  ∀ k, lower.lookup k = none ∧ upper.lookup k = none ∨
    ∃ l l', lower.lookup k = some l ∧ upper.lookup k = some l' ∧ Sublist l l'

lemma Memo.Below.refl (memo : Memo) : memo.Below memo := by
  intro k
  cases h : memo.lookup k with
  | none => exact Or.inl ⟨rfl, rfl⟩
  | some l => exact Or.inr ⟨l, l, rfl, rfl, .refl l⟩

lemma Memo.Below.cons {lower upper : Memo} (h : lower.Below upper) (k : String) {l l' : List Chain}
    (hl : Sublist l l') : Memo.Below ((k, l) :: lower) ((k, l') :: upper) := by
  intro k'
  by_cases hk : k' = k
  · exact Or.inr ⟨l, l', by simp [hk], by simp [hk], hl⟩
  · simpa only [Memo.lookup_cons_ne hk] using h k'

section Search

variable {rels : List Relation} {memo : Memo} {holds : Memo → Ty → Ty → Bool}

/-- Answers that more chains in open searches do not take back. -/
def Growing (holds : Memo → Ty → Ty → Bool) : Prop :=
  ∀ lower upper, Memo.Below lower upper → ∀ t u, holds lower t u = true → holds upper t u = true

def searchRound (rels : List Relation) (holds : Memo → Ty → Ty → Bool) (searching : Memo) (p : Path)
    (known : List Chain) : List Chain :=
  walk rels (holds ((p.render, known) :: searching)) rels.length (.named p []) []

lemma searchRound_below (hg : Growing holds) {lower upper : Memo} (h : lower.Below upper) (p : Path)
    {l l' : List Chain} (hl : Sublist l l') :
    Sublist (searchRound rels holds lower p l) (searchRound rels holds upper p l') :=
  walk_path_sublist fun _ _ d _ => hg _ _ (h.cons p.render hl) d.1 d.2

lemma searchWith_rounds (rels : List Relation) (holds : Memo → Ty → Ty → Bool) {searching : Memo} {p : Path}
    (hm : memo.lookup p.render = none) (hs : searching.lookup p.render = none) :
    searchWith rels memo holds searching p =
      rounds (searchRound rels holds searching p) (sequences rels.length + 1) [] := by
  rw [searchWith, hm, hs]
  rfl

lemma searchWith_fixed (rels : List Relation) (hg : Growing holds) {searching : Memo} {p : Path}
    (hm : memo.lookup p.render = none) (hs : searching.lookup p.render = none) :
    searchRound rels holds searching p (searchWith rels memo holds searching p) =
      searchWith rels memo holds searching p := by
  rw [searchWith_rounds rels holds hm hs]
  refine rounds_fixed (n := sequences rels.length) (fun a b hab => ?_) (fun l => ?_) (List.nil_sublist _) ?_
  · exact searchRound_below hg (Memo.Below.refl searching) p hab
  · exact Nat.le_trans (length_walk_le _ _ _) (sequences_mono (List.length_filter_le _ _))
  · simp

lemma searchWith_below (hg : Growing holds) {lower upper : Memo} (h : lower.Below upper) (p : Path) :
    Sublist (searchWith rels memo holds lower p) (searchWith rels memo holds upper p) := by
  cases hm : memo.lookup p.render with
  | some l => simp [searchWith, hm]
  | none =>
    rcases h p.render with ⟨hl, hu⟩ | ⟨l, l', hl, hu, hsub⟩
    · rw [searchWith_rounds rels holds hm hl]
      refine rounds_induct (P := (Sublist · _)) (fun known hk => ?_) _ (List.nil_sublist _)
      rw [← searchWith_fixed rels hg hm hu]
      exact searchRound_below hg h p hk
    · simpa [searchWith, hm, hl, hu] using hsub

lemma finds_growing (budget : Nat) (asked : List String) :
    Growing fun searching => assignIn rels memo budget searching asked := by
  induction budget generalizing asked with
  | zero => exact fun _ _ _ t u hf => finds_zero.mpr (finds_zero.mp hf)
  | succ budget ih =>
    intro lower upper h t u hf
    rcases finds_succ.mp hf with hf | ⟨hnone, hq, hstep⟩
    · exact finds_succ.mpr (Or.inl hf)
    · refine finds_succ.mpr (Or.inr ⟨hnone, hq, hstep.mono (ih _ lower upper h) fun p c hc => ?_⟩)
      exact (searchWith_below (ih _) h p).subset hc

end Search

end TraitCheck
