import TraitCheck.Proofs.Check.Numbered
import TraitCheck.Proofs.Relation.Sound

/-! Lists of chains. A chain comes after its beginnings, no chain comes twice, and the rounds of a search go on until one
of them adds nothing to what the rounds before have found. -/

namespace TraitCheck

open List (Sublist)

/-- A list of chains as a walk makes it. -/
structure Listed (rels : List Relation) (l : List Chain) : Prop where
  of : ∀ c ∈ l, c.Of rels
  distinct : l.Nodup
  beginnings : ∀ c ∈ l, ∀ d : Chain, d ≠ [] → d <+: c → d ≠ c → Sublist [d, c] l

lemma listed_nil (rels : List Relation) : Listed rels [] := ⟨by simp, .nil, by simp⟩

/-! ### Walks -/

section Walks

variable {rels : List Relation} {holds : Ty → Ty → Bool} {fuel : Nat} {cur : Ty} {path c d : Chain}

def walkFrom (rels : List Relation) (holds : Ty → Ty → Bool) (fuel : Nat) (cur : Ty) (path : Chain) (r : Relation) :
    List Chain :=
  if r.isImpl && !path.uses r then
    match (r.step (fun t u => (pure (holds t u) : Id Bool)) cur).run with
    | some (next, _) => (path ++ [r]) :: walk rels holds fuel next (path ++ [r])
    | none => []
  else []

lemma walk_eq_flatMap : walk rels holds (fuel + 1) cur path = rels.flatMap (walkFrom rels holds fuel cur path) := rfl

lemma walkFrom_cases (rels : List Relation) (holds : Ty → Ty → Bool) (fuel : Nat) (cur : Ty) (path : Chain)
    (r : Relation) : walkFrom rels holds fuel cur path r = [] ∨ ∃ next, r.id ∉ path.map (·.id) ∧
      walkFrom rels holds fuel cur path r = (path ++ [r]) :: walk rels holds fuel next (path ++ [r]) := by
  rw [walkFrom]
  split_ifs with hnew
  · split
    · next next _ _ =>
      rw [Bool.and_eq_true, Bool.not_eq_true', Chain.uses_eq_false] at hnew
      exact .inr ⟨next, hnew.2, rfl⟩
    · exact .inl rfl
  · exact .inl rfl

lemma extends_of_mem_walk (hp : (path.map (·.id)).Nodup) (h : c ∈ walk rels holds fuel cur path) :
    ∃ c', c = path ++ c' ∧ c' ≠ [] := by
  obtain ⟨c', hc, hne, -⟩ := walk_sound hp h
  exact ⟨c', hc, hne⟩

lemma extends_of_mem_walkFrom (hp : (path.map (·.id)).Nodup) {r : Relation}
    (h : c ∈ walkFrom rels holds fuel cur path r) : ∃ c', c = path ++ r :: c' := by
  obtain hnil | ⟨next, hnew, heq⟩ := walkFrom_cases rels holds fuel cur path r
  · simp [hnil] at h
  · rw [heq, List.mem_cons] at h
    obtain rfl | h := h
    · exact ⟨[], rfl⟩
    · obtain ⟨c', rfl, -⟩ := extends_of_mem_walk (Chain.distinct_snoc hp hnew) h
      exact ⟨c', by simp⟩

lemma walk_nodup (hrels : rels.Nodup) (hp : (path.map (·.id)).Nodup) : (walk rels holds fuel cur path).Nodup := by
  induction fuel generalizing cur path with
  | zero => simp [walk]
  | succ fuel ih =>
    rw [walk_eq_flatMap, List.nodup_flatMap]
    refine ⟨fun r _ => ?_, hrels.imp fun {r r'} hne => ?_⟩
    · obtain hnil | ⟨next, hnew, heq⟩ := walkFrom_cases rels holds fuel cur path r
      · simp [hnil]
      · have hp' := Chain.distinct_snoc hp hnew
        rw [heq, List.nodup_cons]
        refine ⟨fun hmem => ?_, ih hp'⟩
        obtain ⟨c', hc, hne⟩ := extends_of_mem_walk hp' hmem
        exact hne (by simpa using hc)
    -- chains of two parts differ where the path ends
    · intro c hc hc'
      obtain ⟨d, rfl⟩ := extends_of_mem_walkFrom hp hc
      obtain ⟨d', hd⟩ := extends_of_mem_walkFrom hp hc'
      exact hne (List.cons.inj (List.append_cancel_left hd)).1

lemma sublist_of_mem_walk (hp : (path.map (·.id)).Nodup) (hc : c ∈ walk rels holds fuel cur path) (hd : d <+: c)
    (hne : d ≠ c) (hpath : path.length < d.length) : Sublist [d, c] (walk rels holds fuel cur path) := by
  induction fuel generalizing cur path with
  | zero => simp [walk] at hc
  | succ fuel ih =>
    rw [walk_eq_flatMap, List.mem_flatMap] at hc
    obtain ⟨r, hr, hc⟩ := hc
    have hpart : Sublist (walkFrom rels holds fuel cur path r) (walk rels holds (fuel + 1) cur path) := by
      rw [walk_eq_flatMap, List.flatMap]
      exact List.sublist_flatten_of_mem (List.mem_map_of_mem hr)
    refine Sublist.trans ?_ hpart
    obtain hnil | ⟨next, hnew, heq⟩ := walkFrom_cases rels holds fuel cur path r
    · simp [hnil] at hc
    · have hp' := Chain.distinct_snoc hp hnew
      rw [heq, List.mem_cons] at hc
      rw [heq]
      obtain rfl | hc := hc
      · have hlt := hd.length_le
        rw [List.length_append, List.length_singleton] at hlt
        exact absurd (hd.eq_of_length (by simp; omega)) hne
      · obtain ⟨c', rfl, -⟩ := extends_of_mem_walk hp' hc
        by_cases hlen : d.length = path.length + 1
        · have hfirst : d <+: path ++ [r] := List.prefix_of_prefix_length_le hd (List.prefix_append _ _) (by simp [hlen])
          rw [hfirst.eq_of_length (by simp [hlen])]
          exact (List.singleton_sublist.mpr hc).cons_cons _
        · exact (ih hp' hc (by simp; omega)).cons _

lemma listed_walk (hrels : rels.Nodup) (p : Path) : Listed rels (walk rels holds rels.length (.named p []) []) where
  of c hc := (mem_walk.mp hc).1
  distinct := walk_nodup hrels (by simp)
  beginnings c hc d hne hd hdc := sublist_of_mem_walk (by simp) hc hd hdc (List.length_pos_iff.mpr hne)

end Walks

/-! ### Rounds -/

section Rounds

variable {rels : List Relation} {memo searching : Memo} {holds : Memo → Ty → Ty → Bool} {p : Path}

lemma searchRound_grows (hg : Growing holds) (n : Nat) :
    Sublist ((searchRound rels holds searching p)^[n] []) ((searchRound rels holds searching p)^[n + 1] []) := by
  induction n with
  | zero => exact List.nil_sublist _
  | succ n ih =>
    rw [Function.iterate_succ_apply', Function.iterate_succ_apply' _ (n + 1)]
    exact searchRound_below hg (Memo.Below.refl searching) p ih

lemma rounds_eq_iterate (f : List Chain → List Chain) (fuel : Nat) (known : List Chain) :
    ∃ n, rounds f fuel known = f^[n] known := by
  induction fuel generalizing known with
  | zero => exact ⟨0, rfl⟩
  | succ fuel ih =>
    rw [rounds]
    split_ifs
    · exact ⟨1, rfl⟩
    · obtain ⟨n, hn⟩ := ih (f known)
      exact ⟨n + 1, hn⟩

lemma listed_search (hrels : rels.Nodup) (hm : memo.lookup p.render = none) : Listed rels (search rels memo p) := by
  rw [search, searchWith_rounds rels _ hm List.lookup_nil]
  exact rounds_induct (fun known _ => listed_walk hrels p) _ (listed_nil rels)

end Rounds

/-! ### Any history -/

def Memo.Listed (rels : List Relation) (memo : Memo) : Prop :=
  ∀ k l, memo.lookup k = some l → TraitCheck.Listed rels l

lemma kept_listed {rels : List Relation} (hrels : rels.Nodup) : Kept rels Set.univ (Memo.Listed rels) where
  unit := trivial
  start := by simp [Memo.Listed]
  within _ _ _ _ _ _ _ r _ := r.within_univ
  add memo hm p _ hnone := by
    intro k l hl
    by_cases hk : k = p.render
    · obtain rfl : search rels memo p = l := by simpa [hk] using hl
      exact listed_search hrels hnone
    · rw [Memo.lookup_cons_ne hk] at hl
      exact hm k l hl

/-- The list of the chains of a path, once relations are built and whatever has been asked before: it has chains of impls
without repetition, none of them twice and each after its beginnings. In every search the rounds keep what they have found,
and the search ends with a list that one more round finds again. -/
theorem chains_listed {s t : State} (hs : s.Unasked) (hbuild : Check.buildRelations.run s = (.ok (), t))
    (history : List Query) (p : Path) :
    (∃ l, ((Check.chainsOf p).run (t.after history)).1 = .ok l ∧ Listed t.relations l) ∧
      ∀ (memo searching : Memo) (budget : Nat) (asked : List String) (q : Path),
        memo.lookup q.render = none → searching.lookup q.render = none →
        let holds : Memo → Ty → Ty → Bool := fun searching => assignIn t.relations memo budget searching asked
        let round := searchRound t.relations holds searching q
        (∀ n, Sublist (round^[n] []) (round^[n + 1] [])) ∧
          ∃ n, searchWith t.relations memo holds searching q = round^[n] [] ∧ round (round^[n] []) = round^[n] [] := by
  obtain ⟨hfresh, hnumbered⟩ := Check.numbered_of_buildRelations hs hbuild
  have hkept := kept_listed hnumbered.nodup.of_map
  refine ⟨?_, fun memo searching budget asked q hm hsearching => ?_⟩
  · have hknows := hfresh.knows_after hkept history
    rw [Check.chainsOf, Check.run_ask _ hknows]
    refine ⟨_, rfl, ?_⟩
    cases hl : (t.after history).memo.lookup p.render with
    | some l =>
      rw [chains_of_lookup hl]
      exact hknows.memo _ l hl
    | none =>
      rw [chains_of_none hl]
      exact listed_search hnumbered.nodup.of_map hl
  · intro holds round
    have hg : Growing holds := finds_growing budget asked
    obtain ⟨n, hn⟩ := rounds_eq_iterate round (sequences t.relations.length + 1) []
    have hend : searchWith t.relations memo holds searching q = round^[n] [] :=
      (searchWith_rounds t.relations holds hm hsearching).trans hn
    refine ⟨searchRound_grows hg, n, hend, ?_⟩
    rw [← hend]
    exact searchWith_fixed t.relations hg hm hsearching

namespace Cards

/-- `impl Ranked for Card` and `impl Sorted for Ranked`. -/
def packages : List (String × List (String × Syntax.Module)) :=
  [("app", [("app::a", Standard.module
    [Standard.type "Card", Standard.trait "Ranked" [], Standard.trait "Sorted" [],
      Standard.impl [] (some (Standard.ref "Ranked")) (Standard.ref "Card") [],
      Standard.impl [] (some (Standard.ref "Sorted")) (Standard.ref "Ranked") []])])]

def state : State := .glanced Standard.prelude 64 packages

def card : Path := ⟨["app", "a", "Card"]⟩

def history : List Query := [.chains ⟨["app", "a", "Ranked"]⟩]

def lengths? (s : State) : Option (List Nat) :=
  match Check.buildRelations.run s with
  | (.ok _, t) =>
    match ((Check.chainsOf card).run (t.after history)).1 with
    | .ok l => some (l.map List.length)
    | .error _ => none
  | (.error _, _) => none

lemma exists_of_lengths? {s : State} {lengths : List Nat} (h : lengths? s = some lengths) :
    ∃ t, Check.buildRelations.run s = (.ok (), t) ∧
      ∃ l, ((Check.chainsOf card).run (t.after history)).1 = .ok l ∧ l.map List.length = lengths := by
  unfold lengths? at h
  split at h
  · next t hbuild =>
    split at h
    · next l hl => exact ⟨t, hbuild, l, hl, Option.some.inj h⟩
    · cases h
  · cases h

lemma lengths_card : lengths? state = some [1, 2] := by decide +kernel

theorem sorted_after_ranked : state.Unasked ∧ ∃ t, Check.buildRelations.run state = (.ok (), t) ∧
    (∃ l, ((Check.chainsOf card).run (t.after history)).1 = .ok l ∧ l.map List.length = [1, 2] ∧ Listed t.relations l) ∧
    ∃ n, searchRound t.relations (fun searching => assignIn t.relations [] maxDepth searching []) [] card
      ((searchRound t.relations (fun searching => assignIn t.relations [] maxDepth searching []) [] card)^[n] []) =
      search t.relations [] card := by
  have hstate : state.Unasked := State.glanced_unasked _ _ _
  obtain ⟨t, hbuild, l, hl, hlength⟩ := exists_of_lengths? lengths_card
  obtain ⟨⟨l', hl', hlisted⟩, hrounds⟩ := chains_listed hstate hbuild history card
  obtain rfl : l = l' := Except.ok.inj (hl.symm.trans hl')
  obtain ⟨-, n, hend, hfixed⟩ := hrounds [] [] maxDepth [] card rfl rfl
  exact ⟨hstate, t, hbuild, ⟨l, hl, hlength, hlisted⟩, n, hfixed.trans hend.symm⟩

end Cards

end TraitCheck
