import TraitCheck.Proofs.Ty.Layers

/-! The generics at the leaves of a type: which of them a substitution leaves, and which of them are in the types that a
unification binds. -/

namespace TraitCheck.Ty

mutual

/-- The generics in a type, with repetitions. -/
def leaves : Ty → List (Generic Ty)
  | .generic g => [g]
  | .named _ args => leavesAll args
  | .fn _ ps r => leavesAll ps ++ leaves r
  | _ => []

def leavesAll : List Ty → List (Generic Ty)
  | [] => []
  | t :: ts => leaves t ++ leavesAll ts

end

mutual

/-- The names that function types in a type declare. -/
def declared : Ty → List String
  | .named _ args => declaredAll args
  | .fn gs ps r => gs.map (·.name) ++ declaredAll ps ++ declared r
  | _ => []

def declaredAll : List Ty → List String
  | [] => []
  | t :: ts => declared t ++ declaredAll ts

end

/-- One of some generics stands in the type. -/
def Mentions (gs : List (Generic Ty)) (t : Ty) : Prop := ∃ h ∈ t.leaves, ∃ g ∈ gs, h.name = g.name ∧ h.key = g.key

lemma leaves_resultOf (t : Ty) : t.resultOf.leaves = t.leaves := by cases t <;> rfl

mutual

lemma occurrencesIn_subset (own : List String) (t : Ty) : t.occurrencesIn own ⊆ t.leaves := by
  cases t with
  | generic g =>
    rw [occurrencesIn]
    split
    · exact List.nil_subset _
    · exact List.Subset.refl _
  | named p args => exact occurrencesInAll_subset own args
  | fn gs ps r =>
    rw [occurrencesIn]
    refine List.append_subset.mpr ⟨?_, ?_⟩
    · exact List.subset_append_of_subset_left _ (occurrencesInAll_subset _ ps)
    · split
      · exact List.nil_subset _
      · exact List.subset_append_of_subset_right _ (occurrencesIn_subset _ r)
  | _ => exact List.nil_subset _

lemma occurrencesInAll_subset (own : List String) (ts : List Ty) : occurrencesInAll own ts ⊆ leavesAll ts := by
  cases ts with
  | nil => exact List.nil_subset _
  | cons t ts =>
    refine List.append_subset.mpr ⟨?_, ?_⟩
    · exact List.subset_append_of_subset_left _ (occurrencesIn_subset own t)
    · exact List.subset_append_of_subset_right _ (occurrencesInAll_subset own ts)

end

mutual

lemma mem_leaves_replace {f : Generic Ty → Ty} {own : List String} {h : Generic Ty} (t : Ty)
    (hh : h ∈ (t.replace f own).leaves) : h.name ∈ own ++ t.declared ∨ ∃ g ∈ t.occurrencesIn own, h ∈ (f g).leaves := by
  cases t with
  | generic g =>
    rw [replace] at hh
    rw [occurrencesIn]
    split at hh
    · next hown =>
      obtain rfl := List.mem_singleton.mp hh
      exact .inl (List.mem_append_left _ hown)
    · next hown => exact .inr ⟨g, by simp [hown], hh⟩
  | named p args => exact mem_leavesAll_replaceAll args hh
  | fn gs ps r =>
    rw [replace, leaves, List.mem_append] at hh
    rw [occurrencesIn]
    obtain hh | hh := hh
    · obtain hname | ⟨g, hg, hleaf⟩ := mem_leavesAll_replaceAll ps hh
      · left
        simp only [List.mem_append, declared] at hname ⊢
        tauto
      · exact .inr ⟨g, List.mem_append_left _ hg, hleaf⟩
    · split at hh
      · simp [unit, leaves, leavesAll] at hh
      · next hpending =>
        obtain hname | ⟨g, hg, hleaf⟩ := mem_leaves_replace r hh
        · left
          simp only [List.mem_append, declared] at hname ⊢
          tauto
        · rw [if_neg hpending]
          exact .inr ⟨g, List.mem_append_right _ hg, hleaf⟩
  | _ => simp [replace, leaves] at hh

lemma mem_leavesAll_replaceAll {f : Generic Ty → Ty} {own : List String} {h : Generic Ty} (ts : List Ty)
    (hh : h ∈ leavesAll (replaceAll f own ts)) :
    h.name ∈ own ++ declaredAll ts ∨ ∃ g ∈ occurrencesInAll own ts, h ∈ (f g).leaves := by
  cases ts with
  | nil => simp [replaceAll, leavesAll] at hh
  | cons t ts =>
    rw [replaceAll, leavesAll, List.mem_append] at hh
    rw [occurrencesInAll]
    obtain hh | hh := hh
    · obtain hname | ⟨g, hg, hleaf⟩ := mem_leaves_replace t hh
      · left
        simp only [List.mem_append, declaredAll] at hname ⊢
        tauto
      · exact .inr ⟨g, List.mem_append_left _ hg, hleaf⟩
    · obtain hname | ⟨g, hg, hleaf⟩ := mem_leavesAll_replaceAll ts hh
      · left
        simp only [List.mem_append, declaredAll] at hname ⊢
        tauto
      · exact .inr ⟨g, List.mem_append_right _ hg, hleaf⟩

end

mutual

lemma leaves_subset_of_unifyInto {acc : Bindings} {name : String} {u : Ty} (param arg : Ty)
    (h : (unifyInto acc param arg).get? name = some u) : acc.get? name = some u ∨ u.leaves ⊆ arg.leaves := by
  cases param with
  | generic g =>
    rw [unifyInto] at h
    split at h
    · exact .inl h
    · rw [Bindings.get?_insertIfNew, Option.or_eq_some_iff] at h
      obtain h | ⟨-, h⟩ := h
      · exact .inl h
      · split at h
        · cases h
          exact .inr (List.Subset.refl _)
        · cases h
  | named _ params =>
    cases arg with
    | named _ args => exact leaves_subset_of_unifyAllInto params args h
    | _ => exact .inl h
  | fn _ params r =>
    cases arg with
    | fn _ args s =>
      have hparams {v : Ty} (hv : (unifyAllInto acc params args).get? name = some v) :
          acc.get? name = some v ∨ v.leaves ⊆ leavesAll args ++ s.leaves :=
        (leaves_subset_of_unifyAllInto params args hv).imp_right fun hsub => List.subset_append_of_subset_left _ hsub
      rw [unifyInto] at h
      split at h
      · exact hparams h
      · obtain h | hsub := leaves_subset_of_unifyInto r s.resultOf h
        · exact hparams h
        · rw [leaves_resultOf] at hsub
          exact .inr (List.subset_append_of_subset_right _ hsub)
    | _ => exact .inl h
  | _ => exact .inl h

lemma leaves_subset_of_unifyAllInto {acc : Bindings} {name : String} {u : Ty} (params args : List Ty)
    (h : (unifyAllInto acc params args).get? name = some u) : acc.get? name = some u ∨ u.leaves ⊆ leavesAll args := by
  cases params with
  | nil => exact .inl h
  | cons p ps =>
    cases args with
    | nil => exact .inl h
    | cons a as =>
      obtain h | hsub := leaves_subset_of_unifyAllInto ps as h
      · exact (leaves_subset_of_unifyInto p a h).imp_right fun hsub => List.subset_append_of_subset_left _ hsub
      · exact .inr (List.subset_append_of_subset_right _ hsub)

end

lemma leaves_subset_of_unify {arg param : Ty} {name : String} {u : Ty} (h : (unify arg param).get? name = some u) :
    u.leaves ⊆ arg.leaves :=
  (leaves_subset_of_unifyInto param arg h).resolve_left nofun

mutual

lemma mentions_eq_map (t : Ty) : t.mentions = t.leaves.map (·.name) := by
  cases t with
  | named _ args => rw [mentions, leaves, mentionsAll_eq_map args]
  | fn _ ps r =>
    rw [mentions, leaves, mentionsAll_eq_map ps, List.map_append]
    cases r with
    | absent => rfl
    | ongoing => rfl
    | _ => rw [if_neg (by simp [isPending]), mentions_eq_map]
  | _ => rfl

lemma mentionsAll_eq_map (ts : List Ty) : mentionsAll ts = (leavesAll ts).map (·.name) := by
  cases ts with
  | nil => rfl
  | cons t ts => rw [mentionsAll, leavesAll, mentions_eq_map t, mentionsAll_eq_map ts, List.map_append]

end

lemma resultOf_replace {f : Generic Ty → Ty} {name : String} (hf : ∀ g, g.name = name → f g = .generic g)
    {own : List String} {t : Ty} (h : name ∈ t.mentions) : (t.replace f own).resultOf = t.replace f own := by
  cases t with
  | generic g =>
    rw [replace]
    split
    · rfl
    · rw [hf g (List.mem_singleton.mp h).symm]
      rfl
  | named => rfl
  | fn => rfl
  | _ => cases h

mutual

lemma get?_unifyInto_replace {f : Generic Ty → Ty} {name : String} (hf : ∀ g, g.name = name → f g = .generic g)
    (own : List String) {acc : Bindings} (hacc : acc.get? name = none) (t : Ty) (h : name ∈ t.mentions) :
    ∃ g ∈ t.leaves, g.name = name ∧ (unifyInto acc t (t.replace f own)).get? name = some (.generic g) := by
  cases t with
  | generic g =>
    have hname : name = g.name := List.mem_singleton.mp h
    have harg : (Ty.generic g).replace f own = .generic g := by
      rw [replace]
      split
      · rfl
      · exact hf g hname.symm
    refine ⟨g, List.mem_singleton_self g, hname.symm, ?_⟩
    rw [harg, unifyInto, if_neg (by simp [absorbs]), Bindings.get?_insertIfNew, hacc, if_pos hname]
    rfl
  | named p args => exact get?_unifyAllInto_replaceAll hf own hacc args h
  | fn gs ps r =>
    rw [replace, unifyInto]
    by_cases hps : name ∈ mentionsAll ps
    · obtain ⟨g, hg, hname, hget⟩ := get?_unifyAllInto_replaceAll hf (gs.map (·.name) ++ own) hacc ps hps
      refine ⟨g, List.mem_append_left _ hg, hname, ?_⟩
      split
      · exact hget
      · exact unifyInto_extends _ _ _ _ _ hget
    · have hr : r.isPending = false ∧ name ∈ r.mentions := by
        rw [mentions, List.mem_append] at h
        cases hpending : r.isPending with
        | true => simp [hpending, hps] at h
        | false => simpa [hpending, hps] using h
      rw [if_neg (by simp [hr.1]), if_neg (by simp [hr.1]), resultOf_replace hf hr.2]
      have hacc' := (get?_unifyAllInto acc ps (replaceAll f (gs.map (·.name) ++ own) ps) hps).trans hacc
      obtain ⟨g, hg, hname, hget⟩ := get?_unifyInto_replace hf (gs.map (·.name) ++ own) hacc' r hr.2
      exact ⟨g, List.mem_append_right _ hg, hname, hget⟩
  | _ => cases h

lemma get?_unifyAllInto_replaceAll {f : Generic Ty → Ty} {name : String} (hf : ∀ g, g.name = name → f g = .generic g)
    (own : List String) {acc : Bindings} (hacc : acc.get? name = none) (ts : List Ty) (h : name ∈ mentionsAll ts) :
    ∃ g ∈ leavesAll ts, g.name = name ∧ (unifyAllInto acc ts (replaceAll f own ts)).get? name = some (.generic g) := by
  cases ts with
  | nil => cases h
  | cons t ts =>
    rw [replaceAll, unifyAllInto]
    by_cases ht : name ∈ t.mentions
    · obtain ⟨g, hg, hname, hget⟩ := get?_unifyInto_replace hf own hacc t ht
      exact ⟨g, List.mem_append_left _ hg, hname, unifyAllInto_extends _ _ _ _ _ hget⟩
    · have hacc' := (get?_unifyInto acc t (t.replace f own) ht).trans hacc
      obtain ⟨g, hg, hname, hget⟩ := get?_unifyAllInto_replaceAll hf own hacc' ts ((List.mem_append.mp h).resolve_left ht)
      exact ⟨g, List.mem_append_right _ hg, hname, hget⟩

end

end TraitCheck.Ty
