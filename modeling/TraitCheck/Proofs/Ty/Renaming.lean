import TraitCheck.Proofs.Ty.Leaves

/-! Another name for a generic. Unification and substitution by bare names give the same under both names, as long as the new
one is free. -/

namespace TraitCheck

/-- A generic gets another name, and with it another key. -/
structure Renaming where
  old : String
  new : String
  key : String

namespace Renaming

variable (ρ : Renaming)

def name (n : String) : String := if n = ρ.old then ρ.new else n

/-- The key of a generic, which changes with its name. -/
def keyOf (n k : String) : String := if n = ρ.old then ρ.key else k

mutual

/-- Renames a generic wherever its name stands, also in bounds. -/
def ty : Ty → Ty
  | .generic ⟨n, k, bounds⟩ => .generic ⟨ρ.name n, ρ.keyOf n k, tys bounds⟩
  | .named p args => .named p (tys args)
  | .fn gs ps r => .fn (decls gs) (tys ps) (ty r)
  | t => t

def tys : List Ty → List Ty
  | [] => []
  | t :: ts => ty t :: tys ts

/-- The generics that a function type declares keep their names. -/
def decls : List (Generic Ty) → List (Generic Ty)
  | [] => []
  | ⟨n, k, bounds⟩ :: gs => ⟨n, k, tys bounds⟩ :: decls gs

end

def generic (g : Generic Ty) : Generic Ty := ⟨ρ.name g.name, ρ.keyOf g.name g.key, ρ.tys g.bounds⟩

lemma ty_generic (g : Generic Ty) : ρ.ty (.generic g) = .generic (ρ.generic g) := rfl

lemma tys_eq_map (ts : List Ty) : ρ.tys ts = ts.map ρ.ty := by
  induction ts with
  | nil => rfl
  | cons t ts ih => rw [tys, ih, List.map_cons]

lemma isPending_ty (t : Ty) : (ρ.ty t).isPending = t.isPending := by cases t <;> rfl

lemma resultOf_ty (t : Ty) : (ρ.ty t).resultOf = ρ.ty t.resultOf := by cases t <;> rfl

lemma name_inj {m n : String} (hm : m ≠ ρ.new) (hn : n ≠ ρ.new) : ρ.name m = ρ.name n ↔ m = n := by
  unfold name
  split_ifs with hmold hnold hnold
  · simp [hmold, hnold]
  · exact ⟨fun h => absurd h.symm hn, fun h => absurd (h.symm.trans hmold) hnold⟩
  · exact ⟨fun h => absurd h hm, fun h => absurd (h.trans hnold) hmold⟩
  · rfl

/-! ### Types -/

mutual

/-- The renaming has nothing to do with the generics that function types in a type declare. -/
def Spares (own : List String) : Ty → Prop
  | .generic g => g.name ∈ own → ρ.generic g = g
  | .named _ args => SparesAll own args
  | .fn gs ps r =>
    let names := gs.map (·.name)
    ρ.decls gs = gs ∧ ρ.old ∉ names ∧ ρ.new ∉ names ∧ SparesAll (names ++ own) ps ∧ Spares (names ++ own) r
  | _ => True

def SparesAll (own : List String) : List Ty → Prop
  | [] => True
  | t :: ts => Spares own t ∧ SparesAll own ts

end

/-- The new name is not used in a type, and the old one only for the generic itself. -/
structure Suits (t : Ty) : Prop where
  fresh : ∀ h ∈ t.leaves, h.name ≠ ρ.new
  spared : ρ.Spares [] t

variable {ρ} {F F' : Generic Ty → Ty}

lemma name_mem_iff {own : List String} (hold : ρ.old ∉ own) (hnew : ρ.new ∉ own) (n : String) : ρ.name n ∈ own ↔ n ∈ own := by
  unfold name
  split
  · next h => simp [h, hold, hnew]
  · rfl

lemma not_mem_append {own : List String} {n : String} {gs : List (Generic Ty)} (hn : n ∉ gs.map (·.name))
    (hown : n ∉ own) : n ∉ gs.map (·.name) ++ own := by
  rw [List.mem_append]
  exact fun h => h.elim hn hown

mutual

lemma replace_ty {own : List String} {t : Ty} (hold : ρ.old ∉ own) (hnew : ρ.new ∉ own) (ht : ρ.Spares own t)
    (h : ∀ g ∈ t.leaves, F' (ρ.generic g) = F g) : (ρ.ty t).replace F' own = t.replace F own := by
  cases t with
  | generic g =>
    have hmem : (ρ.generic g).name ∈ own ↔ g.name ∈ own := name_mem_iff hold hnew g.name
    rw [ty_generic, Ty.replace, Ty.replace]
    by_cases hg : g.name ∈ own
    · rw [if_pos (hmem.mpr hg), if_pos hg, ht hg]
    · rw [if_neg (mt hmem.mp hg), if_neg hg]
      exact h g (List.mem_singleton_self g)
  | named p args => rw [ty, Ty.replace, Ty.replace, replaceAll_tys hold hnew ht h]
  | fn gs ps r =>
    obtain ⟨hgs, hgsold, hgsnew, hps, hr⟩ := ht
    have hold' := not_mem_append hgsold hold
    have hnew' := not_mem_append hgsnew hnew
    rw [ty, hgs, Ty.replace, Ty.replace, isPending_ty,
      replaceAll_tys hold' hnew' hps fun g hg => h g (List.mem_append_left _ hg),
      replace_ty hold' hnew' hr fun g hg => h g (List.mem_append_right _ hg)]
  | _ => rfl

lemma replaceAll_tys {own : List String} {ts : List Ty} (hold : ρ.old ∉ own) (hnew : ρ.new ∉ own)
    (hts : ρ.SparesAll own ts) (h : ∀ g ∈ Ty.leavesAll ts, F' (ρ.generic g) = F g) :
    Ty.replaceAll F' own (ρ.tys ts) = Ty.replaceAll F own ts := by
  cases ts with
  | nil => rfl
  | cons t ts =>
    rw [tys, Ty.replaceAll, Ty.replaceAll, replace_ty hold hnew hts.1 fun g hg => h g (List.mem_append_left _ hg),
      replaceAll_tys hold hnew hts.2 fun g hg => h g (List.mem_append_right _ hg)]

end

mutual

lemma occurrencesIn_ty {own : List String} {t : Ty} (hold : ρ.old ∉ own) (hnew : ρ.new ∉ own) (ht : ρ.Spares own t) :
    (ρ.ty t).occurrencesIn own = (t.occurrencesIn own).map ρ.generic := by
  cases t with
  | generic g =>
    have hmem : (ρ.generic g).name ∈ own ↔ g.name ∈ own := name_mem_iff hold hnew g.name
    rw [ty_generic, Ty.occurrencesIn, Ty.occurrencesIn]
    by_cases hg : g.name ∈ own
    · rw [if_pos (hmem.mpr hg), if_pos hg, List.map_nil]
    · rw [if_neg (mt hmem.mp hg), if_neg hg]
      rfl
  | named p args => exact occurrencesInAll_tys hold hnew ht
  | fn gs ps r =>
    obtain ⟨hgs, hgsold, hgsnew, hps, hr⟩ := ht
    have hold' := not_mem_append hgsold hold
    have hnew' := not_mem_append hgsnew hnew
    rw [ty, hgs, Ty.occurrencesIn, Ty.occurrencesIn, isPending_ty, occurrencesInAll_tys hold' hnew' hps, List.map_append]
    split
    · rfl
    · rw [occurrencesIn_ty hold' hnew' hr]
  | _ => rfl

lemma occurrencesInAll_tys {own : List String} {ts : List Ty} (hold : ρ.old ∉ own) (hnew : ρ.new ∉ own)
    (hts : ρ.SparesAll own ts) : Ty.occurrencesInAll own (ρ.tys ts) = (Ty.occurrencesInAll own ts).map ρ.generic := by
  cases ts with
  | nil => rfl
  | cons t ts =>
    rw [tys, Ty.occurrencesInAll, Ty.occurrencesInAll, occurrencesIn_ty hold hnew hts.1,
      occurrencesInAll_tys hold hnew hts.2, List.map_append]

end

lemma Suits.replace {t : Ty} (ht : ρ.Suits t) (h : ∀ g ∈ t.leaves, F' (ρ.generic g) = F g) :
    (ρ.ty t).replace F' [] = t.replace F [] :=
  replace_ty List.not_mem_nil List.not_mem_nil ht.spared h

lemma Suits.occurrences {t : Ty} (ht : ρ.Suits t) : (ρ.ty t).occurrences = t.occurrences.map ρ.generic :=
  occurrencesIn_ty List.not_mem_nil List.not_mem_nil ht.spared

/-! ### Bindings -/

variable (ρ)

def Follows (maps maps' : List Bindings) : Prop :=
  ∀ n, n ≠ ρ.new → Bindings.lookupIn maps' (ρ.name n) = Bindings.lookupIn maps n

variable {ρ} {maps maps' more more' : List Bindings}

lemma Follows.append (h : ρ.Follows maps maps') (hmore : ρ.Follows more more') :
    ρ.Follows (maps ++ more) (maps' ++ more') := by
  intro n hn
  rw [Bindings.lookupIn_append, Bindings.lookupIn_append, h n hn, hmore n hn]

lemma Follows.nil : ρ.Follows [] [] := fun _ _ => rfl

lemma Follows.empty : ρ.Follows [.empty] [.empty] := fun _ _ => rfl

lemma Follows.of_none (hold : Bindings.lookupIn maps ρ.old = none) (hnew : Bindings.lookupIn maps ρ.new = none) :
    ρ.Follows maps maps := by
  intro n _
  unfold name
  split
  · next h => rw [hnew, h, hold]
  · rfl

lemma follows_singleton {b b' : Bindings} :
    ρ.Follows [b] [b'] ↔ ∀ n, n ≠ ρ.new → b'.get? (ρ.name n) = b.get? n := by
  simp only [Follows, Bindings.lookupIn_singleton]

lemma Follows.insertIfNew {b b' : Bindings} (h : ρ.Follows [b] [b']) {n : String} (hn : n ≠ ρ.new) (t : Ty) :
    ρ.Follows [b.insertIfNew n t] [b'.insertIfNew (ρ.name n) t] := by
  rw [follows_singleton] at h ⊢
  intro m hm
  simp only [Bindings.get?_insertIfNew, h m hm, name_inj ρ hm hn]

lemma Follows.underlay {b b' c c' : Bindings} (h : ρ.Follows [b] [b']) (hc : ρ.Follows [c] [c']) :
    ρ.Follows [b.underlay c] [b'.underlay c'] := by
  rw [follows_singleton] at h hc ⊢
  intro n hn
  rw [Bindings.get?_underlay, Bindings.get?_underlay, h n hn, hc n hn]

mutual

lemma Follows.unifyInto {b b' : Bindings} (h : ρ.Follows [b] [b']) (param arg : Ty)
    (hfresh : ∀ g ∈ param.leaves, g.name ≠ ρ.new) :
    ρ.Follows [Ty.unifyInto b param arg] [Ty.unifyInto b' (ρ.ty param) arg] := by
  cases param with
  | generic g =>
    rw [ty_generic, Ty.unifyInto, Ty.unifyInto]
    split
    · exact h
    · exact h.insertIfNew (hfresh g (List.mem_singleton_self g)) arg
  | named _ params =>
    cases arg with
    | named _ args => exact h.unifyAllInto params args hfresh
    | _ => exact h
  | fn _ params r =>
    cases arg with
    | fn _ args u =>
      have hparams := h.unifyAllInto params args fun g hg => hfresh g (List.mem_append_left _ hg)
      rw [ty, Ty.unifyInto, Ty.unifyInto, isPending_ty]
      split
      · exact hparams
      · exact hparams.unifyInto r u.resultOf fun g hg => hfresh g (List.mem_append_right _ hg)
    | _ => exact h
  | _ => exact h

lemma Follows.unifyAllInto {b b' : Bindings} (h : ρ.Follows [b] [b']) (params args : List Ty)
    (hfresh : ∀ g ∈ Ty.leavesAll params, g.name ≠ ρ.new) :
    ρ.Follows [Ty.unifyAllInto b params args] [Ty.unifyAllInto b' (ρ.tys params) args] := by
  cases params with
  | nil => exact h
  | cons p params =>
    cases args with
    | nil => exact h
    | cons a args =>
      have hp := h.unifyInto p a fun g hg => hfresh g (List.mem_append_left _ hg)
      exact hp.unifyAllInto params args fun g hg => hfresh g (List.mem_append_right _ hg)

end

lemma Follows.unify (arg : Ty) {param : Ty} (h : ρ.Suits param) :
    ρ.Follows [Ty.unify arg param] [Ty.unify arg (ρ.ty param)] :=
  Follows.empty.unifyInto param arg h.fresh

/-- What is left of a type after a substitution, with the new name where the old one is left. -/
def substituted (ρ : Renaming) (maps : List Bindings) (t : Ty) : Ty :=
  t.replace (fun g => (Bindings.lookupIn maps g.name).getD (.generic (ρ.generic g))) []

lemma Follows.substitute (h : ρ.Follows maps maps') {t : Ty} (ht : ρ.Suits t) :
    (ρ.ty t).substitute maps' = ρ.substituted maps t := by
  refine ht.replace fun g hg => ?_
  change (Bindings.lookupIn maps' (ρ.name g.name)).getD _ = _
  rw [h g.name (ht.fresh g hg)]

lemma Follows.substituteOrHole (h : ρ.Follows maps maps') {t : Ty} (ht : ρ.Suits t) :
    (ρ.ty t).substituteOrHole maps' = t.substituteOrHole maps := by
  refine ht.replace fun g hg => ?_
  change (Bindings.lookupIn maps' (ρ.name g.name)).getD _ = _
  rw [h g.name (ht.fresh g hg)]

lemma Follows.insert {b b' : Bindings} (h : ρ.Follows [b] [b']) {n : String} (hn : n ≠ ρ.new) (t : Ty) :
    ρ.Follows [b.insert n t] [b'.insert (ρ.name n) t] := by
  rw [follows_singleton] at h ⊢
  intro m hm
  by_cases hmn : m = n
  · subst hmn
    exact (Bindings.lookup_insertEntry_self _ t _).trans (Bindings.lookup_insertEntry_self m t _).symm
  · have hne := mt (name_inj ρ hm hn).mp hmn
    exact (Bindings.lookup_insertEntry_of_ne hne t _).trans ((h m hm).trans (Bindings.lookup_insertEntry_of_ne hmn t _).symm)

end Renaming

end TraitCheck
