import Mathlib.Data.List.Forall2
import Mathlib.Tactic.Common
import TraitCheck.Ty.Substitution

/-! Types by their parts. A result that is not there counts as the unit, and with it in its place substitution, unification
and equality go from the parts of a type to the whole. Equality is an equivalence. -/

namespace TraitCheck

lemma replaceAll_eq_map (f : Generic Ty → Ty) (own : List String) (ts : List Ty) :
    Ty.replaceAll f own ts = ts.map (Ty.replace f own) := by
  induction ts with
  | nil => rfl
  | cons t ts ih => rw [Ty.replaceAll, ih, List.map_cons]

namespace Ty

variable {a b c t : Ty}

lemma resultOf_eq_unit (h : t.isPending = true) : t.resultOf = unit := by
  cases t with
  | absent => rfl
  | ongoing => rfl
  | _ => cases h

lemma resultOf_eq_self (h : t.isPending = false) : t.resultOf = t := by
  cases t with
  | absent => cases h
  | ongoing => cases h
  | _ => rfl

lemma isPending_resultOf (t : Ty) : t.resultOf.isPending = false := by cases t <;> rfl

@[elab_as_elim]
lemma byParts {motive : Ty → Prop} (named : ∀ p args, (∀ a ∈ args, motive a) → motive (.named p args))
    (fn : ∀ gs ps r, (∀ p ∈ ps, motive p) → motive r.resultOf → motive (.fn gs ps r))
    (generic : ∀ g, (∀ b ∈ g.bounds, motive b) → motive (.generic g)) (unknown : motive .unknown)
    (closure : ∀ id arity, motive (.closure id arity)) (hole : motive .hole) (absent : motive .absent)
    (ongoing : ∀ id, motive (.ongoing id)) (t : Ty) : motive t := by
  have part (u : Ty) (_ : sizeOf u < sizeOf t) : motive u :=
    byParts named fn generic unknown closure hole absent ongoing u
  cases t with
  | named p args =>
    refine named p args fun a ha => part a ?_
    have hsize := List.sizeOf_lt_of_mem ha
    rw [Ty.named.sizeOf_spec]
    omega
  | fn gs ps r =>
    refine fn gs ps r (fun p hp => part p ?_) ?_
    · have hsize := List.sizeOf_lt_of_mem hp
      rw [Ty.fn.sizeOf_spec]
      omega
    · cases hr : r.isPending with
      | true =>
        -- the unit is no part of the type, but has no parts of its own
        rw [resultOf_eq_unit hr]
        exact named unitPath [] (by simp)
      | false =>
        rw [resultOf_eq_self hr]
        refine part r ?_
        rw [Ty.fn.sizeOf_spec]
        omega
  | generic g =>
    obtain ⟨name, key, bounds⟩ := g
    refine generic _ fun b hb => part b ?_
    have hsize : sizeOf b < sizeOf bounds := List.sizeOf_lt_of_mem hb
    rw [Ty.generic.sizeOf_spec, Generic.mk.sizeOf_spec]
    omega
  | unknown => exact unknown
  | closure id arity => exact closure id arity
  | hole => exact hole
  | absent => exact absent
  | ongoing id => exact ongoing id
termination_by sizeOf t

/-! ### Parts -/

variable (f : Generic Ty → Ty) (own : List String) (p q : Path) (as bs ps qs : List Ty) (gs hs : List (Generic Ty)) (r s : Ty)

lemma replace_named : (named p as).replace f own = .named p (as.map (replace f own)) := by
  rw [replace, replaceAll_eq_map]

lemma replace_fn : (fn gs ps r).replace f own =
    .fn gs (ps.map (replace f (gs.map (·.name) ++ own))) (r.resultOf.replace f (gs.map (·.name) ++ own)) := by
  rw [replace, replaceAll_eq_map]
  cases hr : r.isPending with
  | true =>
    rw [resultOf_eq_unit hr]
    rfl
  | false =>
    rw [resultOf_eq_self hr]
    rfl

lemma occurrencesInAll_eq_flatMap (ts : List Ty) : occurrencesInAll own ts = ts.flatMap (occurrencesIn own) := by
  induction ts with
  | nil => rfl
  | cons t ts ih => rw [occurrencesInAll, ih, List.flatMap_cons]

lemma occurrencesIn_named : (named p as).occurrencesIn own = as.flatMap (occurrencesIn own) := by
  rw [occurrencesIn, occurrencesInAll_eq_flatMap]

lemma occurrencesIn_fn : (fn gs ps r).occurrencesIn own =
    ps.flatMap (occurrencesIn (gs.map (·.name) ++ own)) ++ r.resultOf.occurrencesIn (gs.map (·.name) ++ own) := by
  rw [occurrencesIn, occurrencesInAll_eq_flatMap]
  cases hr : r.isPending with
  | true =>
    rw [resultOf_eq_unit hr]
    rfl
  | false =>
    rw [resultOf_eq_self hr]
    rfl

lemma unifyInto_fn (acc : Bindings) :
    unifyInto acc (fn gs ps r) (fn hs qs s) = unifyInto (unifyAllInto acc ps qs) r.resultOf s.resultOf := by
  rw [unifyInto]
  cases hr : r.isPending with
  | true =>
    rw [resultOf_eq_unit hr, if_pos rfl]
    cases s.resultOf <;> rfl
  | false =>
    rw [resultOf_eq_self hr]
    rfl

/-! ### Equality -/

lemma unit_equal (t : Ty) : unit.equal t = t.isUnit := by
  cases t with
  | named p args =>
    cases args with
    | nil => simp [unit, equal, equalAll, isUnit, eq_comm]
    | cons => simp [unit, equal, equalAll, isUnit]
  | _ => rfl

mutual

lemma equal_comm (a b : Ty) : a.equal b = b.equal a := by
  cases a with
  | named p as =>
    cases b with
    | named q bs => simp only [equal, equalAll_comm as bs, eq_comm]
    | _ => rfl
  | fn gs ps r =>
    cases b with
    | fn hs qs s =>
      simp only [equal, equalAll_comm ps qs, equal_comm r s, Bool.or_comm r.isPending, Bool.and_comm r.resultOf.isUnit]
    | _ => rfl
  | generic g =>
    obtain ⟨m, k, bounds⟩ := g
    cases b with
    | generic h =>
      obtain ⟨n, l, bounds'⟩ := h
      simp only [equal, equalGeneric, equalAll_comm bounds bounds', eq_comm]
    | _ => rfl
  | closure i n =>
    cases b with
    | closure j n => simp only [equal, eq_comm]
    | _ => rfl
  | ongoing i =>
    cases b with
    | ongoing j => simp only [equal, eq_comm]
    | _ => rfl
  | _ => cases b <;> rfl

lemma equalAll_comm (as bs : List Ty) : equalAll as bs = equalAll bs as := by
  cases as with
  | nil => cases bs <;> rfl
  | cons a as =>
    cases bs with
    | nil => rfl
    | cons b bs => rw [equalAll, equalAll, equal_comm a b, equalAll_comm as bs]

end

lemma equal_named : (named p as).equal (named q bs) = true ↔ p = q ∧ equalAll as bs = true := by simp [equal]

lemma equal_fn : (fn gs ps r).equal (fn hs qs s) = true ↔
    equalAll ps qs = true ∧ r.resultOf.equal s.resultOf = true := by
  rw [equal, Bool.and_eq_true]
  cases hr : r.isPending with
  | true => simp [resultOf_eq_unit hr, unit_equal, show unit.isUnit = true from rfl]
  | false =>
    cases hs : s.isPending with
    | true => simp [resultOf_eq_unit hs, equal_comm _ unit, unit_equal, show unit.isUnit = true from rfl]
    | false => simp [resultOf_eq_self hr, resultOf_eq_self hs]

lemma equal_generic (g h : Generic Ty) :
    (generic g).equal (generic h) = true ↔ g.name = h.name ∧ equalAll g.bounds h.bounds = true := by
  cases g
  cases h
  simp [equal, equalGeneric]

lemma equalAll_iff : equalAll as bs = true ↔ List.Forall₂ (fun a b => a.equal b = true) as bs := by
  induction as generalizing bs with
  | nil => cases bs <;> simp [equalAll]
  | cons a as ih =>
    cases bs with
    | nil => simp [equalAll]
    | cons b bs => simp [equalAll, ih]

lemma equalAll_map {α : Type} {l : List α} {f g : α → Ty} (h : ∀ a ∈ l, (f a).equal (g a) = true) :
    equalAll (l.map f) (l.map g) = true := by
  rw [equalAll_iff, List.forall₂_map_left_iff, List.forall₂_map_right_iff, List.forall₂_same]
  exact h

lemma equal_self (t : Ty) : t.equal t = true := by
  induction t using byParts with
  | named p args ih => simpa [equal_named, equalAll_iff] using ih
  | fn gs ps r ihps ihr => simpa [equal_fn, equalAll_iff, ihr] using ihps
  | generic g ih => simpa [equal_generic, equalAll_iff] using ih
  | _ => simp [equal]

lemma equal_symm (h : a.equal b = true) : b.equal a = true := equal_comm a b ▸ h

lemma equal_resultOf (h : a.equal b = true) : a.resultOf.equal b.resultOf = true := by
  cases a with
  | absent =>
    cases b with
    | absent => exact equal_self unit
    | _ => cases h
  | ongoing =>
    cases b with
    | ongoing => exact equal_self unit
    | _ => cases h
  | _ =>
    cases b with
    | absent => cases h
    | ongoing => cases h
    | _ => exact h

lemma equalAll_trans {as bs cs : List Ty} (ih : ∀ a ∈ as, ∀ b c, a.equal b = true → b.equal c = true → a.equal c = true)
    (hab : equalAll as bs = true) (hbc : equalAll bs cs = true) : equalAll as cs = true := by
  induction as generalizing bs cs with
  | nil =>
    cases bs with
    | nil => exact hbc
    | cons => cases hab
  | cons a as ihas =>
    cases bs with
    | nil => cases hab
    | cons b bs =>
      cases cs with
      | nil => cases hbc
      | cons c cs =>
        rw [equalAll, Bool.and_eq_true] at hab hbc ⊢
        obtain ⟨iha, ihas'⟩ := List.forall_mem_cons.mp ih
        exact ⟨iha b c hab.1 hbc.1, ihas ihas' hab.2 hbc.2⟩

lemma equal_trans (hab : a.equal b = true) (hbc : b.equal c = true) : a.equal c = true := by
  induction a using byParts generalizing b c with
  | named p as ih =>
    cases b with
    | named q bs =>
      cases c with
      | named o cs =>
        rw [equal_named] at hab hbc ⊢
        exact ⟨hab.1.trans hbc.1, equalAll_trans (fun a ha b c => ih a ha) hab.2 hbc.2⟩
      | _ => cases hbc
    | _ => cases hab
  | fn gs ps r ihps ihr =>
    cases b with
    | fn hs qs s =>
      cases c with
      | fn is os u =>
        rw [equal_fn] at hab hbc ⊢
        exact ⟨equalAll_trans (fun a ha b c => ihps a ha) hab.1 hbc.1, ihr hab.2 hbc.2⟩
      | _ => cases hbc
    | _ => cases hab
  | generic g ih =>
    cases b with
    | generic h =>
      cases c with
      | generic i =>
        rw [equal_generic] at hab hbc ⊢
        exact ⟨hab.1.trans hbc.1, equalAll_trans (fun a ha b c => ih a ha) hab.2 hbc.2⟩
      | _ => cases hbc
    | _ => cases hab
  | closure id arity =>
    cases b with
    | closure j n =>
      cases c with
      | closure k m =>
        simp only [equal, decide_eq_true_eq] at hab hbc ⊢
        exact hab.trans hbc
      | _ => cases hbc
    | _ => cases hab
  | ongoing id =>
    cases b with
    | ongoing j =>
      cases c with
      | ongoing k =>
        simp only [equal, decide_eq_true_eq] at hab hbc ⊢
        exact hab.trans hbc
      | _ => cases hbc
    | _ => cases hab
  | unknown =>
    cases b with
    | unknown => exact hbc
    | _ => cases hab
  | hole =>
    cases b with
    | hole => exact hbc
    | _ => cases hab
  | absent =>
    cases b with
    | absent => exact hbc
    | _ => cases hab

end Ty

end TraitCheck
