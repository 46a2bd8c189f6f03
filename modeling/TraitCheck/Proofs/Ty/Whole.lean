import Mathlib.Tactic.Common
import TraitCheck.Check.Types
import TraitCheck.Proofs.Relation.Names

/-! Types without a part that is absent. Substitution, unification and the completion of closures lead from such types
to such types. -/

namespace TraitCheck

inductive Ty.Whole : Ty → Prop
  | named {p : Path} {args : List Ty} (hargs : ∀ a ∈ args, Whole a) : Whole (.named p args)
  | fn {gs : List (Generic Ty)} {ps : List Ty} {r : Ty} (hparams : ∀ p ∈ ps, Whole p) (hresult : Whole r) :
      Whole (.fn gs ps r)
  | running {gs : List (Generic Ty)} {ps : List Ty} (hparams : ∀ p ∈ ps, Whole p) (i : Nat) :
      Whole (.fn gs ps (.ongoing i))
  | generic {g : Generic Ty} (hbounds : ∀ b ∈ g.bounds, Whole b) : Whole (.generic g)
  | unknown : Whole .unknown
  | closure (id arity : Nat) : Whole (.closure id arity)
  | hole : Whole .hole

def Bindings.Whole (b : Bindings) : Prop := ∀ x ∈ b.entries, x.2.Whole

structure Relation.Whole (r : Relation) : Prop where
  args : ∀ a ∈ r.args, a.Whole
  forType : r.forType.Whole
  generics : ∀ g ∈ r.generics, (Ty.generic g).Whole

namespace Ty.Whole

variable {t u : Ty}

lemma isAbsent (h : t.Whole) : t.isAbsent = false := by
  cases h <;> rfl

lemma unit : Ty.unit.Whole := .named (by simp)

lemma holes (n : Nat) : ∀ a ∈ Ty.holes n, a.Whole := by
  intro a ha
  rw [List.eq_of_mem_replicate ha]
  exact .hole

lemma resultOf (h : t.Whole) : t.resultOf.Whole := by
  cases h with
  | named hargs => exact .named hargs
  | fn hparams hresult => exact .fn hparams hresult
  | running hparams i => exact .running hparams i
  | generic hbounds => exact .generic hbounds
  | unknown => exact .unknown
  | closure id arity => exact .closure id arity
  | hole => exact .hole

lemma result {gs : List (Generic Ty)} {ps : List Ty} {r : Ty} (h : (Ty.fn gs ps r).Whole) : r.resultOf.Whole := by
  cases h with
  | fn _ hresult => exact hresult.resultOf
  | running _ i => exact unit

lemma params {gs : List (Generic Ty)} {ps : List Ty} {r : Ty} (h : (Ty.fn gs ps r).Whole) : ∀ p ∈ ps, p.Whole := by
  cases h with
  | fn hparams _ => exact hparams
  | running hparams _ => exact hparams

lemma withGenerics {gs : List (Generic Ty)} {ps : List Ty} {r : Ty} (h : (Ty.fn gs ps r).Whole)
    (gs' : List (Generic Ty)) : (Ty.fn gs' ps r).Whole := by
  cases h with
  | fn hparams hresult => exact .fn hparams hresult
  | running hparams i => exact .running hparams i

lemma args {p : Path} {args : List Ty} (h : (Ty.named p args).Whole) : ∀ a ∈ args, a.Whole := by
  cases h with | named hargs => exact hargs

lemma bounds {g : Generic Ty} (h : (Ty.generic g).Whole) : ∀ b ∈ g.bounds, b.Whole := by
  cases h with | generic hbounds => exact hbounds

/-! ### Substitution -/

lemma replace {f : Generic Ty → Ty} (hf : ∀ g, (Ty.generic g).Whole → (f g).Whole) (h : t.Whole) (own : List String) :
    (t.replace f own).Whole := by
  induction h generalizing own with
  | named _ ih =>
    rw [Ty.replace, replaceAll_eq_map]
    exact .named (List.forall_mem_map.mpr fun a ha => ih a ha own)
  | fn _ _ ihps ihr =>
    rw [Ty.replace, replaceAll_eq_map]
    refine .fn (List.forall_mem_map.mpr fun a ha => ihps a ha _) ?_
    split_ifs
    · exact unit
    · exact ihr _
  | running _ i ihps =>
    rw [Ty.replace, replaceAll_eq_map]
    exact .fn (List.forall_mem_map.mpr fun a ha => ihps a ha _) unit
  | generic hbounds _ =>
    rw [Ty.replace]
    split_ifs
    · exact .generic hbounds
    · exact hf _ (.generic hbounds)
  | unknown => exact .unknown
  | closure id arity => exact .closure id arity
  | hole => exact .hole

end Ty.Whole

namespace Bindings

variable {b c : Bindings} {maps : List Bindings} {name : String} {t : Ty}

lemma Whole.empty : Bindings.empty.Whole := by simp [Bindings.Whole, Bindings.empty]

lemma Whole.get (h : b.Whole) (ht : b.get? name = some t) : t.Whole := by
  obtain ⟨front, back, hentries, -⟩ := List.lookup_eq_some_iff.mp ht
  exact h (name, t) (by simp [hentries])

lemma Whole.insert (h : b.Whole) (name : String) (ht : t.Whole) : (b.insert name t).Whole := by
  intro x hx
  obtain hx | hx := mem_insertEntry hx
  · exact hx ▸ ht
  · exact h x hx

lemma Whole.insertIfNew (h : b.Whole) (name : String) (ht : t.Whole) : (b.insertIfNew name t).Whole := by
  rw [Bindings.insertIfNew]
  split_ifs
  · exact h
  · exact h.insert name ht

lemma Whole.underlay (hb : b.Whole) (hc : c.Whole) : (b.underlay c).Whole := by
  rw [Bindings.underlay]
  have hentries := hc
  rw [Bindings.Whole] at hentries
  generalize c.entries = entries at hentries
  induction entries generalizing b with
  | nil => exact hb
  | cons x entries ih =>
    exact ih (hb.insertIfNew x.1 (hentries x (by simp))) fun y hy => hentries y (List.mem_cons_of_mem _ hy)

lemma Whole.lookupIn (h : ∀ b ∈ maps, b.Whole) (ht : Bindings.lookupIn maps name = some t) : t.Whole := by
  induction maps with
  | nil => simp [Bindings.lookupIn] at ht
  | cons b maps ih =>
    rw [Bindings.lookupIn, Option.or_eq_some_iff] at ht
    obtain ht | ⟨-, ht⟩ := ht
    · exact (h b (by simp)).get ht
    · exact ih (fun c hc => h c (List.mem_cons_of_mem _ hc)) ht

lemma Whole.lookupOr (h : ∀ b ∈ maps, b.Whole) (name : String) (ht : t.Whole) :
    ((Bindings.lookupIn maps name).getD t).Whole := by
  cases hget : Bindings.lookupIn maps name with
  | none => exact ht
  | some u => exact Whole.lookupIn h hget

end Bindings

namespace Ty.Whole

variable {t u : Ty} {maps : List Bindings} {acc : Bindings}

lemma substitute (h : t.Whole) (hmaps : ∀ b ∈ maps, b.Whole) : (t.substitute maps).Whole :=
  h.replace (fun g hg => Bindings.Whole.lookupOr hmaps g.name hg) []

lemma substituteOrHole (h : t.Whole) (hmaps : ∀ b ∈ maps, b.Whole) : (t.substituteOrHole maps).Whole :=
  h.replace (fun g _ => Bindings.Whole.lookupOr hmaps g.name .hole) []

lemma unifyInto {param arg : Ty} (hp : param.Whole) (hacc : acc.Whole) (ha : arg.Whole) :
    (Ty.unifyInto acc param arg).Whole := by
  induction hp generalizing acc arg with
  | named _ ih =>
    cases arg with
    | named q args => exact unifyAllInto_keeps ih hacc ha.args
    | _ => exact hacc
  | fn _ _ ihps ihr =>
    cases arg with
    | fn gs qs s =>
      rw [Ty.unifyInto]
      have hall := unifyAllInto_keeps ihps hacc ha.params
      split_ifs
      · exact hall
      · exact ihr hall ha.result
    | _ => exact hacc
  | running _ i ihps =>
    cases arg with
    | fn gs qs s => exact unifyAllInto_keeps ihps hacc ha.params
    | _ => exact hacc
  | generic =>
    rw [Ty.unifyInto]
    split_ifs
    · exact hacc
    · exact hacc.insertIfNew _ ha
  | _ => exact hacc

lemma unify (ht : t.Whole) (hu : u.Whole) : (Ty.unify t u).Whole := hu.unifyInto .empty ht

lemma completeAll_eq_map (known : Nat → Option Ty) (ts : List Ty) : Ty.completeAll known ts = ts.map (Ty.complete known) := by
  induction ts with
  | nil => rfl
  | cons t ts ih => rw [Ty.completeAll, ih, List.map_cons]

lemma complete {known : Nat → Option Ty} (hknown : ∀ i r, known i = some r → r.Whole) (h : t.Whole) :
    (t.complete known).Whole := by
  induction h with
  | named _ ih =>
    rw [Ty.complete, completeAll_eq_map]
    exact .named (List.forall_mem_map.mpr ih)
  | @fn gs ps r _ hresult ihps ihr =>
    have hdone : ∀ i, r ≠ .ongoing i := by
      rintro i rfl
      cases hresult
    rw [Ty.complete.eq_3 _ _ _ _ hdone, completeAll_eq_map]
    exact .fn (List.forall_mem_map.mpr ihps) ihr
  | running _ i ihps =>
    rw [Ty.complete, completeAll_eq_map]
    cases hi : known i with
    | none => exact .running (List.forall_mem_map.mpr ihps) i
    | some r => exact .fn (List.forall_mem_map.mpr ihps) (hknown i r hi)
  | generic hbounds => exact .generic hbounds
  | unknown => exact .unknown
  | closure id arity => exact .closure id arity
  | hole => exact .hole

end Ty.Whole

lemma Ty.isFn_complete (known : Nat → Option Ty) (t : Ty) : (t.complete known).isFn = t.isFn := by
  cases t with
  | fn gs ps r => cases r <;> rfl
  | _ => rfl

/-! ### Bounds -/

namespace Generic

variable {known : List (Generic Ty)}

lemma tieAll_eq_map (known : List (Generic Ty)) (ts : List Ty) : tieAll known ts = ts.map (tie known) := by
  induction ts with
  | nil => rfl
  | cons t ts ih => rw [tieAll, ih, List.map_cons]

lemma whole_filter (hknown : ∀ g ∈ known, (Ty.generic g).Whole) (p : Generic Ty → Bool) :
    ∀ g ∈ known.filter p, (Ty.generic g).Whole := fun g hg => hknown g (List.mem_filter.mp hg).1

lemma whole_tie (hknown : ∀ g ∈ known, (Ty.generic g).Whole) {t : Ty} (h : t.Whole) : (tie known t).Whole := by
  induction h generalizing known with
  | named _ ih =>
    rw [tie, tieAll_eq_map]
    exact .named (List.forall_mem_map.mpr fun a ha => ih a ha hknown)
  | fn _ _ ihps ihr =>
    rw [tie, tieAll_eq_map]
    exact .fn (List.forall_mem_map.mpr fun a ha => ihps a ha (whole_filter hknown _)) (ihr (whole_filter hknown _))
  | running _ i ihps =>
    rw [tie, tieAll_eq_map]
    exact .running (List.forall_mem_map.mpr fun a ha => ihps a ha (whole_filter hknown _)) i
  | @generic g hbounds ih =>
    obtain ⟨name, key, bounds⟩ := g
    rw [tie]
    split
    · next k hk => exact hknown k (List.mem_reverse.mp (List.mem_of_find?_eq_some hk))
    · rw [tieAll_eq_map]
      exact .generic (List.forall_mem_map.mpr fun a ha => ih a ha hknown)
  | unknown => exact .unknown
  | closure id arity => exact .closure id arity
  | hole => exact .hole

lemma whole_tieSiblings {gs : List (Generic Ty)} (h : ∀ g ∈ gs, (Ty.generic g).Whole) (rounds : Nat) :
    ∀ g ∈ tieSiblings gs rounds, (Ty.generic g).Whole := by
  induction rounds with
  | zero => exact h
  | succ n ih =>
    rw [tieSiblings]
    refine List.forall_mem_map.mpr fun g hg => .generic ?_
    rw [tieAll_eq_map]
    exact List.forall_mem_map.mpr fun b hb => whole_tie ih ((h g hg).bounds b hb)

end Generic

end TraitCheck
