import Mathlib.Tactic.Common
import TraitCheck.Ty.Substitution

/-! Types that are compared part by part: what equal types have in common, and what a name is bound to after an argument has
been laid over a parameter. -/

namespace TraitCheck

variable {as bs : List Ty}

lemma Ty.equalAll_length (h : Ty.equalAll as bs = true) : as.length = bs.length := by
  induction as generalizing bs with
  | nil => cases bs <;> first | rfl | cases h
  | cons a as ih =>
    cases bs with
    | nil => cases h
    | cons b bs =>
      rw [Ty.equalAll, Bool.and_eq_true] at h
      simpa using ih h.2

lemma Ty.equal_of_mem_zip {as bs : List Ty} (h : Ty.equalAll as bs = true) : ∀ d ∈ as.zip bs, d.1.equal d.2 = true := by
  induction as generalizing bs with
  | nil => simp
  | cons a as ih =>
    cases bs with
    | nil => simp
    | cons b bs =>
      rw [Ty.equalAll, Bool.and_eq_true] at h
      exact List.forall_mem_cons.mpr ⟨h.1, ih h.2⟩

namespace Bindings

lemma lookup_insertEntry_self (name : String) (t : Ty) (es : List (String × Ty)) :
    (insertEntry name t es).lookup name = some t := by
  induction es with
  | nil => simp [insertEntry]
  | cons e es ih =>
    obtain ⟨n, u⟩ := e
    rw [insertEntry]
    split_ifs with hn hlt
    · simp [hn]
    · simp
    · have hne : (name == n) = false := by simpa using hn
      rw [List.lookup_cons, hne]
      exact ih

lemma lookup_insertEntry_of_ne {name other : String} (h : other ≠ name) (t : Ty) (es : List (String × Ty)) :
    (insertEntry name t es).lookup other = es.lookup other := by
  have hne : (other == name) = false := by simpa using h
  induction es with
  | nil => simp [insertEntry, List.lookup_cons, hne]
  | cons e es ih =>
    obtain ⟨n, u⟩ := e
    rw [insertEntry]
    split_ifs with hn hlt
    · subst hn
      simp [List.lookup_cons, hne]
    · rw [List.lookup_cons, hne]
    · rw [List.lookup_cons, List.lookup_cons, ih]

@[simp] lemma get?_empty (name : String) : empty.get? name = none := rfl

lemma get?_insertIfNew_of_none {b : Bindings} {name : String} (h : b.get? name = none) (t : Ty) :
    (b.insertIfNew name t).get? name = some t := by
  rw [insertIfNew, h, if_neg (by simp)]
  exact lookup_insertEntry_self name t b.entries

lemma get?_insertIfNew_of_ne (b : Bindings) {name other : String} (h : other ≠ name) (t : Ty) :
    (b.insertIfNew name t).get? other = b.get? other := by
  rw [insertIfNew]
  split_ifs
  · rfl
  · exact lookup_insertEntry_of_ne h t b.entries

def Extends (c b : Bindings) : Prop := ∀ name t, b.get? name = some t → c.get? name = some t

lemma Extends.refl (b : Bindings) : b.Extends b := fun _ _ h => h

lemma Extends.trans {b c d : Bindings} (hd : d.Extends c) (hc : c.Extends b) : d.Extends b :=
  fun name t h => hd name t (hc name t h)

lemma insertIfNew_extends (b : Bindings) (name : String) (t : Ty) : (b.insertIfNew name t).Extends b := by
  intro other u h
  by_cases hother : other = name
  · subst hother
    rwa [insertIfNew, h, if_pos Option.isSome_some]
  · rwa [get?_insertIfNew_of_ne b hother]

end Bindings

namespace Ty

mutual

lemma unifyInto_extends (acc : Bindings) (param arg : Ty) : (unifyInto acc param arg).Extends acc := by
  cases param with
  | generic g =>
    rw [unifyInto]
    split_ifs
    · exact .refl acc
    · exact acc.insertIfNew_extends g.name arg
  | named _ params =>
    cases arg with
    | named _ args =>
      rw [unifyInto]
      exact unifyAllInto_extends acc params args
    | _ => exact .refl acc
  | fn _ params r =>
    cases arg with
    | fn _ args s =>
      rw [unifyInto]
      have hparams := unifyAllInto_extends acc params args
      split_ifs
      · exact hparams
      · exact (unifyInto_extends _ r s.resultOf).trans hparams
    | _ => exact .refl acc
  | _ => exact .refl acc

lemma unifyAllInto_extends (acc : Bindings) (params args : List Ty) : (unifyAllInto acc params args).Extends acc := by
  match params, args with
  | p :: ps, a :: as =>
    rw [unifyAllInto]
    exact (unifyAllInto_extends _ ps as).trans (unifyInto_extends acc p a)
  | [], _ => exact .refl acc
  | _ :: _, [] => exact .refl acc

end

lemma unifyInto_hole (acc : Bindings) (param : Ty) : unifyInto acc param .hole = acc := by cases param <;> rfl

lemma unifyAllInto_nil (acc : Bindings) (params : List Ty) : unifyAllInto acc params [] = acc := by cases params <;> rfl

lemma unifyAllInto_holes (acc : Bindings) (params : List Ty) (n : Nat) : unifyAllInto acc params (holes n) = acc := by
  induction params generalizing n with
  | nil => rfl
  | cons p ps ih =>
    cases n with
    | zero => rfl
    | succ n =>
      rw [holes, List.replicate_succ, unifyAllInto, unifyInto_hole]
      exact ih n

mutual

/-- The names of the generics of a type, with repetitions. -/
def mentions : Ty → List String
  | .generic g => [g.name]
  | .named _ args => mentionsAll args
  | .fn _ ps r => mentionsAll ps ++ (if r.isPending then [] else mentions r)
  | _ => []

def mentionsAll : List Ty → List String
  | [] => []
  | t :: ts => mentions t ++ mentionsAll ts

end

mutual

lemma get?_unifyInto {name : String} (acc : Bindings) (param arg : Ty) (h : name ∉ param.mentions) :
    (unifyInto acc param arg).get? name = acc.get? name := by
  cases param with
  | generic g =>
    rw [unifyInto]
    split_ifs
    · rfl
    · exact acc.get?_insertIfNew_of_ne (by simpa [mentions] using h) arg
  | named _ params =>
    cases arg with
    | named _ args => exact get?_unifyAllInto acc params args h
    | _ => rfl
  | fn _ params r =>
    rw [mentions, List.mem_append, not_or] at h
    cases arg with
    | fn _ args s =>
      have hparams := get?_unifyAllInto acc params args h.1
      rw [unifyInto]
      split_ifs with hr
      · exact hparams
      · rw [if_neg hr] at h
        exact (get?_unifyInto _ r s.resultOf h.2).trans hparams
    | _ => rfl
  | _ => rfl

lemma get?_unifyAllInto {name : String} (acc : Bindings) (params args : List Ty) (h : name ∉ mentionsAll params) :
    (unifyAllInto acc params args).get? name = acc.get? name := by
  match params, args with
  | p :: ps, a :: as =>
    rw [mentionsAll, List.mem_append, not_or] at h
    rw [unifyAllInto, get?_unifyAllInto _ ps as h.2]
    exact get?_unifyInto acc p a h.1
  | [], _ => rfl
  | _ :: _, [] => rfl

end

lemma get?_unifyInto_rest {acc : Bindings} {param : Ty} {params : List Ty} (hnodup : (mentionsAll (param :: params)).Nodup)
    (hnew : ∀ name ∈ mentionsAll (param :: params), acc.get? name = none) (arg : Ty) :
    ∀ name ∈ mentionsAll params, (unifyInto acc param arg).get? name = none := by
  intro name hname
  obtain ⟨-, -, hdisjoint⟩ := List.nodup_append.mp hnodup
  rw [get?_unifyInto acc param arg fun hmem => hdisjoint name hmem name hname rfl]
  exact hnew name (List.mem_append_right _ hname)

lemma exists_of_mem_mentionsAll {name : String} {ts : List Ty} (h : name ∈ mentionsAll ts) : ∃ t ∈ ts, name ∈ t.mentions := by
  induction ts with
  | nil => cases h
  | cons t ts ih =>
    obtain h | h := List.mem_append.mp h
    · exact ⟨t, by simp, h⟩
    · obtain ⟨u, hu, hname⟩ := ih h
      exact ⟨u, List.mem_cons_of_mem _ hu, hname⟩

end Ty

end TraitCheck
