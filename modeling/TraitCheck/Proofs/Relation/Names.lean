import Mathlib.Data.Set.Function
import TraitCheck.Proofs.Relation.Chain
import TraitCheck.Proofs.Ty.Parts

/-! The paths that come up when a question is answered are those in the question and in the relations. -/

namespace TraitCheck

variable {names : Set Path}

/-- Types in which no other paths occur than those given. -/
inductive Ty.Within (names : Set Path) : Ty → Prop
  | named {p : Path} {args : List Ty} (hp : p ∈ names) (hargs : ∀ a ∈ args, Within names a) :
      Within names (.named p args)
  | fn {gs : List (Generic Ty)} {ps : List Ty} {r : Ty} (hps : ∀ p ∈ ps, Within names p) (hr : Within names r) :
      Within names (.fn gs ps r)
  | generic {g : Generic Ty} (hb : ∀ b ∈ g.bounds, Within names b) : Within names (.generic g)
  | unknown : Within names .unknown
  | closure (i n : Nat) : Within names (.closure i n)
  | hole : Within names .hole
  | absent : Within names .absent
  | ongoing (i : Nat) : Within names (.ongoing i)

structure Relation.Within (names : Set Path) (r : Relation) : Prop where
  path : r.path ∈ names
  args : ∀ a ∈ r.args, a.Within names
  forType : r.forType.Within names
  bounds : ∀ g ∈ r.generics, ∀ b ∈ g.bounds, b.Within names

def Bindings.Within (names : Set Path) (b : Bindings) : Prop := ∀ e ∈ b.entries, e.2.Within names

def QuestionsWithin (names : Set Path) (ds : List (Ty × Ty)) : Prop :=
  ∀ d ∈ ds, d.1.Within names ∧ d.2.Within names

/-! ### Substitution -/

variable {t : Ty}

lemma Ty.Within.resultOf (hunit : Ty.unitPath ∈ names) (h : t.Within names) : t.resultOf.Within names := by
  cases h with
  | absent | ongoing => exact .named hunit (by simp)
  | named hp hargs => exact .named hp hargs
  | fn hps hr => exact .fn hps hr
  | generic hb => exact .generic hb
  | unknown => exact .unknown
  | closure i n => exact .closure i n
  | hole => exact .hole

lemma Ty.Within.replace (hunit : Ty.unitPath ∈ names) {f : Generic Ty → Ty}
    (hf : ∀ g : Generic Ty, (∀ b ∈ g.bounds, b.Within names) → (f g).Within names) (h : t.Within names)
    (own : List String) : (t.replace f own).Within names := by
  induction h generalizing own with
  | named hp hargs ih =>
    rw [Ty.replace, replaceAll_eq_map]
    exact .named hp (List.forall_mem_map.mpr fun a ha => ih a ha own)
  | fn hps hr ihps ihr =>
    rw [Ty.replace, replaceAll_eq_map]
    refine .fn (List.forall_mem_map.mpr fun a ha => ihps a ha _) ?_
    split_ifs
    · exact .named hunit (by simp)
    · exact ihr _
  | generic hb ih =>
    rw [Ty.replace]
    split_ifs
    · exact .generic hb
    · exact hf _ hb
  | unknown => exact .unknown
  | closure i n => exact .closure i n
  | hole => exact .hole
  | absent => exact .absent
  | ongoing i => exact .ongoing i

lemma Bindings.Within.get {b : Bindings} (h : b.Within names) {n : String} (ht : b.get? n = some t) :
    t.Within names := by
  obtain ⟨l₁, l₂, he, -⟩ := List.lookup_eq_some_iff.mp ht
  exact h (n, t) (by simp [he])

lemma mem_insertEntry {n : String} {es : List (String × Ty)} {e : String × Ty}
    (h : e ∈ Bindings.insertEntry n t es) : e.2 = t ∨ e ∈ es := by
  induction es with
  | nil => simp_all [Bindings.insertEntry]
  | cons d es ih =>
    obtain ⟨m, u⟩ := d
    rw [Bindings.insertEntry] at h
    split_ifs at h <;> simp only [List.mem_cons] at h ⊢ <;> grind

lemma Bindings.Within.insertIfNew {b : Bindings} (h : b.Within names) (ht : t.Within names) (n : String) :
    (b.insertIfNew n t).Within names := by
  rw [Bindings.insertIfNew]
  split_ifs
  · exact h
  · intro e he
    rcases mem_insertEntry he with rfl | he
    · exact ht
    · exact h e he

lemma Ty.unifyAllInto_keeps {P : Bindings → Prop} {Q : Ty → Prop} {params : List Ty}
    (hparams : ∀ p ∈ params, ∀ {acc : Bindings} {arg : Ty}, P acc → Q arg → P (Ty.unifyInto acc p arg)) {acc : Bindings}
    {args : List Ty} (hacc : P acc) (hargs : ∀ a ∈ args, Q a) : P (Ty.unifyAllInto acc params args) := by
  induction params generalizing acc args with
  | nil => simpa [Ty.unifyAllInto] using hacc
  | cons p ps ih =>
    cases args with
    | nil => simpa [Ty.unifyAllInto] using hacc
    | cons a as =>
      rw [Ty.unifyAllInto]
      refine ih (fun q hq => hparams q (List.mem_cons_of_mem _ hq)) ?_ fun a ha => hargs a (List.mem_cons_of_mem _ ha)
      exact hparams p (by simp) hacc (hargs a (by simp))

lemma Ty.Within.unifyInto (hunit : Ty.unitPath ∈ names) {param : Ty} (hp : param.Within names) {acc : Bindings}
    {arg : Ty} (hacc : acc.Within names) (ha : arg.Within names) : (Ty.unifyInto acc param arg).Within names := by
  induction hp generalizing acc arg with
  | named _ _ ih =>
    cases ha with
    | named _ hargs => exact Ty.unifyAllInto_keeps ih hacc hargs
    | _ => exact hacc
  | @fn gs ps r _ _ ihps ihr =>
    cases ha with
    | fn hps hr =>
      rw [Ty.unifyInto]
      have hall := Ty.unifyAllInto_keeps ihps hacc hps
      split_ifs
      · exact hall
      · exact ihr hall (hr.resultOf hunit)
    | _ => exact hacc
  | generic =>
    rw [Ty.unifyInto]
    split_ifs
    · exact hacc
    · exact hacc.insertIfNew ha _
  | _ => exact hacc

lemma Ty.Within.unify (hunit : Ty.unitPath ∈ names) {param : Ty} (ht : t.Within names) (hp : param.Within names) :
    (Ty.unify t param).Within names :=
  hp.unifyInto hunit (by simp [Bindings.Within, Bindings.empty]) ht

lemma Ty.Within.substitute (hunit : Ty.unitPath ∈ names) (ht : t.Within names) {b : Bindings}
    (hb : b.Within names) : (t.substitute [b]).Within names := by
  refine ht.replace hunit (fun g hg => ?_) []
  cases hget : b.get? g.name with
  | none => simpa [Bindings.lookupIn, hget] using .generic hg
  | some u => simpa [Bindings.lookupIn, hget] using hb.get hget

lemma Ty.Within.substituteOrHole (hunit : Ty.unitPath ∈ names) (ht : t.Within names) {b : Bindings}
    (hb : b.Within names) : (t.substituteOrHole [b]).Within names := by
  refine ht.replace hunit (fun g hg => ?_) []
  cases hget : b.get? g.name with
  | none => simpa [Bindings.lookupIn, hget] using .hole
  | some u => simpa [Bindings.lookupIn, hget] using hb.get hget

/-! ### Relations and chains -/

/-- Paths that are told apart by their texts, and that are closed under what the relations mention. -/
structure Faithful (names : Set Path) (rels : List Relation) : Prop where
  injOn : Set.InjOn Path.render names
  unit : Ty.unitPath ∈ names
  relations : ∀ r ∈ rels, r.Within names

def Chain.Within (names : Set Path) (c : Chain) : Prop := ∀ r ∈ c, r.Within names

lemma zip_within {ts us : List Ty} (ht : ∀ t ∈ ts, t.Within names) (hu : ∀ u ∈ us, u.Within names) :
    QuestionsWithin names (ts.zip us) := by
  intro d hd
  exact ⟨ht _ (List.of_mem_zip hd).1, hu _ (List.of_mem_zip hd).2⟩

section Relations

variable (hunit : Ty.unitPath ∈ names)
include hunit

lemma Relation.Within.view {r : Relation} (hr : r.Within names) {t : Ty} (ht : t.Within names) :
    (r.view t).Within names :=
  (Ty.Within.named hr.path hr.args).substituteOrHole hunit (ht.unify hunit hr.forType)

lemma Relation.Within.demands {r : Relation} (hr : r.Within names) {b : Bindings} (hb : b.Within names) :
    QuestionsWithin names (r.demands b) := by
  intro d hd
  obtain ⟨g, hg, hd⟩ := List.mem_flatMap.mp hd
  cases hget : b.get? g.name with
  | none => simp [hget] at hd
  | some value =>
    rw [hget] at hd
    obtain ⟨bound, hbound, rfl⟩ := List.mem_map.mp hd
    exact ⟨hb.get hget, (hr.bounds g hg bound hbound).substitute hunit hb⟩

lemma Chain.Within.view {c : Chain} (hc : c.Within names) {t super : Ty} (ht : t.Within names)
    (h : c.view t = some super) : super.Within names := by
  induction c generalizing t with
  | nil =>
    cases h
    exact ht
  | cons r c ih =>
    rw [Chain.view] at h
    split_ifs at h
    exact ih (fun s hs => hc s (List.mem_cons_of_mem _ hs)) ((hc r (by simp)).view hunit ht) h

lemma Chain.Within.demands {c : Chain} (hc : c.Within names) {t : Ty} (ht : t.Within names) :
    QuestionsWithin names (c.demands t) := by
  induction c generalizing t with
  | nil => simp [Chain.demands, QuestionsWithin]
  | cons r c ih =>
    have hr := hc r (by simp)
    rw [Chain.demands]
    split_ifs
    · refine List.forall_mem_append.mpr ⟨hr.demands hunit (ht.unify hunit hr.forType), ?_⟩
      exact ih (fun s hs => hc s (List.mem_cons_of_mem _ hs)) (hr.view hunit ht)
    · simp [QuestionsWithin]

lemma partQuestions_within {t target : Ty} (ht : t.Within names) (hu : target.Within names) {ds : List (Ty × Ty)}
    (h : ds ∈ partQuestions t target) : QuestionsWithin names ds := by
  cases ht with
  | generic hb =>
    obtain ⟨b, hmem, rfl⟩ := List.mem_map.mp h
    simpa [QuestionsWithin] using ⟨hb b hmem, hu⟩
  | named _ hargs =>
    cases hu with
    | named _ hbs =>
      rw [partQuestions] at h
      split_ifs at h
      · obtain rfl := List.mem_singleton.mp h
        exact zip_within hargs hbs
      · simp at h
    | _ => simp [partQuestions] at h
  | fn hps hr =>
    cases hu with
    | fn hqs hs =>
      rw [partQuestions] at h
      split_ifs at h
      · obtain rfl := List.mem_singleton.mp h
        refine List.forall_mem_append.mpr ⟨zip_within hqs hps, ?_⟩
        simpa using ⟨hr.resultOf hunit, hs.resultOf hunit⟩
      · simp at h
    | _ => simp [partQuestions] at h
  | _ => simp [partQuestions] at h

lemma questions_within {t target : Ty} (ht : t.Within names) (hu : target.Within names) {ds : List (Ty × Ty)}
    (h : ds ∈ questions t target) : QuestionsWithin names ds := by
  cases target with
  | generic g =>
    rw [questions] at h
    split_ifs at h
    · exact partQuestions_within hunit ht hu h
    · obtain rfl := List.mem_singleton.mp h
      cases hu with
      | generic hb => exact List.forall_mem_map.mpr fun b hmem => ⟨ht, hb b hmem⟩
  | _ => exact partQuestions_within hunit ht hu h

end Relations

/-! ### All paths -/

lemma Ty.within_univ : (t : Ty) → t.Within Set.univ
  | .named _ args => .named trivial fun a _ => within_univ a
  | .fn _ ps r => .fn (fun p _ => within_univ p) (within_univ r)
  | .generic ⟨_, _, bounds⟩ => .generic fun b _ => within_univ b
  | .unknown => .unknown
  | .closure i n => .closure i n
  | .hole => .hole
  | .absent => .absent
  | .ongoing i => .ongoing i

lemma Relation.within_univ (r : Relation) : r.Within Set.univ :=
  ⟨trivial, fun a _ => a.within_univ, r.forType.within_univ, fun _ _ b _ => b.within_univ⟩

end TraitCheck
