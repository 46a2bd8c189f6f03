import Mathlib.Logic.Relation
import TraitCheck.Proofs.Relation.Search

/-! Programs in which nothing has type arguments. What fits what there is reachability in a graph. -/

namespace TraitCheck

variable {rels : List Relation}

/-- An impl for a declared type, or for every type that fits at most one bound. -/
structure Relation.Plain (r : Relation) : Prop where
  args : r.args = []
  trait : r.path ≠ Ty.neverPath
  shape : (∃ x, r.forType = .named x [] ∧ r.generics = []) ∨
    ∃ g, r.forType = .generic g ∧ r.generics = [g] ∧ (g.bounds = [] ∨ ∃ b, g.bounds = [.named b []])

structure Plain (rels : List Relation) : Prop where
  distinct : (rels.map (·.id)).Nodup
  impls : ∀ r ∈ rels, r.isImpl = true → r.Plain

/-- The paths that an impl is a step from. -/
inductive Relation.From (r : Relation) : Path → Prop
  | type {x : Path} (h : r.forType = .named x []) : From r x
  | bound {g : Generic Ty} {b : Path} (h : r.forType = .generic g) (hb : g.bounds = [.named b []]) : From r b
  | every {g : Generic Ty} (h : r.forType = .generic g) (hb : g.bounds = []) (y : Path) : From r y

def Edge (rels : List Relation) (x a : Path) : Prop := ∃ r ∈ rels, r.isImpl = true ∧ r.From x ∧ r.path = a

def Reaches (rels : List Relation) (a b : Path) : Prop :=
  a = Ty.neverPath ∨ a = b ∨ Relation.TransGen (Edge rels) a b

/-! ### Steps -/

lemma fits_named {p q : Path} :
    (Ty.named p []).fits? (.named q []) = if p = Ty.neverPath ∨ p = q then some true else none := by
  simp [Ty.fits?, Ty.absorbs, Ty.isNever, Ty.equal, Ty.equalAll]

namespace Relation

variable {r : Relation} {p : Path}

lemma Plain.view (h : r.Plain) (p : Path) : r.view (.named p []) = .named r.path [] := by
  rw [Relation.view, Relation.target, h.args]
  rfl

lemma demands_of_generic {g : Generic Ty} (h : r.forType = .generic g) (hg : r.generics = [g]) :
    r.demands (Ty.unify (.named p []) r.forType) =
      g.bounds.map fun b => (.named p [], b.substitute [Ty.unify (.named p []) r.forType]) := by
  simp [Relation.demands, h, hg, Ty.unify, Ty.unifyInto, Ty.absorbs, Bindings.insertIfNew, Bindings.get?,
    Bindings.empty, Bindings.insert, Bindings.insertEntry]

lemma Plain.cases (h : r.Plain) (hm : r.matches (.named p []) = true) :
    r.demands (Ty.unify (.named p []) r.forType) = [] ∧ r.From p ∨
      ∃ b, r.demands (Ty.unify (.named p []) r.forType) = [(.named p [], .named b [])] ∧ r.From b := by
  rcases h.shape with ⟨x, hx, hg⟩ | ⟨g, hf, hg, hb | ⟨b, hb⟩⟩
  · obtain rfl : p = x := by simpa [Relation.matches, Relation.isBlanket, Relation.forPath, Ty.path?, hx] using hm
    exact Or.inl ⟨by simp [Relation.demands, hg], .type hx⟩
  · exact Or.inl ⟨by rw [demands_of_generic hf hg, hb, List.map_nil], .every hf hb p⟩
  · exact Or.inr ⟨b, by rw [demands_of_generic hf hg, hb]; rfl, .bound hf hb⟩

lemma From.matches (h : r.From p) : r.matches (.named p []) = true := by
  cases h with
  | type h => simp [Relation.matches, Relation.forPath, h, Ty.path?]
  | bound h | every h => simp [Relation.matches, Relation.isBlanket, h]

lemma From.fits (hr : r.Plain) (h : r.From p) :
    ∀ d ∈ r.demands (Ty.unify (.named p []) r.forType), d.1.fits? d.2 = some true := by
  rcases hr.shape with ⟨x, -, hg⟩ | ⟨g, hf, hg, -⟩
  · simp [Relation.demands, hg]
  · rw [demands_of_generic hf hg]
    cases h with
    | type h => simp [h] at hf
    | bound h hb =>
      obtain rfl : _ = g := Ty.generic.inj (h.symm.trans hf)
      simp [hb, Ty.substitute, Ty.replace, Ty.replaceAll, fits_named]
    | every h hb =>
      obtain rfl : _ = g := Ty.generic.inj (h.symm.trans hf)
      simp [hb]

end Relation

/-! ### Trails -/

inductive Trail (rels : List Relation) : Path → Chain → Path → Prop
  | last {p : Path} {r : Relation} (hr : r ∈ rels) (hi : r.isImpl = true) (hf : r.From p) : Trail rels p [r] r.path
  | cons {p q : Path} {r : Relation} {c : Chain} (hr : r ∈ rels) (hi : r.isImpl = true) (hf : r.From p)
      (h : Trail rels r.path c q) : Trail rels p (r :: c) q

namespace Trail

variable {p q : Path} {c : Chain}

lemma impls (h : Trail rels p c q) : ∀ r ∈ c, r ∈ rels ∧ r.isImpl = true := by
  induction h with
  | last hr hi => simpa using ⟨hr, hi⟩
  | cons hr hi _ _ ih => simpa using ⟨⟨hr, hi⟩, ih⟩

lemma ne_nil (h : Trail rels p c q) : c ≠ [] := by
  cases h <;> simp

lemma endsAt (h : Trail rels p c q) : c.EndsAt q := by
  induction h with
  | last => exact ⟨_, rfl, rfl⟩
  | cons _ _ _ h ih =>
    obtain ⟨r, hlast, hr⟩ := ih
    exact ⟨r, by rw [List.getLast?_cons_of_ne_nil h.ne_nil, hlast], hr⟩

lemma view (hp : Plain rels) (h : Trail rels p c q) : c.view (.named p []) = some (.named q []) := by
  induction h with
  | last hr hi hf => simp [Chain.view, hf.matches, (hp.impls _ hr hi).view]
  | cons hr hi hf _ ih => simpa [Chain.view, hf.matches, (hp.impls _ hr hi).view] using ih

lemma fits (hp : Plain rels) (h : Trail rels p c q) : ∀ d ∈ c.demands (.named p []), d.1.fits? d.2 = some true := by
  induction h with
  | last hr hi hf => simpa [Chain.demands, hf.matches] using hf.fits (hp.impls _ hr hi)
  | cons hr hi hf _ ih =>
    rw [Chain.demands, if_pos hf.matches, (hp.impls _ hr hi).view]
    exact List.forall_mem_append.mpr ⟨hf.fits (hp.impls _ hr hi), ih⟩

lemma suffix (h : Trail rels p c q) {r : Relation} (hr : r ∈ c) {p' : Path} (hf : r.From p') :
    ∃ c', Trail rels p' (r :: c') q ∧ r :: c' <:+ c := by
  induction h with
  | last hr' hi =>
    obtain rfl := List.mem_singleton.mp hr
    exact ⟨[], .last hr' hi hf, List.suffix_refl _⟩
  | @cons _ _ s c hr' hi _ h ih =>
    rcases List.mem_cons.mp hr with rfl | hr
    · exact ⟨c, .cons hr' hi hf h, List.suffix_refl _⟩
    · obtain ⟨c', hc', hsuffix⟩ := ih hr
      exact ⟨c', hc', hsuffix.trans (List.suffix_cons s c)⟩

end Trail

lemma exists_trail (hp : Plain rels) {p q : Path} (h : Relation.TransGen (Edge rels) p q) :
    ∃ c, Trail rels p c q ∧ (c.map (·.id)).Nodup := by
  induction h using Relation.TransGen.head_induction_on with
  | single h =>
    obtain ⟨r, hr, hi, hf, rfl⟩ := h
    exact ⟨[r], .last hr hi hf, by simp⟩
  | head h _ ih =>
    obtain ⟨r, hr, hi, hf, rfl⟩ := h
    obtain ⟨c, hc, hnodup⟩ := ih
    by_cases hmem : r.id ∈ c.map (·.id)
    -- the trail goes on from where it used this impl later
    · obtain ⟨r', hr', hid⟩ := List.mem_map.mp hmem
      obtain rfl : r' = r := List.inj_on_of_nodup_map hp.distinct (hc.impls r' hr').1 hr hid
      obtain ⟨c', hc', hsuffix⟩ := hc.suffix hr' hf
      exact ⟨r' :: c', hc', hnodup.sublist (hsuffix.sublist.map _)⟩
    · exact ⟨r :: c, .cons hr hi hf hc, List.nodup_cons.mpr ⟨hmem, hnodup⟩⟩

/-! ### Answers -/

lemma HoldsIn.of_fits {depth : Nat} {asked : List String} {t u : Ty} (h : t.fits? u = some true) :
    HoldsIn rels depth asked t u := by
  cases depth with
  | zero => exact h
  | succ depth => exact Or.inl h

lemma Reaches.holdsIn (hp : Plain rels) {a b : Path} (h : Reaches rels a b) (depth : Nat) :
    HoldsIn rels (depth + 1) [] (.named a []) (.named b []) := by
  by_cases hab : a = Ty.neverPath ∨ a = b
  · exact .of_fits (fits_named.trans (if_pos hab))
  · obtain ⟨c, hc, hnodup⟩ := exists_trail hp ((h.resolve_left (hab ∘ .inl)).resolve_left (hab ∘ .inr))
    -- along a trail every bound is the path itself, so that no question is left at any depth
    have hd : Met (HoldsIn rels depth [question (.named a []) (.named b [])]) (c.demands (.named a [])) :=
      fun d hmem => .of_fits (hc.fits hp d hmem)
    refine Or.inr ⟨fits_named.trans (if_neg hab), List.not_mem_nil, .chain (c := c) (hab ∘ .inr) ?_ ?_⟩
    · exact ⟨⟨hc.ne_nil, hc.impls, hnodup⟩, by simp [hc.view hp], hd⟩
    · exact ⟨hc.endsAt, .named b [], hc.view hp, hd, .of_fits (fits_named.trans (if_pos (Or.inr rfl)))⟩

lemma reaches_of_step (hp : Plain rels) {r : Relation} (hr : r ∈ rels) (hi : r.isImpl = true) {a : Path}
    (hm : r.matches (.named a []) = true)
    (hd : Met (fun t u => ∀ x b, t = .named x [] → u = .named b [] → Reaches rels x b)
      (r.demands (Ty.unify (.named a []) r.forType))) :
    a = Ty.neverPath ∨ Relation.TransGen (Edge rels) a r.path := by
  rcases (hp.impls r hr hi).cases hm with ⟨-, hf⟩ | ⟨b, hdemands, hf⟩
  · exact Or.inr (.single ⟨r, hr, hi, hf, rfl⟩)
  · rcases hd (.named a [], .named b []) (by simp [hdemands]) a b rfl rfl with hnever | rfl | hab
    · exact Or.inl hnever
    · exact Or.inr (.single ⟨r, hr, hi, hf, rfl⟩)
    · exact Or.inr (.tail hab ⟨r, hr, hi, hf, rfl⟩)

lemma reaches_of_chain (hp : Plain rels) {c : Chain} (hi : ∀ r ∈ c, r ∈ rels ∧ r.isImpl = true) {a : Path}
    (hview : (c.view (.named a [])).isSome = true)
    (hd : Met (fun t u => ∀ x b, t = .named x [] → u = .named b [] → Reaches rels x b) (c.demands (.named a [])))
    {q : Path} (hend : c.EndsAt q) : a = Ty.neverPath ∨ Relation.TransGen (Edge rels) a q := by
  induction c generalizing a with
  | nil =>
    obtain ⟨r, hr, -⟩ := hend
    cases hr
  | cons r c ih =>
    have hm : r.matches (.named a []) = true := by
      by_contra hm
      simp [Chain.view, hm] at hview
    obtain ⟨hr, himpl⟩ := hi r (by simp)
    have hplain := hp.impls r hr himpl
    rw [Chain.demands, if_pos hm, hplain.view, met_append] at hd
    rw [Chain.view, if_pos hm, hplain.view] at hview
    refine (reaches_of_step hp hr himpl hm hd.1).imp_right fun hstep => ?_
    cases c with
    | nil =>
      obtain ⟨s, hs, rfl⟩ := hend
      obtain rfl : r = s := by simpa using hs
      exact hstep
    | cons s c =>
      obtain ⟨l, hl, hq⟩ := hend
      have hrest := ih (fun s hs => hi s (List.mem_cons_of_mem _ hs)) hview hd.2 ⟨l, by simpa using hl, hq⟩
      exact hstep.trans (hrest.resolve_left hplain.trait)

lemma Holds.reaches (hp : Plain rels) {t u : Ty} (h : Holds rels t u) :
    ∀ a b, t = .named a [] → u = .named b [] → Reaches rels a b := by
  induction h with
  | fits h =>
    rintro a b rfl rfl
    rw [fits_named] at h
    split_ifs at h with hab
    exact hab.imp_right Or.inl
  | parts h hd =>
    rintro a b rfl rfl
    have hab : a = b := by
      by_contra hab
      simp [questions, partQuestions, hab] at h
    exact Or.inr (Or.inl hab)
  | chain _ hc _ _ hend hview _ _ _ ihd =>
    rintro a b ⟨⟩ ⟨⟩
    exact (reaches_of_chain hp hc.impls (by simp [hview]) ihd hend).imp_right Or.inr

lemma Plain.mem_demands (hp : Plain rels) {c : Chain} (hi : ∀ r ∈ c, r ∈ rels ∧ r.isImpl = true) {a : Path}
    {d : Ty × Ty} (hd : d ∈ c.demands (.named a [])) : ∃ x b, d = (.named x [], .named b []) := by
  induction c generalizing a with
  | nil => cases hd
  | cons r c ih =>
    obtain ⟨hr, himpl⟩ := hi r (by simp)
    have hplain := hp.impls r hr himpl
    rw [Chain.demands] at hd
    split_ifs at hd with hm
    · rw [hplain.view] at hd
      rcases List.mem_append.mp hd with hd | hd
      · rcases hplain.cases hm with ⟨hnil, -⟩ | ⟨b, hdemands, -⟩
        · simp [hnil] at hd
        · exact ⟨a, b, by simpa [hdemands] using hd⟩
      · exact ih (fun s hs => hi s (List.mem_cons_of_mem _ hs)) hd
    · cases hd

lemma Plain.shallow (hp : Plain rels) (names : Set Path) : Shallow rels names := by
  intro p _ c hc d hd hh
  obtain ⟨x, b, rfl⟩ := hp.mem_demands hc.impls hd
  exact (hh.reaches hp x b rfl rfl).holdsIn hp 63

/-! ### Any history -/

section Run

variable {s : State} {names : Set Path} (hs : s.Fresh) (hp : Plain s.relations) (hn : Faithful names s.relations)
  {history : List Query} (hq : ∀ q ∈ history, q.Within names) {a b : Path} (ha : a ∈ names) (hb : b ∈ names)
include hs hp hn hq ha hb

lemma exists_answer :
    ∃ answer, ((Check.isAssignable (.named a []) (.named b [])).run (s.after history)).1 = .ok answer ∧
      (answer = true ↔ Reaches s.relations a b) := by
  have hta : (Ty.named a []).Within names := .named ha (by simp)
  have htb : (Ty.named b []).Within names := .named hb (by simp)
  refine ⟨_, run_isAssignable hs hn (hp.shallow names) hq hta htb, fun h => ?_, fun h => ?_⟩
  · have hholds := (closed_holds hn).assignBy_sound (fun p hp c => (mem_idealAt hn hp).mp) hta htb h
    exact hholds.reaches hp a b rfl rfl
  · exact assignBy_of_holdsIn hn hta htb (h.holdsIn hp 63) (List.Subset.refl _)

lemma run_eq_true : ((Check.isAssignable (.named a []) (.named b [])).run (s.after history)).1 = .ok true ↔
    Reaches s.relations a b := by
  obtain ⟨answer, hrun, hanswer⟩ := exists_answer hs hp hn hq ha hb
  rw [hrun, ← hanswer, Except.ok.injEq]

end Run

lemma Reaches.trans (hp : Plain rels) {a b c : Path} (hab : Reaches rels a b) (hbc : Reaches rels b c) :
    Reaches rels a c := by
  rcases hab with hnever | rfl | hab
  · exact Or.inl hnever
  · exact hbc
  · rcases hbc with hnever | rfl | hbc
    · obtain ⟨_, _, r, hr, hi, _, hpath⟩ := Relation.TransGen.tail'_iff.mp hab
      exact absurd (hpath.trans hnever) (hp.impls r hr hi).trait
    · exact Or.inr (Or.inr hab)
    · exact Or.inr (Or.inr (hab.trans hbc))

theorem isAssignable_iff_reaches {s : State} (hs : s.Fresh) (hp : Plain s.relations) {names : Set Path}
    (hn : Faithful names s.relations) {history : List Query} (hq : ∀ q ∈ history, q.Within names) :
    (∀ a ∈ names, ∀ b ∈ names,
      ∃ answer, ((Check.isAssignable (.named a []) (.named b [])).run (s.after history)).1 = .ok answer ∧
        (answer = true ↔ a = Ty.neverPath ∨ a = b ∨ Relation.TransGen (Edge s.relations) a b)) ∧
    (∀ a ∈ names, ((Check.isAssignable (.named a []) (.named a [])).run (s.after history)).1 = .ok true) ∧
    ∀ a ∈ names, ∀ b ∈ names, ∀ c ∈ names,
      ((Check.isAssignable (.named a []) (.named b [])).run (s.after history)).1 = .ok true →
      ((Check.isAssignable (.named b []) (.named c [])).run (s.after history)).1 = .ok true →
      ((Check.isAssignable (.named a []) (.named c [])).run (s.after history)).1 = .ok true := by
  refine ⟨fun a ha b hb => exists_answer hs hp hn hq ha hb, fun a ha => ?_, fun a ha b hb c hc hab hbc => ?_⟩
  · exact (run_eq_true hs hp hn hq ha ha).mpr (Or.inr (Or.inl rfl))
  · have hab := (run_eq_true hs hp hn hq ha hb).mp hab
    have hbc := (run_eq_true hs hp hn hq hb hc).mp hbc
    exact (run_eq_true hs hp hn hq ha hc).mpr (hab.trans hp hbc)

namespace Shapes

def names : Set Path := { p | p ∈ [Ty.unitPath, circle, point, shape, shown] }

lemma plain : Plain state.relations where
  distinct := by decide
  impls := by
    intro r hr _
    change r ∈ relations at hr
    simp only [relations, List.mem_cons, List.not_mem_nil, or_false] at hr
    rcases hr with rfl | rfl | rfl
    · exact ⟨rfl, by decide, Or.inl ⟨circle, rfl, rfl⟩⟩
    · exact ⟨rfl, by decide, Or.inr ⟨_, rfl, rfl, Or.inr ⟨shape, rfl⟩⟩⟩
    · exact ⟨rfl, by decide, Or.inr ⟨_, rfl, rfl, Or.inr ⟨shown, rfl⟩⟩⟩

lemma faithful : Faithful names state.relations where
  injOn p hp q hq h := List.inj_on_of_nodup_map (f := Path.render) (by decide) hp hq h
  unit := by simp [names]
  relations := by
    intro r hr
    change r ∈ relations at hr
    simp only [relations, List.mem_cons, List.not_mem_nil, or_false] at hr
    have hshape : (Ty.named shape []).Within names := .named (by simp [names]) (by simp)
    have hshown : (Ty.named shown []).Within names := .named (by simp [names]) (by simp)
    rcases hr with rfl | rfl | rfl
    · exact ⟨by simp [names], by simp, .named (by simp [names]) (by simp), by simp⟩
    · exact ⟨by simp [names], by simp, .generic (by simpa [fitting] using hshape), by simpa [fitting] using hshape⟩
    · exact ⟨by simp [names], by simp, .generic (by simpa [fitting] using hshown), by simpa [fitting] using hshown⟩

lemma history_within : ∀ q ∈ history, q.Within names := by
  have hpoint : (Ty.named point []).Within names := .named (by simp [names]) (by simp)
  have hshown : (Ty.named shown []).Within names := .named (by simp [names]) (by simp)
  simpa [history, Query.Within] using ⟨by simp [names], hpoint, hshown⟩

theorem circle_reaches_shown : state.Fresh ∧ Plain state.relations ∧ Faithful names state.relations ∧
    (∀ q ∈ history, q.Within names) ∧ Relation.TransGen (Edge state.relations) circle shown ∧
    ¬ Relation.TransGen (Edge state.relations) point shown := by
  refine ⟨fresh, plain, faithful, history_within, ?_, fun h => ?_⟩
  · obtain ⟨answer, hrun, hanswer⟩ :=
      (isAssignable_iff_reaches fresh plain faithful history_within).1 circle (by simp [names]) shown (by simp [names])
    obtain rfl : true = answer := Except.ok.inj hrun
    simpa [circle, shown, Ty.neverPath] using hanswer.mp rfl
  · obtain ⟨answer, hrun, hanswer⟩ :=
      (isAssignable_iff_reaches fresh plain faithful history_within).1 point (by simp [names]) shown (by simp [names])
    obtain rfl : false = answer := Except.ok.inj hrun
    exact Bool.false_ne_true (hanswer.mpr (Or.inr (Or.inr h)))

end Shapes

/-! Two paths with one text: `Box` in the module `geo`, and a type that is called `geo::Box`. -/

namespace Boxes

def inner : Path := ⟨["geo", "Box"]⟩
def outer : Path := ⟨["geo::Box"]⟩
def shape : Path := ⟨["Shape"]⟩

def state : State := .of [⟨0, .impl, shape, [], .named inner [], []⟩]

lemma edge : Edge state.relations inner shape := ⟨_, List.mem_cons_self, rfl, .type rfl, rfl⟩

theorem reached_not_assignable : state.Fresh ∧ Plain state.relations ∧ inner.render = outer.render ∧
    Relation.TransGen (Edge state.relations) inner shape ∧
    ((Check.isAssignable (.named inner []) (.named shape [])).run (state.after [.chains outer])).1 = .ok false := by
  refine ⟨⟨rfl, rfl⟩, ⟨by decide, fun r hr _ => ?_⟩, by decide, .single edge, rfl⟩
  obtain rfl := List.mem_singleton.mp hr
  exact ⟨rfl, by decide, Or.inl ⟨inner, rfl, rfl⟩⟩

end Boxes

end TraitCheck
