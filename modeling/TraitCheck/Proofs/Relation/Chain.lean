import Mathlib.Data.List.Flatten
import Mathlib.Data.List.Nodup
import Mathlib.Data.List.Perm.Subperm
import Mathlib.Tactic.Common
import TraitCheck.Relation.Assign

/-! What a chain leads to and asks for, which chains a walk finds, and what the answer to a question depends on. -/

namespace TraitCheck

def Relation.view (r : Relation) (t : Ty) : Ty := r.target.substituteOrHole [Ty.unify t r.forType]

namespace Chain

/-- What a chain shows a type as, if it has the shape that each step is for. -/
def view : Ty → Chain → Option Ty
  | t, [] => some t
  | t, r :: c => if r.matches t then view (r.view t) c else none

def demands : Ty → Chain → List (Ty × Ty)
  | _, [] => []
  | t, r :: c => if r.matches t then r.demands (Ty.unify t r.forType) ++ demands (r.view t) c else []

/-- Impls among the relations, none of them twice. -/
structure Of (rels : List Relation) (c : Chain) : Prop where
  ne_nil : c ≠ []
  impls : ∀ r ∈ c, r ∈ rels ∧ r.isImpl = true
  distinct : (c.map (·.id)).Nodup

def EndsAt (c : Chain) (q : Path) : Prop := ∃ r, c.getLast? = some r ∧ r.path = q

end Chain

def Met (H : Ty → Ty → Prop) (ds : List (Ty × Ty)) : Prop := ∀ d ∈ ds, H d.1 d.2

@[simp] lemma met_nil (H : Ty → Ty → Prop) : Met H [] := by simp [Met]

variable {H : Ty → Ty → Prop} {c : Chain} {rels : List Relation} {holds : Ty → Ty → Bool} {target : Ty} {asked : List String}

@[simp] lemma met_append {ds es : List (Ty × Ty)} : Met H (ds ++ es) ↔ Met H ds ∧ Met H es :=
  List.forall_mem_append

lemma Met.mono {K : Ty → Ty → Prop} (h : ∀ t u, H t u → K t u) {ds : List (Ty × Ty)} (hd : Met H ds) : Met K ds :=
  fun d hm => h _ _ (hd d hm)

/-! ### Following a chain -/

def Says (holds : Ty → Ty → Id Bool) (t u : Ty) : Prop := (holds t u).run = true

section Follow

variable (holds : Ty → Ty → Id Bool)

lemma allM_run {α : Type} (f : α → Id Bool) (l : List α) : (l.allM f).run = true ↔ ∀ a ∈ l, (f a).run = true := by
  induction l with
  | nil => simp [List.allM]
  | cons a l ih =>
    rw [List.forall_mem_cons, ← ih, List.allM, Id.run_bind]
    cases (f a).run <;> simp

lemma anyM_run {α : Type} (f : α → Id Bool) (l : List α) : (l.anyM f).run = true ↔ ∃ a ∈ l, (f a).run = true := by
  induction l with
  | nil => simp [List.anyM]
  | cons a l ih =>
    rw [List.exists_mem_cons_iff, ← ih, List.anyM, Id.run_bind]
    cases (f a).run <;> simp

lemma allM_met (ds : List (Ty × Ty)) : (ds.allM fun d => holds d.1 d.2).run = true ↔ Met (Says holds) ds :=
  allM_run _ ds

lemma step_of_met {r : Relation} {t : Ty} (hm : r.matches t = true)
    (hd : Met (Says holds) (r.demands (Ty.unify t r.forType))) :
    (r.step holds t).run = some (r.view t, Ty.unify t r.forType) := by
  rw [Relation.step, if_pos hm, Id.run_bind, (allM_met holds _).mpr hd, if_pos rfl, Id.run_pure, Relation.view]

lemma step_of_not_met {r : Relation} {t : Ty}
    (h : r.matches t = true → ¬ Met (Says holds) (r.demands (Ty.unify t r.forType))) :
    (r.step holds t).run = none := by
  rw [Relation.step]
  split_ifs with hm
  · rw [Id.run_bind, if_neg (mt (allM_met holds _).mp (h hm)), Id.run_pure]
  · rfl

lemma follow_run {c : Chain} {t super : Ty} {b₀ : Bindings} :
    (∃ b, (c.follow holds (t, b₀)).run = some (super, b)) ↔ c.view t = some super ∧ Met (Says holds) (c.demands t) := by
  induction c generalizing t b₀ with
  | nil => simp [Chain.follow, Chain.view, Chain.demands]
  | cons r c ih =>
    rw [Chain.follow, Chain.view, Chain.demands, Id.run_bind]
    by_cases hm : r.matches t = true
    · rw [if_pos hm, if_pos hm, met_append]
      by_cases hd : Met (Says holds) (r.demands (Ty.unify t r.forType))
      · rw [step_of_met holds hm hd]
        simpa [hd] using ih
      · rw [step_of_not_met holds fun _ => hd]
        simp [hd]
    · rw [step_of_not_met holds fun h => absurd h hm]
      simp [hm]

/-- A chain that ends at `q` and shows `t` as something for which the answer is yes. -/
def Chain.Fits (H : Ty → Ty → Prop) (c : Chain) (t : Ty) (q : Path) (target : Ty) : Prop :=
  c.EndsAt q ∧ ∃ super, c.view t = some super ∧ Met H (c.demands t) ∧ H super target

lemma fits_iff_instantiate {c : Chain} {t target : Ty} {q : Path} :
    c.Fits (Says holds) t q target ↔
      c.EndsAt q ∧ ∃ e, (c.instantiate holds t).run = some e ∧ Says holds e.1 target := by
  refine and_congr_right fun _ => ⟨?_, ?_⟩
  · rintro ⟨super, hview, hd, hs⟩
    obtain ⟨b, hb⟩ := (follow_run holds).mpr ⟨hview, hd⟩
    exact ⟨(super, b), hb, hs⟩
  · rintro ⟨⟨super, b⟩, hb, hs⟩
    obtain ⟨hview, hd⟩ := (follow_run holds).mp ⟨b, hb⟩
    exact ⟨super, hview, hd, hs⟩

lemma Chain.endsAt_iff {c : Chain} {q : Path} : c.getLast?.any (·.path = q) = true ↔ c.EndsAt q := by
  cases h : c.getLast? <;> simp [Chain.EndsAt, h]

lemma firstFit_run {t target : Ty} {q : Path} {cs : List Chain} :
    (firstFit holds t q target cs).run.isSome = true ↔ ∃ c ∈ cs, c.Fits (Says holds) t q target := by
  induction cs with
  | nil => simp [firstFit]
  | cons c cs ih =>
    rw [List.exists_mem_cons_iff, ← ih, firstFit, fits_iff_instantiate]
    by_cases he : c.EndsAt q
    · rw [if_pos (Chain.endsAt_iff.mpr he), Id.run_bind]
      cases (c.instantiate holds t).run with
      | none => simp
      | some e => by_cases hs : (holds e.1 target).run = true <;> simp [he, Says, hs]
    · rw [if_neg (mt Chain.endsAt_iff.mp he)]
      simp [he]

lemma fits_of_firstFit {t target : Ty} {q : Path} {cs : List Chain} {c : Chain}
    (h : (firstFit holds t q target cs).run = some c) : c.Fits (Says holds) t q target := by
  induction cs with
  | nil => cases h
  | cons d cs ih =>
    rw [firstFit] at h
    split_ifs at h with hlast
    · rw [Id.run_bind] at h
      cases hrun : (d.instantiate holds t).run with
      | none =>
        rw [hrun] at h
        exact ih h
      | some e =>
        rw [hrun] at h
        simp only [Id.run_bind] at h
        split_ifs at h with hs
        · cases h
          exact (fits_iff_instantiate holds).mpr ⟨Chain.endsAt_iff.mp hlast, e, hrun, hs⟩
        · exact ih h
    · exact ih h

end Follow

/-! ### Walking -/

/-- The chains that a walk from a path finds if the questions with answer yes are those of `H`. -/
def Chain.Walked (rels : List Relation) (H : Ty → Ty → Prop) (p : Path) (c : Chain) : Prop :=
  c.Of rels ∧ (c.view (.named p [])).isSome = true ∧ Met H (c.demands (.named p []))

lemma Chain.uses_eq_false {r : Relation} : c.uses r = false ↔ r.id ∉ c.map (·.id) := by
  simp [Chain.uses]

lemma Chain.distinct_snoc {r : Relation} (hc : (c.map (·.id)).Nodup) (hr : r.id ∉ c.map (·.id)) :
    ((c ++ [r]).map (·.id)).Nodup := by
  rw [List.map_append, List.nodup_append_comm]
  exact List.nodup_cons.mpr ⟨hr, hc⟩

lemma mem_walk_succ {fuel : Nat} {cur : Ty} {path : Chain} : c ∈ walk rels holds (fuel + 1) cur path ↔
      ∃ r ∈ rels, r.isImpl = true ∧ r.id ∉ path.map (·.id) ∧ r.matches cur = true ∧
        Met (holds · · = true) (r.demands (Ty.unify cur r.forType)) ∧
        (c = path ++ [r] ∨ c ∈ walk rels holds fuel (r.view cur) (path ++ [r])) := by
  rw [walk, List.mem_flatMap]
  refine exists_congr fun r => and_congr_right fun _ => ?_
  by_cases hr : r.isImpl = true ∧ r.id ∉ path.map (·.id)
  · rw [if_pos (by simpa [Chain.uses_eq_false] using hr)]
    by_cases hd : r.matches cur = true ∧ Met (holds · · = true) (r.demands (Ty.unify cur r.forType))
    · rw [step_of_met (fun t u => pure (holds t u)) hd.1 hd.2]
      simp [hr, hd]
    · rw [step_of_not_met (fun t u => pure (holds t u)) fun hm hd' => hd ⟨hm, hd'⟩]
      exact iff_of_false (by simp) fun h => hd ⟨h.2.2.1, h.2.2.2.1⟩
  · rw [if_neg (by simpa [Chain.uses_eq_false] using hr)]
    exact iff_of_false (by simp) fun h => hr ⟨h.1, h.2.1⟩

lemma walk_sound {fuel : Nat} {cur : Ty} {path : Chain}
    (hp : (path.map (·.id)).Nodup) (h : c ∈ walk rels holds fuel cur path) :
    ∃ c', c = path ++ c' ∧ c' ≠ [] ∧ (∀ r ∈ c', r ∈ rels ∧ r.isImpl = true) ∧ (c.map (·.id)).Nodup ∧
      (c'.view cur).isSome = true ∧ Met (holds · · = true) (c'.demands cur) := by
  induction fuel generalizing cur path c with
  | zero => simp [walk] at h
  | succ fuel ih =>
    obtain ⟨r, hr, himpl, hnew, hm, hd, hc⟩ := mem_walk_succ.mp h
    have hp' := Chain.distinct_snoc hp hnew
    rcases hc with rfl | hc
    · exact ⟨[r], rfl, by simp, by simpa using ⟨hr, himpl⟩, hp', by simp [Chain.view, hm],
        by simpa [Chain.demands, hm] using hd⟩
    · obtain ⟨c', rfl, -, himpls, hnodup, hview, hdemands⟩ := ih hp' hc
      exact ⟨r :: c', by simp, by simp, by simpa using ⟨⟨hr, himpl⟩, himpls⟩, hnodup,
        by simpa [Chain.view, hm] using hview, by simpa [Chain.demands, hm] using ⟨hd, hdemands⟩⟩

lemma walk_complete {fuel : Nat} {cur : Ty} (path : Chain)
    (hne : c ≠ []) (hlen : c.length ≤ fuel) (himpls : ∀ r ∈ c, r ∈ rels ∧ r.isImpl = true)
    (hnodup : ((path ++ c).map (·.id)).Nodup) (hview : (c.view cur).isSome = true)
    (hd : Met (holds · · = true) (c.demands cur)) : path ++ c ∈ walk rels holds fuel cur path := by
  induction fuel generalizing cur path c with
  | zero => exact absurd (by simpa using hlen) hne
  | succ fuel ih =>
    cases c with
    | nil => exact absurd rfl hne
    | cons r c =>
      have hm : r.matches cur = true := by
        by_contra h
        simp [Chain.view, h] at hview
      simp only [Chain.view, hm, if_true, Chain.demands, met_append] at hview hd
      refine mem_walk_succ.mpr ⟨r, (himpls r (by simp)).1, (himpls r (by simp)).2, ?_, hm, hd.1, ?_⟩
      · rw [List.map_append] at hnodup
        exact fun h => List.disjoint_of_nodup_append hnodup h (by simp)
      · cases c with
        | nil => exact Or.inl rfl
        | cons r' c =>
          have hrest := ih (path ++ [r]) (by simp) (by simpa using hlen)
            (fun x hx => himpls x (List.mem_cons_of_mem _ hx)) (by simpa using hnodup) hview hd.2
          exact Or.inr (by simpa using hrest)

lemma Chain.Of.length_le (h : c.Of rels) : c.length ≤ rels.length :=
  (List.subperm_of_subset h.distinct.of_map fun r hr => (h.impls r hr).1).length_le

lemma mem_walk {p : Path} :
    c ∈ walk rels holds rels.length (.named p []) [] ↔ c.Walked rels (holds · · = true) p := by
  constructor
  · intro h
    obtain ⟨c', rfl, hne, himpls, hnodup, hview, hd⟩ := walk_sound (by simp) h
    exact ⟨⟨hne, himpls, hnodup⟩, hview, hd⟩
  · rintro ⟨hc, hview, hd⟩
    exact walk_complete [] hc.ne_nil hc.length_le hc.impls hc.distinct hview hd

/-! ### What an answer depends on -/

/-- The questions that a question about parts of two types leads to: each list of them is enough for a yes. -/
def partQuestions : (t target : Ty) → List (List (Ty × Ty))
  | .generic g, target => g.bounds.map fun b => [(b, target)]
  | .named p as, .named q bs => if p = q ∧ as.length = bs.length then [as.zip bs] else []
  | .fn _ ps r, .fn _ qs s => if ps.length = qs.length then [qs.zip ps ++ [(r.resultOf, s.resultOf)]] else []
  | _, _ => []

def questions (t target : Ty) : List (List (Ty × Ty)) :=
  match target with
  | .generic g => if g.bounds.isEmpty then partQuestions t target else [g.bounds.map fun b => (t, b)]
  | _ => partQuestions t target

/-- A question has the answer yes if the questions that it leads to have, or by a chain that starts at its path. -/
inductive Step (H : Ty → Ty → Prop) (C : Path → Chain → Prop) : Ty → Ty → Prop
  | parts {t target : Ty} {ds : List (Ty × Ty)} (h : ds ∈ questions t target) (hd : Met H ds) : Step H C t target
  | chain {p q : Path} {as bs : List Ty} {c : Chain} (hne : p ≠ q) (hc : C p c)
      (hfits : c.Fits H (.named p as) q (.named q bs)) : Step H C (.named p as) (.named q bs)

lemma Chain.Fits.mono {K : Ty → Ty → Prop} (h : ∀ t u, H t u → K t u) {t : Ty} {q : Path}
    (hc : c.Fits H t q target) : c.Fits K t q target := by
  obtain ⟨he, super, hview, hd, hs⟩ := hc
  exact ⟨he, super, hview, hd.mono h, h _ _ hs⟩

lemma Step.mono {K : Ty → Ty → Prop} {C D : Path → Chain → Prop} (hH : ∀ t u, H t u → K t u)
    (hC : ∀ p c, C p c → D p c) {t : Ty} (h : Step H C t target) : Step K D t target := by
  cases h with
  | parts h hd => exact .parts h (hd.mono hH)
  | chain hne hc hfits => exact .chain hne (hC _ _ hc) (hfits.mono hH)

section Step

variable {holds : Ty → Ty → Id Bool} {cs : Path → List Chain} {t target : Ty}

lemma step_iff_parts {H : Ty → Ty → Prop} {C : Path → Chain → Prop}
    (h : ∀ p as q bs, t = .named p as → target = .named q bs → p = q) :
    Step H C t target ↔ ∃ ds ∈ questions t target, Met H ds := by
  refine ⟨?_, fun ⟨_, hds, hd⟩ => .parts hds hd⟩
  rintro (⟨hds, hd⟩ | ⟨hne, -, -⟩)
  · exact ⟨_, hds, hd⟩
  · exact absurd (h _ _ _ _ rfl rfl) hne

lemma assignParts_named {p q : Path} {as bs : List Ty} :
    (assignParts holds (fun p => pure (cs p)) (.named p as) (.named q bs)).run = true ↔
      Step (Says holds) (fun p c => c ∈ cs p) (.named p as) (.named q bs) := by
  rw [assignParts]
  by_cases hpq : p = q
  · rw [step_iff_parts fun _ _ _ _ h h' => by cases h; cases h'; exact hpq]
    by_cases hlen : as.length = bs.length
    · simp [questions, partQuestions, hpq, hlen, allM_met]
    · simp [questions, partQuestions, hpq, hlen]
  · rw [if_neg hpq, superTypeAs]
    simp only [Id.run_bind, Id.run_pure, pure_bind, firstFit_run]
    constructor
    · rintro ⟨c, hc, hfits⟩
      exact .chain hpq hc hfits
    · intro h
      cases h with
      | parts h hd => simp [questions, partQuestions, hpq] at h
      | chain _ hc hfits => exact ⟨_, hc, hfits⟩

lemma assignParts_run (hq : questions t target = partQuestions t target) :
    (assignParts holds (fun p => pure (cs p)) t target).run = true ↔
      Step (Says holds) (fun p c => c ∈ cs p) t target := by
  cases t with
  | generic g =>
    rw [step_iff_parts (by simp), hq]
    simp [assignParts, partQuestions, anyM_run, Met, Says]
  | named p as =>
    cases target with
    | named q bs => exact assignParts_named
    | _ => rw [step_iff_parts (by simp), hq]; simp [assignParts, partQuestions]
  | fn gs ps r =>
    rw [step_iff_parts (by simp), hq]
    cases target with
    | fn hs qs s =>
      by_cases hlen : ps.length = qs.length
      · have hall := allM_met holds (qs.zip ps)
        simp only [assignParts, partQuestions, hlen, if_true, Id.run_bind, List.mem_singleton, exists_eq_left,
          met_append, ← hall]
        cases ((qs.zip ps).allM fun d => holds d.1 d.2).run <;> simp [Met, Says]
      · simp [assignParts, partQuestions, hlen]
    | _ => simp [assignParts, partQuestions]
  | _ => rw [step_iff_parts (by simp), hq]; simp [assignParts, partQuestions]

lemma assignStep_run : (assignStep holds (fun p => pure (cs p)) t target).run = true ↔
    Step (Says holds) (fun p c => c ∈ cs p) t target := by
  cases target with
  | generic g =>
    rw [assignStep]
    split_ifs with hb
    · exact assignParts_run (by simp [questions, hb])
    · rw [step_iff_parts (by simp), allM_run, questions, if_neg hb]
      simp only [List.mem_singleton, exists_eq_left, Met, List.forall_mem_map, Says]
  | _ => exact assignParts_run rfl

end Step

def assignBy (cs : Path → List Chain) (budget : Nat) (asked : List String) (t target : Ty) : Id Bool :=
  assignWith (fun p => pure (cs p)) budget asked t target

lemma assignBy_zero {cs : Path → List Chain} {t : Ty} :
    Says (assignBy cs 0 asked) t target ↔ t.fits? target = some true := by
  rw [Says, assignBy, assignWith]
  cases t.fits? target <;> simp

lemma assignBy_succ {cs : Path → List Chain} {budget : Nat} {t : Ty} :
    Says (assignBy cs (budget + 1) asked) t target ↔ t.fits? target = some true ∨
      t.fits? target = none ∧ question t target ∉ asked ∧
        Step (Says (assignBy cs budget (question t target :: asked))) (fun p c => c ∈ cs p) t target := by
  rw [Says, assignBy, assignWith]
  cases t.fits? target with
  | some answer => simp
  | none =>
    by_cases hq : question t target ∈ asked
    · simp [hq]
    · simp only [hq, if_false, reduceCtorEq, false_or, true_and, not_false_eq_true]
      exact assignStep_run

def Finds (rels : List Relation) (memo : Memo) (budget : Nat) (asked : List String) (searching : Memo) (t u : Ty) :
    Prop :=
  assignIn rels memo budget searching asked t u = true

lemma finds_zero {memo searching : Memo} {t : Ty} :
    Finds rels memo 0 asked searching t target ↔ t.fits? target = some true := by
  rw [Finds, assignIn]
  cases t.fits? target <;> simp

lemma finds_succ {memo searching : Memo} {budget : Nat} {t : Ty} :
    Finds rels memo (budget + 1) asked searching t target ↔ t.fits? target = some true ∨
      t.fits? target = none ∧ question t target ∉ asked ∧
        Step (Finds rels memo budget (question t target :: asked) searching) (fun p c => c ∈ searchWith rels memo
            (fun searching => assignIn rels memo budget searching (question t target :: asked)) searching p)
          t target := by
  rw [Finds, assignIn]
  cases t.fits? target with
  | some answer => simp
  | none =>
    by_cases hq : question t target ∈ asked
    · simp [hq]
    · simp only [hq, if_false, reduceCtorEq, false_or, true_and, not_false_eq_true]
      exact assignStep_run

lemma Memo.lookup_cons_ne {k k' : String} (h : k ≠ k') (l : List Chain) (memo : Memo) :
    List.lookup k ((k', l) :: memo) = memo.lookup k := by
  have hne : (k == k') = false := by simpa using h
  rw [List.lookup_cons, hne]

end TraitCheck
