import TraitCheck.Proofs.Check.Moves
import TraitCheck.Proofs.Check.Packages

/-! Closures whose results lead back to them. The type of a closure stands for its result by a number until the result is
known, so types are finite as far as they are written; read with the results in their places they need not be. -/

namespace TraitCheck

/-- If known results are put in their places again and again, the type comes to an end. -/
inductive Ty.Finite (known : Nat → Option Ty) : Ty → Prop
  | intro {t : Ty} (h : ∀ i ∈ t.waits, ∀ r, known i = some r → Finite known r) : Finite known t

namespace Ty

variable {known : Nat → Option Ty} {t r : Ty} {i j : Nat} {k l : List Nat}

def Done (t : Ty) : Prop := ∀ i, t ≠ .ongoing i

lemma waits_fn (hr : r.Done) (gs : List (Generic Ty)) (ps : List Ty) :
    (Ty.fn gs ps r).waits = waitsAll ps ++ r.waits := by
  rw [waits.eq_3 _ _ _ hr]

lemma complete_fn (hr : r.Done) (gs : List (Generic Ty)) (ps : List Ty) :
    (Ty.fn gs ps r).complete known = .fn gs (completeAll known ps) (r.complete known) := by
  rw [complete.eq_3 _ _ _ _ hr]

lemma Done.complete (h : t.Done) (known : Nat → Option Ty) : (t.complete known).Done := by
  intro i hi
  cases t with
  | fn gs ps r => cases r <;> simp [Ty.complete] at hi
  | ongoing j => exact h j rfl
  | _ => simp [Ty.complete] at hi

lemma resultOf_done (t : Ty) : t.resultOf.Done := by
  intro i hi
  cases t <;> simp [resultOf, unit] at hi

/-- What is waited for after known results have taken the places of some numbers. -/
def Awaited (known : Nat → Option Ty) (l : List Nat) (j : Nat) : Prop :=
  (j ∈ l ∧ known j = none) ∨ ∃ i ∈ l, ∃ r, known i = some r ∧ j ∈ r.waits

lemma awaited_append : Awaited known (k ++ l) j ↔ Awaited known k j ∨ Awaited known l j := by
  simp only [Awaited, List.mem_append]
  grind

mutual

lemma mem_waits_complete {j : Nat} (hdone : ∀ i r, known i = some r → r.Done) (t : Ty) :
    j ∈ (t.complete known).waits ↔ Awaited known t.waits j := by
  cases t with
  | named p args =>
    rw [complete, waits, waits]
    exact mem_waitsAll_completeAll hdone args
  | fn gs ps r =>
    have hparams := mem_waitsAll_completeAll (j := j) hdone ps
    by_cases hr : r.Done
    · have hresult := mem_waits_complete (j := j) hdone r
      rw [complete_fn hr, waits_fn (hr.complete known), waits_fn hr, List.mem_append, awaited_append, hparams, hresult]
    · obtain ⟨i, rfl⟩ : ∃ i, r = .ongoing i := by simpa [Done] using hr
      rw [complete, waits, awaited_append]
      cases hi : known i with
      | none =>
        rw [Option.getD_none, waits, List.mem_append, hparams]
        refine or_congr_right ?_
        simp only [Awaited, List.mem_singleton]
        grind
      | some u =>
        rw [Option.getD_some, waits_fn (hdone i u hi), List.mem_append, hparams]
        refine or_congr_right ?_
        simp only [Awaited, List.mem_singleton]
        grind
  | _ => simp [complete, waits, Awaited]

lemma mem_waitsAll_completeAll {j : Nat} (hdone : ∀ i r, known i = some r → r.Done) (ts : List Ty) :
    j ∈ waitsAll (completeAll known ts) ↔ Awaited known (waitsAll ts) j := by
  cases ts with
  | nil => simp [completeAll, waitsAll, Awaited]
  | cons t ts =>
    rw [completeAll, waitsAll, waitsAll, List.mem_append, awaited_append, mem_waits_complete hdone t,
      mem_waitsAll_completeAll hdone ts]

end

lemma Finite.not_mem_waits (h : r.Finite known) : ∀ i, known i = some r → i ∉ r.waits := by
  induction h with
  | @intro t _ ih =>
    intro i hi hmem
    exact ih i hmem t hi i hi hmem

/-! ### Results -/

def only (id : Nat) (t : Ty) (i : Nat) : Option Ty := if i = id then some t else none

lemma only_eq_some : only i t j = some r ↔ j = i ∧ t = r := by
  simp [only]

lemma only_eq_none : only i t j = none ↔ j ≠ i := by
  simp [only]

/-- Known results have been put in their places in all the others, so that a result mentions a known one only if that one
leads back to its own closure. -/
structure Tidy (known : Nat → Option Ty) : Prop where
  done : ∀ i r, known i = some r → r.Done
  own : ∀ i r, known i = some r → ∀ j ∈ r.waits, ∀ u, known j = some u → j ∈ u.waits

namespace Tidy

lemma mem_waits (h : Tidy known) (hj : j ∈ (t.complete known).waits) {u : Ty} (hu : known j = some u) : j ∈ u.waits := by
  obtain ⟨-, hnone⟩ | ⟨i, -, r, hr, hjr⟩ := (mem_waits_complete h.done t).mp hj
  · rw [hu] at hnone
    cases hnone
  · exact h.own i r hr j hjr u hu

lemma extend (h : Tidy known) (ht : t.Done) (hback : ∀ j ∈ t.waits, ∀ u, known j = some u → j ∈ u.waits)
    {known' : Nat → Option Ty} (hknown : ∀ j, known' j = if j = i then some t else (known j).map (complete (only i t))) :
    Tidy known' := by
  have honly : ∀ j r, only i t j = some r → r.Done := fun j r hr => (only_eq_some.mp hr).2 ▸ ht
  have hcases : ∀ j r, known' j = some r → (j = i ∧ r = t) ∨
      j ≠ i ∧ ∃ u, known j = some u ∧ r = u.complete (only i t) := by
    intro j r hr
    rw [hknown] at hr
    split at hr
    · next hj => exact .inl ⟨hj, (Option.some.inj hr).symm⟩
    · next hj =>
      obtain ⟨u, hu, rfl⟩ := Option.map_eq_some_iff.mp hr
      exact .inr ⟨hj, u, hu, rfl⟩
  -- a closure that its result leads back to stays so
  have hkept : ∀ j (u : Ty), j ≠ i → j ∈ u.waits → j ∈ (u.complete (only i t)).waits := by
    intro j u hj hmem
    exact (mem_waits_complete honly u).mpr (.inl ⟨hmem, only_eq_none.mpr hj⟩)
  have hnew : ∀ j ∈ t.waits, ∀ r, known' j = some r → j ∈ r.waits := by
    intro j hj r hr
    obtain ⟨rfl, rfl⟩ | ⟨hne, u, hu, rfl⟩ := hcases j r hr
    · exact hj
    · exact hkept j u hne (hback j hj u hu)
  refine ⟨fun j r hr => ?_, fun j r hr k hk u hu => ?_⟩
  · obtain ⟨-, rfl⟩ | ⟨-, u, hu, rfl⟩ := hcases j r hr
    · exact ht
    · exact (h.done j u hu).complete _
  · obtain ⟨-, rfl⟩ | ⟨-, v, hv, rfl⟩ := hcases j r hr
    · exact hnew k hk u hu
    · obtain ⟨hkv, hk⟩ | ⟨_, -, _, hsome, hkt⟩ := (mem_waits_complete honly v).mp hk
      · obtain ⟨rfl, -⟩ | ⟨hne, w, hw, rfl⟩ := hcases k u hu
        · exact absurd rfl (only_eq_none.mp hk)
        · exact hkept k w hne (h.own j v hv k hkv w hw)
      · obtain ⟨-, rfl⟩ := only_eq_some.mp hsome
        exact hnew k hkt u hu

lemma finite_iff (h : Tidy known) : t.Finite known ↔ ∀ j ∈ (t.complete known).waits, known j = none := by
  constructor
  · intro hfinite j hj
    by_contra hsome
    obtain ⟨u, hu⟩ := Option.ne_none_iff_exists'.mp hsome
    obtain ⟨-, hnone⟩ | ⟨i, hi, r, hr, hjr⟩ := (mem_waits_complete h.done t).mp hj
    · exact hsome hnone
    · cases hfinite with
      | intro hresults =>
        cases hresults i hi r hr with
        | intro hresults => exact (hresults j hjr u hu).not_mem_waits j hu (h.own i r hr j hjr u hu)
  · intro hnone
    refine .intro fun i hi r hr => .intro fun j hj u hu => ?_
    have hj : j ∈ (t.complete known).waits := (mem_waits_complete h.done t).mpr (.inr ⟨i, hi, r, hr, hj⟩)
    rw [hnone j hj] at hu
    cases hu

lemma forall_finite_iff (h : Tidy known) : (∀ t : Ty, t.Finite known) ↔ ∀ i r, known i = some r → i ∉ r.waits := by
  constructor
  · intro hfinite i r hr
    exact (hfinite r).not_mem_waits i hr
  · intro hown t
    refine h.finite_iff.mpr fun j hj => ?_
    cases hu : known j with
    | none => rfl
    | some u => exact absurd (h.mem_waits hj hu) (hown j u hu)

end Tidy

end Ty

namespace State

lemma getElem?_learn (known : Std.TreeMap Nat Ty) (id : Nat) (t : Ty) (j : Nat) :
    (Check.learn known id t)[j]? = if j = id then some (t.resultOf.complete fun i => known[i]?) else
      (known[j]?).map (Ty.complete (Ty.only id (t.resultOf.complete fun i => known[i]?))) := by
  rw [Check.learn, Std.TreeMap.getElem?_insert, Std.TreeMap.getElem?_map]
  simp only [Nat.compare_eq_eq, eq_comm (a := id)]
  rfl

lemma tidy_of_learned {known known' : Std.TreeMap Nat Ty}
    (h : Relation.ReflTransGen (fun a b => ∃ id u, b = Check.learn a id u) known known')
    (hknown : Ty.Tidy fun i => known[i]?) : Ty.Tidy fun i => known'[i]? := by
  induction h with
  | refl => exact hknown
  | tail _ hstep ih =>
    obtain ⟨id, u, rfl⟩ := hstep
    exact ih.extend ((Ty.resultOf_done u).complete _) (fun j hj v hv => ih.mem_waits hj hv) (getElem?_learn _ id u)

section

variable (prelude : List Path) (reserve : Nat) (packages : List (String × List (String × Syntax.Module)))

/-- The results of closures after a check of packages. -/
def resultsOf (i : Nat) : Option Ty := (ofPackages prelude reserve packages).check.2.results[i]?

lemma tidy_resultsOf : Ty.Tidy (resultsOf prelude reserve packages) := by
  have hunchecked : (ofPackages prelude reserve packages).Unchecked False := unchecked_ofPackages _ _ nofun
  have hresults : (ofPackages prelude reserve packages).results = {} := congrArg State.results hunchecked.rest
  apply tidy_of_learned (attains_check (ofPackages prelude reserve packages)).learns
  rw [hresults]
  exact ⟨by simp, by simp⟩

lemma unfolds_iff (t : Ty) : (ofPackages prelude reserve packages).check.2.unfolds t = true ↔
    ∀ j ∈ (t.complete (resultsOf prelude reserve packages)).waits, resultsOf prelude reserve packages j = none := by
  simp only [unfolds, List.all_eq_true, Option.isNone_iff_eq_none]
  rfl

/-- Whatever packages are checked, it can be seen from a type whether it comes to an end with the results of closures in
their places, and all types do unless the result of some closure waits for that very closure. -/
theorem finite_unless_own_result :
    (∀ t, (ofPackages prelude reserve packages).check.2.unfolds t = true ↔ t.Finite (resultsOf prelude reserve packages)) ∧
      ((∀ t : Ty, t.Finite (resultsOf prelude reserve packages)) ↔
        ∀ i r, resultsOf prelude reserve packages i = some r → i ∉ r.waits) := by
  have htidy := tidy_resultsOf prelude reserve packages
  refine ⟨fun t => ?_, htidy.forall_finite_iff⟩
  rw [unfolds_iff, htidy.finite_iff]

end

def hasKnot (s : State) : Bool :=
  s.modules.any fun m => m.syn.nodes.any fun
    | .expr (.closure c) => (s.typeOf? c.info.id).any (!s.unfolds ·)
    | _ => false

lemma exists_of_hasKnot {s : State} (h : s.hasKnot = true) : ∃ m ∈ s.modules, ∃ c : Syntax.Lambda,
    .expr (.closure c) ∈ m.syn.nodes ∧ ∃ t, s.typeOf? c.info.id = some t ∧ s.unfolds t = false := by
  obtain ⟨m, hm, h⟩ := List.any_eq_true.mp h
  obtain ⟨n, hn, h⟩ := List.any_eq_true.mp h
  split at h
  · next c =>
    obtain ⟨t, ht, hunfolds⟩ := (Option.any_eq_true _ _).mp h
    exact ⟨m, hm, c, hn, t, ht, by simpa using hunfolds⟩
  · cases h

end State

namespace Knots

open Syntax (Expr Stmt Module)

/-- A closure that returns itself, and that is called. -/
def packages : List (String × List (String × Module)) :=
  [("app", [("app::a", Standard.module [.fn ⟨{}, false, "f", [], [], none, some ⟨{}, [
    .var ⟨{}, false, "g", none, .closure ⟨{}, [⟨{}, "a", none⟩], none, ⟨{}, [.expr {} (Standard.ident "g")]⟩⟩⟩,
    .var ⟨{}, false, "y", none, .call {} (Standard.ident "g") [.literal ⟨{}, .int, "1"⟩]⟩]⟩⟩])])]

theorem returns_itself : ∃ m ∈ (State.ofPackages Standard.prelude 64 packages).check.2.modules, ∃ c : Syntax.Lambda,
    .expr (.closure c) ∈ m.syn.nodes ∧ ∃ t, (State.ofPackages Standard.prelude 64 packages).check.2.typeOf? c.info.id = some t ∧
      ¬ t.Finite (State.resultsOf Standard.prelude 64 packages) := by
  have hknot : (State.ofPackages Standard.prelude 64 packages).check.2.hasKnot = true := by decide +kernel
  obtain ⟨m, hm, c, hc, t, ht, hunfolds⟩ := State.exists_of_hasKnot hknot
  refine ⟨m, hm, c, hc, t, ht, fun hfinite => ?_⟩
  have hends := (State.unfolds_iff _ _ _ t).mpr ((State.tidy_resultsOf _ _ _).finite_iff.mp hfinite)
  rw [hunfolds] at hends
  cases hends

end Knots

end TraitCheck
