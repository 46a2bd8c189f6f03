import Mathlib.Tactic.Common
import TraitCheck.Check.State

/-! How actions on the state run one after the other. -/

namespace TraitCheck.Check

variable {α β : Type}

section Run

variable {ε σ : Type} {x : ExceptT ε (StateM σ) α} {s s' : σ}

lemma run_bind_ok {a : α} (h : x.run s = (.ok a, s')) (f : α → ExceptT ε (StateM σ) β) :
    (x >>= f).run s = (f a).run s' := by
  simp only [ExceptT.run_bind]
  simp only [bind, StateT.bind]
  rw [h]

lemma run_bind_error {e : ε} (h : x.run s = (.error e, s')) (f : α → ExceptT ε (StateM σ) β) :
    (x >>= f).run s = (.error e, s') := by
  simp only [ExceptT.run_bind]
  simp only [bind, StateT.bind]
  rw [h]
  rfl

lemma exists_of_run_bind {f : α → ExceptT ε (StateM σ) β} {t : σ} {b : β} (h : (x >>= f).run s = (.ok b, t)) :
    ∃ a s', x.run s = (.ok a, s') ∧ (f a).run s' = (.ok b, t) := by
  match hx : x.run s with
  | (.ok a, s') =>
    rw [run_bind_ok hx] at h
    exact ⟨a, s', rfl, h⟩
  | (.error φ, s') =>
    rw [run_bind_error hx] at h
    cases h

lemma run_lift {y : StateM σ α} {a : α} (h : y.run s = (a, s')) : (ExceptT.lift y : ExceptT ε (StateM σ) α).run s = (.ok a, s') := by
  have hrun : (ExceptT.lift y : ExceptT ε (StateM σ) α).run s = (.ok (y.run s).1, (y.run s).2) := rfl
  rw [hrun, h]

end Run

lemma run_get_bind (s : State) (f : State → Check β) : ((get : Check State) >>= f).run s = (f s).run s :=
  run_bind_ok rfl f

/-- What `report` adds. -/
def diagnosticAt (s : State) (at? : Option Syntax.Info) (cause : Diagnostic.Cause) : Diagnostic :=
  ⟨((s.frames.peek?.bind fun f => s.modules[f.module]?).map (·.path.render)).getD "", at?.map (·.range), cause⟩

lemma run_report (at? : Option Syntax.Info) (cause : Diagnostic.Cause) (s : State) :
    (report at? cause).run s = (.ok (), { s with diagnostics := s.diagnostics ++ [diagnosticAt s at? cause] }) :=
  rfl

lemma exists_run_report (info : Option Syntax.Info) (cause : Diagnostic.Cause) (s : State) :
    ∃ d, (report info cause).run s = (.ok (), { s with diagnostics := s.diagnostics ++ [d] }) ∧ d.cause = cause :=
  ⟨_, rfl, rfl⟩

def reports (x : Check α) (s : State) : List Diagnostic := (x.run s).2.diagnostics.drop s.diagnostics.length

def OnlyReports (cause : Diagnostic.Cause) (x : Check Unit) : Prop :=
  ∀ s, ∃ new, x.run s = (.ok (), { s with diagnostics := s.diagnostics ++ new }) ∧ ∀ d ∈ new, d.cause = cause

variable {cause : Diagnostic.Cause}

lemma OnlyReports.done (cause : Diagnostic.Cause) : OnlyReports cause (pure ()) := by
  intro s
  refine ⟨[], ?_, by simp⟩
  rw [List.append_nil]
  rfl

lemma OnlyReports.report (info : Option Syntax.Info) (cause : Diagnostic.Cause) :
    OnlyReports cause (Check.report info cause) := by
  intro s
  obtain ⟨d, hrun, hd⟩ := exists_run_report info cause s
  exact ⟨[d], hrun, by simpa using hd⟩

lemma OnlyReports.andThen {x y : Check Unit} (hx : OnlyReports cause x) (hy : OnlyReports cause y) :
    OnlyReports cause (x >>= fun _ => y) := by
  intro s
  obtain ⟨new, hrun, hnew⟩ := hx s
  obtain ⟨more, hrun', hmore⟩ := hy { s with diagnostics := s.diagnostics ++ new }
  refine ⟨new ++ more, ?_, ?_⟩
  · rw [run_bind_ok hrun, hrun', List.append_assoc]
  · simpa [or_imp, forall_and] using ⟨hnew, hmore⟩

lemma OnlyReports.forIn {l : List α} {body : α → PUnit → Check (ForInStep PUnit)}
    (h : ∀ a, ∃ y, OnlyReports cause y ∧ body a ⟨⟩ = y >>= fun _ => pure (.yield ⟨⟩)) :
    OnlyReports cause (forIn l ⟨⟩ body) := by
  induction l with
  | nil => exact .done cause
  | cons a l ih =>
    obtain ⟨y, hy, hbody⟩ := h a
    simpa [hbody] using hy.andThen ih

/-- Puts the type of a branch together with that of the branches before it. -/
def join (info : Syntax.Info) (a b : Ty) : Check Ty := do
  if a.isAbsent then return b
  match ← combine a b with
  | some t => return t
  | none =>
    report (some info) (.branchMismatch a b)
    return .unknown

end TraitCheck.Check
