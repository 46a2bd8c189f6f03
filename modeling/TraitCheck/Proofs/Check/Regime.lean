import TraitCheck.Proofs.Action

/-! A logic for actions. A regime says what holds between actions, how one of them may change the state, and with which
failures it may end. -/

namespace TraitCheck.Check

structure Regime where
  Inv : State → Prop
  Step : State → State → Prop
  refl : ∀ s, Step s s
  trans : ∀ {s t u}, Step s t → Step t u → Step s u
  Allowed : Failure → Prop

variable {α β : Type} {R : Regime} {P : α → Prop} {Q : β → Prop} {x : Check α} {f : α → Check β} {s : State}

lemma forM_cons (a : α) (l : List α) (f : α → Check Unit) : (a :: l).forM f = f a >>= fun _ => l.forM f := rfl

/-- From a state an action ends in accordance with a regime, and with a result as described if it does not fail. -/
structure Regime.KeepsAt (R : Regime) (P : α → Prop) (x : Check α) (s : State) : Prop where
  ok : ∀ a s', x.run s = (.ok a, s') → R.Inv s' ∧ R.Step s s' ∧ P a
  error : ∀ φ s', x.run s = (.error φ, s') → R.Allowed φ

def Regime.Keeps (R : Regime) (P : α → Prop) (x : Check α) : Prop := ∀ s, R.Inv s → R.KeepsAt P x s

namespace Regime

namespace KeepsAt

lemma of_run {a : α} {s' : State} (hrun : x.run s = (.ok a, s')) (hinv : R.Inv s') (hstep : R.Step s s') (h : P a) :
    R.KeepsAt P x s := by
  refine ⟨fun b t hb => ?_, fun φ t hφ => ?_⟩
  · rw [hrun] at hb
    cases hb
    exact ⟨hinv, hstep, h⟩
  · rw [hrun] at hφ
    cases hφ

lemma pure {a : α} (hs : R.Inv s) (h : P a) : R.KeepsAt P (Pure.pure a) s := of_run rfl hs (R.refl s) h

lemma after {a : α} {t : State} (hrun : x.run s = (.ok a, t)) (hstep : R.Step s t) (h : R.KeepsAt Q (f a) t) :
    R.KeepsAt Q (x >>= f) s := by
  refine ⟨fun b s' hb => ?_, fun φ s' hφ => ?_⟩
  · rw [run_bind_ok hrun] at hb
    obtain ⟨hinv, hstep', hb⟩ := h.ok b s' hb
    exact ⟨hinv, R.trans hstep hstep', hb⟩
  · rw [run_bind_ok hrun] at hφ
    exact h.error φ s' hφ

lemma fails {φ : Failure} {s' : State} (hrun : x.run s = (.error φ, s')) (h : R.Allowed φ) : R.KeepsAt P x s := by
  refine ⟨fun a t ha => ?_, fun ψ t hψ => ?_⟩
  · rw [hrun] at ha
    cases ha
  · rw [hrun] at hψ
    cases hψ
    exact h

lemma bind (hx : R.KeepsAt P x s) (hf : ∀ a s', P a → R.Inv s' → R.Step s s' → R.KeepsAt Q (f a) s') :
    R.KeepsAt Q (x >>= f) s := by
  match hrun : x.run s with
  | (.ok a, s') =>
    obtain ⟨hinv, hstep, ha⟩ := hx.ok a s' hrun
    exact .after hrun hstep (hf a s' ha hinv hstep)
  | (.error φ, s') => exact .fails (run_bind_error hrun f) (hx.error φ s' hrun)

lemma congr {y : Check α} (h : x.run s = y.run s) (hy : R.KeepsAt P y s) : R.KeepsAt P x s := by
  obtain ⟨hok, herror⟩ := hy
  rw [← h] at hok herror
  exact ⟨hok, herror⟩

lemma get {f : State → Check β} (h : R.KeepsAt Q (f s) s) : R.KeepsAt Q (MonadState.get >>= f) s :=
  .after rfl (R.refl s) h

lemma mono {P' : α → Prop} (hx : R.KeepsAt P x s) (h : ∀ a, P a → P' a) : R.KeepsAt P' x s := by
  refine ⟨fun a s' hrun => ?_, hx.error⟩
  obtain ⟨hinv, hstep, ha⟩ := hx.ok a s' hrun
  exact ⟨hinv, hstep, h a ha⟩

end KeepsAt

namespace Keeps

lemma mono {P' : α → Prop} (hx : R.Keeps P x) (h : ∀ a, P a → P' a) : R.Keeps P' x := fun s hs => (hx s hs).mono h

lemma pure {a : α} (h : P a) : R.Keeps P (Pure.pure a) := fun _ hs => .pure hs h

lemma throw {φ : Failure} (h : R.Allowed φ) : R.Keeps P (throw φ) := by
  intro s hs
  refine ⟨nofun, fun ψ t hψ => ?_⟩
  cases hψ
  exact h

lemma bind (hx : R.Keeps P x) (hf : ∀ a, P a → R.Keeps Q (f a)) : R.Keeps Q (x >>= f) := fun s hs =>
  (hx s hs).bind fun a s' ha hs' _ => hf a ha s' hs'

lemma get {f : State → Check β} (h : ∀ s, R.Inv s → R.KeepsAt Q (f s) s) : R.Keeps Q (MonadState.get >>= f) :=
  fun s hs => .get (h s hs)

lemma skip (hx : R.Keeps P x) (hf : ∀ a, R.Keeps Q (f a)) : R.Keeps Q (x >>= f) := hx.bind fun a _ => hf a

lemma andThen (hx : R.Keeps (fun _ => True) x) (hf : ∀ a, R.Keeps Q (f a)) : R.Keeps Q (x >>= f) := hx.skip hf

lemma discard (hx : R.Keeps P x) : R.Keeps (fun _ => True) (Functor.discard x) := hx.skip fun _ => .pure trivial

lemma ite {c : Prop} [Decidable c] {y : Check α} (hx : c → R.Keeps P x) (hy : ¬c → R.Keeps P y) :
    R.Keeps P (if c then x else y) := by
  by_cases h : c
  · rw [if_pos h]
    exact hx h
  · rw [if_neg h]
    exact hy h

/-! ### Loops -/

lemma forM {l : List α} {f : α → Check Unit} (h : ∀ a ∈ l, R.Keeps (fun _ => True) (f a)) :
    R.Keeps (fun _ => True) (l.forM f) := by
  induction l with
  | nil => exact .pure trivial
  | cons a l ih =>
    rw [forM_cons]
    exact (h a (by simp)).skip fun _ => ih fun b hb => h b (List.mem_cons_of_mem _ hb)

lemma mapM {l : List α} {f : α → Check β} (h : ∀ a ∈ l, R.Keeps Q (f a)) :
    R.Keeps (fun bs => ∀ b ∈ bs, Q b) (l.mapM f) := by
  induction l with
  | nil => exact .pure (by simp)
  | cons a l ih =>
    rw [List.mapM_cons]
    refine (h a (by simp)).bind fun b hb => ?_
    refine (ih fun c hc => h c (List.mem_cons_of_mem _ hc)).bind fun bs hbs => ?_
    exact .pure (by simpa using ⟨hb, hbs⟩)

lemma foldlM {l : List α} {f : β → α → Check β} (h : ∀ a ∈ l, ∀ b, Q b → R.Keeps Q (f b a)) {b : β} (hb : Q b) :
    R.Keeps Q (l.foldlM f b) := by
  induction l generalizing b with
  | nil => exact .pure hb
  | cons a l ih =>
    rw [List.foldlM_cons]
    exact (h a (by simp) b hb).bind fun c hc => ih (fun d hd => h d (List.mem_cons_of_mem _ hd)) hc

lemma forIn {l : List α} {body : α → PUnit → Check (ForInStep PUnit)}
    (h : ∀ a ∈ l, R.Keeps (fun _ => True) (body a ⟨⟩)) : R.Keeps (fun _ => True) (forIn l ⟨⟩ body) := by
  induction l with
  | nil => exact .pure trivial
  | cons a l ih =>
    rw [List.forIn_cons]
    refine (h a (by simp)).skip fun step => ?_
    cases step with
    | done => exact .pure trivial
    | yield => exact ih fun b hb => h b (List.mem_cons_of_mem _ hb)

lemma each_of_forM {l : List α} {f : α → Check Unit} {D : α → State → Prop} {t : State}
    (h : ∀ a ∈ l, R.Keeps (fun _ => True) (f a)) (hkept : ∀ a u v, R.Step u v → D a u → D a v)
    (hdone : ∀ a ∈ l, ∀ u v, R.Inv u → R.Step s u → (f a).run u = (.ok (), v) → D a v)
    (hs : R.Inv s) (hrun : (l.forM f).run s = (.ok (), t)) : ∀ a ∈ l, D a t := by
  induction l generalizing s with
  | nil => simp
  | cons a l ih =>
    obtain ⟨_, u, hfirst, hrest⟩ := exists_of_run_bind hrun
    obtain ⟨hu, hstep, -⟩ := (h a (by simp) s hs).ok _ u hfirst
    have hl : ∀ b ∈ l, R.Keeps (fun _ => True) (f b) := fun b hb => h b (List.mem_cons_of_mem _ hb)
    refine List.forall_mem_cons.mpr ⟨?_, ih hl (fun b hb v w hv hstep' => ?_) hu hrest⟩
    · exact hkept a u t ((forM hl u hu).ok _ t hrest).2.1 (hdone a (by simp) s u hs (R.refl s) hfirst)
    · exact hdone b (List.mem_cons_of_mem _ hb) v w hv (R.trans hstep hstep')

end Keeps

end Regime

lemma exists_of_run_bracket {enter leave : State → State} {a : α} {t : State}
    (h : (bracket enter leave x).run s = (.ok a, t)) : ∃ u, x.run (enter s) = (.ok a, u) ∧ leave u = t := by
  have hrun : (bracket enter leave x).run s = ((x.run (enter s)).1, leave (x.run (enter s)).2) := rfl
  rw [hrun] at h
  obtain ⟨hresult, hleave⟩ := Prod.mk.inj h
  exact ⟨_, Prod.ext hresult rfl, hleave⟩

lemma Regime.KeepsAt.bracket {S : Regime} {enter leave : State → State} (hx : S.KeepsAt P x (enter s))
    (hallowed : ∀ φ, S.Allowed φ → R.Allowed φ)
    (hleave : ∀ a t, x.run (enter s) = (.ok a, t) → S.Inv t → S.Step (enter s) t →
      R.Inv (leave t) ∧ R.Step s (leave t)) :
    R.KeepsAt P (bracket enter leave x) s := by
  have hrun : (Check.bracket enter leave x).run s = ((x.run (enter s)).1, leave (x.run (enter s)).2) := rfl
  match hend : x.run (enter s) with
  | (.ok a, t) =>
    obtain ⟨hinv, hstep, ha⟩ := hx.ok a t hend
    obtain ⟨hinv', hstep'⟩ := hleave a t hend hinv hstep
    rw [hend] at hrun
    exact .of_run hrun hinv' hstep' ha
  | (.error φ, t) =>
    rw [hend] at hrun
    exact .fails hrun (hallowed φ (hx.error φ t hend))

end TraitCheck.Check
