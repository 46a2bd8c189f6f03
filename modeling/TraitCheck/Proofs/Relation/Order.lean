import TraitCheck.Proofs.Relation.Plain

/-! Questions that were asked before change no answer. -/

namespace TraitCheck

theorem answers_after {s : State} (hs : s.Fresh) {names : Set Path} (hn : Faithful names s.relations)
    (hsh : Shallow s.relations names) {history : List Query} (hq : ∀ q ∈ history, q.Within names) :
    (∀ t u, t.Within names → u.Within names →
      ((Check.isAssignable t u).run (s.after history)).1 = ((Check.isAssignable t u).run s).1) ∧
    ∀ p ∈ names, ((Check.chainsOf p).run (s.after history)).1 = ((Check.chainsOf p).run s).1 := by
  have hnone : ∀ q ∈ ([] : List Query), q.Within names := by simp
  constructor
  · intro t u ht hu
    have hfresh := run_isAssignable hs hn hsh hnone ht hu
    exact (run_isAssignable hs hn hsh hq ht hu).trans hfresh.symm
  · intro p hp
    have hfresh := run_chainsOf hs hn hsh hnone hp
    exact (run_chainsOf hs hn hsh hq hp).trans hfresh.symm

theorem Shapes.same_answers : state.Fresh ∧ Faithful names state.relations ∧ Shallow state.relations names ∧
    (∀ q ∈ history, q.Within names) ∧
    ((Check.isAssignable (.named circle []) (.named shown [])).run (state.after history)).1 =
      ((Check.isAssignable (.named circle []) (.named shown [])).run state).1 ∧
    ((Check.chainsOf circle).run (state.after history)).1 = ((Check.chainsOf circle).run state).1 := by
  obtain ⟨hassign, hchains⟩ := answers_after fresh faithful (plain.shallow names) history_within
  refine ⟨fresh, faithful, plain.shallow names, history_within, ?_, hchains circle (by simp [names])⟩
  exact hassign _ _ (.named (by simp [names]) (by simp)) (.named (by simp [names]) (by simp))

theorem Boxes.answer_changed :
    ((Check.isAssignable (.named inner []) (.named shape [])).run state).1 = .ok true ∧
    ((Check.isAssignable (.named inner []) (.named shape [])).run (state.after [.chains outer])).1 = .ok false ∧
    ((Check.chainsOf inner).run state).1 = .ok [state.relations] ∧
    ((Check.chainsOf inner).run (state.after [.chains outer])).1 = .ok [] :=
  ⟨rfl, rfl, rfl, rfl⟩

end TraitCheck
