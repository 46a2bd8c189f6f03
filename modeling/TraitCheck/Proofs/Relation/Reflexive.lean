import TraitCheck.Check.State
import TraitCheck.Proofs.Ty.Parts

/-! Types and themselves. Equality is an equivalence, so that a type fits itself and two branches of one type have it in
common. Nothing else has to be asked for that, and nothing has to be known of the relations. -/

namespace TraitCheck

namespace Ty

lemma equal_equivalence : Equivalence fun a b : Ty => a.equal b = true where
  refl := equal_self
  symm := equal_symm
  trans := equal_trans

lemma fits?_self (t : Ty) : t.fits? t = some true := by
  cases t with
  | unknown => rfl
  | hole => rfl
  | absent => rfl
  | closure id n => simp [fits?, absorbs, closureFits]
  | _ => simp [fits?, equal_self]

end Ty

section

variable {m : Type → Type} [Monad m] (chains : Path → m (List Chain))

lemma assignWith_self (budget : Nat) (asked : List String) (t : Ty) : assignWith chains budget asked t t = pure true := by
  rw [assignWith.eq_def]
  simp only [t.fits?_self]

lemma combineWith_self [LawfulMonad m] (t : Ty) : combineWith chains t t = pure (some t) := by
  rw [combineWith, assignWith_self]
  split_ifs
  · rfl
  · simp

end

lemma Check.run_ask_pure {α : Type} {q : {m : Type → Type} → [Monad m] → (Path → m (List Chain)) → m α} {a : α}
    (h : ∀ {m : Type → Type} [Monad m] [LawfulMonad m] (chains : Path → m (List Chain)), q chains = pure a) (s : State) :
    (ask q).run s = (.ok a, s) := by
  change (if s.built then _ else _ : Check α).run s = _
  split_ifs
  · rw [h (chains s.relations)]
    rfl
  · rw [h (m := Check)]
    rfl

theorem equal_equivalence_fits_self :
    Equivalence (fun a b : Ty => a.equal b = true) ∧
    ∀ (s : State) (t : Ty), (Check.isAssignable t t).run s = (.ok true, s) ∧
      ∃ c, (Check.combine t t).run s = (.ok (some c), s) ∧ c.equal t = true := by
  refine ⟨Ty.equal_equivalence, fun s t => ⟨?_, t, ?_, t.equal_self⟩⟩
  · exact Check.run_ask_pure (fun chains => assignWith_self chains maxDepth [] t) s
  · exact Check.run_ask_pure (fun chains => combineWith_self chains t) s

end TraitCheck
