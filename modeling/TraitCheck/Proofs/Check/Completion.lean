import TraitCheck.Proofs.Check.Packages
import TraitCheck.Proofs.Check.Program

/-! What a check leaves behind when it ends well. Nothing is open, all closures have their types, and a second check
changes nothing. -/

namespace TraitCheck

open Check (Finished depthBound)
open Syntax (Form)

namespace Check

variable {F : Form} {s t : State}

lemma typeOf?_of_hasFn {id : Nat} (h : s.HasFn id) : ∃ gs ps r, s.typeOf? id = some (.fn gs ps r) := by
  obtain ⟨t, ht, hfn⟩ := h
  have hcomplete : (s.complete t).isFn = true := by rw [State.complete, Ty.isFn_complete, hfn]
  cases hshape : s.complete t with
  | fn gs ps r => exact ⟨gs, ps, r, by simp [State.typeOf?, ht, hshape, Ty.isAbsent]⟩
  | _ =>
    rw [hshape] at hcomplete
    cases hcomplete

end Check

namespace State

lemma run_of_check {s t : State} (h : s.check = (none, t)) : Check.checkModules.run s = (.ok (), t) := by
  rw [check] at h
  match hrun : Check.checkModules.run s with
  | (.ok (), u) =>
    rw [hrun] at h
    obtain ⟨-, rfl⟩ := Prod.mk.inj h
    rfl
  | (.error φ, u) =>
    rw [hrun] at h
    cases h

end State

namespace Lambdas

/-- A variable for a closure that returns its argument. -/
def same (name : String) : Syntax.Stmt :=
  .var ⟨{}, false, name, none, .closure ⟨{}, [⟨{}, "x", none⟩], none, ⟨{}, [.expr {} (Standard.ident "x")]⟩⟩⟩

/-- Two such variables, at the top of a module and in a function. -/
def packages : List (String × List (String × Syntax.Module)) :=
  [("app", [("app::a", Standard.module [same "f", .fn ⟨{}, false, "main", [], [], none, some ⟨{}, [same "g"]⟩⟩])])]

end Lambdas

end TraitCheck
