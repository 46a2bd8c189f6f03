import TraitCheck.Proofs.Check.Build
import TraitCheck.Proofs.Check.Moves
import TraitCheck.Proofs.Check.Packages

/-! Built relations. Each has the number of its place in the list, and no question has been asked until then. -/

namespace TraitCheck

open Check.Regime

namespace State

/-- Relations have the numbers of their places. -/
def Numbered (s : State) : Prop := ∀ (n : Nat) i, s.instances[n]? = some i → i.relation.id = n

/-- Some relations may have been collected, but nothing has been asked. -/
structure Unasked (s : State) : Prop where
  built : s.built = false
  numbered : s.Numbered
  memo : s.memo = []

variable {s t : State}

lemma Numbered.snoc (h : s.Numbered) {i : Instance} (hi : i.relation.id = s.instances.length)
    (ht : t.instances = s.instances ++ [i]) : t.Numbered := by
  intro n j hj
  rw [ht, List.getElem?_append] at hj
  split at hj
  · exact h n j hj
  · next hn =>
    obtain ⟨hlt, rfl⟩ := List.getElem?_eq_some_iff.mp hj
    rw [List.length_singleton] at hlt
    simp only [List.getElem_singleton]
    omega

lemma Numbered.nodup (h : s.Numbered) : (s.relations.map (·.id)).Nodup := by
  have hids : s.relations.map (·.id) = List.range s.instances.length := by
    refine List.ext_getElem (by simp [relations]) fun n hn _ => ?_
    have hlt : n < s.instances.length := by simpa [relations] using hn
    simpa [relations] using h n _ (List.getElem?_eq_getElem hlt)
  rw [hids]
  exact List.nodup_range

lemma Updates.memo (h : s.Updates t) (hs : s.built = false) : t.memo = s.memo := by
  induction h with
  | refl => rfl
  | @tail u v h hstep ih =>
    rw [← ih]
    cases hstep with
    | note hbeside => exact hbeside.memo
    | remember hu _ => exact absurd (hu.symm.trans (Updates.built h)) (by simp [hs])
    | _ => rfl

lemma Unasked.updates (hs : s.Unasked) (h : s.Updates t) : t.Unasked := by
  refine ⟨h.built.trans hs.built, ?_, (h.memo hs.built).trans hs.memo⟩
  rw [Numbered, h.instances]
  exact hs.numbered

lemma Unasked.relate (hs : s.Unasked) (h : s.Updates t) {i : Instance} (hi : i.relation.id = s.instances.length) :
    { t with instances := t.instances ++ [i] : State }.Unasked := by
  obtain ⟨hbuilt, hnumbered, hmemo⟩ := hs.updates h
  rw [← h.instances] at hi
  exact ⟨hbuilt, hnumbered.snoc hi rfl, hmemo⟩

end State

namespace Check

variable {α : Type} {P : α → Prop} {x : Check α} {s t : State}

def numbering : Regime where
  Inv := State.Unasked
  Step _ _ := True
  refl _ := trivial
  trans _ _ := trivial
  Allowed _ := True

lemma Moves.numbering (h : Moves false x) : numbering.Keeps (fun _ => True) x := fun _ hs =>
  ⟨fun _ _ hrun => ⟨State.Unasked.updates hs (h.updates hs.built hrun), trivial, trivial⟩, fun _ _ _ => trivial⟩

lemma traitInstance_yields (id : Nat) (d : TraitDecl) : Yields (fun i => i.relation.id = id) (traitInstance id d) :=
  .last fun _ => .pure rfl

lemma Yields.inScope (h : Yields P x) (scope : Scope) : Yields P (Check.inScope scope x) := by
  intro s a t hrun
  obtain ⟨u, hx, -⟩ := exists_of_run_bracket hrun
  exact h _ a u hx

lemma implInstance_yields (id : Nat) (d : ImplDecl) :
    Yields (fun o => ∀ i, o = some i → i.relation.id = id) (implInstance id d) := by
  refine .last fun m => .last fun r => .inScope (.last fun forType => ?_) _
  have hnone : Yields (fun o : Option Instance => ∀ i, o = some i → i.relation.id = id) (pure none) := .pure (by simp)
  split
  · split
    · exact .pure (by simp)
    · exact hnone
  · refine .last fun p => .last fun r => ?_
    split
    · exact hnone
    · refine .last fun t => ?_
      split
      · exact .pure (by simp)
      · exact .throw _
    · exact .last fun _ => hnone
  · exact .last fun _ => hnone

lemma addInstance_numbering (module : Nat) (stmt : Syntax.Stmt) :
    numbering.Keeps (fun _ => True) (addInstance module stmt) := by
  refine .get fun s hs => .after (run_entry module s) trivial ?_
  have hs : s.Unasked := hs
  split
  · next d _ =>
    refine ⟨fun _ t hrun => ⟨?_, trivial, trivial⟩, fun _ _ _ => trivial⟩
    obtain ⟨i, u, hfirst, hrest⟩ := exists_of_run_bind hrun
    cases hrest
    have hupdates := (traitInstance_moves _ d).updates hs.built hfirst
    exact hs.relate hupdates (traitInstance_yields _ d s i u hfirst)
  · next d _ =>
    refine ⟨fun _ t hrun => ⟨?_, trivial, trivial⟩, fun _ _ _ => trivial⟩
    obtain ⟨found, u, hfirst, hrest⟩ := exists_of_run_bind hrun
    have hupdates := (implInstance_moves _ d).updates hs.built hfirst
    cases found with
    | none =>
      cases hrest
      exact hs.updates hupdates
    | some i =>
      cases hrest
      exact hs.relate hupdates (implInstance_yields _ d s _ u hfirst i rfl)
  · exact .pure hs trivial

lemma addInstances_numbering (id : Nat) : numbering.Keeps (fun _ => True) (addInstances id) := by
  refine (Moves.numbering (entry_moves id)).andThen fun m s hs => ?_
  have hentered := State.Unasked.updates hs (State.Update.enter s id).updates
  refine .bracket (Keeps.forM (fun stmt _ => addInstance_numbering id stmt) _ hentered) (fun _ _ => trivial) ?_
  exact fun _ t _ ht _ => ⟨State.Unasked.updates ht (State.Update.leave t).updates, trivial⟩

/-! ### After all of them -/

def afterwards : Regime where
  Inv _ := True
  Step s t := t.instances = s.instances ∧ t.memo = s.memo ∧ t.built = s.built
  refl _ := ⟨rfl, rfl, rfl⟩
  trans h h' := ⟨h'.1.trans h.1, h'.2.1.trans h.2.1, h'.2.2.trans h.2.2⟩
  Allowed _ := True

lemma reportOverlaps_afterwards (seen : List String) (is : List Instance) :
    afterwards.Keeps (fun _ => True) (reportOverlaps seen is) := by
  induction is generalizing seen with
  | nil => exact .pure trivial
  | cons i is ih =>
    refine .ite (fun _ => .ite (fun _ => ?_) fun _ => ih _) fun _ => ih seen
    cases i.owner with
    | trait d => exact .andThen (.throw trivial) fun _ => ih seen
    | impl d => exact .andThen (fun s _ => .of_run rfl trivial ⟨rfl, rfl, rfl⟩ trivial) fun _ => ih seen

lemma numbered_of_buildRelations (hs : s.Unasked) (hrun : buildRelations.run s = (.ok (), t)) :
    t.Fresh ∧ t.Numbered := by
  rw [run_buildRelations hs.built] at hrun
  obtain ⟨_, u, hloop, hrest⟩ := exists_of_run_bind hrun
  obtain ⟨hu, -, -⟩ := (Keeps.forM (fun id _ => addInstances_numbering id) s hs).ok _ u hloop
  have hu : u.Unasked := hu
  obtain ⟨-, ⟨hinstances, hmemo, hbuilt⟩, -⟩ :=
    (reportOverlaps_afterwards [] u.instances { u with built := true } trivial).ok _ t hrest
  refine ⟨⟨hbuilt, hmemo.trans hu.memo⟩, ?_⟩
  rw [State.Numbered, hinstances]
  exact hu.numbered

end Check

namespace State

lemma Unchecked.unasked {s : State} {wf : Prop} (h : s.Unchecked wf) : s.Unasked := by
  have hinstances : s.instances = [] := congrArg State.instances h.rest
  refine ⟨congrArg State.built h.rest, ?_, congrArg State.memo h.rest⟩
  simp [Numbered, hinstances]

/-- Packages whose names are known. -/
def glanced (prelude : List Path) (reserve : Nat) (packages : List (String × List (String × Syntax.Module))) : State :=
  (((List.range (ofPackages prelude reserve packages).modules.length).forM Check.glanceModule).run
    (ofPackages prelude reserve packages)).2

lemma glanced_unasked (prelude : List Path) (reserve : Nat) (packages : List (String × List (String × Syntax.Module))) :
    (glanced prelude reserve packages).Unasked := by
  have hunchecked : (ofPackages prelude reserve packages).Unchecked False := unchecked_ofPackages _ _ nofun
  have hunasked := hunchecked.unasked
  exact hunasked.updates ((Check.Moves.forM Check.glanceModule_moves).updates hunasked.built rfl)

end State

end TraitCheck
