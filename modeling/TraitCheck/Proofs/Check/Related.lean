import TraitCheck.Proofs.Check.Build
import TraitCheck.Proofs.Check.Glance

/-! Impls of traits that have relations. Building leaves an impl of a trait out only with an error. -/

namespace TraitCheck.Check

open Regime
open Syntax (Form Stmt)

variable {F : Form} {s t : State} {stmt : Stmt}

def Related (stmt : Stmt) (s : State) : Prop :=
  ∀ d, stmt = .impl d → d.trait.isSome → s.Clean → ∃ i ∈ s.instances, i.owner.id = d.info.id

lemma Related.grows (h : Related stmt s) (hst : Grows F s t) : Related stmt t := by
  intro d hd htrait hclean
  obtain ⟨i, hi, hid⟩ := h d hd htrait (hclean.of_prefix hst.diagnostics)
  exact ⟨i, hst.instances.mem hi, hid⟩

/-! ### Single impls -/

lemma not_clean_of_unresolved {info : Syntax.Info} {what : String} {kinds : List Kind} {p : Path}
    (hrun : (resolveOrReport info what kinds p).run s = (.ok none, t)) : ¬ t.Clean := by
  obtain ⟨found, u, -, hrun⟩ := exists_of_run_bind hrun
  cases found with
  | some r =>
    obtain ⟨may, v, -, hrun⟩ := exists_of_run_bind hrun
    cases may <;> cases hrun
  | none =>
    cases hrun
    exact u.not_clean_reported _ rfl

lemma not_clean_of_implInstance {id : Nat} {d : ImplDecl} (htrait : d.node.trait.isSome)
    (hrun : (implInstance id d).run s = (.ok none, t)) : ¬ t.Clean := by
  obtain ⟨m, _, -, hrun⟩ := exists_of_run_bind hrun
  obtain ⟨⟨scope, generics⟩, _, -, hrun⟩ := exists_of_run_bind hrun
  obtain ⟨u, hbody, rfl⟩ := exists_of_run_bracket hrun
  obtain ⟨forType, v, -, hbody⟩ := exists_of_run_bind hbody
  have hfaulty : ¬ u.Clean := by
    match h : d.node.trait with
    | none => simp [h] at htrait
    | some (.hole _) | some (.fn _ _ _ _) =>
      rw [h] at hbody
      cases hbody
      exact v.not_clean_reported _ rfl
    | some (.named info names args) =>
      rw [h] at hbody
      obtain ⟨p, w, -, hbody⟩ := exists_of_run_bind hbody
      obtain ⟨found, w, hfound, hbody⟩ := exists_of_run_bind hbody
      cases found with
      | none =>
        cases hbody
        exact not_clean_of_unresolved hfound
      | some r =>
        obtain ⟨path, definition, module⟩ := r
        cases definition with
        | trait trait =>
          obtain ⟨r, w', -, hbody⟩ := exists_of_run_bind hbody
          cases r <;> cases hbody
        | _ =>
          cases hbody
          exact w.not_clean_reported _ rfl
  exact hfaulty

lemma related_of_addInstance (hs : Ready ⟨s.fixed, F, .none⟩ s) {module : Nat}
    (hstmt : stmt ∈ (s.module module).syn.statements) (hrun : (addInstance module stmt).run s = (.ok (), t)) :
    Related stmt t := by
  rintro d rfl htrait hclean
  have hproper := ((entry_safe module s hs).ok _ s (run_entry module s)).2.2
  obtain ⟨k, hk⟩ := Option.isSome_iff_exists.mp (hproper.impls d hstmt)
  have hby := hproper.defined _ hstmt k hk
  cases k <;> simp only [Definition.DefinedBy] at hby
  case impl i =>
  subst hby
  rw [addInstance, run_get_bind, run_bind_ok (run_entry module s),
    show (s.module module).defs[(Stmt.impl i.node).info.id]? = _ from hk] at hrun
  obtain ⟨found, u, hfound, hrun⟩ := exists_of_run_bind hrun
  obtain ⟨-, -, howner⟩ := (implInstance_safe _ (hproper.defs _ _ hk) s hs).ok found u hfound
  cases found with
  | none =>
    cases hrun
    exact absurd hclean (not_clean_of_implInstance htrait hfound)
  | some j =>
    cases hrun
    refine ⟨j, List.mem_append_right _ (List.mem_singleton_self j), ?_⟩
    rw [(howner j rfl).2]
    rfl

/-! ### All of them -/

lemma syn_fixed (s : State) (id : Nat) : (s.fixed.module id).syn = (s.module id).syn := by
  rw [State.module, State.module, State.fixed, List.getElem?_map]
  cases s.modules[id]? <;> rfl

lemma Grows.syn (h : Grows F s t) (id : Nat) : (t.module id).syn = (s.module id).syn := by
  rw [← syn_fixed t, ← syn_fixed s, State.module, State.module, h.modules]

lemma related_of_addInstances (hs : Sane ⟨s.fixed, F, .none⟩ s) {id : Nat} (hrun : (addInstances id).run s = (.ok (), t)) :
    ∀ stmt ∈ (t.module id).syn.statements, Related stmt t := by
  obtain ⟨-, hgrows, -⟩ := (addInstances_collecting id s hs).ok _ t hrun
  have hgrows : Grows F s t := hgrows
  rw [hgrows.syn id]
  rw [addInstances, run_bind_ok (run_entry id s)] at hrun
  obtain ⟨u, hbody, rfl⟩ := exists_of_run_bracket hrun
  have hentered : (building F).Inv (entered id s) := .entered hs id
  have hall : ∀ stmt ∈ (s.module id).syn.statements, Related stmt u := by
    refine Keeps.each_of_forM (R := building F) (D := Related) (fun stmt _ => addInstance_building id stmt)
      (fun stmt v w hstep h => h.grows hstep) (fun stmt hstmt v w hv hstep hrun => ?_) hentered hbody
    have hstep : Grows F (entered id s) v := hstep
    refine related_of_addInstance hv ?_ hrun
    rw [hstep.syn id]
    exact hstmt
  exact hall

lemma related_of_buildRelations (hs : Sane ⟨s.fixed, F, .none⟩ s) (hbuilt : s.built = false)
    (hrun : buildRelations.run s = (.ok (), t)) {id : Nat} (hid : id < s.modules.length) :
    ∀ stmt ∈ (t.module id).syn.statements, Related stmt t := by
  rw [run_buildRelations hbuilt] at hrun
  obtain ⟨_, u, hloop, hrest⟩ := exists_of_run_bind hrun
  have hkeeps : ∀ id ∈ List.range s.modules.length, (collecting F).Keeps (fun _ => True) (addInstances id) := fun id _ =>
    addInstances_collecting id
  obtain ⟨hu, -, -⟩ := (Keeps.forM hkeeps s hs).ok _ u hloop
  obtain ⟨-, hgrows, -⟩ := (reportAll_collected hu).ok _ t hrest
  have hgrows : Grows F u t := hgrows
  have hall := Keeps.each_of_forM (D := fun id t => ∀ stmt ∈ (t.module id).syn.statements, Related stmt t) hkeeps
    (fun id v w hstep h stmt hstmt => ?_) (fun id _ v w hv _ hrun => related_of_addInstances hv hrun) hs hloop
  · intro stmt hstmt
    rw [hgrows.syn] at hstmt
    exact (hall id (List.mem_range.mpr hid) stmt hstmt).grows hgrows
  · have hstep : Grows F v w := hstep
    rw [hstep.syn] at hstmt
    exact (h stmt hstmt).grows hstep

end TraitCheck.Check
