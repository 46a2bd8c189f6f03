import TraitCheck.Proofs.Check.Program
import TraitCheck.Proofs.Check.Related

/-! Modules whose check leaves nothing out. If all traits are defined and all impls have relations, the check of a module
ends with types for everything that is written in it. -/

namespace TraitCheck

open Check.Regime
open Syntax (Form Stmt)

namespace Check

variable {e : Setting} {nested : Nested} {s t : State}

/-! ### Modules -/

/-- Nothing is left out: the parts of what has a type have types, and so has everything that is declared in the modules
that have been checked. -/
structure Covered (e : Setting) (s : State) : Prop where
  complete : s.Complete e fun _ => False
  checked : ∀ (i : Nat) m, s.modules[i]? = some m → m.phase = .checked →
    ∀ stmt ∈ (e.module i).syn.statements, s.Filled (declaredParts e.toState i stmt)

lemma filled_of_further {l : List Nat} (h : s.Filled l) (hst : Further s t) : t.Filled l := fun hclean id hid =>
  hst.slots id (h (hclean.of_prefix hst.diagnostics) id hid)

section

variable (he : e.built = true)

include he

lemma covered_of_checkModule {checks : Nat → Nested} (hchecks : ∀ depth, SafeNested e (checks depth)) {id : Nat}
    (hid : id < e.modules.length) (hs : Resting e s) (hcovered : Covered e s) (hrun : (checkModule checks id).run s = (.ok (), t)) : Covered e t := by
  have hfurther : Further s t := ((checkModule_program he hchecks hid s hs).ok () t hrun).2.1
  have hsyn : (s.module id).syn = (e.module id).syn := by rw [← hs.fixed, syn_fixed]
  rw [checkModule, run_bind_ok (run_entry id s)] at hrun
  split at hrun
  · cases hrun
    exact hcovered
  · cases hrun
    exact hcovered
  · obtain ⟨_, _, hget, hrun⟩ := exists_of_run_bind hrun
    cases hget
    obtain ⟨_, _, hmark, hrun⟩ := exists_of_run_bind hrun
    cases hmark
    obtain ⟨_, u, hbody, hrun⟩ := exists_of_run_bind hrun
    obtain rfl : phased id .checked u = t := (Prod.mk.inj hrun).2
    have hsteady : Steady e (phased id .checking s) := hs.toSteady.phased id (by simp)
    have hstatements : Types e [] (fun _ => True) ((s.module id).syn.statements.flatMap (declaredParts e.toState id))
        ((s.module id).syn.statements.forM (checkTopLevel (checks (depthBound s)) id)) :=
      .forM fun stmt hstmt => checkTopLevel_types he (hchecks _) (hsyn ▸ hstmt)
    obtain ⟨hcomplete, hfilled⟩ := hstatements.enter hsteady id hcovered.complete (.nil _) hbody
    have hcalm : Calm (phased id .checking s) u :=
      Onward.toCalm ((hstatements.checks.inModule id _ hsteady).ok () u hbody).2.1
    refine ⟨hcomplete, fun i m hm hchecked stmt hstmt => ?_⟩
    by_cases hi : id = i
    · subst hi
      rw [← hsyn] at hstmt
      exact hfilled.mono fun _ hk => List.mem_flatMap.mpr ⟨stmt, hstmt, hk⟩
    · rw [phased, getElem?_modify_ne hi] at hm
      obtain ⟨k, hk, hphase⟩ := Option.map_eq_some_iff.mp (phase_of_phased hcalm hi hm)
      exact filled_of_further (hcovered.checked i k hk (hphase.trans hchecked) stmt hstmt) hfurther
  · cases hrun

end

lemma covered_of_typeTopLevelClosures (hn : SafeNested e nested) {fuel : Nat} (hs : Resting e s) (hcovered : Covered e s)
    (hrun : (typeTopLevelClosures nested fuel).run s = (.ok (), t)) : Covered e t := by
  induction fuel generalizing s with
  | zero => cases hrun
  | succ fuel ih =>
    rw [typeTopLevelClosures, run_get_bind] at hrun
    cases hpending : s.pending with
    | nil =>
      rw [hpending] at hrun
      cases hrun
      exact hcovered
    | cons p rest =>
      rw [hpending] at hrun
      obtain ⟨_, u, hfirst, hrun⟩ := exists_of_run_bind hrun
      obtain ⟨hu, hfurther, -⟩ := (typeFirst_program hn hs hpending).ok _ u hfirst
      refine ih hu ?_ hrun
      obtain ⟨v, hv, rfl⟩ := exists_of_run_bracket hfirst
      have hfits := hs.pending p (by simp [hpending])
      obtain ⟨new, hnew, hsettled⟩ := settled_of_typeFirst hn hs.toSteady hpending hv
      obtain ⟨hcomplete, -⟩ := (typeUnused_types hn hfits).enter hs.toSteady _ hcovered.complete (.nil s) hv
      have hcalm : Calm s v := Onward.toCalm (((typeUnused_types hn hfits).checks.inModule _ s hs.toSteady).ok () v hv).2.1
      have htail : v.pending.tail = rest ++ new := by rw [hnew]; rfl
      rw [htail]
      refine ⟨hcomplete.drop hnew fun q hq hmem => ?_, fun i m hm hchecked stmt hstmt => ?_⟩
      · obtain rfl := (List.mem_cons.mp hq).resolve_right hmem
        exact hsettled
      · have hphase : (v.modules[i]?).map (·.phase) = (s.modules[i]?).map (·.phase) := by
          rw [← List.getElem?_map, hcalm.phases, List.getElem?_map]
        have hm : v.modules[i]? = some m := hm
        rw [hm] at hphase
        obtain ⟨k, hk, hphase⟩ := Option.map_eq_some_iff.mp hphase.symm
        have hkept : v.Filled (declaredParts e.toState i stmt) :=
          (hcovered.checked i k hk (hphase.trans hchecked) stmt hstmt).calm hcalm
        exact hkept

/-! ### Everything -/

def covering (e : Setting) : Regime := { program e with Inv := fun s => Resting e s ∧ Covered e s }

lemma checkModule_covering (he : e.built = true) {checks : Nat → Nested} (hchecks : ∀ depth, SafeNested e (checks depth))
    {id : Nat} (hid : id < e.modules.length) : (covering e).Keeps (fun _ => True) (checkModule checks id) := by
  rintro s ⟨hs, hcovered⟩
  have hkeeps := checkModule_program he hchecks hid s hs
  refine ⟨fun _ t hrun => ?_, hkeeps.error⟩
  obtain ⟨ht, hfurther, -⟩ := hkeeps.ok _ t hrun
  exact ⟨⟨ht, covered_of_checkModule he hchecks hid hs hcovered hrun⟩, hfurther, trivial⟩

variable {F : Form}

lemma covered_of_grows (hs : s.Surveyed F) (h : Grows F s t) : Covered ⟨t.fixed, F, .none⟩ t := by
  refine ⟨fun _ id hid => .inl ?_, fun i m hm hchecked => ?_⟩
  · by_cases hleaf : F.Leaf id
    · have hparts : (F.node id).parts = [] := by rw [hleaf]
      simp [hparts]
    · have hslots : s.slots = {} := congrArg State.slots hs.apart
      rw [State.Has, h.kept id hleaf, hslots] at hid
      simp at hid
  · have hmem : m.phase ∈ s.modules.map (·.phase) := h.phases ▸ List.mem_map_of_mem (List.mem_of_getElem? hm)
    obtain ⟨k, hk, hphase⟩ := List.mem_map.mp hmem
    rw [← hphase, (hs.modules k hk).2.2] at hchecked
    cases hchecked

lemma Passes.covered {glanced related : State} (h : Passes F levels glanced related t) : Covered ⟨t.fixed, F, .none⟩ t := by
  have hsafe : ∀ depth, SafeNested ⟨related.fixed, F, .none⟩ (levels depth) := levels_safe rfl h.built
  obtain ⟨-, hfixed, -⟩ := h.finished hsafe
  rw [hfixed]
  obtain ⟨_, u, hall, hlast⟩ := exists_of_run_bind h.rest
  have hmodules : ∀ id ∈ List.range related.modules.length,
      (covering ⟨related.fixed, F, .none⟩).Keeps (fun _ => True) (checkModule levels id) := fun id hid =>
    checkModule_covering h.built hsafe (by simpa [State.fixed] using hid)
  obtain ⟨⟨hu, hcovered⟩, -, -⟩ := (Keeps.forM hmodules related ⟨h.resting, covered_of_grows h.surveyed h.grows⟩).ok _ u hall
  rw [run_get_bind] at hlast
  exact covered_of_typeTopLevelClosures (hsafe _) hu hcovered hlast

lemma exists_fixed_of_modules (h : t.fixed.modules = s.fixed.modules) {i : Nat} {m : ModuleEntry}
    (hm : t.modules[i]? = some m) : ∃ k, s.modules[i]? = some k ∧ k.fixed = m.fixed := by
  have hi : (t.modules[i]?).map (·.fixed) = (s.modules[i]?).map (·.fixed) := by
    rw [← List.getElem?_map, ← List.getElem?_map]
    exact congrArg (·[i]?) h
  rw [hm] at hi
  exact Option.map_eq_some_iff.mp hi.symm

lemma Passes.exists_impl {glanced related : State} (h : Passes F levels glanced related t) (hclean : t.Clean) {i : Nat}
    {m : ModuleEntry} (hm : t.modules[i]? = some m) {stmt : Stmt} (hstmt : stmt ∈ m.syn.statements)
    (hdeclared : isDeclared t.fixed i stmt = false) :
    ∃ d, stmt = .impl d ∧ d.trait = none ∧ ∀ j ∈ t.instances, j.owner.id ≠ d.info.id := by
  obtain ⟨-, hfixed, hfurther⟩ := h.finished (levels_safe rfl h.built)
  have hrelated : related.Clean := hclean.of_prefix hfurther.diagnostics
  have hmodules : t.fixed.modules = glanced.fixed.modules := (congrArg State.modules hfixed).trans h.grows.modules
  obtain ⟨k, hk, hkm⟩ := exists_fixed_of_modules hmodules hm
  have hsyn : k.syn = m.syn := show k.fixed.syn = m.fixed.syn by rw [hkm]
  cases stmt with
  | trait d =>
    have hdefs : (t.fixed.module i).defs = k.defs := by
      rw [State.module, hmodules, State.fixed, List.getElem?_map, hk]
      rfl
    have hlisted := (h.surveyed.modules k (List.mem_of_getElem? hk)).2.1.all
      (hrelated.of_prefix h.grows.diagnostics) (.trait d) (hsyn ▸ hstmt) rfl
    rw [isDeclared, hdefs] at hdeclared
    exact absurd (hlisted.symm.trans hdeclared) (by decide)
  | impl d =>
    have hnone : ∀ j ∈ t.fixed.instances, j.owner.id ≠ d.info.id := by simpa [isDeclared] using hdeclared
    refine ⟨d, rfl, ?_, hnone⟩
    by_contra htrait
    have hall := related_of_buildRelations h.surveyed.steady.toSane (congrArg State.built h.surveyed.apart) h.build
      (List.getElem?_eq_some_iff.mp hk).1
    have hstmt : .impl d ∈ (related.module i).syn.statements := by
      rw [h.grows.syn, State.module_eq hk, hsyn]
      exact hstmt
    obtain ⟨j, hj, hid⟩ := hall _ hstmt d rfl (Option.isSome_iff_ne_none.mpr htrait) hrelated
    have hj : j ∈ related.fixed.instances := hj
    exact hnone j (hfixed ▸ hj) hid
  | _ => cases hdeclared

end Check

end TraitCheck
