import TraitCheck.Check.Program
import TraitCheck.Proofs.Check.Bodies
import TraitCheck.Proofs.Check.Build
import TraitCheck.Proofs.Check.Glance

/-! The check of all modules, from a state before the check. It ends in order: no module is being worked on, and no
closure is without a type. -/

namespace TraitCheck

open Check.Regime
open Syntax (Form Stmt)

lemma Owner.exists_method? {o : Owner} {fn : Syntax.Fn} (h : fn ∈ o.fns) : ∃ m, o.method? fn.name = some m := by
  have hfind : (o.fns.reverse.find? (·.name = fn.name)).isSome := by
    rw [List.find?_isSome]
    exact ⟨fn, List.mem_reverse.mpr h, by simp⟩
  obtain ⟨f, hf⟩ := Option.isSome_iff_exists.mp hfind
  exact ⟨⟨f, o⟩, by rw [Owner.method?, hf]; rfl⟩

namespace Check

variable {e : Setting} {nested : Nested} {s t : State}

def isDeclared (s : State) (module : Nat) : Stmt → Bool
  | .trait d => ((s.module module).defs[d.info.id]?).isSome
  | .impl d => s.instances.any (·.owner.id = d.info.id)
  | _ => true

def declaredParts (s : State) (module : Nat) (stmt : Stmt) : List Nat :=
  if isDeclared s module stmt then stmt.parts else []

lemma declaredParts_subset (s : State) (module : Nat) (stmt : Stmt) : declaredParts s module stmt ⊆ stmt.parts := by
  rw [declaredParts]
  split <;> simp

section

variable (he : e.built = true) (hn : SafeNested e nested)

include he hn

/-! ### Statements at the top -/

lemma checkMethods_types {o : Owner} (h : o.Known e) :
    Types e [] (fun _ => True) (o.fns.flatMap Syntax.Fn.parts) (checkMethods nested o) := by
  rw [checkMethods]
  refine (ownerScope_safe h).types.bind fun scope hscope => withScope_types hn hscope ?_
  refine Types.skip (.forIn (p := Syntax.Fn.parts) fun fn hfn => ?_) fun _ => .pure trivial (by simp)
  obtain ⟨m, hm⟩ := Owner.exists_method? hfn
  rw [hm]
  refine (methodSignature_safe (h.method? hm)).types.bind fun sig hsig => ?_
  exact (checkFnBody_types he hn (h.fns fn hfn) hsig).skip fun _ => .pure rfl (by simp)

omit he hn in
lemma checkComplete_safe (d : ImplDecl) {i : Instance} (h : i.Proper e) : Safe e (fun _ => True) (checkComplete d i) := by
  rw [checkComplete]
  split
  · exact .pure trivial
  · refine Keeps.skip (.forIn fun fn _ => ?_) fun _ => .pure trivial
    refine .ite (fun _ => ?_) fun _ => .pure trivial
    refine .ite (fun habsent => ?_) fun _ => (report_safe _ _).skip fun _ => .pure trivial
    refine Keeps.skip (P := fun _ => True) (.throw (.inl (.inr ⟨fun hstrict => ?_, .inr rfl⟩))) fun _ =>
      (report_safe _ _).skip fun _ => .pure trivial
    have hwhole := (h.relation hstrict).forType
    cases ht : i.relation.forType <;> simp [ht, Ty.isAbsent] at habsent
    rw [ht] at hwhole
    cases hwhole

lemma checkTopLevel_types {module : Nat} {stmt : Stmt} (hstmt : stmt ∈ (e.module module).syn.statements) :
    Types e [] (fun _ => True) (declaredParts e.toState module stmt) (checkTopLevel nested module stmt) := by
  rw [checkTopLevel]
  refine (entry_free module).safe.types.bind fun m hm => ?_
  obtain ⟨hproper, hfixed, -⟩ := hm
  have hsyn : m.syn = (e.module module).syn := show m.fixed.syn = (e.module module).fixed.syn by rw [hfixed]
  have hdefs : m.defs = (e.module module).defs := show m.fixed.defs = (e.module module).fixed.defs by rw [hfixed]
  rw [← hsyn] at hstmt
  have hfits := hproper.statements stmt hstmt
  have hdefined := hproper.defined stmt hstmt
  cases stmt with
  | var d =>
    cases hk : m.defs[(Stmt.var d).info.id]? with
    | none => exact (checkVar_types he hn hfits).discard.last (by simp [declaredParts, isDeclared, Stmt.parts])
    | some k =>
      have hby := hdefined k hk
      cases k <;> simp only [Definition.DefinedBy] at hby
      exact (varType_top he hn (hproper.defs _ _ hk) hby.1 hby.2.1 hby.2.2).discard
  | fn d =>
    cases hk : m.defs[(Stmt.fn d).info.id]? with
    | none => exact (signatureOf_safe hfits _).types.bind fun sig hsig => checkFnBody_types he hn hfits hsig
    | some k =>
      have hby := hdefined k hk
      cases k <;> simp only [Definition.DefinedBy] at hby
      exact (fnSignature_safe (hproper.defs _ _ hk)).types.bind fun sig hsig => checkFnBody_types he hn hfits hsig
  | trait d =>
    cases hk : m.defs[(Stmt.trait d).info.id]? with
    | none =>
      have hk : (e.module module).defs[d.info.id]? = none := hdefs ▸ hk
      exact .pure trivial (by simp [declaredParts, isDeclared, hk])
    | some k =>
      have hby := hdefined k hk
      cases k <;> simp only [Definition.DefinedBy] at hby
      case trait t =>
        subst hby
        have hmethods := checkMethods_types he hn (o := .trait t) (hproper.defs _ _ hk)
        exact hmethods.last (List.subset_append_of_subset_left _ (declaredParts_subset _ _ _))
  | impl d =>
    obtain ⟨k, hk⟩ := Option.isSome_iff_exists.mp (hproper.impls d hstmt)
    have hby := hdefined k hk
    cases k <;> simp only [Definition.DefinedBy] at hby
    case impl i =>
      subst hby
      rw [show m.defs[(Stmt.impl i.node).info.id]? = _ from hk]
      refine .get fun s hs => ?_
      cases hj : s.instanceOf? (.impl i) with
      | none =>
        rw [State.instanceOf?, List.find?_eq_none, hs.instances] at hj
        have hnone : isDeclared e.toState module (.impl i.node) = false := List.any_eq_false.mpr hj
        exact .pure hs trivial (by simp [declaredParts, hnone])
      | some j =>
        have hmem := List.mem_of_find?_eq_some hj
        have hid : j.owner.id = (Owner.impl i).id := by simpa using List.find?_some hj
        have hmethods := checkMethods_types he hn (o := .impl i) ⟨hproper.defs _ _ hk, j, hs.instances ▸ hmem, hid⟩
        refine Types.skip hmethods (fun _ => ?_) s hs
        have hparts : declaredParts e.toState module (.impl i.node) ⊆ (Owner.impl i).fns.flatMap Syntax.Fn.parts :=
          declaredParts_subset _ _ _
        exact (checkComplete_safe i (hs.properInstances j hmem)).types.last (by simpa using hparts)
  | type d =>
    cases hk : m.defs[(Stmt.type d).info.id]? with
    | none => exact .pure trivial (by simp [declaredParts, isDeclared, Stmt.parts])
    | some k =>
      have hby := hdefined k hk
      cases k <;> simp only [Definition.DefinedBy] at hby
      have hd := hproper.defs _ _ hk
      refine Safe.types (.forM fun f hf => ?_)
      obtain ⟨v, hv, hf⟩ := List.mem_flatMap.mp hf
      exact (fieldType_safe hd (hd.fields v hv f hf)).discard
  | ret info value => exact checkStmt_types he hn hfits
  | expr info x => exact checkStmt_types he hn hfits

end

/-! ### Modules -/

structure Idle (s : State) : Prop where
  frames : s.frames.top = []
  glances : s.glances = .empty
  typing : s.typing = []

lemma Idle.of_calm (hs : Idle s) (h : Calm s t) : Idle t := by
  refine ⟨?_, h.glances.trans hs.glances, h.typing.trans hs.typing⟩
  have hframes := h.frames
  rw [hs.frames] at hframes
  match htop : t.frames.top with
  | [] => rfl
  | g :: gs =>
    rw [htop] at hframes
    exact hframes.elim

structure Resting (e : Setting) (s : State) : Prop extends Steady e s where
  idle : Idle s
  phases : ∀ m ∈ s.modules, m.phase = .glanced ∨ m.phase = .checked

structure Further (s t : State) : Prop where
  length : t.modules.length = s.modules.length
  checked : ∀ (i : Nat) m, t.modules[i]? = some m → (s.modules[i]?).map (·.phase) = some .checked → m.phase = .checked
  slots : ∀ id : Nat, (s.slots[id]?).isSome → (t.slots[id]?).isSome
  diagnostics : s.diagnostics <+: t.diagnostics

lemma Further.refl (s : State) : Further s s := by
  refine ⟨rfl, fun i m hm hchecked => ?_, fun _ h => h, List.prefix_rfl⟩
  rw [hm] at hchecked
  exact Option.some.inj hchecked

lemma Further.trans {u : State} (h : Further s t) (h' : Further t u) : Further s u := by
  refine ⟨h'.length.trans h.length, fun i m hm hchecked => ?_, fun id hid => h'.slots id (h.slots id hid),
    h.diagnostics.trans h'.diagnostics⟩
  refine h'.checked i m hm ?_
  have hi : i < t.modules.length := h'.length ▸ (List.getElem?_eq_some_iff.mp hm).1
  rw [List.getElem?_eq_getElem hi]
  exact congrArg some (h.checked i _ (List.getElem?_eq_getElem hi) hchecked)

lemma Calm.further (h : Calm s t) : Further s t := by
  have hlength : t.modules.length = s.modules.length := by simpa using congrArg List.length h.phases
  refine ⟨hlength, fun i m hm hchecked => ?_, h.slots, h.diagnostics⟩
  rw [← List.getElem?_map, ← h.phases, List.getElem?_map, hm] at hchecked
  exact Option.some.inj hchecked

def program (e : Setting) : Regime where
  Inv := Resting e
  Step := Further
  refl := .refl
  trans h h' := h.trans h'
  Allowed := e.Allowed

def phased (id : Nat) (phase : Phase) (s : State) : State :=
  { s with modules := s.modules.modify id fun m => { m with phase := phase } }

lemma Steady.phased (hs : Steady e s) (id : Nat) {phase : Phase} (h : phase ≠ .unvisited ∧ phase ≠ .glancing) :
    Steady e (phased id phase s) :=
  ⟨sane_modify id (fun _ => rfl) (fun _ _ => h) hs.toSane, { hs.placed with }, hs.awaited, hs.held⟩

lemma phase_of_phased {id i : Nat} {phase : Phase} (h : Calm (phased id phase s) t) (hi : id ≠ i) {m : ModuleEntry}
    (hm : t.modules[i]? = some m) : (s.modules[i]?).map (·.phase) = some m.phase := by
  have hphase : (t.modules[i]?).map (·.phase) = ((phased id phase s).modules[i]?).map (·.phase) := by
    rw [← List.getElem?_map, h.phases, List.getElem?_map]
  rw [hm, phased, getElem?_modify_ne hi] at hphase
  exact hphase.symm

lemma resting_checked {id : Nat} (hs : Resting e s) (ht : Steady e t) (h : Calm (phased id .checking s) t) :
    Resting e (phased id .checked t) ∧ Further s (phased id .checked t) := by
  have hlength : t.modules.length = s.modules.length := by
    have := congrArg List.length h.phases
    simpa [phased] using this
  have hphased : ∀ {i : Nat} {m : ModuleEntry}, (phased id .checked t).modules[i]? = some m →
      m.phase = .checked ∨ (s.modules[i]?).map (·.phase) = some m.phase := by
    intro i m hm
    by_cases hi : id = i
    · subst hi
      rw [phased, getElem?_modify_self] at hm
      obtain ⟨k, -, rfl⟩ := Option.map_eq_some_iff.mp hm
      exact .inl rfl
    · rw [phased, getElem?_modify_ne hi] at hm
      exact .inr (phase_of_phased h hi hm)
  have hidle : Idle (phased id .checking s) := ⟨hs.idle.frames, hs.idle.glances, hs.idle.typing⟩
  have hidle : Idle t := hidle.of_calm h
  refine ⟨⟨ht.phased id (by simp), ⟨hidle.frames, hidle.glances, hidle.typing⟩, fun m hm => ?_⟩,
    (List.length_modify _ _ _).trans hlength, fun i m hm hchecked => ?_, h.slots, h.diagnostics⟩
  · obtain ⟨i, hi⟩ := List.mem_iff_getElem?.mp hm
    obtain hchecked | hsame := hphased hi
    · exact .inr hchecked
    · obtain ⟨k, hk, hphase⟩ := Option.map_eq_some_iff.mp hsame
      rw [← hphase]
      exact hs.phases k (List.mem_of_getElem? hk)
  · obtain hchecked' | hsame := hphased hm
    · exact hchecked'
    · exact Option.some.inj (hsame.symm.trans hchecked)

section

variable {checks : Nat → Nested} (he : e.built = true) (hchecks : ∀ depth, SafeNested e (checks depth))

include he hchecks

lemma checkModule_program {id : Nat} (hid : id < e.modules.length) :
    (program e).Keeps (fun _ => True) (checkModule checks id) := by
  intro s hs
  have hs : Resting e s := hs
  have hlength : s.modules.length = e.modules.length := by
    rw [← hs.fixed]
    exact (List.length_map _).symm
  have hm := List.getElem?_eq_getElem (hlength ▸ hid)
  generalize s.modules[id] = m at hm
  have hentry : (entry id).run s = (.ok m, s) := by rw [run_entry, State.module_eq hm]
  have hsyn : m.syn = (e.module id).syn := by
    rw [← hs.fixed, State.module, State.fixed, List.getElem?_map, hm]
    rfl
  refine .after hentry ((program e).refl s) ?_
  obtain hglanced | hchecked := hs.phases m (List.mem_of_getElem? hm)
  · simp only [hglanced]
    have hsteady : Steady e (phased id .checking s) := hs.toSteady.phased id (by simp)
    have hstatements : Checks e (fun _ => True) (m.syn.statements.forM (checkTopLevel (checks (depthBound s)) id)) :=
      .forM fun stmt hstmt => (checkTopLevel_types he (hchecks _) (hsyn ▸ hstmt)).checks
    have hbody := Checks.inModule hstatements id _ hsteady
    refine .congr (y := (do
      modifyEntry id fun e => { e with phase := .checking }
      inModule id (m.syn.statements.forM (checkTopLevel (checks (depthBound s)) id))
      modifyEntry id fun e => { e with phase := .checked })) (run_get_bind s _) ?_
    rcases hrun : (inModule id (m.syn.statements.forM (checkTopLevel (checks (depthBound s)) id))).run
        (phased id .checking s) with ⟨φ | _, t⟩
    · exact .fails (run_bind_error hrun _) (hbody.error φ t hrun)
    · obtain ⟨ht, honward, -⟩ := hbody.ok () t hrun
      obtain ⟨hresting, hfurther⟩ := resting_checked hs ht honward.toCalm
      exact .of_run (run_bind_ok hrun _) hresting hfurther trivial
  · simp only [hchecked]
    exact .pure hs trivial

omit he hchecks in
lemma settled_of_typeFirst (hn : SafeNested e nested) (hs : Steady e s) {p : PendingClosure} {rest : List PendingClosure}
    (hpending : s.pending = p :: rest)
    (hrun : (inModule p.frame.module (typeUnused nested p.node)).run s = (.ok (), t)) :
    ∃ new, t.pending = p :: rest ++ new ∧ t.Settled new p.node.info.id := by
  have hfits := hs.pending p (by simp [hpending])
  have honward : Onward e noneDue s t := ((typeUnused_types hn hfits).checks.inModule p.frame.module s hs).ok () t hrun |>.2.1
  obtain ⟨new, hnew, -⟩ := honward.appended
  rw [hpending] at hnew
  refine ⟨new, hnew, ?_⟩
  obtain ⟨u, hu, rfl⟩ := exists_of_run_bracket hrun
  have hsettled := typeUnused_settled hn hfits (Steady.entered hs p.frame.module) hu
  have hdrop : u.pending.drop (entered p.frame.module s).pending.length = new := by
    have hlength : (entered p.frame.module s).pending.length = (p :: rest).length := congrArg List.length hpending
    have hupending : u.pending = p :: rest ++ new := hnew
    rw [hlength, hupending, List.drop_left]
  rwa [hdrop] at hsettled

omit he hchecks in
lemma typeFirst_program (hn : SafeNested e nested) (hs : Resting e s) {p : PendingClosure} {rest : List PendingClosure}
    (hpending : s.pending = p :: rest) :
    (program e).KeepsAt (fun _ => True) (bracket (fun s => s) (fun s => { s with pending := s.pending.tail })
      (inModule p.frame.module (typeUnused nested p.node))) s := by
  have hfits := hs.pending p (by simp [hpending])
  refine .bracket (S := outside e) (((typeUnused_types hn hfits).checks.inModule p.frame.module) s hs.toSteady)
    (fun _ hφ => hφ) fun _ t hrun ht honward => ?_
  have ht : Steady e t := ht
  have honward : Onward e noneDue s t := honward
  obtain ⟨new, hnew, hsettled⟩ := settled_of_typeFirst hn hs.toSteady hpending hrun
  have htail : t.pending.tail = rest ++ new := by rw [hnew]; rfl
  have hsteady : Steady e { t with pending := rest ++ new } :=
    ht.drop hnew (fun q hq => List.mem_cons_of_mem _ hq) fun q hq hmem => by
      obtain rfl := (List.mem_cons.mp hq).resolve_right hmem
      exact hsettled
  have hidle := hs.idle.of_calm honward.toCalm
  have hphases : ∀ m ∈ t.modules, m.phase = .glanced ∨ m.phase = .checked := by
    intro m hm
    have hmem : m.phase ∈ s.modules.map (·.phase) := honward.phases ▸ List.mem_map_of_mem hm
    obtain ⟨k, hk, hphase⟩ := List.mem_map.mp hmem
    exact hphase ▸ hs.phases k hk
  rw [htail]
  exact ⟨⟨hsteady, ⟨hidle.frames, hidle.glances, hidle.typing⟩, hphases⟩, { honward.toCalm.further with }⟩

omit he in
lemma typeTopLevelClosures_program (depth fuel : Nat) :
    (program e).Keeps (fun _ => True) (typeTopLevelClosures (checks depth) fuel) := by
  induction fuel with
  | zero => exact .throw tooDeep_allowed
  | succ fuel ih =>
    rw [typeTopLevelClosures]
    refine .get fun s hs => ?_
    cases hpending : s.pending with
    | nil => exact .pure hs trivial
    | cons p rest => exact (typeFirst_program (hchecks depth) hs hpending).bind fun _ s' _ hs' _ => ih s' hs'

end

lemma pending_of_typeTopLevelClosures {fuel : Nat} (h : (typeTopLevelClosures nested fuel).run s = (.ok (), t)) :
    t.pending = [] := by
  induction fuel generalizing s with
  | zero => cases h
  | succ fuel ih =>
    rw [typeTopLevelClosures, run_get_bind] at h
    cases hpending : s.pending with
    | nil =>
      rw [hpending] at h
      cases h
      exact hpending
    | cons p rest =>
      rw [hpending] at h
      obtain ⟨_, _, -, h⟩ := exists_of_run_bind h
      exact ih h

variable {checks : Nat → Nested}

lemma checked_of_checkModule {id : Nat} (hs : Resting e s)
    (hrun : (checkModule checks id).run s = (.ok (), t)) {m : ModuleEntry} (hm : t.modules[id]? = some m) :
    m.phase = .checked := by
  rw [checkModule, run_bind_ok (run_entry id s)] at hrun
  split at hrun
  · next hphase =>
    cases hrun
    rw [State.module_eq hm] at hphase
    obtain h | h := hs.phases m (List.mem_of_getElem? hm) <;> rw [h] at hphase <;> cases hphase
  · next hphase =>
    cases hrun
    rwa [State.module_eq hm] at hphase
  · obtain ⟨_, _, -, hrun⟩ := exists_of_run_bind hrun
    obtain ⟨_, _, -, hrun⟩ := exists_of_run_bind hrun
    obtain ⟨_, u, -, hrun⟩ := exists_of_run_bind hrun
    obtain rfl : phased id .checked u = t := (Prod.mk.inj hrun).2
    rw [phased, getElem?_modify_self] at hm
    obtain ⟨k, -, rfl⟩ := Option.map_eq_some_iff.mp hm
    rfl
  · cases hrun

lemma checked_of_checkAll {ids : List Nat}
    (hkeeps : ∀ id ∈ ids, (program e).Keeps (fun _ => True) (checkModule checks id)) (hs : Resting e s)
    (hrun : (ids.forM (checkModule checks)).run s = (.ok (), t)) :
    ∀ id ∈ ids, ∀ m, t.modules[id]? = some m → m.phase = .checked := by
  refine Keeps.each_of_forM (R := program e) (D := fun id t => ∀ m, t.modules[id]? = some m → m.phase = .checked)
    hkeeps (fun id u v hstep hchecked m hm => ?_) (fun id _ u v hu _ hfirst m => checked_of_checkModule hu hfirst) hs hrun
  have hstep : Further u v := hstep
  have hlt : id < u.modules.length := hstep.length ▸ (List.getElem?_eq_some_iff.mp hm).1
  refine hstep.checked id m hm ?_
  rw [List.getElem?_eq_getElem hlt]
  exact congrArg some (hchecked _ (List.getElem?_eq_getElem hlt))

/-! ### Everything -/

structure Finished (F : Form) (s : State) : Prop where
  resting : Resting ⟨s.fixed, F, .none⟩ s
  built : s.built = true
  checked : ∀ m ∈ s.modules, m.phase = .checked
  pending : s.pending = []

variable {F : Form}

lemma resting_of_grows (hs : s.Surveyed F) (ht : Sane ⟨t.fixed, F, .none⟩ t) (h : Grows F s t) :
    Resting ⟨t.fixed, F, .none⟩ t := by
  have hidle : Idle s := by
    refine ⟨?_, congrArg State.glances hs.apart, congrArg State.typing hs.apart⟩
    have hframes : s.frames = .empty := congrArg State.frames hs.apart
    rw [hframes]
    rfl
  have hclosures : t.closures = {} := h.closures.trans (congrArg State.closures hs.apart)
  have hslots : s.slots = {} := congrArg State.slots hs.apart
  refine ⟨⟨ht, hs.steady.placed.of_quiet h.toQuiet, fun id hid => ?_, nofun⟩, hidle.of_calm h.toCalm, fun m hm => ?_⟩
  · exfalso
    obtain hmem | ⟨hclosure, hslot⟩ := hid
    · simp [hclosures] at hmem
    · have hkept : t.slots[id]? = s.slots[id]? := h.kept id fun hleaf => hleaf.not_closure hclosure
      rw [hkept, hslots] at hslot
      simp at hslot
  · have hmem : m.phase ∈ s.modules.map (·.phase) := h.phases ▸ List.mem_map_of_mem hm
    obtain ⟨k, hk, hphase⟩ := List.mem_map.mp hmem
    exact .inl (hphase ▸ (hs.modules k hk).2.2)

def checkBuilt (checks : Nat → Nested) (ids : List Nat) : Check Unit := do
  ids.forM (checkModule checks)
  let bound := depthBound (← get)
  typeTopLevelClosures (checks bound) bound

lemma checkBuilt_program (he : e.built = true) (hchecks : ∀ depth, SafeNested e (checks depth))
    {ids : List Nat} (hids : ∀ id ∈ ids, id < e.modules.length) :
    (program e).Keeps (fun _ => True) (checkBuilt checks ids) :=
  Keeps.skip (.forM fun id hid => checkModule_program he hchecks (hids id hid)) fun _ =>
    .get fun v hv => typeTopLevelClosures_program hchecks _ _ v hv

structure Prepared (F : Form) (glanced related : State) : Prop where
  surveyed : glanced.Surveyed F
  build : buildRelations.run glanced = (.ok (), related)
  grows : Grows F glanced related
  built : related.built = true
  resting : Resting ⟨related.fixed, F, .none⟩ related

structure Passes (F : Form) (checks : Nat → Nested) (glanced related t : State) : Prop extends
    Prepared F glanced related where
  rest : (checkBuilt checks (List.range related.modules.length)).run related = (.ok (), t)

lemma checkModulesBy_prepared (checks : Nat → Nested) (hs : s.Untouched F) :
    (∃ φ t, (checkModulesBy checks).run s = (.error φ, t) ∧ φ.AllowedIn F) ∨ ∃ glanced related, Prepared F glanced related ∧
      (checkModulesBy checks).run s = (checkBuilt checks (List.range related.modules.length)).run related := by
  have hglance := (Keeps.forM (l := List.range s.modules.length) fun id _ => glanceModule_looking id) s hs.early
  rw [checkModulesBy, run_get_bind]
  match hglanced : ((List.range s.modules.length).forM glanceModule).run s with
  | (.error φ, t) =>
    have hφ : φ = .tooDeep := hglance.error φ t hglanced
    exact .inl ⟨φ, t, run_bind_error hglanced _, hφ ▸ .inl trivial⟩
  | (.ok (), t) =>
    have ht := hs.surveyed hglanced
    have hlength : t.modules.length = s.modules.length := (hglance.ok () t hglanced).2.1.length
    have hbuild := buildRelations_collected ht.steady.toSane (congrArg State.built ht.apart)
    rw [run_bind_ok hglanced]
    match hrelated : buildRelations.run t with
    | (.error φ, u) => exact .inl ⟨φ, u, run_bind_error hrelated _, (hbuild.error φ u hrelated).resolve_right id⟩
    | (.ok (), u) =>
      obtain ⟨⟨hsane, hbuilt⟩, hgrows, -⟩ := hbuild.ok () u hrelated
      have hgrows : Grows F t u := hgrows
      have hids : List.range s.modules.length = List.range u.modules.length := by
        rw [← hlength, ← hgrows.toCalm.further.length]
      refine .inr ⟨t, u, ⟨ht, hrelated, hgrows, hbuilt, resting_of_grows ht hsane hgrows⟩, ?_⟩
      rw [run_bind_ok hrelated, hids]
      rfl

lemma Resting.watch (hs : Resting e s) {w : Watch} (hheld : w.held = none) : Resting { e with toWatch := w } s :=
  ⟨⟨hs.toSane.watch w, hs.placed, hs.awaited, fun _ _ h => nomatch hheld.symm.trans h⟩, hs.idle, hs.phases⟩

lemma allowed_of_checkModulesBy {w : Watch} (hheld : w.held = none)
    (hchecks : ∀ e : Setting, e.toForm = F → e.toWatch = w → e.built = true → ∀ depth, SafeNested e (checks depth))
    (hs : s.Untouched F) {φ : Failure} (hrun : (checkModulesBy checks).run s = (.error φ, t)) :
    Setting.Allowed ⟨{}, F, w⟩ φ := by
  obtain ⟨ψ, u, hfails, hψ⟩ | ⟨glanced, related, h, hrest⟩ := checkModulesBy_prepared checks hs
  · cases hfails.symm.trans hrun
    exact .inl hψ
  · have hkeeps : (program ⟨related.fixed, F, w⟩).Keeps (fun _ => True)
        (checkBuilt checks (List.range related.modules.length)) :=
      checkBuilt_program h.built (hchecks ⟨related.fixed, F, w⟩ rfl rfl h.built) fun id hid => by
        simpa [State.fixed] using hid
    exact (hkeeps related (h.resting.watch hheld)).error φ t (hrest.symm.trans hrun)

/-- Whatever the modules hold, the check passes through its states, or ends in a failure that a program can bring
about. -/
lemma checkModulesBy_passes
    (hchecks : ∀ e : Setting, e.toForm = F → e.toWatch = .none → e.built = true → ∀ depth, SafeNested e (checks depth))
    (hs : s.Untouched F) :
    (∀ t, (checkModulesBy checks).run s = (.ok (), t) → ∃ glanced related, Passes F checks glanced related t) ∧
      ∀ φ t, (checkModulesBy checks).run s = (.error φ, t) → φ.AllowedIn F := by
  refine ⟨fun t hrun => ?_, fun φ t hrun => (allowed_of_checkModulesBy rfl hchecks hs hrun).resolve_right id⟩
  obtain ⟨ψ, u, hfails, -⟩ | ⟨glanced, related, h, hrest⟩ := checkModulesBy_prepared checks hs
  · cases hfails.symm.trans hrun
  · exact ⟨glanced, related, h, hrest.symm.trans hrun⟩

lemma Passes.finished {glanced related : State} (h : Passes F checks glanced related t)
    (hchecks : ∀ depth, SafeNested ⟨related.fixed, F, .none⟩ (checks depth)) :
    Finished F t ∧ t.fixed = related.fixed ∧ Further related t := by
  have hids : ∀ id ∈ List.range related.modules.length, id < related.fixed.modules.length := fun id hid => by
    simpa [State.fixed] using hid
  have hmodules : ∀ id ∈ List.range related.modules.length,
      (program ⟨related.fixed, F, .none⟩).Keeps (fun _ => True) (checkModule checks id) := fun id hid =>
    checkModule_program h.built hchecks (hids id hid)
  obtain ⟨ht, hfurther, -⟩ := (checkBuilt_program h.built hchecks hids related h.resting).ok () t h.rest
  have ht : Resting ⟨related.fixed, F, .none⟩ t := ht
  have hfurther : Further related t := hfurther
  have hfixed : t.fixed = related.fixed := ht.fixed
  obtain ⟨_, v, hall, hlast⟩ := exists_of_run_bind h.rest
  obtain ⟨hv, -, -⟩ := (Keeps.forM hmodules related h.resting).ok _ v hall
  rw [run_get_bind] at hlast
  refine ⟨⟨hfixed ▸ ht, ht.toSane.built h.built, fun m hm => ?_, pending_of_typeTopLevelClosures hlast⟩, hfixed, hfurther⟩
  obtain ⟨-, hfurther', -⟩ := (typeTopLevelClosures_program hchecks _ _ v hv).ok _ t hlast
  have hfurther' : Further v t := hfurther'
  obtain ⟨i, hi⟩ := List.mem_iff_getElem?.mp hm
  have hlt := (List.getElem?_eq_some_iff.mp hi).1
  refine hfurther'.checked i m hi ?_
  rw [List.getElem?_eq_getElem (hfurther'.length ▸ hlt)]
  refine congrArg some (checked_of_checkAll hmodules h.resting hall i ?_ _ (List.getElem?_eq_getElem _))
  exact List.mem_range.mpr (hfurther.length ▸ hlt)

lemma checkModulesBy_ends
    (hchecks : ∀ e : Setting, e.toForm = F → e.toWatch = .none → e.built = true → ∀ depth, SafeNested e (checks depth))
    (hs : s.Untouched F) : (∀ t, (checkModulesBy checks).run s = (.ok (), t) → Finished F t) ∧
      ∀ φ t, (checkModulesBy checks).run s = (.error φ, t) → φ.AllowedIn F := by
  obtain ⟨hpasses, herror⟩ := checkModulesBy_passes hchecks hs
  refine ⟨fun t ht => ?_, herror⟩
  obtain ⟨glanced, related, h⟩ := hpasses t ht
  exact (h.finished (hchecks ⟨related.fixed, F, .none⟩ rfl rfl h.built)).1

end Check

end TraitCheck
