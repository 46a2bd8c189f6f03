import TraitCheck.Proofs.Check.Imports
import TraitCheck.Proofs.Check.Places

/-! Glancing modules. Every module is glanced once, what it declares is what the chart says, and nothing but a nesting
that is too deep can fail. -/

namespace TraitCheck

open Check.Regime
open Syntax (Form Stmt)

variable {F : Form}

/-! ### Steps -/

structure ModuleEntry.Later (m m' : ModuleEntry) : Prop where
  syn : m'.syn = m.syn
  phase : m'.phase = m.phase ∨ m.phase = .unvisited ∧ m'.phase = .glanced
  kept : m.phase ≠ .unvisited → m'.scope = m.scope ∧ m'.defs = m.defs

lemma ModuleEntry.Later.refl (m : ModuleEntry) : m.Later m := ⟨rfl, .inl rfl, fun _ => ⟨rfl, rfl⟩⟩

lemma ModuleEntry.Later.trans {m m' m'' : ModuleEntry} (h : m.Later m') (h' : m'.Later m'') : m.Later m'' := by
  refine ⟨h'.syn.trans h.syn, ?_, fun hvisited => ?_⟩
  · obtain hphase | ⟨hunvisited, hglanced⟩ := h.phase
    · rw [← hphase]
      exact h'.phase
    · obtain hphase' | ⟨hunvisited', -⟩ := h'.phase
      · exact .inr ⟨hunvisited, hphase'.trans hglanced⟩
      · rw [hglanced] at hunvisited'
        exact absurd hunvisited' (by simp)
  · have hphase : m'.phase = m.phase := h.phase.resolve_right fun hleft => hvisited hleft.1
    obtain ⟨hscope, hdefs⟩ := h.kept hvisited
    obtain ⟨hscope', hdefs'⟩ := h'.kept (by rwa [hphase])
    exact ⟨hscope'.trans hscope, hdefs'.trans hdefs⟩

def State.apart (s : State) : State := { s with modules := [], diagnostics := [], cycles := [], nextFrame := 0 }

structure State.Forward (s t : State) : Prop where
  apart : t.apart = s.apart
  chart : t.chart = s.chart
  length : t.modules.length = s.modules.length
  modules : ∀ (i : Nat) m m', s.modules[i]? = some m → t.modules[i]? = some m' → m.Later m'
  diagnostics : s.diagnostics <+: t.diagnostics

lemma State.chart_of_apart {s t : State} (h : t.apart = s.apart)
    (hmodules : ∀ i : Nat, (t.modules[i]?).map (ModuleEntry.charted i) = (s.modules[i]?).map (ModuleEntry.charted i)) :
    t.chart = s.chart := by
  have hall : t.chart.modules = s.chart.modules := by
    apply List.ext_getElem?
    intro i
    rw [chart_modules, chart_modules, hmodules]
  change { t.apart.chart with modules := t.chart.modules } = { s.apart.chart with modules := s.chart.modules }
  rw [h, hall]

lemma State.Forward.of_modules {s t : State} (hapart : t.apart = s.apart) (hmodules : t.modules = s.modules)
    (hdiagnostics : s.diagnostics <+: t.diagnostics) : s.Forward t := by
  refine ⟨hapart, chart_of_apart hapart fun i => by rw [hmodules], by rw [hmodules], fun i m m' hm hm' => ?_, hdiagnostics⟩
  rw [hmodules, hm] at hm'
  exact Option.some.inj hm' ▸ .refl m

lemma State.Forward.trans {s t u : State} (h : s.Forward t) (h' : t.Forward u) : s.Forward u := by
  refine ⟨h'.apart.trans h.apart, h'.chart.trans h.chart, h'.length.trans h.length, fun i m m'' hm hm'' => ?_,
    h.diagnostics.trans h'.diagnostics⟩
  have hi : i < t.modules.length := by
    rw [h.length]
    exact (List.getElem?_eq_some_iff.mp hm).1
  have hm' := List.getElem?_eq_getElem hi
  exact (h.modules i m _ hm hm').trans (h'.modules i _ m'' hm' hm'')

lemma State.frames_of_apart {s t : State} (h : t.apart = s.apart) : t.frames = s.frames := by
  have : t.apart.frames = s.apart.frames := by rw [h]
  exact this

/-- No error has been reported. -/
def State.Clean (s : State) : Prop := ∀ d ∈ s.diagnostics, d.isError = false

lemma State.Clean.of_prefix {s t : State} (h : t.Clean) (hfirst : s.diagnostics <+: t.diagnostics) : s.Clean :=
  fun d hd => h d (hfirst.mem hd)

lemma State.not_clean_reported (s : State) (info : Option Syntax.Info) {cause : Diagnostic.Cause}
    (h : cause.severity = .error) :
    ¬{ s with diagnostics := s.diagnostics ++ [Check.diagnosticAt s info cause] : State }.Clean := by
  intro hclean
  have := hclean (Check.diagnosticAt s info cause) (by simp)
  simp [Diagnostic.isError, Diagnostic.severity, Check.diagnosticAt, h] at this

structure State.Early (F : Form) (s : State) : Prop where
  modules : ∀ m ∈ s.modules, m.Early F ∧ (m.phase = .glanced → m.Listed s.Clean)
  instances : s.instances = []

lemma ModuleEntry.Listed.mono {m : ModuleEntry} {P Q : Prop} (h : m.Listed P) (hPQ : Q → P) : m.Listed Q :=
  ⟨h.impls, fun hQ => h.all (hPQ hQ)⟩

namespace Check

def looking (F : Form) : Regime where
  Inv := State.Early F
  Step := State.Forward
  refl _ := .of_modules rfl rfl List.prefix_rfl
  trans h h' := h.trans h'
  Allowed φ := φ = .tooDeep

def importing (F : Form) (c : State) (module : Nat) : Regime :=
  { looking F with
    Inv := fun s => s.Early F ∧ s.chart = c ∧ ∃ f fs, s.frames.top = f :: fs ∧ f.module = module }

section

variable {α : Type} {P : α → Prop} {x : Check α} {s c : State} {module : Nat}

lemma importing_of_looking (h : (looking F).Keeps P x) : (importing F c module).Keeps P x := by
  intro s hs
  obtain ⟨hearly, hchart, hframe⟩ := hs
  refine ⟨fun a s' hrun => ?_, (h s hearly).error⟩
  obtain ⟨hearly', hforward, ha⟩ := (h s hearly).ok a s' hrun
  refine ⟨⟨hearly', (State.Forward.chart hforward).trans hchart, ?_⟩, hforward, ha⟩
  rwa [State.frames_of_apart hforward.apart]

lemma State.Early.charted (hs : s.Early F) : s.chart.Charted F := by
  refine ⟨fun m hm => ?_, hs.instances⟩
  obtain ⟨i, hi⟩ := List.mem_iff_getElem?.mp hm
  rw [State.chart_modules] at hi
  obtain ⟨k, hk, rfl⟩ := Option.map_eq_some_iff.mp hi
  exact (hs.modules k (List.mem_of_getElem? hk)).1.charted i

lemma report_looking (info : Option Syntax.Info) (cause : Diagnostic.Cause) :
    (looking F).Keeps (fun _ => True) (report info cause) := by
  intro s hs
  have hfirst : s.diagnostics <+: s.diagnostics ++ [diagnosticAt s info cause] := List.prefix_append _ _
  refine .of_run (run_report info cause s) ⟨fun m hm => ?_, hs.instances⟩ (.of_modules rfl rfl hfirst) trivial
  obtain ⟨hearly, hlisted⟩ := hs.modules m hm
  exact ⟨hearly, fun hglanced => (hlisted hglanced).mono fun hclean => hclean.of_prefix hfirst⟩

lemma addReference_importing (p : Path) : (importing F c module).Keeps (fun _ => True) (addReference p) := by
  intro s hs
  obtain ⟨hearly, hchart, f, fs, htop, hmodule⟩ := hs
  have hcurrent : currentModule.run s = (.ok f.module, s) := run_bind_ok (run_frame htop) _
  let u (m : ModuleEntry) : ModuleEntry := { m with references := m.references ++ [p] }
  have hentry : ∀ (i : Nat) m', (s.modules.modify f.module u)[i]? = some m' →
      ∃ m, s.modules[i]? = some m ∧ (m' = m ∨ m' = u m) := by
    intro i m' hm'
    rw [List.getElem?_modify] at hm'
    obtain ⟨m, hm, rfl⟩ := Option.map_eq_some_iff.mp hm'
    refine ⟨m, hm, ?_⟩
    split
    · exact .inr rfl
    · exact .inl rfl
  have hforward : s.Forward { s with modules := s.modules.modify f.module u } := by
    refine ⟨rfl, State.chart_modify fun m _ => ModuleEntry.charted_references _ m _, List.length_modify _ _ _,
      fun i m m' hm hm' => ?_, List.prefix_rfl⟩
    obtain ⟨k, hk, hsame⟩ := hentry i m' hm'
    obtain rfl := Option.some.inj (hm.symm.trans hk)
    obtain rfl | rfl := hsame
    · exact .refl _
    · exact ⟨rfl, .inl rfl, fun _ => ⟨rfl, rfl⟩⟩
  refine .after hcurrent ((importing F c module).refl s) ?_
  refine .of_run rfl ⟨⟨fun m' hm' => ?_, hearly.instances⟩, hforward.chart.trans hchart, f, fs, htop, hmodule⟩
    hforward trivial
  obtain ⟨i, hi⟩ := List.mem_iff_getElem?.mp hm'
  obtain ⟨m, hm, rfl | rfl⟩ := hentry i m' hi
  · exact hearly.modules _ (List.mem_of_getElem? hm)
  · obtain ⟨hearly, hlisted⟩ := hearly.modules m (List.mem_of_getElem? hm)
    exact ⟨{ hearly with }, fun hglanced => { hlisted hglanced with }⟩

end

/-! ### Visits -/

lemma reportCycle_looking (id : Nat) : (looking F).Keeps (fun _ => True) (reportCycle id) := by
  refine .get fun s hs => ?_
  dsimp only
  split
  · exact .pure hs trivial
  · refine KeepsAt.bind (P := fun _ => True) ?_ fun _ s' _ hs' _ => ?_
    · exact .of_run rfl ⟨hs.modules, hs.instances⟩ (.of_modules rfl rfl List.prefix_rfl) trivial
    · exact .after (run_entry id s') ((looking F).refl s') (report_looking _ _ s' hs')

lemma visitWith_looking {glance : Nat → Check Unit} (hglance : ∀ id, (looking F).Keeps (fun _ => True) (glance id))
    (id : Nat) : (looking F).Keeps (fun _ => True) (visitWith glance id) := by
  intro s hs
  refine .after (run_entry id s) ((looking F).refl s) ?_
  split
  · exact hglance id s hs
  · exact reportCycle_looking id s hs
  · exact .pure hs trivial

/-! ### Glancing a module -/

section

variable {s : State} {id : Nat}

def opened (s : State) (id : Nat) : State :=
  { s with
    modules := s.modules.modify id fun m => { m with phase := .glancing }
    glances := s.glances.push id
    frames := s.frames.push { id := s.nextFrame, module := id }
    nextFrame := s.nextFrame + 1 }

def redeclared (s : State) (id : Nat) : List Diagnostic :=
  reportRedeclared (opened s id)
    ((s.module id).redeclarations id (s.module id).syn.statements)

def registered (s : State) (id : Nat) : State :=
  { s with
    modules := s.modules.modify id fun m =>
      m.syn.statements.foldl (ModuleEntry.register id) { m with phase := .glancing }
    glances := s.glances.push id
    frames := s.frames.push { id := s.nextFrame, module := id }
    nextFrame := s.nextFrame + 1
    diagnostics := s.diagnostics ++ redeclared s id }

def closed (id : Nat) (s : State) : State :=
  { s with
    modules := s.modules.modify id fun m => { m with phase := .glanced }
    glances := s.glances.pop
    frames := s.frames.pop }

lemma run_glance (fuel : Nat) (hphase : (s.module id).phase = .unvisited) :
    (glance (fuel + 1) id).run s = (bracket (fun s => registered s id) (closed id)
      (flattenAll (visitWith (glance fuel)) [] (s.module id).syn.uses)).run s := by
  have hregistered : (List.forM (s.module id).syn.statements (register id)).run (opened s id) =
      (.ok (), registered s id) := by
    rw [run_registerAll id _ (opened s id) ?_]
    · have hmodules : (opened s id).modules.modify id (fun m =>
          (s.module id).syn.statements.foldl (ModuleEntry.register id) m) = (registered s id).modules := by
        simp only [opened, registered, List.modify_modify_eq]
        exact modify_congr rfl
      have hsame : (opened s id).module id =
          { s.module id with phase := if (s.modules[id]?).isSome then .glancing else .unvisited } := by
        rw [State.module, State.module, opened, getElem?_modify_self]
        cases s.modules[id]? <;> rfl
      rw [hmodules, hsame, ModuleEntry.redeclarations_with]
      rfl
    · cases hm : s.modules[id]? with
      | none =>
        rw [State.module, hm]
        exact .inr rfl
      | some m => exact .inl (by simpa [opened] using (List.getElem?_eq_some_iff.mp hm).1)
  generalize hm : s.module id = m at hphase hregistered
  rw [glance, run_bind_ok (run_entry id s), hm, if_pos hphase]
  have hbody := run_bind_ok (f := fun _ => flattenAll (visitWith (glance fuel)) [] m.syn.uses) hregistered
  have houter : ∀ x : Check Unit, (bracket
      (fun s => { s with
        modules := s.modules.modify id fun e => { e with phase := .glancing }
        glances := s.glances.push id })
      (fun s => { s with
        modules := s.modules.modify id fun e => { e with phase := .glanced }
        glances := s.glances.pop })
      (inModule id x)).run s = ((x.run (opened s id)).1, closed id (x.run (opened s id)).2) := fun _ => rfl
  refine (houter _).trans ?_
  rw [hbody]
  rfl

lemma chart_registered (hphase : (s.module id).phase = .unvisited) : (registered s id).chart = s.chart := by
  refine State.chart_modify fun m hm => ?_
  have hunvisited : m.phase = .unvisited := by simpa [State.module, hm] using hphase
  have hglancing := (ModuleEntry.registerAll_same id { m with phase := .glancing } m.syn.statements).2.1
  rw [ModuleEntry.charted, ModuleEntry.charted, if_neg (by rw [hglancing]; simp), if_pos hunvisited,
    ModuleEntry.registerAll_with m id m.syn.statements .glancing m.references]

lemma importing_registered (hs : s.Early F) (hphase : (s.module id).phase = .unvisited) :
    (importing F s.chart id).Inv (registered s id) := by
  refine ⟨⟨?_, hs.instances⟩, chart_registered hphase, _, _, rfl, rfl⟩
  have hfirst : s.diagnostics <+: (registered s id).diagnostics := List.prefix_append _ _
  refine forall_mem_modify (fun m hm => ?_) fun m hm => ?_
  · obtain ⟨hearly, hlisted⟩ := hs.modules m hm
    exact ⟨hearly, fun hglanced => (hlisted hglanced).mono fun hclean => hclean.of_prefix hfirst⟩
  · obtain ⟨hearly, -⟩ := hs.modules m (List.mem_of_getElem? hm)
    refine ⟨ModuleEntry.Early.registerAll { hearly with } fun s hs => hs, fun hglanced => ?_⟩
    rw [(ModuleEntry.registerAll_same id _ _).2.1] at hglanced
    simp at hglanced

lemma redeclarations_of_clean {t : State} {m : ModuleEntry} (hclean : t.Clean)
    (hfirst : s.diagnostics ++ redeclared s id <+: t.diagnostics) (hm : s.modules[id]? = some m) :
    m.redeclarations id m.syn.statements = [] := by
  refine List.eq_nil_iff_forall_not_mem.mpr fun x hx => ?_
  have hmem : diagnosticAt (opened s id) (some x.1) (.redeclaration x.2) ∈ redeclared s id := by
    rw [redeclared, reportRedeclared, State.module_eq hm]
    exact List.mem_map.mpr ⟨x, hx, rfl⟩
  have := hclean _ (hfirst.mem (List.mem_append_right _ hmem))
  simp [diagnosticAt, Diagnostic.isError, Diagnostic.severity, Diagnostic.Cause.severity] at this

lemma chart_closed (id : Nat) {t : State} (ht : t.Visited id) : (closed id t).chart = t.chart := by
  refine State.chart_modify fun m hm => ?_
  rw [ModuleEntry.charted, ModuleEntry.charted, if_neg (by simp), if_neg (ht m hm)]

lemma looking_closed {t : State} (hs : s.Early F) (hphase : (s.module id).phase = .unvisited) (ht : t.Early F)
    (h : (registered s id).Forward t) : (closed id t).Early F ∧ s.Forward (closed id t) := by
  -- the module itself, as it was registered
  have hself : ∀ m m', s.modules[id]? = some m → t.modules[id]? = some m' →
      (m.syn.statements.foldl (ModuleEntry.register id) { m with phase := .glancing }).Later m' := by
    intro m m' hm hm'
    refine h.modules id _ m' ?_ hm'
    rw [registered, getElem?_modify_self, hm]
    rfl
  have hlength : t.modules.length = s.modules.length := by
    rw [h.length]
    exact List.length_modify _ _ _
  have hfirst : s.diagnostics ++ redeclared s id <+: t.diagnostics := h.diagnostics
  have hexists : ∀ m', t.modules[id]? = some m' → ∃ m, s.modules[id]? = some m := by
    intro m' hm'
    have hi := (List.getElem?_eq_some_iff.mp hm').1
    rw [hlength] at hi
    exact ⟨_, List.getElem?_eq_getElem hi⟩
  have hvisited : t.Visited id := by
    intro m' hm' hunvisited
    obtain ⟨m, hm⟩ := hexists m' hm'
    obtain hsame | ⟨hleft, -⟩ := (hself m m' hm hm').phase
    · rw [hunvisited, (ModuleEntry.registerAll_same id _ _).2.1] at hsame
      cases hsame
    · rw [(ModuleEntry.registerAll_same id _ _).2.1] at hleft
      cases hleft
  refine ⟨⟨?_, ht.instances⟩, ⟨?_, ?_, (List.length_modify _ _ _).trans hlength, fun i m m' hm hm' => ?_,
    (List.prefix_append _ _).trans hfirst⟩⟩
  · refine forall_mem_modify ht.modules fun m' hm' => ?_
    have hearly := (ht.modules m' (List.mem_of_getElem? hm')).1
    obtain ⟨m, hm⟩ := hexists m' hm'
    have hlater := hself m m' hm hm'
    obtain ⟨hsyn, hglancing, -⟩ := ModuleEntry.registerAll_same id { m with phase := .glancing } m.syn.statements
    have hdefs := (hlater.kept (by rw [hglancing]; simp)).2
    have hsyn : m'.syn = m.syn := hlater.syn.trans hsyn
    have hnodup := (hs.modules m (List.mem_of_getElem? hm)).1.distinct
    have hlisted : ∀ stmt ∈ m.syn.statements, stmt.isDefinition = true →
        ((∃ d, stmt = .impl d) ∨ m.redeclarations id m.syn.statements = []) → (m'.defs[stmt.info.id]?).isSome := by
      intro stmt hstmt hdefinition hnew
      rw [hdefs]
      rw [← ModuleEntry.redeclarations_with m id m.syn.statements .glancing m.references] at hnew
      exact ModuleEntry.listed_registerAll { m with phase := .glancing } id hnodup hstmt hdefinition hnew
    refine ⟨{ hearly with }, fun _ => ⟨fun d hd => ?_, fun hclean stmt hstmt hdefinition => ?_⟩⟩
    · exact hlisted (.impl d) (hsyn ▸ hd) rfl (.inl ⟨d, rfl⟩)
    · exact hlisted stmt (hsyn ▸ hstmt) hdefinition (.inr (redeclarations_of_clean hclean hfirst hm))
  · have hclosed : (closed id t).apart = { t.apart with frames := t.apart.frames.pop, glances := t.apart.glances.pop } := rfl
    rw [hclosed, h.apart]
    rfl
  · rw [chart_closed id hvisited, h.chart, chart_registered hphase]
  · by_cases hi : id = i
    · subst hi
      rw [closed, getElem?_modify_self] at hm'
      obtain ⟨k, hk, rfl⟩ := Option.map_eq_some_iff.mp hm'
      rw [State.module_eq hm] at hphase
      have hsyn := (hself m k hm hk).syn.trans (ModuleEntry.registerAll_same id { m with phase := .glancing } _).1
      exact ⟨hsyn, .inr ⟨hphase, rfl⟩, fun hvisited => absurd hphase hvisited⟩
    · rw [closed, getElem?_modify_ne hi] at hm'
      refine h.modules i m m' ?_ hm'
      rw [registered, getElem?_modify_ne hi]
      exact hm

lemma visited_of_glance {fuel : Nat} {s' : State} (hrun : (glance fuel id).run s = (.ok (), s')) {m : ModuleEntry}
    (hm : s'.modules[id]? = some m) : m.phase ≠ .unvisited := by
  cases fuel with
  | zero => cases hrun
  | succ fuel =>
    by_cases hphase : (s.module id).phase = .unvisited
    · have hbracket := run_glance fuel hphase
      rw [hrun] at hbracket
      have hend := (Prod.mk.inj hbracket).2
      rw [hend] at hm
      simp only [closed, getElem?_modify_self] at hm
      obtain ⟨k, -, rfl⟩ := Option.map_eq_some_iff.mp hm
      simp
    · rw [glance, run_bind_ok (run_entry id s), if_neg hphase] at hrun
      cases hrun
      rwa [State.module_eq hm] at hphase

lemma visited_of_visit {fuel : Nat} {s' : State} (hrun : (visitWith (glance fuel) id).run s = (.ok (), s')) :
    s'.Visited id := by
  rw [visitWith, run_bind_ok (run_entry id s)] at hrun
  intro m hm
  split at hrun
  · exact visited_of_glance hrun hm
  · next hphase =>
    have hmodules : s'.modules = s.modules := by
      rw [reportCycle, run_get_bind] at hrun
      dsimp only at hrun
      split at hrun
      · cases hrun
        rfl
      · cases hrun
        rfl
    rw [hmodules] at hm
    rw [State.module_eq hm] at hphase
    simp [hphase]
  · next hunvisited _ =>
    cases hrun
    rwa [State.module_eq hm] at hunvisited

lemma imports_importing {fuel : Nat} (hglance : ∀ id, (looking F).Keeps (fun _ => True) (glance fuel id)) {c : State}
    {module : Nat} : Imports c module (importing F c module) (visitWith (glance fuel)) where
  chart _ hs := hs.2.1
  frame _ hs := hs.2.2
  visited _ _ _ _ _ hrun := visited_of_visit hrun
  visit id _ := importing_of_looking (visitWith_looking hglance id)
  report info cause := importing_of_looking (report_looking info cause)
  refer := addReference_importing

lemma glance_looking (fuel id : Nat) : (looking F).Keeps (fun _ => True) (glance fuel id) := by
  induction fuel generalizing id with
  | zero => exact .throw rfl
  | succ fuel ih =>
    intro s hs
    by_cases hphase : (s.module id).phase = .unvisited
    · refine .congr (run_glance fuel hphase) ?_
      refine .bracket (S := importing F s.chart id) ?_ (fun _ hφ => hφ) fun _ t _ ht hforward =>
        looking_closed hs hphase ht.1 hforward
      have hplanned : Planned s.chart id (fun _ => True) fun visit => flattenAll visit [] (s.module id).syn.uses :=
        flattenAll_planned (State.Early.charted hs) [] _
      obtain ⟨moves, a, -, hmoves, hplan⟩ := hplanned
      have hregistered := importing_registered hs hphase
      refine .congr (hplan _ _ (imports_importing ih) _ hregistered) ?_
      exact (acts_keeps (imports_importing ih) hmoves).skip (fun _ => .pure trivial) _ hregistered
    · refine .congr (y := pure ()) ?_ (.pure hs trivial)
      rw [glance, run_bind_ok (run_entry id s), if_neg hphase]

end

lemma run_glanceFuel (s : State) : glanceFuel.run s = (.ok (s.modules.length + 1 + s.reserve), s) := rfl

lemma run_glanceModule (id : Nat) (s : State) :
    (glanceModule id).run s = (glance (s.modules.length + 1 + s.reserve) id).run s := by
  rw [glanceModule, run_bind_ok (run_glanceFuel s)]

lemma glanceModule_looking (id : Nat) : (looking F).Keeps (fun _ => True) (glanceModule id) := fun s hs =>
  .congr (run_glanceModule id s) (glance_looking _ id s hs)

lemma visited_of_glanceAll {ids : List Nat} {s s' : State} (hs : s.Early F)
    (hrun : (ids.forM glanceModule).run s = (.ok (), s')) :
    ∀ id ∈ ids, ∀ m, s'.modules[id]? = some m → m.phase ≠ .unvisited := by
  refine Keeps.each_of_forM (R := looking F) (D := fun id t => ∀ m, t.modules[id]? = some m → m.phase ≠ .unvisited)
    (fun id _ => glanceModule_looking id) (fun id u v hstep hvisited m hm => ?_) (fun id _ u v _ _ hfirst m hm => ?_) hs hrun
  · have hforward : u.Forward v := hstep
    have hlt : id < u.modules.length := hforward.length ▸ (List.getElem?_eq_some_iff.mp hm).1
    have hk := List.getElem?_eq_getElem hlt
    obtain hsame | ⟨hunvisited, -⟩ := (hforward.modules id _ m hk hm).phase
    · rw [hsame]
      exact hvisited _ hk
    · exact absurd hunvisited (hvisited _ hk)
  · rw [run_glanceModule] at hfirst
    exact visited_of_glance hfirst hm

end Check

/-! ### All modules -/

def State.start (s : State) : State where
  packages := s.packages
  prelude := s.prelude
  reserve := s.reserve
  nextNode := s.nextNode

structure State.Untouched (F : Form) (s : State) : Prop where
  modules : ∀ m ∈ s.modules, m.Early F ∧ m.phase = .unvisited
  rest : s = { s.start with modules := s.modules }

structure State.Surveyed (F : Form) (s : State) : Prop where
  modules : ∀ m ∈ s.modules, m.Early F ∧ m.Listed s.Clean ∧ m.phase = .glanced
  apart : s.apart = s.start

namespace State.Untouched

variable {s s' : State}

lemma early (h : s.Untouched F) : s.Early F := by
  refine ⟨fun m hm => ⟨(h.modules m hm).1, fun hglanced => ?_⟩, congrArg State.instances h.rest⟩
  rw [(h.modules m hm).2] at hglanced
  simp at hglanced

lemma surveyed (h : s.Untouched F) (hrun : ((List.range s.modules.length).forM Check.glanceModule).run s = (.ok (), s')) :
    s'.Surveyed F := by
  obtain ⟨hearly, hforward, -⟩ := (Keeps.forM fun id _ => Check.glanceModule_looking id) s h.early |>.ok _ s' hrun
  have hforward : s.Forward s' := hforward
  have hearly : s'.Early F := hearly
  refine ⟨fun m' hm' => ?_, ?_⟩
  · obtain ⟨i, hi⟩ := List.mem_iff_getElem?.mp hm'
    have hlt := (List.getElem?_eq_some_iff.mp hi).1
    rw [hforward.length] at hlt
    have hm := List.getElem?_eq_getElem hlt
    have hunvisited := (h.modules _ (List.mem_of_getElem? hm)).2
    have hvisited := Check.visited_of_glanceAll h.early hrun i (List.mem_range.mpr hlt) m' hi
    have hglanced : m'.phase = .glanced := by
      obtain hsame | ⟨-, hglanced⟩ := (hforward.modules i _ m' hm hi).phase
      · exact absurd (hsame.trans hunvisited) hvisited
      · exact hglanced
    obtain ⟨hearly, hlisted⟩ := hearly.modules m' hm'
    exact ⟨hearly, hlisted hglanced, hglanced⟩
  · have hstart : s'.apart.start = s.apart.start := by rw [hforward.apart]
    have hapart : s.apart = s.start := congrArg State.apart h.rest
    exact (hforward.apart.trans hapart).trans hstart.symm

end State.Untouched

lemma State.Surveyed.steady {s : State} (h : s.Surveyed F) : Check.Steady ⟨s.fixed, F, .none⟩ s := by
  have hinstances : s.instances = [] := congrArg State.instances h.apart
  have hframes : s.frames = .empty := congrArg State.frames h.apart
  have hclosures : s.closures = {} := congrArg State.closures h.apart
  have hpending : s.pending = [] := congrArg State.pending h.apart
  have hgenerics : s.generics = {} := congrArg State.generics h.apart
  have hslots : s.slots = {} := congrArg State.slots h.apart
  have hresults : s.results = {} := congrArg State.results h.apart
  have hsignatures : s.signatures = {} := congrArg State.signatures h.apart
  have hmemo : s.memo = [] := congrArg State.memo h.apart
  have htop : s.frames.top = [] := by rw [hframes]; rfl
  refine
    { proper := ⟨fun m hm => ?_, ?_⟩
      fixed := rfl
      glanced := fun m hm => ?_
      frames := by simp [htop]
      closures := by simp [hclosures]
      pending := by simp [hpending]
      generics := by simp [hgenerics]
      slots := by simp [hslots]
      results := by simp [hresults]
      signatures := by simp [hsignatures]
      memo := ?_
      placed := ⟨by simp [htop], by simp [htop], by simp [hpending], by simp [hpending], by simp [hpending]⟩
      awaited := by simp [hclosures, hslots]
      held := nofun }
  · obtain ⟨m, hmem, rfl⟩ := List.mem_map.mp hm
    obtain ⟨hm, hlisted, -⟩ := h.modules m hmem
    exact ⟨hm.statements, hm.scope_proper rfl, fun id d hd => hm.defs id d hd _ rfl, hlisted.impls, hm.defined⟩
  · have : s.fixed.instances = [] := hinstances
    simp [this]
  · simp [(h.modules m hm).2.2]
  · simp [hmemo, Memo.Of, Memo.Usable]

end TraitCheck
