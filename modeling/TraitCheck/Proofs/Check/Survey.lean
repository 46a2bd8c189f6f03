import Mathlib.Data.List.Chain
import TraitCheck.Proofs.Check.Glance

/-! Glancing modules as a search along their imports. Whichever module it starts from, what becomes of a module is
settled by the plan of its imports, and so is what is reported, cycles apart. A cycle is reported for each way in which
the search runs into itself; where it never does, every module comes after all that it asks for. -/

namespace TraitCheck

open Syntax (Form)

namespace State

/-- The cycles of imports that have been reported. -/
def cyclesReported (s : State) : List (List String) := s.diagnostics.filterMap (·.cause.cycle?)

/-- What has been reported apart from cycles of imports. -/
def others (s : State) : List Diagnostic := s.diagnostics.filter (·.cause.cycle?.isNone)

def name (s : State) (id : Nat) : String := (s.module id).path.render

variable {s t : State}

lemma path_of_chart (h : t.chart = s.chart) (id : Nat) : (t.module id).path = (s.module id).path := by
  have hpath : ∀ s : State, (s.chart.module id).path = (s.module id).path := by
    intro s
    rw [module, module, chart_modules]
    cases s.modules[id]? with
    | none => rfl
    | some m => exact m.charted_path id
  rw [← hpath, h, hpath]

lemma syn_chart (s : State) (id : Nat) : (s.chart.module id).syn = (s.module id).syn := by
  rw [module, module, chart_modules]
  cases s.modules[id]? with
  | none => rfl
  | some m => exact m.charted_syn id

lemma length_of_chart (h : t.chart = s.chart) : t.modules.length = s.modules.length := by
  have hlength : ∀ s : State, s.chart.modules.length = s.modules.length := fun s => List.length_mapIdx
  rw [← hlength, h, hlength]

lemma getElem?_module {id : Nat} (h : id < s.modules.length) : s.modules[id]? = some (s.module id) := by
  rw [module, List.getElem?_eq_getElem h]
  rfl

lemma glances_of_apart (h : t.apart = s.apart) : t.glances = s.glances := by
  have : t.apart.glances = s.apart.glances := by rw [h]
  exact this

lemma cyclesReported_of_prefix (h : s.diagnostics <+: t.diagnostics) (ht : t.cyclesReported = []) :
    s.cyclesReported = [] := by
  obtain ⟨l, hl⟩ := h
  rw [cyclesReported, ← hl, List.filterMap_append, List.append_eq_nil_iff] at ht
  exact ht.1

lemma Untouched.phase {F : Form} (h : s.Untouched F) {id : Nat} (hid : id < s.modules.length) :
    (s.module id).phase = .unvisited :=
  (h.modules _ (List.mem_of_getElem? (getElem?_module hid))).2

end State

namespace Check

/-! ### Plans -/

/-- The moves that the imports of each module come down to. -/
structure Plan (c : State) where
  moves : Nat → List Move
  sound : ∀ id, Move.Sound c (moves id)
  run : ∀ id R visit, Imports c id R visit → ∀ s, R.Inv s →
    (flattenAll visit [] (c.module id).syn.uses).run s = (acts visit (moves id)).run s

lemma nonempty_plan {F : Form} {c : State} (hc : c.Charted F) : Nonempty (Plan c) := by
  have hplanned (id : Nat) : ∃ moves, Move.Sound c moves ∧ ∀ R visit, Imports c id R visit → ∀ s, R.Inv s →
      (flattenAll visit [] (c.module id).syn.uses).run s = (acts visit moves).run s := by
    obtain ⟨moves, a, -, hmoves, hrun⟩ := flattenAll_planned (c := c) hc [] (c.module id).syn.uses
    exact ⟨moves, hmoves, fun R visit himports s hs => (hrun R visit himports s hs).trans (by rw [bind_pure])⟩
  choose moves hmoves hrun using hplanned
  exact ⟨⟨moves, hmoves, hrun⟩⟩

def Move.refer? : Move → Option Path
  | .refer p => some p
  | _ => none

def Move.report? (name : String) : Move → Option Diagnostic
  | .report at? cause => some ⟨name, at?.map (·.range), cause⟩
  | _ => none

namespace Plan

variable {c : State} (p : Plan c)

def Asks (m n : Nat) : Prop := .visit n ∈ p.moves m

def finished (id : Nat) (m : ModuleEntry) : ModuleEntry :=
  { m.charted id with references := m.references ++ (p.moves id).filterMap Move.refer? }

structure Cycle (l : List Nat) : Prop where
  nonempty : l ≠ []
  nodup : l.Nodup
  chain : (l ++ l.head?.toList).IsChain p.Asks

def Sorted : List Nat → Prop
  | [] => True
  | m :: l => (∀ n, p.Asks m n → n ∈ l) ∧ Sorted l

variable {p}

lemma Sorted.closed {l : List Nat} (h : p.Sorted l) {m n : Nat} (hm : m ∈ l) (hn : p.Asks m n) : n ∈ l := by
  induction l with
  | nil => simp at hm
  | cons k l ih =>
    obtain rfl | hm := List.mem_cons.mp hm
    · exact List.mem_cons_of_mem _ (h.1 n hn)
    · exact List.mem_cons_of_mem _ (ih h.2 hm)

lemma Sorted.behind {l : List Nat} {m n : Nat} (h : p.Sorted (m :: l)) (hn : Relation.TransGen p.Asks m n) : n ∈ l := by
  induction hn with
  | single hn => exact h.1 _ hn
  | tail _ hn ih => exact h.2.closed ih hn

lemma Sorted.irreflexive {l : List Nat} (h : p.Sorted l) (hl : l.Nodup) {m : Nat} (hm : m ∈ l) :
    ¬Relation.TransGen p.Asks m m := by
  induction l with
  | nil => simp at hm
  | cons k l ih =>
    obtain ⟨hk, hl⟩ := List.nodup_cons.mp hl
    obtain rfl | hm := List.mem_cons.mp hm
    · exact fun hcycle => hk (h.behind hcycle)
    · exact ih h.2 hl hm

lemma Cycle.transGen {l : List Nat} (h : p.Cycle l) : ∃ m, Relation.TransGen p.Asks m m := by
  obtain ⟨m, l, rfl⟩ := List.exists_cons_of_ne_nil h.nonempty
  have hchain : (m :: (l ++ [m])).IsChain p.Asks := h.chain
  have hlast : ∀ (k : Nat) (l : List Nat), (k :: (l ++ [m])).IsChain p.Asks → Relation.TransGen p.Asks k m := by
    intro k l
    induction l generalizing k with
    | nil => exact fun h => .single (List.isChain_cons_cons.mp h).1
    | cons n l ih => exact fun h => .head (List.isChain_cons_cons.mp h).1 (ih n (List.isChain_cons_cons.mp h).2)
  exact ⟨m, hlast m l hchain⟩

/-! ### The search -/

variable {F : Form} {s₀ : State} (p : Plan s₀.chart)

def about (id : Nat) : List Diagnostic := redeclared s₀ id ++ (p.moves id).filterMap (Move.report? (s₀.name id))

structure Reported (cycles : List (List Nat)) (s : State) : Prop where
  told : s.cyclesReported = cycles.map fun l => (l ++ l.head?.toList).map s₀.name
  keys : s.cycles = (cycles.map fun l => cycleKey (l.map s₀.name)).reverse
  distinct : s.cycles.Nodup
  cycle : ∀ l ∈ cycles, p.Cycle l

/-- How far the search has come: some modules are finished, the last one first, others are being glanced, each of them
because the one below it has asked for it, and nothing has happened to the rest. -/
structure Seen (F : Form) (order : List Nat) (s : State) : Prop where
  early : s.Early F
  chart : s.chart = s₀.chart
  modules : ∀ id ∉ s.glances.top, s.module id = if id ∈ order then p.finished id (s₀.module id) else s₀.module id
  glancing : ∀ id ∈ s.glances.top, (s.module id).phase = .glancing
  distinct : (s.glances.top ++ order).Nodup
  inside : ∀ id ∈ s.glances.top ++ order, id < s₀.modules.length
  chain : s.glances.items.IsChain p.Asks
  reported : ∃ cycles, p.Reported cycles s
  sorted : s.cyclesReported = [] → p.Sorted order

structure Progress (F : Form) (order : List Nat) (s : State) (done : List Nat) (t : State) : Prop where
  seen : p.Seen F (done ++ order) t
  forward : s.Forward t
  others : t.others.Perm (done.flatMap p.about ++ s.others)
  kept : ∀ id ∈ s.glances.top, t.module id = s.module id

structure Passed (F : Form) (m : Nat) (moves : List Move) (order : List Nat) (s : State) (done : List Nat) (t : State) :
    Prop where
  seen : p.Seen F (done ++ order) t
  forward : s.Forward t
  others : t.others.Perm (moves.filterMap (Move.report? (s₀.name m)) ++ (done.flatMap p.about ++ s.others))
  kept : ∀ id ∈ s.glances.top, id ≠ m → t.module id = s.module id
  self : t.module m = { s.module m with references := (s.module m).references ++ moves.filterMap Move.refer? }
  met : t.cyclesReported = [] → ∀ id, Move.visit id ∈ moves → id ∈ done ++ order

variable {p} {order done done' : List Nat} {s t u : State} {m : Nat} {moves moves' : List Move}

lemma Progress.refl (hs : p.Seen F order s) : p.Progress F order s [] s :=
  ⟨hs, .of_modules rfl rfl List.prefix_rfl, .refl _, fun _ _ => rfl⟩

lemma Passed.trans (h : p.Passed F m moves order s done t) (h' : p.Passed F m moves' (done ++ order) t done' u) :
    p.Passed F m (moves ++ moves') order s (done' ++ done) u := by
  have hglances := State.glances_of_apart h.forward.apart
  refine ⟨?_, h.forward.trans h'.forward, ?_, fun id hid hne => ?_, ?_, fun hnone id hid => ?_⟩
  · rw [List.append_assoc]
    exact h'.seen
  · refine h'.others.trans ?_
    rw [List.filterMap_append, List.flatMap_append]
    refine ((h.others.append_left _).append_left _).trans ?_
    simp only [List.append_assoc]
    exact ((List.perm_append_comm_assoc _ _ _).append_left _).trans (List.perm_append_comm_assoc _ _ _)
  · rw [h'.kept id (hglances ▸ hid) hne, h.kept id hid hne]
  · rw [h'.self, h.self, List.filterMap_append, List.append_assoc]
  · rw [List.append_assoc]
    obtain hid | hid := List.mem_append.mp hid
    · exact List.mem_append_right _ (h.met (State.cyclesReported_of_prefix h'.forward.diagnostics hnone) id hid)
    · exact h'.met hnone id hid

lemma Seen.same (h : p.Seen F order s) (hearly : t.Early F) (hforward : s.Forward t) (hcycles : t.cycles = s.cycles)
    (htold : t.cyclesReported = s.cyclesReported) (hmodules : ∀ id ∉ s.glances.top, t.module id = s.module id)
    (hglancing : ∀ id ∈ s.glances.top, (t.module id).phase = (s.module id).phase) : p.Seen F order t := by
  have hglances := State.glances_of_apart hforward.apart
  obtain ⟨cycles, hreported⟩ := h.reported
  refine ⟨hearly, hforward.chart.trans h.chart, fun id hid => ?_, fun id hid => ?_, ?_, ?_, ?_, ⟨cycles, ?_⟩, ?_⟩
  · rw [hglances] at hid
    rw [hmodules id hid, h.modules id hid]
  · rw [hglances] at hid
    rw [hglancing id hid, h.glancing id hid]
  · rw [hglances]
    exact h.distinct
  · rw [hglances]
    exact h.inside
  · rw [hglances]
    exact h.chain
  · exact ⟨htold.trans hreported.told, hcycles.trans hreported.keys, hcycles ▸ hreported.distinct, hreported.cycle⟩
  · rw [htold]
    exact h.sorted

lemma Seen.ask (hs : p.Seen F order s) {stack : List Nat} (hstack : s.glances.top = m :: stack) {n : Nat}
    (hn : p.Asks m n) : (s.glances.items ++ [n]).IsChain p.Asks := by
  refine List.isChain_append.mpr ⟨hs.chain, .singleton n, ?_⟩
  simpa [Stack.items, hstack] using hn

lemma Asks.lt {n : Nat} (h : p.Asks m n) : n < s₀.modules.length := by
  have hlt := (p.sound m).visits n h
  rwa [State.chart, List.length_mapIdx] at hlt

lemma Seen.length (h : p.Seen F order s) : s.modules.length = s₀.modules.length := State.length_of_chart h.chart

lemma Seen.name (h : p.Seen F order s) (id : Nat) : s.name id = s₀.name id := by
  rw [State.name, State.path_of_chart h.chart, ← State.name]

lemma Seen.diagnosticAt (h : p.Seen F order s) {f : Frame} {fs : List Frame} (hframe : s.frames.top = f :: fs)
    (hm : f.module < s₀.modules.length) (at? : Option Syntax.Info) (cause : Diagnostic.Cause) :
    Check.diagnosticAt s at? cause = ⟨s₀.name f.module, at?.map (·.range), cause⟩ := by
  have hmodule := State.getElem?_module (s := s) (h.length ▸ hm)
  rw [Check.diagnosticAt, Stack.peek?, hframe, List.head?_cons, Option.bind_some, hmodule, Option.map_some,
    Option.getD_some, ← State.name, h.name]

section

variable {f : Frame} {fs : List Frame} {stack : List Nat}

lemma passed_report (hs : p.Seen F order s) (hframe : s.frames.top = f :: fs) (hm : f.module < s₀.modules.length)
    (at? : Option Syntax.Info) {cause : Diagnostic.Cause} (hcause : cause.cycle? = none) :
    ∃ t, (report at? cause).run s = (.ok (), t) ∧ p.Passed F f.module [.report at? cause] order s [] t := by
  obtain ⟨hearly, hforward, -⟩ := (report_looking at? cause s hs.early).ok _ _ (run_report at? cause s)
  refine ⟨_, run_report at? cause s, ?_, hforward, ?_, fun _ _ _ => rfl, ?_, by simp⟩
  · refine hs.same hearly hforward rfl ?_ (fun _ _ => rfl) fun _ _ => rfl
    simp [State.cyclesReported, Check.diagnosticAt, hcause]
  · rw [hs.diagnosticAt hframe hm]
    simp only [State.others, List.filter_append, Move.report?, List.filterMap_cons, List.filterMap_nil,
      List.flatMap_nil, List.nil_append]
    simp [hcause]
  · have hnone : [Move.report at? cause].filterMap Move.refer? = [] := rfl
    rw [hnone, List.append_nil]
    rfl

lemma passed_refer (hs : p.Seen F order s) (hframe : s.frames.top = f :: fs) (hm : f.module ∈ s.glances.top)
    (path : Path) : ∃ t, (addReference path).run s = (.ok (), t) ∧ p.Passed F f.module [.refer path] order s [] t := by
  let refer (e : ModuleEntry) : ModuleEntry := { e with references := e.references ++ [path] }
  have hcurrent : currentModule.run s = (.ok f.module, s) := run_bind_ok (run_frame hframe) _
  have hrun : (addReference path).run s = (.ok (), { s with modules := s.modules.modify f.module refer }) :=
    run_bind_ok hcurrent _
  have hlt : f.module < s.modules.length := hs.length ▸ hs.inside _ (List.mem_append_left _ hm)
  have hself : State.module { s with modules := s.modules.modify f.module refer } f.module = refer (s.module f.module) := by
    rw [State.module, getElem?_modify_self, State.getElem?_module hlt]
    rfl
  have hother : ∀ id ≠ f.module,
      State.module { s with modules := s.modules.modify f.module refer } id = s.module id := by
    intro id hid
    rw [State.module, getElem?_modify_ne (Ne.symm hid), ← State.module]
  have hinv : (importing F s.chart f.module).Inv s := ⟨hs.early, rfl, f, fs, hframe, rfl⟩
  obtain ⟨⟨hearly, -⟩, hforward, -⟩ := (addReference_importing path s hinv).ok _ _ hrun
  refine ⟨_, hrun, ?_, hforward, .refl _, fun id _ hid => hother id hid, ?_, by simp⟩
  · refine hs.same hearly hforward rfl rfl (fun id hid => hother id fun h => hid (h ▸ hm)) fun id _ => ?_
    by_cases hid : id = f.module
    · rw [hid, hself]
    · rw [hother id hid]
  · rw [hself]
    simp [refer, Move.refer?]

def namesFrom (s : State) (id : Nat) : List String :=
  (s.glances.items.dropWhile (· ≠ id)).filterMap fun i => (s.modules[i]?).map (·.path.render)

def cycleTold (s : State) (id : Nat) : State :=
  { s with
    cycles := cycleKey (namesFrom s id) :: s.cycles
    diagnostics := s.diagnostics ++ [diagnosticAt s none (.circularModuleReference (namesFrom s id ++ [s.name id]))] }

lemma run_reportCycle (s : State) (id : Nat) :
    (reportCycle id).run s = (.ok (), if cycleKey (namesFrom s id) ∈ s.cycles then s else cycleTold s id) := by
  rw [reportCycle, run_get_bind]
  change (if cycleKey (namesFrom s id) ∈ s.cycles then _ else _ : Check Unit).run s = _
  split <;> rfl

lemma Seen.cycle (hs : p.Seen F order s) {id : Nat} (hid : id ∈ s.glances.top)
    (hchain : (s.glances.items ++ [id]).IsChain p.Asks) :
    ∃ l, p.Cycle l ∧ l.head? = some id ∧ namesFrom s id = l.map s₀.name := by
  obtain ⟨below, above, hitems, hbelow⟩ : ∃ below above, s.glances.items = below ++ id :: above ∧ id ∉ below := by
    refine List.eq_append_cons_of_mem ?_
    rwa [Stack.items, List.mem_reverse]
  have hdrop : s.glances.items.dropWhile (· ≠ id) = id :: above := by
    rw [hitems, List.dropWhile_append_of_pos fun i hi => by simpa using ne_of_mem_of_not_mem hi hbelow]
    simp
  refine ⟨id :: above, ⟨List.cons_ne_nil _ _, ?_, ?_⟩, rfl, ?_⟩
  · have hnodup : s.glances.items.Nodup := List.nodup_reverse.mpr hs.distinct.of_append_left
    rw [hitems] at hnodup
    exact hnodup.of_append_right
  · rw [hitems, List.append_assoc] at hchain
    exact hchain.right_of_append
  · rw [namesFrom, hdrop, ← List.filterMap_eq_map]
    refine List.filterMap_congr fun i hi => ?_
    have hi : i ∈ s.glances.items := hitems ▸ List.mem_append_right _ hi
    rw [Stack.items, List.mem_reverse] at hi
    rw [State.getElem?_module (hs.length ▸ hs.inside i (List.mem_append_left _ hi)), Option.map_some,
      Function.comp_apply, ← hs.name]
    rfl

lemma progress_cycle (hs : p.Seen F order s) {id : Nat} (hid : id ∈ s.glances.top)
    (hchain : (s.glances.items ++ [id]).IsChain p.Asks) :
    ∃ t, (reportCycle id).run s = (.ok (), t) ∧ p.Progress F order s [] t ∧ t.cyclesReported ≠ [] := by
  obtain ⟨cycles, hreported⟩ := hs.reported
  obtain ⟨l, hl, hhead, hnames⟩ := hs.cycle hid hchain
  refine ⟨_, run_reportCycle s id, ?_⟩
  have hlooking := (reportCycle_looking id s hs.early).ok _ _ (run_reportCycle s id)
  split
  · next hknown =>
    refine ⟨.refl hs, fun hnone => ?_⟩
    rw [hreported.keys] at hknown
    rw [hreported.told] at hnone
    simp [List.map_eq_nil_iff.mp hnone] at hknown
  · next hnew =>
    rw [if_neg hnew] at hlooking
    obtain ⟨hearly, hforward, -⟩ := hlooking
    have htold : (cycleTold s id).cyclesReported = s.cyclesReported ++ [(l ++ l.head?.toList).map s₀.name] := by
      simp [State.cyclesReported, cycleTold, diagnosticAt, Diagnostic.Cause.cycle?, hnames, hhead, hs.name]
    refine ⟨⟨?_, hforward, ?_, fun _ _ => rfl⟩, by simp [htold]⟩
    · refine { hs with early := hearly, reported := ⟨cycles ++ [l], ?_, ?_, ?_, ?_⟩, sorted := by simp [htold] }
      · simp [htold, hreported.told]
      · simp [cycleTold, hreported.keys, hnames]
      · exact List.nodup_cons.mpr ⟨hnew, hreported.distinct⟩
      · simpa [or_imp, forall_and] using ⟨hreported.cycle, hl⟩
    · have hothers : (cycleTold s id).others = s.others := by
        simp [State.others, cycleTold, diagnosticAt, Diagnostic.Cause.cycle?]
      rw [hothers]
      exact .refl _

def Visits (F : Form) (p : Plan s₀.chart) (visit : Nat → Check Unit) (s : State) (order : List Nat) (id : Nat) : Prop :=
  ∃ done t, (visit id).run s = (.ok (), t) ∧ p.Progress F order s done t ∧
    (t.cyclesReported = [] → id ∈ done ++ order)

lemma Progress.passed {id : Nat} (h : p.Progress F order s done t) (hm : m ∈ s.glances.top)
    (hmet : t.cyclesReported = [] → id ∈ done ++ order) : p.Passed F m [.visit id] order s done t := by
  refine ⟨h.seen, h.forward, h.others, fun i hi _ => h.kept i hi, ?_, by simpa using hmet⟩
  have hnone : [Move.visit id].filterMap Move.refer? = [] := rfl
  rw [hnone, List.append_nil, h.kept m hm]

lemma passed_acts {visit : Nat → Check Unit} {stack : List Nat} (hmoves : ∀ move ∈ moves, move ∈ p.moves m)
    (hvisit : ∀ id, p.Asks m id → ∀ order s, p.Seen F order s → s.glances.top = m :: stack → Visits F p visit s order id)
    (hs : p.Seen F order s) {f : Frame} {fs : List Frame} (hframe : s.frames.top = f :: fs) (hf : f.module = m)
    (hstack : s.glances.top = m :: stack) :
    ∃ done t, (acts visit moves).run s = (.ok (), t) ∧ p.Passed F m moves order s done t := by
  induction moves generalizing s order with
  | nil =>
    refine ⟨[], s, rfl, hs, .of_modules rfl rfl List.prefix_rfl, .refl _, fun _ _ _ => rfl, ?_, by simp⟩
    rw [List.filterMap_nil, List.append_nil]
  | cons move moves ih =>
    have hm : m ∈ s.glances.top := by simp [hstack]
    have hfirst : ∃ done t, (Move.act visit move).run s = (.ok (), t) ∧ p.Passed F m [move] order s done t := by
      cases move with
      | visit id =>
        obtain ⟨done, t, hrun, hprogress, hmet⟩ := hvisit id (hmoves _ (by simp)) order s hs hstack
        exact ⟨done, t, hrun, hprogress.passed hm hmet⟩
      | report at? cause =>
        have hcause := (p.sound m).reports at? cause (hmoves _ (by simp))
        have hlt : f.module < s₀.modules.length := hf ▸ hs.inside m (List.mem_append_left _ hm)
        exact ⟨[], hf ▸ passed_report hs hframe hlt at? hcause⟩
      | refer path => exact ⟨[], hf ▸ passed_refer hs hframe (hf ▸ hm) path⟩
    obtain ⟨done, t, hrun, hpassed⟩ := hfirst
    have hframe' : t.frames.top = f :: fs := by rw [State.frames_of_apart hpassed.forward.apart, hframe]
    have hstack' : t.glances.top = m :: stack := by rw [State.glances_of_apart hpassed.forward.apart, hstack]
    obtain ⟨done', u, hrest, hpassed'⟩ := ih (fun k hk => hmoves k (List.mem_cons_of_mem _ hk)) hpassed.seen hframe' hstack'
    refine ⟨done' ++ done, u, ?_, hpassed.trans hpassed'⟩
    rw [acts, forM_cons, run_bind_ok hrun]
    exact hrest

/-! #### A glance -/

variable {id : Nat}

lemma redeclared_eq (hid : id < s.modules.length) (s' : State) (hs' : s'.module id = s.module id)
    (hid' : id < s'.modules.length) : redeclared s' id = redeclared s id := by
  have hdiagnostic : ∀ s : State, id < s.modules.length → ∀ at? cause,
      diagnosticAt (opened s id) at? cause = ⟨s.name id, at?.map (·.range), cause⟩ := by
    intro s hid at? cause
    have hopened : (opened s id).modules[id]? = some { s.module id with phase := .glancing } := by
      rw [opened, getElem?_modify_self, State.getElem?_module hid, Option.map_some]
    have hpeek : (opened s id).frames.peek? = some { id := s.nextFrame, module := id } := rfl
    rw [Check.diagnosticAt, hpeek, Option.bind_some, hopened]
    rfl
  have hsame : diagnosticAt (opened s' id) = diagnosticAt (opened s id) := by
    funext at? cause
    rw [hdiagnostic s hid, hdiagnostic s' hid', State.name, State.name, hs']
  rw [redeclared, redeclared, reportRedeclared, reportRedeclared, hs', hsame]

lemma cycle?_of_mem_redeclared {d : Diagnostic} (h : d ∈ redeclared s id) : d.cause.cycle? = none := by
  obtain ⟨x, -, rfl⟩ := List.mem_map.mp h
  rfl

lemma module_registered (hid : id < s.modules.length) : (registered s id).module id =
    (s.module id).syn.statements.foldl (ModuleEntry.register id) { s.module id with phase := .glancing } := by
  rw [State.module, registered, getElem?_modify_self, State.getElem?_module hid]
  rfl

lemma module_registered_ne {i : Nat} (h : i ≠ id) : (registered s id).module i = s.module i := by
  rw [State.module, registered, getElem?_modify_ne (Ne.symm h), ← State.module]

lemma module_closed (hid : id < t.modules.length) : (closed id t).module id = { t.module id with phase := .glanced } := by
  rw [State.module, closed, getElem?_modify_self, State.getElem?_module hid]
  rfl

lemma module_closed_ne {i : Nat} (h : i ≠ id) : (closed id t).module i = t.module i := by
  rw [State.module, closed, getElem?_modify_ne (Ne.symm h), ← State.module]

lemma Seen.fresh (hs : p.Seen F order s) (hnew : id ∉ s.glances.top ++ order) : s.module id = s₀.module id := by
  rw [List.mem_append, not_or] at hnew
  rw [hs.modules id hnew.1, if_neg hnew.2]

lemma Seen.registered (hs : p.Seen F order s) (hid : id < s₀.modules.length) (hnew : id ∉ s.glances.top ++ order)
    (hphase : (s.module id).phase = .unvisited) (hchain : (s.glances.items ++ [id]).IsChain p.Asks) :
    p.Seen F order (registered s id) := by
  obtain ⟨cycles, hreported⟩ := hs.reported
  have hlt : id < s.modules.length := hs.length ▸ hid
  have htold : (Check.registered s id).cyclesReported = s.cyclesReported := by
    have hnone : (redeclared s id).filterMap (·.cause.cycle?) = [] := by
      simpa [List.filterMap_eq_nil_iff] using fun d hd => cycle?_of_mem_redeclared hd
    rw [State.cyclesReported, Check.registered, List.filterMap_append, hnone, List.append_nil]
    rfl
  refine ⟨(importing_registered hs.early hphase).1, (chart_registered hphase).trans hs.chart, fun i hi => ?_,
    fun i hi => ?_, List.nodup_cons.mpr ⟨hnew, hs.distinct⟩, ?_, ?_, ⟨cycles, ?_⟩, ?_⟩
  · have hi : i ≠ id ∧ i ∉ s.glances.top := by simpa [Check.registered, Stack.push] using hi
    rw [module_registered_ne hi.1, hs.modules i hi.2]
  · by_cases hself : i = id
    · rw [hself, module_registered hlt, (ModuleEntry.registerAll_same id _ _).2.1]
    · have hi : i ∈ s.glances.top := by simpa [Check.registered, Stack.push, hself] using hi
      rw [module_registered_ne hself, hs.glancing i hi]
  · exact List.forall_mem_cons.mpr ⟨hid, hs.inside⟩
  · have hitems : (Check.registered s id).glances.items = s.glances.items ++ [id] := List.reverse_cons
    rwa [hitems]
  · exact ⟨htold.trans hreported.told, hreported.keys, hreported.distinct, hreported.cycle⟩
  · rw [htold]
    exact hs.sorted

lemma others_registered (hs : p.Seen F order s) (hid : id < s₀.modules.length) (hnew : id ∉ s.glances.top ++ order) :
    (registered s id).others = s.others ++ redeclared s₀ id := by
  have hall : (redeclared s₀ id).filter (·.cause.cycle?.isNone) = redeclared s₀ id :=
    List.filter_eq_self.mpr fun d hd => by rw [cycle?_of_mem_redeclared hd]; rfl
  rw [State.others, registered, List.filter_append, redeclared_eq hid s (hs.fresh hnew) (hs.length ▸ hid), hall]
  rfl

lemma Seen.closed (hs : p.Seen F order s) (hid : id < s₀.modules.length) (hnew : id ∉ s.glances.top ++ order)
    (hphase : (s.module id).phase = .unvisited)
    (ht : p.Passed F id (p.moves id) order (Check.registered s id) done t) :
    p.Progress F order s (id :: done) (closed id t) := by
  obtain ⟨hearly, hforward⟩ := looking_closed hs.early hphase ht.seen.early ht.forward
  obtain ⟨cycles, hreported⟩ := ht.seen.reported
  have hglances : (Check.closed id t).glances = s.glances := State.glances_of_apart hforward.apart
  have hstack : t.glances.top = id :: s.glances.top := by rw [State.glances_of_apart ht.forward.apart]; rfl
  have hlt : id < s.modules.length := hs.length ▸ hid
  have hself : (Check.closed id t).module id = p.finished id (s₀.module id) := by
    have hunvisited : (s₀.module id).phase = .unvisited := hs.fresh hnew ▸ hphase
    rw [module_closed (ht.seen.length ▸ hid), ht.self, module_registered hlt, hs.fresh hnew,
      ModuleEntry.registerAll_with _ id _ .glancing (s₀.module id).references, finished, ModuleEntry.charted,
      if_pos hunvisited]
  have hne : ∀ i ∈ s.glances.top, i ≠ id := fun i hi h => hnew (List.mem_append_left _ (h ▸ hi))
  refine ⟨⟨hearly, hforward.chart.trans hs.chart, fun i hi => ?_, fun i hi => ?_, ?_, ?_, ?_, ⟨cycles, ?_⟩, ?_⟩, hforward,
    ?_, fun i hi => ?_⟩
  · rw [hglances] at hi
    by_cases hi' : i = id
    · rw [hi', hself, if_pos (by simp)]
    · rw [module_closed_ne hi', ht.seen.modules i (by simp [hstack, hi, hi'])]
      simp [hi']
  · rw [hglances] at hi
    rw [module_closed_ne (hne i hi), ht.seen.glancing i (by simp [hstack, hi])]
  · have hdistinct := ht.seen.distinct
    rw [hstack] at hdistinct
    rw [hglances]
    exact List.perm_middle.nodup_iff.mpr hdistinct
  · have hinside := ht.seen.inside
    rw [hstack] at hinside
    rw [hglances]
    exact fun i hi => hinside i (List.perm_middle.mem_iff.mp hi)
  · rw [hglances]
    exact hs.chain
  · exact ⟨hreported.told, hreported.keys, hreported.distinct, hreported.cycle⟩
  · exact fun hnone => ⟨fun i hi => ht.met hnone i hi, ht.seen.sorted hnone⟩
  · refine ht.others.trans ?_
    have hlast (a b c d : List Diagnostic) : (a ++ (b ++ (c ++ d))).Perm (d ++ a ++ b ++ c) := by
      rw [← List.append_assoc b, ← List.append_assoc a, List.append_assoc _ b, List.append_assoc d]
      exact List.perm_append_comm
    rw [others_registered hs hid hnew, List.flatMap_cons, about]
    exact hlast _ _ _ _
  · rw [module_closed_ne (hne i hi), ht.kept i (List.mem_cons_of_mem _ hi) (hne i hi), module_registered_ne (hne i hi)]

/-! #### Visits -/

lemma visits_of_glance {glance : Nat → Check Unit} (h₀ : s₀.Untouched F) (hs : p.Seen F order s)
    (hid : id < s₀.modules.length) (hchain : (s.glances.items ++ [id]).IsChain p.Asks)
    (hglance : id ∉ s.glances.top ++ order →
      ∃ done t, (glance id).run s = (.ok (), t) ∧ p.Progress F order s done t ∧ id ∈ done) :
    Visits F p (visitWith glance) s order id := by
  rw [Visits, visitWith, run_bind_ok (run_entry id s)]
  by_cases htop : id ∈ s.glances.top
  · obtain ⟨t, hcycle, hprogress, htold⟩ := progress_cycle hs htop hchain
    rw [hs.glancing id htop]
    exact ⟨[], t, hcycle, hprogress, fun hnone => absurd hnone htold⟩
  · rw [hs.modules id htop]
    by_cases horder : id ∈ order
    · rw [if_pos horder]
      exact ⟨[], s, rfl, .refl hs, fun _ => horder⟩
    · obtain ⟨done, t, hdone, hprogress, hmem⟩ := hglance (by simp [htop, horder])
      rw [if_neg horder, h₀.phase hid]
      exact ⟨done, t, hdone, hprogress, fun _ => List.mem_append_left _ hmem⟩

lemma progress_glance (h₀ : s₀.Untouched F) (fuel : Nat) (hs : p.Seen F order s) (hid : id < s₀.modules.length)
    (hnew : id ∉ s.glances.top ++ order) (hchain : (s.glances.items ++ [id]).IsChain p.Asks)
    (hfuel : s₀.modules.length ≤ fuel + s.glances.top.length) :
    ∃ done t, (glance fuel id).run s = (.ok (), t) ∧ p.Progress F order s done t ∧ id ∈ done := by
  induction fuel generalizing id order s with
  | zero =>
    -- all modules are being glanced, and this one is not among them
    obtain ⟨hfree, -⟩ := not_or.mp (List.mem_append.not.mp hnew)
    have hnodup : (id :: s.glances.top).Nodup := List.nodup_cons.mpr ⟨hfree, hs.distinct.of_append_left⟩
    have hsubset : id :: s.glances.top ⊆ List.range s₀.modules.length := by
      intro i hi
      obtain rfl | hi := List.mem_cons.mp hi
      · exact List.mem_range.mpr hid
      · exact List.mem_range.mpr (hs.inside i (List.mem_append_left _ hi))
    have hlength := (hnodup.subperm hsubset).length_le
    rw [List.length_cons, List.length_range] at hlength
    omega
  | succ fuel ih =>
    have hphase : (s.module id).phase = .unvisited := by rw [hs.fresh hnew, h₀.phase hid]
    have hregistered := hs.registered hid hnew hphase hchain
    have hacts : ∃ done t, (acts (visitWith (glance fuel)) (p.moves id)).run (registered s id) = (.ok (), t) ∧
        p.Passed F id (p.moves id) order (registered s id) done t := by
      refine passed_acts (fun _ h => h) (fun n hn order' s' hs' hstack => ?_) hregistered rfl rfl rfl
      have hchain' := hs'.ask hstack hn
      refine visits_of_glance h₀ hs' hn.lt hchain' fun hnew' => ih hs' hn.lt hnew' hchain' ?_
      rw [hstack, List.length_cons]
      omega
    obtain ⟨done, t, hrun, hpassed⟩ := hacts
    refine ⟨id :: done, closed id t, ?_, hs.closed hid hnew hphase hpassed, by simp⟩
    have hplan := p.run id _ _ (imports_importing fun id => glance_looking (F := F) fuel id) _
      (hs.chart ▸ importing_registered hs.early hphase)
    rw [State.syn_chart, ← hs.fresh hnew, hrun] at hplan
    rw [run_glance fuel hphase]
    exact congrArg (fun r => (r.1, closed id r.2)) hplan

/-! #### All modules -/

lemma Progress.trans (h : p.Progress F order s done t) (h' : p.Progress F (done ++ order) t done' u) :
    p.Progress F order s (done' ++ done) u := by
  have hglances := State.glances_of_apart h.forward.apart
  refine ⟨?_, h.forward.trans h'.forward, ?_, fun id hid => ?_⟩
  · rw [List.append_assoc]
    exact h'.seen
  · rw [List.flatMap_append, List.append_assoc]
    exact h'.others.trans (h.others.append_left _)
  · rw [h'.kept id (hglances ▸ hid), h.kept id hid]

lemma seen_start (h₀ : s₀.Untouched F) : p.Seen F [] s₀ := by
  have hglances : s₀.glances.top = [] := by rw [h₀.rest]; rfl
  have hitems : s₀.glances.items = [] := by rw [h₀.rest]; rfl
  have hcycles : s₀.cycles = [] := by rw [h₀.rest]; rfl
  have htold : s₀.cyclesReported = [] := by rw [h₀.rest]; rfl
  refine ⟨h₀.early, rfl, by simp, by simp [hglances], by simp [hglances], by simp [hglances], by simp [hitems],
    ⟨[], by simp [htold], by simp [hcycles], by simp [hcycles], by simp⟩, fun _ => trivial⟩

lemma progress_glanceModule (h₀ : s₀.Untouched F) (hs : p.Seen F order s) (htop : s.glances.top = [])
    (hid : id < s₀.modules.length) :
    ∃ done t, (glanceModule id).run s = (.ok (), t) ∧ p.Progress F order s done t ∧ id ∈ done ++ order := by
  rw [run_glanceModule]
  by_cases horder : id ∈ order
  · refine ⟨[], s, ?_, .refl hs, horder⟩
    have hphase : (s.module id).phase = .glanced := by
      rw [hs.modules id (by simp [htop]), if_pos horder]
      rfl
    rw [Nat.add_right_comm, glance, run_bind_ok (run_entry id s), if_neg (by simp [hphase])]
    rfl
  · have hchain : (s.glances.items ++ [id]).IsChain p.Asks := by simp [Stack.items, htop]
    obtain ⟨done, t, hrun, hprogress, hmem⟩ := progress_glance h₀ (s.modules.length + 1 + s.reserve) hs hid
      (by simp [htop, horder]) hchain (by rw [hs.length]; omega)
    exact ⟨done, t, hrun, hprogress, List.mem_append_left _ hmem⟩

lemma progress_glanceAll (h₀ : s₀.Untouched F) {ids : List Nat} (hids : ∀ id ∈ ids, id < s₀.modules.length)
    (hs : p.Seen F order s) (htop : s.glances.top = []) :
    ∃ done t, (ids.forM glanceModule).run s = (.ok (), t) ∧ p.Progress F order s done t ∧ ∀ id ∈ ids, id ∈ done ++ order := by
  induction ids generalizing s order with
  | nil => exact ⟨[], s, rfl, .refl hs, by simp⟩
  | cons id ids ih =>
    obtain ⟨done, t, hrun, hprogress, hmem⟩ := progress_glanceModule h₀ hs htop (hids id (by simp))
    have htop' : t.glances.top = [] := by rw [State.glances_of_apart hprogress.forward.apart, htop]
    obtain ⟨done', u, hrest, hprogress', hmem'⟩ := ih (fun k hk => hids k (List.mem_cons_of_mem _ hk)) hprogress.seen htop'
    refine ⟨done' ++ done, u, ?_, hprogress.trans hprogress', fun k hk => ?_⟩
    · rw [forM_cons, run_bind_ok hrun, hrest]
    · rw [List.append_assoc]
      obtain rfl | hk := List.mem_cons.mp hk
      · exact List.mem_append_right _ hmem
      · exact hmem' k hk

lemma exists_surveyed (h₀ : s₀.Untouched F) (p : Plan s₀.chart) {ids : List Nat}
    (hids : ids.Perm (List.range s₀.modules.length)) :
    ∃ order t, (ids.forM glanceModule).run s₀ = (.ok (), t) ∧ p.Progress F [] s₀ order t ∧
      order.Perm (List.range s₀.modules.length) := by
  have hglances : s₀.glances.top = [] := by rw [h₀.rest]; rfl
  have hlt : ∀ id ∈ ids, id < s₀.modules.length := fun id hid => List.mem_range.mp (hids.mem_iff.mp hid)
  obtain ⟨order, t, hrun, hprogress, hall⟩ := progress_glanceAll h₀ hlt (seen_start h₀ (p := p)) hglances
  rw [List.append_nil] at hall
  have hseen := hprogress.seen
  rw [List.append_nil] at hseen
  refine ⟨order, t, hrun, hprogress, ?_⟩
  refine (List.perm_ext_iff_of_nodup hseen.distinct.of_append_right List.nodup_range).mpr fun id => ⟨fun hid => ?_, fun hid => ?_⟩
  · exact List.mem_range.mpr (hseen.inside id (List.mem_append_right _ hid))
  · exact hall id (hids.mem_iff.mpr hid)

end

end Plan

end Check

end TraitCheck
