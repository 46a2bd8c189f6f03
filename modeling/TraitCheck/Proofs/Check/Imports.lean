import TraitCheck.Proofs.Check.Register

/-! How imports are resolved. What the imports of a module ask for depends on nothing but what the modules declare, so
that it can be written down as a list of moves before anything is done. -/

namespace TraitCheck

open Check.Regime
open Syntax (Form)

variable {F : Form}

/-- The cycle of imports that is reported, if it is one. -/
def Diagnostic.Cause.cycle? : Diagnostic.Cause → Option (List String)
  | circularModuleReference cycle => some cycle
  | _ => none

/-! ### What imports can see -/

def ModuleEntry.charted (id : Nat) (m : ModuleEntry) : ModuleEntry :=
  let declared := if m.phase = .unvisited then m.syn.statements.foldl (ModuleEntry.register id) m else m
  { declared with phase := .glanced, references := [] }

def State.chart (s : State) : State where
  packages := s.packages
  instances := s.instances
  modules := s.modules.mapIdx ModuleEntry.charted

def State.Visited (s : State) (id : Nat) : Prop := ∀ m, s.modules[id]? = some m → m.phase ≠ .unvisited

lemma ModuleEntry.charted_path (id : Nat) (m : ModuleEntry) : (m.charted id).path = m.path := by
  rw [charted]
  split
  · exact (registerAll_same id m _).2.2
  · rfl

lemma ModuleEntry.charted_syn (id : Nat) (m : ModuleEntry) : (m.charted id).syn = m.syn := by
  rw [charted]
  split
  · exact (registerAll_same id m _).1
  · rfl

lemma ModuleEntry.charted_scope {id : Nat} {m : ModuleEntry} (h : m.phase ≠ .unvisited) :
    (m.charted id).scope = m.scope := by
  rw [charted, if_neg h]

lemma ModuleEntry.charted_references (id : Nat) (m : ModuleEntry) (references : List Path) :
    { m with references := references : ModuleEntry }.charted id = m.charted id := by
  simp only [charted]
  split
  · rw [registerAll_with m id m.syn.statements m.phase references]
  · rfl

lemma early_default : (default : ModuleEntry).Early F := by
  have hstatements : (default : ModuleEntry).syn.statements = [] := rfl
  have hscope : (default : ModuleEntry).scope.defs = [] := rfl
  have hself : (default : ModuleEntry).scope.self = none := rfl
  have hdefs : (default : ModuleEntry).defs = ∅ := rfl
  exact ⟨by simp [hstatements], by simp [hstatements], by simp [hscope], hself, by simp [hdefs], by simp [hstatements]⟩

lemma ModuleEntry.Early.charted {m : ModuleEntry} (h : m.Early F) (id : Nat) : (m.charted id).Early F := by
  have hdeclared : (if m.phase = .unvisited then m.syn.statements.foldl (ModuleEntry.register id) m else m).Early F := by
    split
    · exact h.registerAll fun _ hs => hs
    · exact h
  exact { hdeclared with }

namespace State

variable {s : State}

lemma chart_modules (s : State) (id : Nat) : s.chart.modules[id]? = (s.modules[id]?).map (ModuleEntry.charted id) :=
  List.getElem?_mapIdx

lemma chart_modify {id : Nat} {f : ModuleEntry → ModuleEntry}
    (h : ∀ m, s.modules[id]? = some m → (f m).charted id = m.charted id) :
    { s with modules := s.modules.modify id f : State }.chart = s.chart := by
  have hmodules : (s.modules.modify id f).mapIdx ModuleEntry.charted = s.modules.mapIdx ModuleEntry.charted := by
    apply List.ext_getElem?
    intro i
    rw [List.getElem?_mapIdx, List.getElem?_mapIdx]
    by_cases hi : id = i
    · subst hi
      rw [Check.getElem?_modify_self]
      cases hm : s.modules[id]? with
      | none => rfl
      | some m => exact congrArg some (h m hm)
    · rw [Check.getElem?_modify_ne hi]
  rw [chart, chart, hmodules]

lemma chart_moduleIn? (s : State) (package : Package) (p : Path) :
    s.chart.moduleIn? package p = s.moduleIn? package p := by
  simp only [moduleIn?, chart_modules, Option.any_map, ModuleEntry.charted_path]

lemma module_of_visited {id : Nat} (h : s.Visited id) :
    (s.module id).path = (s.chart.module id).path ∧ (s.module id).scope = (s.chart.module id).scope := by
  rw [module, module, chart_modules]
  cases hm : s.modules[id]? with
  | none => exact ⟨rfl, rfl⟩
  | some m => exact ⟨(ModuleEntry.charted_path id m).symm, (ModuleEntry.charted_scope (h m hm)).symm⟩

end State

structure State.Charted (F : Form) (c : State) : Prop where
  modules : ∀ m ∈ c.modules, m.Early F
  instances : c.instances = []

lemma State.Charted.module {c : State} (h : c.Charted F) (id : Nat) : (c.module id).Early F := by
  rw [State.module]
  cases hm : c.modules[id]? with
  | none => exact early_default
  | some m => exact h.modules m (List.mem_of_getElem? hm)

namespace Check

/-! ### Moves -/

/-- What the imports of a module come down to: modules are visited, something is reported, and imports are added. -/
inductive Move where
  | visit (id : Nat)
  | report (at? : Option Syntax.Info) (cause : Diagnostic.Cause)
  | refer (p : Path)

def Move.act (visit : Nat → Check Unit) : Move → Check Unit
  | .visit id => visit id
  | .report at? cause => Check.report at? cause
  | .refer p => addReference p

def acts (visit : Nat → Check Unit) (moves : List Move) : Check Unit := moves.forM (Move.act visit)

structure Imports (c : State) (module : Nat) (R : Regime) (visit : Nat → Check Unit) : Prop where
  chart : ∀ s, R.Inv s → s.chart = c
  frame : ∀ s, R.Inv s → ∃ f fs, s.frames.top = f :: fs ∧ f.module = module
  visited : ∀ id < c.modules.length, ∀ s t, R.Inv s → (visit id).run s = (.ok (), t) → t.Visited id
  visit : ∀ id < c.modules.length, R.Keeps (fun _ => True) (visit id)
  report : ∀ info cause, R.Keeps (fun _ => True) (report info cause)
  refer : ∀ p, R.Keeps (fun _ => True) (addReference p)

structure Move.Sound (c : State) (moves : List Move) : Prop where
  visits : ∀ id, Move.visit id ∈ moves → id < c.modules.length
  reports : ∀ at? cause, Move.report at? cause ∈ moves → cause.cycle? = none

lemma Move.Sound.nil (c : State) : Move.Sound c [] := ⟨by simp, by simp⟩

lemma Move.Sound.append {c : State} {first second : List Move} (hfirst : Move.Sound c first)
    (hsecond : Move.Sound c second) : Move.Sound c (first ++ second) :=
  ⟨fun id h => (List.mem_append.mp h).elim (hfirst.visits id) (hsecond.visits id),
    fun at? cause h => (List.mem_append.mp h).elim (hfirst.reports at? cause) (hsecond.reports at? cause)⟩

variable {α β : Type} {c : State} {module : Nat} {P : α → Prop} {Q : β → Prop}

lemma acts_keeps {R : Regime} {visit : Nat → Check Unit} (h : Imports c module R visit) {moves : List Move}
    (hmoves : Move.Sound c moves) : R.Keeps (fun _ => True) (acts visit moves) := by
  refine .forM fun move hmove => ?_
  cases move with
  | visit id => exact h.visit id (hmoves.visits id hmove)
  | report at? cause => exact h.report at? cause
  | refer p => exact h.refer p

lemma acts_append (visit : Nat → Check Unit) (first second : List Move) :
    acts visit (first ++ second) = (do acts visit first; acts visit second) := by
  induction first with
  | nil => rfl
  | cons move first ih =>
    change (Move.act visit move >>= fun _ => acts visit (first ++ second)) =
      (Move.act visit move >>= fun _ => acts visit first) >>= fun _ => acts visit second
    rw [ih, bind_assoc]

/-- An action that comes down to moves. Which ones it takes, and what it gives, depends on the chart only. -/
def Planned (c : State) (module : Nat) (P : α → Prop) (x : (Nat → Check Unit) → Check α) : Prop :=
  ∃ moves a, P a ∧ Move.Sound c moves ∧ ∀ R visit, Imports c module R visit → ∀ s, R.Inv s →
    (x visit).run s = (do acts visit moves; return a : Check α).run s

namespace Planned

variable {x : (Nat → Check Unit) → Check α}

lemma pure {a : α} (h : P a) : Planned c module P fun _ => Pure.pure a :=
  ⟨[], a, h, .nil c, fun _ _ _ _ _ => rfl⟩

lemma bind {k : α → (Nat → Check Unit) → Check β} (hx : Planned c module P x)
    (hk : ∀ a, P a → Planned c module Q (k a)) : Planned c module Q fun visit => x visit >>= fun a => k a visit := by
  obtain ⟨first, a, ha, hfirst, hrun⟩ := hx
  obtain ⟨second, b, hb, hsecond, hrest⟩ := hk a ha
  refine ⟨first ++ second, b, hb, hfirst.append hsecond, fun R visit himports s hs => ?_⟩
  have hx := hrun R visit himports s hs
  rw [acts_append, bind_assoc]
  match hacts : (acts visit first).run s with
  | (.ok (), t) =>
    obtain ⟨ht, -, -⟩ := (acts_keeps himports hfirst s hs).ok () t hacts
    rw [run_bind_ok hacts] at hx
    rw [run_bind_ok hx, run_bind_ok hacts]
    exact hrest R visit himports t ht
  | (.error φ, t) =>
    rw [run_bind_error hacts] at hx
    rw [run_bind_error hx, run_bind_error hacts]

lemma skip {k : α → (Nat → Check Unit) → Check β} (hx : Planned c module P x)
    (hk : ∀ a, Planned c module Q (k a)) : Planned c module Q fun visit => x visit >>= fun a => k a visit :=
  hx.bind fun a _ => hk a

lemma get {k : State → (Nat → Check Unit) → Check α} (hsame : ∀ s, s.chart = c → k s = k c)
    (hk : Planned c module P (k c)) : Planned c module P fun visit => MonadState.get >>= fun s => k s visit := by
  obtain ⟨moves, a, ha, hmoves, hrun⟩ := hk
  refine ⟨moves, a, ha, hmoves, fun R visit himports s hs => ?_⟩
  rw [run_get_bind, hsame s (himports.chart s hs)]
  exact hrun R visit himports s hs

lemma currentModule {k : Nat → (Nat → Check Unit) → Check α} (hk : Planned c module P (k module)) :
    Planned c module P fun visit => Check.currentModule >>= fun id => k id visit := by
  obtain ⟨moves, a, ha, hmoves, hrun⟩ := hk
  refine ⟨moves, a, ha, hmoves, fun R visit himports s hs => ?_⟩
  obtain ⟨f, fs, htop, hmodule⟩ := himports.frame s hs
  have hcurrent : Check.currentModule.run s = (.ok module, s) := hmodule ▸ run_bind_ok (run_frame htop) _
  rw [run_bind_ok hcurrent]
  exact hrun R visit himports s hs

lemma report (at? : Option Syntax.Info) {cause : Diagnostic.Cause} (h : cause.cycle? = none) :
    Planned c module (fun _ => True) fun _ => Check.report at? cause :=
  ⟨[.report at? cause], (), trivial, ⟨by simp, by simp [h]⟩, fun _ _ _ _ _ => rfl⟩

lemma refer (p : Path) : Planned c module (fun _ => True) fun _ => addReference p := by
  refine ⟨[.refer p], (), trivial, ⟨by simp, by simp⟩, fun R visit himports s hs => ?_⟩
  have hacts : acts visit [.refer p] = addReference p := by
    rw [acts, forM_cons]
    exact bind_pure _
  rw [hacts]
  exact congrArg (fun x : Check Unit => x.run s) (bind_pure _).symm

lemma visitEntry {id : Nat} (hid : id < c.modules.length) {k : ModuleEntry → (Nat → Check Unit) → Check α}
    (hsame : ∀ m m', m.path = m'.path → m.scope = m'.scope → k m = k m') (hk : Planned c module P (k (c.module id))) :
    Planned c module P fun visit => visit id >>= fun _ => entry id >>= fun m => k m visit := by
  obtain ⟨moves, a, ha, hmoves, hrun⟩ := hk
  have hvisit : Move.Sound c [.visit id] := ⟨by simpa using hid, by simp⟩
  refine ⟨.visit id :: moves, a, ha, hvisit.append hmoves, fun R visit himports s hs => ?_⟩
  rw [acts, forM_cons, bind_assoc]
  change _ = (visit id >>= fun _ => (do acts visit moves; return a : Check α)).run s
  match hvisit : (visit id).run s with
  | (.ok (), t) =>
    obtain ⟨ht, -, -⟩ := (himports.visit id hid s hs).ok () t hvisit
    obtain ⟨hpath, hscope⟩ := State.module_of_visited (himports.visited id hid s t hs hvisit)
    rw [himports.chart t ht] at hpath hscope
    rw [run_bind_ok hvisit, run_bind_ok hvisit, run_bind_ok (run_entry id t), hsame _ _ hpath hscope]
    exact hrun R visit himports t ht
  | (.error φ, t) => rw [run_bind_error hvisit, run_bind_error hvisit]

lemma ite {p : Prop} [Decidable p] {y : (Nat → Check Unit) → Check α} (hx : p → Planned c module P x)
    (hy : ¬p → Planned c module P y) : Planned c module P fun visit => if p then x visit else y visit := by
  by_cases h : p
  · simpa only [if_pos h] using hx h
  · simpa only [if_neg h] using hy h

lemma forIn {l : List α} {body : α → PUnit → (Nat → Check Unit) → Check (ForInStep PUnit)}
    (h : ∀ a ∈ l, Planned c module (fun _ => True) (body a ⟨⟩)) :
    Planned c module (fun _ => True) fun visit => ForIn.forIn l ⟨⟩ fun a r => body a r visit := by
  induction l with
  | nil => exact .pure trivial
  | cons a l ih =>
    simp only [List.forIn_cons]
    refine (h a (by simp)).skip fun step => ?_
    cases step with
    | done => exact .pure trivial
    | yield => exact ih fun b hb => h b (List.mem_cons_of_mem _ hb)

end Planned

/-! ### Imports -/

variable (hc : c.Charted F)

lemma inScope?_chart {s : State} (h : s.chart = c) : inScope? s = inScope? c := by
  have hinstances : s.instances = c.instances := h ▸ rfl
  funext scope kinds owner p
  simp only [inScope?, memberInScope?, ofType?, typeMember?, State.inherentMethod?, hinstances]

include hc

lemma firstCut_planned (package : Package) (kinds : List Kind) (cuts : List (Path × Path)) :
    Planned c module (Finds ⟨c, F, .none⟩ kinds) fun visit => firstCut visit package kinds cuts := by
  induction cuts with
  | nil => exact .pure (finds_none kinds)
  | cons cut cuts ih =>
    obtain ⟨front, rest⟩ := cut
    simp only [firstCut]
    refine .get (fun s hs => ?_) ?_
    · subst hs
      simp only [State.chart_moduleIn?]
    · split
      · exact ih
      · next id hid =>
        have hlt := lt_of_moduleIn? hid
        refine .ite (fun _ => .ite (fun hkind => .pure (finds_some ⟨hkind, hlt⟩)) fun _ => ih) fun _ => ?_
        refine .visitEntry hlt (fun m m' hpath hscope => by simp only [hpath, hscope]) ?_
        refine .get (fun s hs => by simp only [inScope?_chart hs]) ?_
        have hnone : ∀ i ∈ c.instances, i.Proper ⟨c, F, .none⟩ := by simp [hc.instances]
        have hscope : (c.module id).scope.Proper ⟨c, F, .none⟩ := (hc.module id).scope_proper rfl
        obtain ⟨r, hr, hfits⟩ := inScope?_gives hnone hscope kinds (some (id, (c.module id).path)) rest
        rw [hr]
        cases r with
        | none => exact ih
        | some r => exact .pure (finds_some (hfits r rfl))

lemma qualifiedWith_planned (kinds : List Kind) (p : Path) :
    Planned c module (Finds ⟨c, F, .none⟩ kinds) fun visit => qualifiedWith visit kinds p := by
  refine .get (fun s hs => ?_) ?_
  · subst hs
    rfl
  · split
    · exact firstCut_planned hc _ kinds (cuts p)
    · exact .pure (finds_none kinds)

omit hc in
lemma mayUse_planned (r : Resolved) : Planned c module (fun _ => True) fun _ => mayUse r := by
  simp only [mayUse]
  split
  · exact .currentModule (.pure trivial)
  · exact .pure trivial

omit hc in
lemma exists_of_mem_names {m : ModuleEntry} (hm : m.Early F) {name : String} (h : name ∈ m.scope.names) :
    ∃ d, m.scope.find? Kind.any name = some d := by
  rw [Scope.names, List.mem_eraseDups, mem_sortBy] at h
  obtain ⟨⟨⟨k, name'⟩, d⟩, hx, rfl⟩ := List.mem_map.mp h
  obtain ⟨hkind, htop⟩ := hm.scope _ hx
  have hget : (m.scope.get? k name').isSome := by
    rw [Scope.get?, List.lookup_isSome_iff]
    exact ⟨_, hx, by simp⟩
  have hk : k ∈ Kind.any := by
    have hkind : d.kind = k := hkind
    exact hkind ▸ htop.kind
  rw [← Option.isSome_iff_exists, Scope.find?, List.findSome?_isSome_iff]
  exact ⟨k, hk, hget⟩

lemma useAll_planned (info : Syntax.Info) (p : Path) :
    Planned c module (fun _ => True) fun visit => useAll visit info p := by
  simp only [useAll]
  refine (qualifiedWith_planned hc Kind.modules p).bind fun r hr => ?_
  match r, hr with
  | none, _ => exact .report _ rfl
  | some ⟨_, d, _⟩, hr =>
    obtain ⟨hkind, hproper⟩ := hr _ rfl
    cases d <;> simp [Definition.kind, Kind.modules] at hkind
    case module id =>
    refine .visitEntry hproper (fun m m' hpath hscope => by simp only [hpath, hscope]) (.currentModule ?_)
    refine .skip (.forIn fun name hname => ?_) fun _ => .pure trivial
    obtain ⟨d, hd⟩ := exists_of_mem_names (hc.module id) hname
    simp only [hd]
    exact .ite (fun _ => (Planned.refer _).skip fun _ => .pure trivial) fun _ => .pure trivial

lemma useOne_planned (info : Syntax.Info) (p : Path) :
    Planned c module (fun _ => True) fun visit => useOne visit info p := by
  simp only [useOne]
  refine (qualifiedWith_planned hc Kind.any p).skip fun r => ?_
  cases r with
  | none => exact .report _ rfl
  | some r =>
    refine (mayUse_planned r).skip fun may => .ite (fun _ => .refer _) fun _ => ?_
    exact (Planned.report _ rfl).skip fun _ => .refer _

omit hc

mutual

lemma flatten_planned (hc : c.Charted F) (outer : List String) : (u : Syntax.Use) →
    Planned c module (fun _ => True) fun visit => flatten visit outer u
  | .mk info _ segments wildcard nested => by
    simp only [flatten]
    cases Path.ofSegments? (outer ++ segments) with
    | none => exact .report _ rfl
    | some path =>
      refine .ite (fun _ => useAll_planned hc info path) fun _ => ?_
      exact .ite (fun _ => useOne_planned hc info path) fun _ => flattenAll_planned hc _ nested

lemma flattenAll_planned (hc : c.Charted F) (outer : List String) : (us : List Syntax.Use) →
    Planned c module (fun _ => True) fun visit => flattenAll visit outer us
  | [] => by
    simp only [flattenAll]
    exact .pure trivial
  | u :: us => by
    simp only [flattenAll]
    exact (flatten_planned hc outer u).skip fun _ => flattenAll_planned hc outer us

end

end Check

end TraitCheck
