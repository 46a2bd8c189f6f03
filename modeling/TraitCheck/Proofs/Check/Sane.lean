import TraitCheck.Check.Expr
import TraitCheck.Proofs.Check.Regime
import TraitCheck.Proofs.Relation.Sound
import TraitCheck.Proofs.Syntax.Form
import TraitCheck.Proofs.Ty.Whole

/-! What the checker takes for granted while it checks bodies, and a logic for actions that keep it. Scopes hold
definitions of the kinds that they are filed under, impls have their relations, and nodes have different numbers. Where
syntax is well formed, no type has an absent part. -/

namespace TraitCheck

open Syntax (Stmt Expr Form Lambda)

/-! ### Fixed parts of the state -/

def ModuleEntry.fixed (m : ModuleEntry) : ModuleEntry := { m with phase := .glanced, upcasts := [], relImports := [] }

def State.fixed (s : State) : State where
  modules := s.modules.map ModuleEntry.fixed
  packages := s.packages
  prelude := s.prelude
  instances := s.instances
  built := s.built

def State.module (s : State) (id : Nat) : ModuleEntry := (s.modules[id]?).getD default

lemma State.module_eq {s : State} {id : Nat} {m : ModuleEntry} (h : s.modules[id]? = some m) : s.module id = m := by
  rw [State.module, h, Option.getD_some]

/-- What is asked of a check beyond its rules: the closures in `once` are not typed any more when they have types of
functions, the node `held` keeps its type, and to stop with the failures in `excused` is allowed. -/
structure Watch where
  once : Nat → Prop
  held : Option (Nat × Ty)
  excused : Failure → Prop

def Watch.none : Watch := ⟨fun _ => False, Option.none, fun _ => False⟩

/-- The fixed parts of a state, the form of the syntax in it, and what is asked of a check. -/
structure Setting extends State, Form, Watch

namespace Setting

variable (e : Setting)

def Whole (t : Ty) : Prop := e.strict → t.Whole

def Optional (t : Ty) : Prop := t ≠ .absent → e.Whole t

def WholeMap (b : Bindings) : Prop := e.strict → b.Whole

def Unheld (id : Nat) : Prop := ∀ t, e.held ≠ some (id, t)

variable {e} in
lemma unheld_of_none (h : e.toWatch = .none) (id : Nat) : e.Unheld id := by
  intro t ht
  rw [h] at ht
  cases ht

end Setting

def Owner.Known (e : Setting) : Owner → Prop
  | .trait d => (Stmt.trait d.node).Fits e.toForm
  | .impl d => (Stmt.impl d.node).Fits e.toForm ∧ ∃ i ∈ e.instances, i.owner.id = d.node.info.id

structure Method.Known (e : Setting) (m : Method) : Prop where
  node : Syntax.Fn.Fits e.toForm m.node
  owner : m.owner.Known e

structure Setting.Signature (e : Setting) (t : Ty) : Prop where
  isFn : t.isFn = true
  whole : e.Whole t
  result : ∀ gs ps r, t = .fn gs ps r → e.Whole r

structure Function.Known (e : Setting) (f : Function) : Prop where
  node : Syntax.Fn.Fits e.toForm f.node
  typed : f.signature.isSome ∨ f.module.isSome
  signature : ∀ t, f.signature = some t → e.Signature t

structure Variable.Known (e : Setting) (v : Variable) : Prop where
  node : ∀ d, v.node = some d → (Stmt.var d).Fits e.toForm
  type : ∀ t, v.type = .known t → e.Whole t

def Definition.Proper (e : Setting) : Definition → Prop
  | .var v => v.Known e
  | .fn f => f.Known e
  | .trait d => (Stmt.trait d.node).Fits e.toForm
  | .impl d => (Stmt.impl d.node).Fits e.toForm
  | .type d => d.node.Fits e.toForm
  | .variant d v => d.node.Fits e.toForm ∧ v ∈ d.node.variants
  | .method m => m.Known e
  | .generic g => e.Whole (.generic g)
  | .self o t => o.Known e ∧ e.Whole t
  | .module id => id < e.modules.length
  | .param _ => True

structure Scope.Proper (e : Setting) (sc : Scope) : Prop where
  defs : ∀ x ∈ sc.defs, x.2.kind = x.1.1 ∧ x.2.Proper e
  self : ∀ o t, sc.self = some (o, t) → o.Known e ∧ e.Whole t

structure BodyScope.Proper (e : Setting) (b : BodyScope) : Prop where
  result : e.Optional b.result
  returns : ∀ t ∈ b.returns, e.Whole t

def Kind.locals : List Kind := [.var, .fn, .generic, .param]

structure Scope.Local (e : Setting) (sc : Scope) : Prop extends sc.Proper e where
  kinds : ∀ x ∈ sc.defs, x.1.1 ∈ Kind.locals
  body : ∀ b, sc.body = some b → b.Proper e

structure Instance.Proper (e : Setting) (i : Instance) : Prop where
  owner : i.owner.Known e
  implemented : ∀ d, i.implemented = some d → (Stmt.trait d.node).Fits e.toForm
  relation : e.strict → i.relation.Whole
  isImpl : i.relation.kind ≠ .trait → ∃ d, i.owner = .impl d

def Definition.DefinedBy : Definition → Stmt → Prop
  | .var v, .var d => v.node = some d ∧ v.type = .slot d.info.id ∧ v.module.isSome
  | .fn f, .fn d => f.node = d
  | .trait d, .trait t => d.node = t
  | .impl d, .impl i => d.node = i
  | .type d, .type t => d.node = t
  | _, _ => False

structure ModuleEntry.Proper (e : Setting) (m : ModuleEntry) : Prop where
  statements : ∀ s ∈ m.syn.statements, s.Fits e.toForm
  scope : m.scope.Proper e
  defs : ∀ (id : Nat) d, m.defs[id]? = some d → d.Proper e
  impls : ∀ d, Stmt.impl d ∈ m.syn.statements → (m.defs[d.info.id]?).isSome
  defined : ∀ s ∈ m.syn.statements, ∀ d, m.defs[s.info.id]? = some d → d.DefinedBy s

structure Setting.Proper (e : Setting) : Prop where
  modules : ∀ m ∈ e.modules, m.Proper e
  instances : ∀ i ∈ e.instances, i.Proper e

/-! ### States -/

def Memo.Of (memo : Memo) (rels : List Relation) : Prop := memo.Usable Set.univ fun _ c => c.Of rels

def State.Glanced (s : State) : Prop := ∀ m ∈ s.modules, m.phase ≠ .unvisited ∧ m.phase ≠ .glancing

/-- A state in which bodies can be checked, with the fixed parts `e`. -/
structure Sane (e : Setting) (s : State) : Prop where
  proper : e.Proper
  fixed : s.fixed = e.toState
  glanced : s.Glanced
  frames : ∀ f ∈ s.frames.top, ∀ sc ∈ f.locals, sc.Local e
  closures : ∀ (id : Nat) c, s.closures[id]? = some c → Lambda.Fits e.toForm c ∧ c.info.id = id
  pending : ∀ p ∈ s.pending, Lambda.Fits e.toForm p.node
  generics : ∀ (id : Nat) g, s.generics[id]? = some g → e.Whole (.generic g)
  slots : ∀ (id : Nat) t, s.slots[id]? = some t → e.Whole t
  results : ∀ (id : Nat) t, s.results[id]? = some t → e.Whole t
  signatures : ∀ (id : Nat) t, s.signatures[id]? = some t → e.Signature t
  memo : s.memo.Of e.relations

def State.relevant (s : State) : State :=
  { s with
    cycles := [], evidence := ∅, variants := ∅, upcasts := [], failures := [], reserve := 0, nextNode := 0, nextResult := 0 }

lemma Sane.of_relevant {e : Setting} {s t : State} (hs : Sane e s) (h : t.relevant = s.relevant) : Sane e t := by
  have : Sane e s.relevant := { hs with }
  rw [← h] at this
  exact { this with }

lemma Sane.instances {e : Setting} {s : State} (h : Sane e s) : s.instances = e.instances := by
  rw [← h.fixed]
  rfl

lemma Sane.properInstances {e : Setting} {s : State} (h : Sane e s) : ∀ i ∈ s.instances, i.Proper e := by
  rw [h.instances]
  exact h.proper.instances

lemma Sane.built {e : Setting} {s : State} (h : Sane e s) (he : e.built = true) : s.built = true := by
  rw [← he, ← h.fixed]
  rfl

def Scope.plain (sc : Scope) : Scope := { sc with body := none }

structure Frame.Grown (f g : Frame) : Prop where
  id : g.id = f.id
  module : g.module = f.module
  locals : ∃ new, g.locals.map Scope.plain =
    (f.locals.map Scope.plain).modifyHead fun sc => { sc with defs := new ++ sc.defs }

def GrownTop : List Frame → List Frame → Prop
  | [], [] => True
  | f :: fs, g :: gs => f.Grown g ∧ gs = fs
  | _, _ => False

lemma Frame.Grown.refl (f : Frame) : f.Grown f := by
  refine ⟨rfl, rfl, [], ?_⟩
  cases f.locals <;> simp

lemma Frame.Grown.trans {f g h : Frame} (hfg : f.Grown g) (hgh : g.Grown h) : f.Grown h := by
  obtain ⟨first, hfirst⟩ := hfg.locals
  obtain ⟨second, hsecond⟩ := hgh.locals
  refine ⟨hgh.id.trans hfg.id, hgh.module.trans hfg.module, second ++ first, ?_⟩
  rw [hsecond, hfirst]
  cases f.locals <;> simp

lemma GrownTop.refl (fs : List Frame) : GrownTop fs fs := by
  cases fs with
  | nil => trivial
  | cons f fs => exact ⟨.refl f, rfl⟩

lemma GrownTop.trans {fs gs hs : List Frame} (hfg : GrownTop fs gs) (hgh : GrownTop gs hs) : GrownTop fs hs := by
  match fs, gs, hs with
  | [], [], [] => trivial
  | f :: fs, g :: gs, h :: hs => exact ⟨hfg.1.trans hgh.1, hgh.2.trans hfg.2⟩

lemma GrownTop.exists_cons {f : Frame} {fs gs : List Frame} (h : GrownTop (f :: fs) gs) :
    ∃ g, gs = g :: fs ∧ f.Grown g := by
  match gs with
  | g :: gs => exact ⟨g, by rw [h.2], h.1⟩

lemma GrownTop.framed {fs gs : List Frame} (h : GrownTop fs gs) (hfs : fs ≠ []) : gs ≠ [] := by
  match fs, gs with
  | f :: fs, g :: gs => simp

/-- The failures that a program can bring about. -/
def Failure.Allowed : Failure → Prop
  | .unknownBinary op => op ≠ "&&" ∧ op ≠ "||" ∧ Check.binaryMethod? op = none
  | .unknownUnary op => Check.unaryMethod? op = none
  | .tooDeep => True
  | _ => False

def Failure.AllowedIn (F : Form) (φ : Failure) : Prop := φ.Allowed ∨ ¬F.strict ∧ (φ = .emptyPath ∨ φ = .noForType)

def Setting.Allowed (e : Setting) (φ : Failure) : Prop := φ.AllowedIn e.toForm ∨ e.excused φ

namespace Check

variable {α β : Type} {e : Setting} {P : α → Prop} {Q : β → Prop} {x : Check α} {f : α → Check β} {s : State}

structure Ready (e : Setting) (s : State) : Prop extends Sane e s where
  framed : s.frames.top ≠ []

/-- What any action leaves behind: only the frame on top may have changed, and nodes keep their having a type. -/
structure Calm (s t : State) : Prop where
  frames : GrownTop s.frames.top t.frames.top
  nextFrame : s.nextFrame ≤ t.nextFrame
  glances : t.glances = s.glances
  typing : t.typing = s.typing
  phases : t.modules.map (·.phase) = s.modules.map (·.phase)
  slots : ∀ id : Nat, (s.slots[id]?).isSome → (t.slots[id]?).isSome
  diagnostics : s.diagnostics <+: t.diagnostics

lemma Calm.refl (s : State) : Calm s s := ⟨.refl _, Nat.le_refl _, rfl, rfl, rfl, fun _ h => h, List.prefix_rfl⟩

variable {t : State} {scope : Scope}

lemma Calm.trans {u : State} (h : Calm s t) (h' : Calm t u) : Calm s u where
  frames := h.frames.trans h'.frames
  nextFrame := Nat.le_trans h.nextFrame h'.nextFrame
  glances := h'.glances.trans h.glances
  typing := h'.typing.trans h.typing
  phases := h'.phases.trans h.phases
  slots id hid := h'.slots id (h.slots id hid)
  diagnostics := h.diagnostics.trans h'.diagnostics

/-- No closure was written, and only nodes without parts got a type. -/
structure Quiet (e : Setting) (s t : State) : Prop extends Calm s t where
  pending : t.pending = s.pending
  closures : t.closures = s.closures
  kept : ∀ id, ¬e.Leaf id → t.slots[id]? = s.slots[id]?

lemma Quiet.refl (s : State) : Quiet e s s := ⟨.refl s, rfl, rfl, fun _ _ => rfl⟩

lemma Quiet.trans {u : State} (h : Quiet e s t) (h' : Quiet e t u) : Quiet e s u where
  toCalm := h.toCalm.trans h'.toCalm
  pending := h'.pending.trans h.pending
  closures := h'.closures.trans h.closures
  kept id hid := (h'.kept id hid).trans (h.kept id hid)

lemma Quiet.of_relevant (h : t.relevant = s.relevant) : Quiet e s t := by
  have : Quiet e s s.relevant := { Quiet.refl s with }
  rw [← h] at this
  exact { this with }

lemma Ready.of_relevant (hs : Ready e s) (h : t.relevant = s.relevant) : Ready e t :=
  ⟨hs.toSane.of_relevant h, GrownTop.framed (Quiet.of_relevant (e := e) h).frames hs.framed⟩

def quiet (e : Setting) : Regime where
  Inv := Ready e
  Step := Quiet e
  refl := .refl
  trans h h' := h.trans h'
  Allowed := e.Allowed

def between (e : Setting) : Regime := { quiet e with Inv := Sane e }

abbrev Safe (e : Setting) (P : α → Prop) (x : Check α) : Prop := (quiet e).Keeps P x

abbrev SafeAt (e : Setting) (P : α → Prop) (x : Check α) (s : State) : Prop := (quiet e).KeepsAt P x s

abbrev Free (e : Setting) (P : α → Prop) (x : Check α) : Prop := (between e).Keeps P x

lemma Free.safe (h : Free e P x) : Safe e P x := by
  intro s hs
  refine ⟨fun a s' hrun => ?_, (h s hs.toSane).error⟩
  obtain ⟨hsane, hquiet, ha⟩ := (h s hs.toSane).ok a s' hrun
  exact ⟨⟨hsane, GrownTop.framed hquiet.frames hs.framed⟩, hquiet, ha⟩

lemma Free.update {u : State → State} (h : ∀ s, Sane e s → Sane e (u s)) (hquiet : ∀ s, Quiet e s (u s)) :
    Free e (fun _ => True) (modify u : Check Unit) := fun s hs =>
  .of_run rfl (h s hs) (hquiet s) trivial

lemma tooDeep_allowed : e.Allowed .tooDeep := .inl (.inl trivial)

/-! ### Scopes and frames -/

def entered (id : Nat) (s : State) : State :=
  { s with frames := s.frames.push { id := s.nextFrame, module := id }, nextFrame := s.nextFrame + 1 }

lemma Ready.entered (hs : Sane e s) (id : Nat) : Ready e (entered id s) := by
  refine ⟨{ hs with frames := ?_ }, by simp [Check.entered, Stack.push]⟩
  intro f hf
  obtain rfl | hf := List.mem_cons.mp hf
  · simp
  · exact hs.frames f hf

lemma sane_pop (hs : Sane e s) : Sane e { s with frames := s.frames.pop } :=
  { hs with frames := fun f hf => hs.frames f (List.mem_of_mem_tail hf) }

lemma pop_entered {id : Nat} (h : GrownTop (entered id s).frames.top t.frames.top) :
    t.frames.pop.top = s.frames.top := by
  obtain ⟨g, htop, -⟩ := GrownTop.exists_cons h
  simp [Stack.pop, htop]

lemma Calm.left {id : Nat} (h : Calm (entered id s) t) : Calm s { t with frames := t.frames.pop } := by
  refine { h with frames := ?_, nextFrame := Nat.le_of_succ_le h.nextFrame }
  rw [show { t with frames := t.frames.pop : State }.frames.top = s.frames.top from pop_entered h.frames]
  exact .refl _

lemma Safe.inModule (h : Safe e P x) (id : Nat) : Free e P (inModule id x) := by
  intro s hs
  refine .bracket (S := quiet e) (h _ (.entered hs id)) (fun _ hφ => hφ) fun _ t _ ht hquiet => ⟨sane_pop ht.toSane, ?_⟩
  exact { hquiet.toCalm.left, hquiet with }

def inner (scope : Scope) (s : State) : State := modifyFrame (fun f => { f with locals := scope :: f.locals }) s

def outer (s : State) : State := modifyFrame (fun f => { f with locals := f.locals.tail }) s

lemma top_modifyFrame {f : Frame} {fs : List Frame} (htop : s.frames.top = f :: fs) (u : Frame → Frame) :
    (modifyFrame u s).frames.top = u f :: fs := by
  simp [modifyFrame, Stack.modifyTop, htop]

lemma Ready.inner (hscope : scope.Local e) (hs : Ready e s) : Ready e (inner scope s) := by
  obtain ⟨f, fs, htop⟩ := List.exists_cons_of_ne_nil hs.framed
  have henter : (Check.inner scope s).frames.top = { f with locals := scope :: f.locals } :: fs :=
    top_modifyFrame htop _
  refine ⟨{ hs.toSane with frames := ?_ }, by simp [henter]⟩
  rw [henter]
  intro g hg
  obtain rfl | hg := List.mem_cons.mp hg
  · intro sc hsc
    obtain rfl | hsc := List.mem_cons.mp hsc
    · exact hscope
    · exact hs.frames f (by simp [htop]) sc hsc
  · exact hs.frames g (by simp [htop, hg])

lemma Ready.outer (hs : Ready e s) : Ready e (outer s) := by
  obtain ⟨f, fs, htop⟩ := List.exists_cons_of_ne_nil hs.framed
  have hleave : (Check.outer s).frames.top = { f with locals := f.locals.tail } :: fs := top_modifyFrame htop _
  refine ⟨{ hs.toSane with frames := ?_ }, by simp [hleave]⟩
  rw [hleave]
  intro k hk
  obtain rfl | hk := List.mem_cons.mp hk
  · intro sc hsc
    exact hs.frames f (by simp [htop]) sc (List.mem_of_mem_tail hsc)
  · exact hs.frames k (by simp [htop, hk])

lemma grown_outer {f : Frame} {fs : List Frame} (htop : s.frames.top = f :: fs)
    (h : GrownTop (inner scope s).frames.top t.frames.top) :
    ∃ g, (outer t).frames.top = g :: fs ∧ g.id = f.id ∧ g.module = f.module ∧
      g.locals.map Scope.plain = f.locals.map Scope.plain := by
  rw [show (inner scope s).frames.top = { f with locals := scope :: f.locals } :: fs from top_modifyFrame htop _] at h
  obtain ⟨g, hend, hid, hmodule, new, hlocals⟩ := h.exists_cons
  refine ⟨{ g with locals := g.locals.tail }, top_modifyFrame hend _, hid, hmodule, ?_⟩
  simp [List.map_tail, hlocals]

lemma GrownTop.outer (hs : s.frames.top ≠ [])
    (h : GrownTop (inner scope s).frames.top t.frames.top) : GrownTop s.frames.top (Check.outer t).frames.top := by
  obtain ⟨f, fs, htop⟩ := List.exists_cons_of_ne_nil hs
  obtain ⟨g, hend, hid, hmodule, hlocals⟩ := grown_outer htop h
  rw [hend, htop]
  refine ⟨⟨hid, hmodule, [], ?_⟩, rfl⟩
  rw [hlocals]
  cases f.locals <;> simp

lemma Calm.outer (hs : s.frames.top ≠ []) (h : Calm (inner scope s) t) : Calm s (Check.outer t) :=
  { h with frames := GrownTop.outer hs h.frames }

lemma Safe.inScope (hscope : scope.Local e) (h : Safe e P x) : Safe e P (inScope scope x) := by
  intro s hs
  refine .bracket (S := quiet e) (h _ (hs.inner hscope)) (fun _ hφ => hφ) fun _ t _ ht hquiet => ⟨ht.outer, ?_⟩
  exact { hquiet.toCalm.outer hs.framed, hquiet with }

/-! ### Reading and writing the state -/

section Parts

lemma Free.note {u : State → State} (h : ∀ s, (u s).relevant = s.relevant) :
    Free e (fun _ => True) (modify u : Check Unit) :=
  .update (fun s hs => hs.of_relevant (h s)) fun s => .of_relevant (h s)

lemma Safe.note {u : State → State} (h : ∀ s, (u s).relevant = s.relevant) :
    Safe e (fun _ => True) (modify u : Check Unit) :=
  (Free.note h).safe

lemma SafeAt.set {t : State} (hs : Ready e s) (h : t.relevant = s.relevant) :
    SafeAt e (fun _ => True) (set t : Check Unit) s :=
  .of_run rfl (hs.of_relevant h) (.of_relevant h) trivial

lemma report_free (info : Option Syntax.Info) (cause : Diagnostic.Cause) :
    Free e (fun _ => True) (report info cause) :=
  .update (fun _ hs => { hs with }) fun s => { Quiet.refl s with diagnostics := List.prefix_append _ _ }

lemma report_safe (info : Option Syntax.Info) (cause : Diagnostic.Cause) :
    Safe e (fun _ => True) (report info cause) :=
  (report_free info cause).safe

def typed (id : Nat) (t : Ty) (s : State) : State := { s with slots := s.slots.insert id t }

lemma sane_typed (hs : Sane e s) (id : Nat) {t : Ty} (ht : e.Whole t) : Sane e (typed id t s) := by
  refine { hs with slots := fun k u hu => ?_ }
  replace hu : (s.slots.insert id t)[k]? = some u := hu
  rw [Std.TreeMap.getElem?_insert] at hu
  split at hu
  · exact Option.some.inj hu ▸ ht
  · exact hs.slots k u hu

lemma slots_typed_self (id : Nat) (t : Ty) (s : State) : (typed id t s).slots[id]? = some t :=
  Std.TreeMap.getElem?_insert_self

lemma slots_typed_ne {id k : Nat} (h : id ≠ k) (t : Ty) (s : State) : (typed id t s).slots[k]? = s.slots[k]? := by
  rw [typed, Std.TreeMap.getElem?_insert, if_neg (by simpa [Nat.compare_eq_eq] using h)]

lemma calm_typed (id : Nat) (t : Ty) (s : State) : Calm s (typed id t s) := by
  refine { Calm.refl s with slots := fun k hk => ?_ }
  by_cases h : id = k
  · subst h
    rw [slots_typed_self]
    rfl
  · rwa [slots_typed_ne h]

lemma setSlot_safe {id : Nat} (hid : e.Leaf id) {t : Ty} (ht : e.Whole t) : Safe e (fun _ => True) (setSlot id t) := by
  refine Free.safe (.update (u := typed id t) (fun s hs => sane_typed hs id ht) fun s => ?_)
  refine { calm_typed id t s with pending := rfl, closures := rfl, kept := fun k hk => slots_typed_ne ?_ t s }
  rintro rfl
  exact hk hid

lemma completed_safe {t : Ty} (ht : e.Whole t) :
    Safe e (fun r => e.Whole r ∧ r.isFn = t.isFn) (completed t) := by
  refine .get fun s hs => .pure hs ⟨fun hstrict => ?_, Ty.isFn_complete _ t⟩
  exact (ht hstrict).complete fun id r hr => hs.results id r hr hstrict

lemma completed_signature {t : Ty} (ht : e.Signature t) : Safe e e.Signature (completed t) := by
  refine .get fun s hs => .pure hs ⟨(Ty.isFn_complete _ t).trans ht.isFn, fun hstrict => ?_, ?_⟩
  · exact (ht.whole hstrict).complete fun id r hr => hs.results id r hr hstrict
  · intro gs ps r heq hstrict
    cases t with
    | fn hs' qs u =>
      have hu := ht.result _ _ _ rfl hstrict
      have hdone : ∀ i, u ≠ .ongoing i := by
        rintro i rfl
        cases hu
      rw [Ty.complete.eq_3 _ _ _ _ hdone] at heq
      injection heq with _ _ heq
      rw [← heq]
      exact hu.complete fun id r hr => hs.results id r hr hstrict
    | _ => exact absurd ht.isFn (by simp [Ty.isFn])

lemma slot_safe (id : Nat) : Safe e e.Optional (slot id) := by
  refine .get fun s hs => ?_
  cases hslot : s.slots[id]? with
  | none => exact .get (.pure hs fun habsent => absurd rfl habsent)
  | some t => exact (completed_safe (hs.slots id t hslot) s hs).mono fun r hr _ => hr.1

lemma newResult_safe : Safe e (fun _ => True) newResult := by
  refine .get fun s hs => ?_
  have hset : SafeAt e (fun _ => True) (set { s with nextResult := s.nextResult + 1 } : Check Unit) s :=
    .set hs rfl
  exact hset.bind fun _ _ _ hs' _ => .pure hs' trivial

lemma setResult_safe (id : Nat) {t : Ty} (ht : e.Whole t) : Safe e (fun _ => True) (setResult id t) := by
  refine Free.safe (.update (fun s hs => ?_) fun s => { Quiet.refl s with })
  have hwhole : e.Whole (t.resultOf.complete fun i => s.results[i]?) := fun hstrict =>
    (ht hstrict).resultOf.complete fun i r hr => hs.results i r hr hstrict
  refine { hs with results := fun k u hu => ?_ }
  simp only [learn, Std.TreeMap.getElem?_insert, Std.TreeMap.getElem?_map] at hu
  split at hu
  · exact Option.some.inj hu ▸ hwhole
  · obtain ⟨v, hv, rfl⟩ := Option.map_eq_some_iff.mp hu
    refine fun hstrict => (hs.results k v hv hstrict).complete fun i r hr => ?_
    split at hr
    · exact Option.some.inj hr ▸ hwhole hstrict
    · cases hr

/-! ### Modules -/

lemma proper_fixed {m : ModuleEntry} (h : m.fixed.Proper e) : m.Proper e := { h with }

lemma proper_default : (default : ModuleEntry).Proper e := by
  have hstatements : (default : ModuleEntry).syn.statements = [] := rfl
  have hscope : (default : ModuleEntry).scope = default := rfl
  have hdefs : (default : ModuleEntry).defs = ∅ := rfl
  refine ⟨by simp [hstatements], ?_, ?_, by simp [hstatements], by simp [hstatements]⟩
  · rw [hscope]
    exact ⟨by simp [show (default : Scope).defs = [] from rfl], by simp [show (default : Scope).self = none from rfl]⟩
  · simp [hdefs]

lemma entry_free (id : Nat) :
    Free e (fun m => m.Proper e ∧ m.fixed = (e.module id).fixed ∧
      (id < e.modules.length → m.phase ≠ .unvisited ∧ m.phase ≠ .glancing)) (entry id) := by
  refine .get fun s hs => .pure hs ?_
  have hmodules : e.modules = s.modules.map ModuleEntry.fixed := by rw [← hs.fixed]; rfl
  rw [State.module, hmodules, List.getElem?_map, List.length_map]
  cases h : s.modules[id]? with
  | none => exact ⟨proper_default, rfl, fun hlt => absurd (List.getElem?_eq_none_iff.mp h) (Nat.not_le_of_lt hlt)⟩
  | some m =>
    have hmem := List.mem_of_getElem? h
    refine ⟨proper_fixed (hs.proper.modules _ ?_), rfl, fun _ => hs.glanced m hmem⟩
    rw [hmodules]
    exact List.mem_map_of_mem hmem

lemma entry_safe (id : Nat) : Safe e (fun m => m.Proper e) (entry id) := (entry_free id).safe.mono fun _ h => h.1

lemma map_modify {γ : Type} {l : List γ} {i : Nat} {u : γ → γ} {k : γ → α} (h : ∀ a, k (u a) = k a) :
    (l.modify i u).map k = l.map k := by
  apply List.ext_getElem?
  intro j
  simp only [List.getElem?_map, List.getElem?_modify, Option.map_eq_map, Option.map_map]
  cases l[j]? with
  | none => rfl
  | some a => by_cases hij : i = j <;> simp [hij, h]

lemma sane_modify (id : Nat) {u : ModuleEntry → ModuleEntry} (hfixed : ∀ m, (u m).fixed = m.fixed)
    (hphase : ∀ m, m.phase ≠ .unvisited ∧ m.phase ≠ .glancing → (u m).phase ≠ .unvisited ∧ (u m).phase ≠ .glancing)
    (hs : Sane e s) : Sane e { s with modules := s.modules.modify id u } := by
  refine { hs with fixed := ?_, glanced := fun m hm => ?_ }
  · rw [← hs.fixed]
    simp only [State.fixed, map_modify hfixed]
  · obtain ⟨i, hi⟩ := List.mem_iff_getElem?.mp hm
    simp only [List.getElem?_modify, Option.map_eq_map, Option.map_eq_some_iff] at hi
    obtain ⟨m', hm', rfl⟩ := hi
    have hglanced := hs.glanced m' (List.mem_of_getElem? hm')
    split
    · exact hphase m' hglanced
    · exact hglanced

lemma modifyEntry_free (id : Nat) {u : ModuleEntry → ModuleEntry} (hfixed : ∀ m, (u m).fixed = m.fixed)
    (hphase : ∀ m, (u m).phase = m.phase) : Free e (fun _ => True) (modifyEntry id u) := by
  refine .update (fun s hs => sane_modify id hfixed (fun m hm => by rwa [hphase]) hs) fun s => ?_
  exact { Quiet.refl s with phases := map_modify hphase }

/-! ### The frame on top -/

lemma run_frame {f : Frame} {fs : List Frame} (h : s.frames.top = f :: fs) : frame.run s = (.ok f, s) := by
  rw [frame, run_get_bind]
  simp only [Stack.peek?, h, List.head?_cons]
  rfl

lemma frame_safe : Safe e (fun f => ∀ sc ∈ f.locals, sc.Local e) frame := by
  refine .get fun s hs => ?_
  obtain ⟨f, fs, htop⟩ := List.exists_cons_of_ne_nil hs.framed
  simp only [Stack.peek?, htop, List.head?_cons]
  exact .pure hs (hs.frames f (by simp [htop]))

lemma currentModule_safe : Safe e (fun _ => True) currentModule := frame_safe.skip fun _ => .pure trivial

lemma selfType?_safe : Safe e (fun r => ∀ o t, r = some (o, t) → o.Known e ∧ e.Whole t) selfType? := by
  refine frame_safe.bind fun f hf => .pure ?_
  intro o t h
  obtain ⟨sc, hsc, hself⟩ := List.exists_of_findSome?_eq_some h
  exact (hf sc hsc).self o t hself

lemma body?_safe : Safe e (fun r => ∀ b, r = some b → b.Proper e) body? := by
  refine frame_safe.bind fun f hf => .pure ?_
  intro b h
  obtain ⟨sc, hsc, hbody⟩ := List.exists_of_findSome?_eq_some h
  exact (hf sc hsc).body b hbody

lemma modifyFrame_safe {u : Frame → Frame} (hgrown : ∀ f : Frame, f.Grown (u f))
    (hlocal : ∀ f, (∀ sc ∈ f.locals, sc.Local e) → ∀ sc ∈ (u f).locals, sc.Local e) :
    Safe e (fun _ => True) (modify (modifyFrame u) : Check Unit) := by
  intro s hs
  obtain ⟨f, fs, htop⟩ := List.exists_cons_of_ne_nil hs.framed
  have hend : (modifyFrame u s).frames.top = u f :: fs := top_modifyFrame htop u
  refine .of_run rfl ⟨{ hs.toSane with frames := fun g hg => ?_ }, by simp [hend]⟩
    { Quiet.refl s with frames := ?_ } trivial
  · rw [hend] at hg
    obtain rfl | hg := List.mem_cons.mp hg
    · exact hlocal f (hs.frames f (by simp [htop]))
    · exact hs.frames g (by simp [htop, hg])
  · rw [hend, htop]
    exact ⟨hgrown f, rfl⟩

lemma local_empty : Scope.empty.Local e :=
  ⟨⟨by simp [Scope.empty], by simp [Scope.empty]⟩, by simp [Scope.empty], by simp [Scope.empty]⟩

lemma local_define {sc : Scope} (h : sc.Local e) {d : Definition} (hkind : d.kind ∈ Kind.locals) (hd : d.Proper e)
    (name : String) : (sc.define name d).Local e := by
  refine ⟨⟨?_, h.self⟩, ?_, h.body⟩
  · intro x hx
    obtain rfl | hx := List.mem_cons.mp hx
    · exact ⟨rfl, hd⟩
    · exact h.defs x hx
  · intro x hx
    obtain rfl | hx := List.mem_cons.mp hx
    · exact hkind
    · exact h.kinds x hx

lemma define_safe (name : String) {d : Definition} (hkind : d.kind ∈ Kind.locals) (hd : d.Proper e) :
    Safe e (fun _ => True) (define name d) := by
  apply modifyFrame_safe
  · intro f
    refine ⟨rfl, rfl, [((d.kind, name), d)], ?_⟩
    cases f.locals <;> simp [Scope.define, Scope.plain]
  · intro f hf sc hsc
    cases hlocals : f.locals with
    | nil => simp [hlocals] at hsc
    | cons inner rest =>
      rw [hlocals] at hsc hf
      obtain rfl | hsc := List.mem_cons.mp hsc
      · exact local_define (hf inner (by simp)) hkind hd name
      · exact hf sc (List.mem_cons_of_mem _ hsc)

lemma plain_note (t : Ty) (l : List Scope) : (addReturn.note t l).map Scope.plain = l.map Scope.plain := by
  induction l with
  | nil => rfl
  | cons sc l ih =>
    rw [addReturn.note]
    cases sc.body with
    | none => simp [ih]
    | some b => simp [Scope.plain]

lemma local_withBody {sc : Scope} (h : sc.Local e) {b : BodyScope} (hb : b.Proper e) :
    { sc with body := some b : Scope }.Local e :=
  ⟨⟨h.defs, h.self⟩, h.kinds, fun _ hc => Option.some.inj hc ▸ hb⟩

lemma local_note {t : Ty} (ht : e.Whole t) {l : List Scope} (h : ∀ sc ∈ l, sc.Local e) :
    ∀ sc ∈ addReturn.note t l, sc.Local e := by
  induction l with
  | nil => simp [addReturn.note]
  | cons sc l ih =>
    have hsc := h sc (by simp)
    have hl := fun k hk => h k (List.mem_cons_of_mem sc hk)
    rw [addReturn.note]
    cases hbody : sc.body with
    | none => exact List.forall_mem_cons.mpr ⟨hsc, ih hl⟩
    | some b =>
      have hb := hsc.body b hbody
      refine List.forall_mem_cons.mpr ⟨local_withBody hsc ⟨hb.result, fun u hu => ?_⟩, hl⟩
      obtain hu | hu := List.mem_append.mp hu
      · exact hb.returns u hu
      · exact List.mem_singleton.mp hu ▸ ht

lemma addReturn_safe {t : Ty} (ht : e.Whole t) : Safe e (fun _ => True) (addReturn t) := by
  apply modifyFrame_safe
  · intro f
    refine ⟨rfl, rfl, [], ?_⟩
    rw [plain_note]
    cases f.locals <;> simp
  · exact fun f hf => local_note ht hf

end Parts

end Check

end TraitCheck
