import Mathlib.Logic.Relation
import TraitCheck.Check.Types
import TraitCheck.Proofs.Check.Books
import TraitCheck.Proofs.Relation.Later

/-! What a check does to the state, update by update. Scopes are empty at first and get their names one by one, the
relations stay once they are built, the memo only grows, and the results of closures become known one after the other. -/

namespace TraitCheck

/-- A scope that names were only defined in. -/
inductive Scope.Built : Scope → Prop
  | empty : Built .empty
  | define {sc : Scope} (h : Built sc) (name : String) (d : Definition) : Built (sc.define name d)
  | same {sc sc' : Scope} (h : Built sc) (hdefs : sc'.defs = sc.defs) : Built sc'

structure Scope.Fresh (sc : Scope) : Prop where
  built : sc.Built
  inner : ∀ x ∈ sc.defs, x.2.Inner

namespace Scope.Fresh

lemma empty : Scope.empty.Fresh := ⟨.empty, List.forall_mem_nil _⟩

lemma define {sc : Scope} (h : sc.Fresh) (name : String) {d : Definition} (hd : d.Inner) : (sc.define name d).Fresh :=
  ⟨h.built.define name d, List.forall_mem_cons.mpr ⟨hd, h.inner⟩⟩

lemma foldl {α : Type} {sc : Scope} (h : sc.Fresh) (name : α → String) {d : α → Definition} (hd : ∀ a, (d a).Inner)
    (l : List α) : (l.foldl (fun sc a => sc.define (name a) (d a)) sc).Fresh := by
  induction l generalizing sc with
  | nil => exact h
  | cons a l ih => exact ih (h.define (name a) (hd a))

lemma same {sc sc' : Scope} (h : sc.Fresh) (hdefs : sc'.defs = sc.defs) : sc'.Fresh :=
  ⟨h.built.same hdefs, hdefs ▸ h.inner⟩

end Scope.Fresh

namespace State

/-- The same but for tables that neither names nor relations depend on. -/
structure Beside (s t : State) : Prop where
  modules : t.modules = s.modules
  instances : t.instances = s.instances
  built : t.built = s.built
  frames : t.frames = s.frames
  memo : t.memo = s.memo
  pending : t.pending = s.pending
  diagnostics : t.diagnostics = s.diagnostics

inductive Update : State → State → Prop
  | note {s t : State} (h : s.Beside t) : Update s t
  | report (s : State) (d : Diagnostic) : Update s { s with diagnostics := s.diagnostics ++ [d] }
  | remember {s : State} (hs : s.built = true) {memo : Memo} (h : s.memo.Grows memo) : Update s { s with memo := memo }
  | enter (s : State) (id : Nat) : Update s
      { s with frames := s.frames.push { id := s.nextFrame, module := id }, nextFrame := s.nextFrame + 1 }
  | leave (s : State) : Update s { s with frames := s.frames.pop }
  | inner (s : State) {sc : Scope} (h : sc.Built) :
      Update s (Check.modifyFrame (fun f => { f with locals := sc :: f.locals }) s)
  | outer (s : State) : Update s (Check.modifyFrame (fun f => { f with locals := f.locals.tail }) s)
  | define (s : State) (name : String) (d : Definition) :
      Update s (Check.modifyFrame (fun f => { f with locals := f.locals.modifyHead (·.define name d) }) s)
  | addReturn (s : State) (t : Ty) :
      Update s (Check.modifyFrame (fun f => { f with locals := Check.addReturn.note t f.locals }) s)
  | entry (s : State) (id : Nat) (f : ModuleEntry → ModuleEntry) (h : ∀ m, (f m).scope = m.scope) :
      Update s { s with modules := s.modules.modify id f }
  | register (s : State) (id key : Nat) (name : String) (d : Definition) :
      Update s { s with modules := s.modules.modify id fun m =>
        { m with scope := m.scope.define name d, defs := m.defs.insert key d } }
  | await {s : State} (c : Syntax.Lambda) {f : Frame} (h : s.frames.peek? = some f) :
      Update s { s with pending := s.pending ++ [⟨c, f⟩] }
  | settle {s : State} {l : List PendingClosure} (h : l.Sublist s.pending) : Update s { s with pending := l }

def Updates : State → State → Prop := Relation.ReflTransGen Update

variable {s t u : State}

lemma Updates.refl (s : State) : s.Updates s := Relation.ReflTransGen.refl

lemma Updates.trans (h : s.Updates t) (h' : t.Updates u) : s.Updates u := Relation.ReflTransGen.trans h h'

lemma Update.updates (h : s.Update t) : s.Updates t := Relation.ReflTransGen.single h

lemma Beside.updates (h : s.Beside t) : s.Updates t := (Update.note h).updates

lemma Update.built (h : s.Update t) : t.built = s.built := by
  cases h with
  | note h => exact h.built
  | _ => rfl

lemma Update.instances (h : s.Update t) : t.instances = s.instances := by
  cases h with
  | note h => exact h.instances
  | _ => rfl

lemma Update.grows (h : s.Update t) : s.memo.Grows t.memo := by
  cases h with
  | note h => exact h.memo ▸ .refl _
  | remember _ h => exact h
  | _ => exact .refl _

lemma Update.diagnostics (h : s.Update t) : s.diagnostics <+: t.diagnostics := by
  cases h with
  | note h => exact h.diagnostics ▸ List.prefix_rfl
  | report d => exact List.prefix_append _ _
  | _ => exact List.prefix_rfl

namespace Updates

lemma built (h : s.Updates t) : t.built = s.built := by
  induction h with
  | refl => rfl
  | tail _ h ih => exact h.built.trans ih

lemma instances (h : s.Updates t) : t.instances = s.instances := by
  induction h with
  | refl => rfl
  | tail _ h ih => exact h.instances.trans ih

lemma grows (h : s.Updates t) : s.memo.Grows t.memo := by
  induction h with
  | refl => exact .refl _
  | tail _ h ih => exact ih.trans h.grows

lemma diagnostics (h : s.Updates t) : s.diagnostics <+: t.diagnostics := by
  induction h with
  | refl => exact List.prefix_rfl
  | tail _ h ih => exact ih.trans h.diagnostics

lemma later (h : s.Updates t) (hs : s.built = true) : s.Later t :=
  ⟨h.built.trans hs, congrArg (List.map Instance.relation) h.instances, h.grows⟩

end Updates

/-- What a check does to the state: updates and, before the relations are built, one more of them at a time. -/
inductive Advance : State → State → Prop
  | update {s t : State} (h : s.Update t) : Advance s t
  | relate {s : State} (hs : s.built = false) (i : Instance) : Advance s { s with instances := s.instances ++ [i] }
  | build (s : State) : Advance s { s with built := true }

/-- The states that a check may come to. -/
def Reaches : State → State → Prop := Relation.ReflTransGen Advance

namespace Reaches

lemma refl (s : State) : s.Reaches s := Relation.ReflTransGen.refl

lemma trans (h : s.Reaches t) (h' : t.Reaches u) : s.Reaches u := Relation.ReflTransGen.trans h h'

end Reaches

lemma Updates.reaches (h : s.Updates t) : s.Reaches t := by
  induction h with
  | refl => exact .refl s
  | tail _ h ih => exact Relation.ReflTransGen.tail ih (.update h)

def Learns (s t : State) : Prop := Relation.ReflTransGen (fun a b => ∃ id u, b = Check.learn a id u) s.results t.results

namespace Learns

lemma of_eq (h : t.results = s.results) : s.Learns t := by
  rw [Learns, h]

lemma refl (s : State) : s.Learns s := of_eq rfl

lemma trans (h : s.Learns t) (h' : t.Learns u) : s.Learns u := Relation.ReflTransGen.trans h h'

end Learns

structure Onto (s t : State) : Prop where
  updates : s.Updates t
  learns : s.Learns t

namespace Onto

lemma refl (s : State) : s.Onto s := ⟨.refl s, .refl s⟩

lemma trans (h : s.Onto t) (h' : t.Onto u) : s.Onto u := ⟨h.updates.trans h'.updates, h.learns.trans h'.learns⟩

end Onto

structure Attains (s t : State) : Prop where
  reaches : s.Reaches t
  learns : s.Learns t

namespace Attains

lemma refl (s : State) : s.Attains s := ⟨.refl s, .refl s⟩

lemma trans (h : s.Attains t) (h' : t.Attains u) : s.Attains u :=
  ⟨h.reaches.trans h'.reaches, h.learns.trans h'.learns⟩

end Attains

lemma Advance.attains (h : s.Advance t) (hresults : t.results = s.results) : s.Attains t :=
  ⟨Relation.ReflTransGen.single h, .of_eq hresults⟩

lemma Onto.attains (h : s.Onto t) : s.Attains t := ⟨h.updates.reaches, h.learns⟩

lemma Update.onto (h : s.Update t) (hresults : t.results = s.results) : s.Onto t :=
  ⟨h.updates, .of_eq hresults⟩

lemma Beside.onto (h : s.Beside t) (hresults : t.results = s.results) : s.Onto t :=
  (Update.note h).onto hresults

structure Goes (b : Bool) (s t : State) : Prop where
  onto : s.Onto t
  orderly : s.Orderly b t

namespace Goes

variable {b : Bool}

lemma refl (s : State) : s.Goes b s := ⟨.refl s, .refl s⟩

lemma trans (h : s.Goes b t) (h' : t.Goes b u) : s.Goes b u := ⟨h.onto.trans h'.onto, h.orderly.trans h'.orderly⟩

lemma any (h : s.Goes false t) : s.Goes b t := ⟨h.onto, h.orderly.any⟩

end Goes

structure Comes (s t : State) : Prop where
  attains : s.Attains t
  orderly : s.Orderly false t

namespace Comes

lemma refl (s : State) : s.Comes s := ⟨.refl s, .refl s⟩

lemma trans (h : s.Comes t) (h' : t.Comes u) : s.Comes u := ⟨h.attains.trans h'.attains, h.orderly.trans h'.orderly⟩

end Comes

lemma Goes.comes (h : s.Goes false t) : s.Comes t := ⟨h.onto.attains, h.orderly⟩

structure Aside (s t : State) : Prop extends Beside s t where
  results : t.results = s.results
  upcasts : t.upcasts = s.upcasts
  evidence : t.evidence = s.evidence

lemma Aside.goes {b : Bool} (h : s.Aside t) : s.Goes b t :=
  ⟨h.toBeside.onto h.results, orderly_of_eq h.modules h.frames h.pending h.upcasts h.evidence⟩

end State

namespace Check

variable {α β : Type} {b : Bool} {x : Check α} {f : α → Check β} {s : State}

def MovesAt (b : Bool) (x : Check α) (s : State) : Prop := s.Goes b (x.run s).2

/-- An action that only makes updates. It may be one that is for bodies, when the relations have been built. -/
def Moves (b : Bool) (x : Check α) : Prop := ∀ s : State, (b = true → s.built = true) → MovesAt b x s

def Yields (P : α → Prop) (x : Check α) : Prop := ∀ s a t, x.run s = (.ok a, t) → P a

namespace Yields

variable {P : α → Prop} {Q : β → Prop}

lemma pure {a : α} (h : P a) : Yields P (Pure.pure a) := by
  intro s a' t hrun
  cases hrun
  exact h

lemma throw (φ : Failure) : Yields P (throw φ) := nofun

lemma last (hf : ∀ a, Yields Q (f a)) : Yields Q (x >>= f) := by
  intro s c t hrun
  obtain ⟨a, u, -, hlast⟩ := exists_of_run_bind hrun
  exact hf a u c t hlast

lemma ite {c : Prop} [Decidable c] {y : Check α} (hx : Yields P x) (hy : Yields P y) :
    Yields P (if c then x else y) := by
  split
  · exact hx
  · exact hy

end Yields

lemma MovesAt.of_run {r : Except Failure α} {t : State} (hrun : x.run s = (r, t)) (h : s.Goes b t) : MovesAt b x s := by
  rw [MovesAt, hrun]
  exact h

lemma MovesAt.goes (h : MovesAt b x s) {r : Except Failure α} {t : State} (hrun : x.run s = (r, t)) : s.Goes b t := by
  rwa [MovesAt, hrun] at h

lemma MovesAt.bind (hx : MovesAt b x s) (hf : ∀ a t, x.run s = (.ok a, t) → MovesAt b (f a) t) :
    MovesAt b (x >>= f) s := by
  match hrun : x.run s with
  | (.ok a, t) =>
    rw [MovesAt, run_bind_ok hrun]
    exact (hx.goes hrun).trans (hf a t hrun)
  | (.error φ, t) =>
    rw [MovesAt, run_bind_error hrun]
    exact hx.goes hrun

lemma MovesAt.set {t : State} {f : PUnit → Check β} (h : s.Goes b t) (hf : MovesAt b (f ⟨⟩) t) :
    MovesAt b (MonadStateOf.set t >>= f) s := h.trans hf

lemma MovesAt.bracket {enter leave : State → State} (henter : s.Goes b (enter s)) (hleave : ∀ t : State, t.Goes b (leave t))
    (hx : MovesAt b x (enter s)) : MovesAt b (Check.bracket enter leave x) s := (henter.trans hx).trans (hleave _)

lemma MovesAt.inModule {c : Bool} (id : Nat) (hx : Moves c x) (hs : c = true → s.built = true)
    (hid : c = true → s.Anchored → id < s.modules.length) : MovesAt b (Check.inModule id x) s := by
  have henter := (State.Update.enter s id).onto rfl
  have hinner := hx _ fun hc => henter.updates.built.trans (hs hc)
  exact ⟨(henter.trans hinner.onto).trans ((State.Update.leave _).onto rfl), hinner.orderly.inModule hid⟩

namespace Moves

lemma anywhere (h : Moves false x) (s : State) : MovesAt false x s := h s fun hb => absurd hb Bool.false_ne_true

lemma any (h : Moves false x) : Moves b x := fun s _ => (h.anywhere s).any

lemma goes (h : Moves b x) (hs : s.built = b) {r : Except Failure α} {t : State} (hrun : x.run s = (r, t)) :
    s.Goes b t := (h s fun hb => hs.trans hb).goes hrun

lemma updates (h : Moves b x) (hs : s.built = b) {r : Except Failure α} {t : State} (hrun : x.run s = (r, t)) :
    s.Updates t := (h.goes hs hrun).onto.updates

lemma pure (a : α) : Moves b (Pure.pure a) := fun s _ => .refl s

lemma throw (φ : Failure) : Moves b (throw φ : Check α) := fun s _ => .refl s

lemma bind (hx : Moves b x) (hf : ∀ a, Moves b (f a)) : Moves b (x >>= f) := fun s hs =>
  (hx s hs).bind fun a t hrun => hf a t fun hb => ((hx s hs).goes hrun).onto.updates.built.trans (hs hb)

lemma bindYields {P : α → Prop} (hx : Moves b x) (hP : Yields P x) (hf : ∀ a, P a → Moves b (f a)) :
    Moves b (x >>= f) := fun s hs =>
  (hx s hs).bind fun a t hrun => hf a (hP s a t hrun) t fun hb =>
    ((hx s hs).goes hrun).onto.updates.built.trans (hs hb)

lemma get {f : State → Check β} (h : ∀ s, Moves b (f s)) : Moves b (MonadState.get >>= f) := fun s hs => h s s hs

lemma getAt {f : State → Check β} (h : ∀ s : State, (b = true → s.built = true) → MovesAt b (f s) s) :
    Moves b (MonadState.get >>= f) := h

lemma discard (hx : Moves b x) : Moves b (Functor.discard x) := hx.bind fun _ => .pure _

lemma ite {c : Prop} [Decidable c] {y : Check α} (hx : Moves b x) (hy : Moves b y) : Moves b (if c then x else y) := by
  split
  · exact hx
  · exact hy

lemma forM {l : List α} {f : α → Check PUnit} (h : ∀ a, Moves b (f a)) : Moves b (l.forM f) := by
  induction l with
  | nil => exact .pure _
  | cons a l ih => exact (h a).bind fun _ => ih

lemma mapM {l : List α} (h : ∀ a, Moves b (f a)) : Moves b (l.mapM f) := by
  induction l with
  | nil => exact .pure _
  | cons a l ih =>
    rw [List.mapM_cons]
    exact (h a).bind fun _ => ih.bind fun _ => .pure _

lemma foldlM {l : List α} {f : β → α → Check β} (h : ∀ c a, Moves b (f c a)) (c : β) : Moves b (l.foldlM f c) := by
  induction l generalizing c with
  | nil => exact .pure _
  | cons a l ih =>
    rw [List.foldlM_cons]
    exact (h c a).bind fun c => ih c

lemma forIn {l : List α} {body : α → PUnit → Check (ForInStep PUnit)} (h : ∀ a, Moves b (body a ⟨⟩)) :
    Moves b (forIn l ⟨⟩ body) := by
  induction l with
  | nil => exact .pure _
  | cons a l ih =>
    rw [List.forIn_cons]
    refine (h a).bind fun step => ?_
    cases step with
    | done => exact .pure _
    | yield => exact ih

lemma ofExcept (x : Except Failure α) : Moves b (ofExcept x : Check α) := by
  cases x with
  | ok a => exact .pure a
  | error φ => exact .throw φ

lemma update {u : State → State} (h : ∀ s : State, s.Goes b (u s)) : Moves b (modify u) := fun s _ => h s

lemma note {u : State → State} (h : ∀ s : State, s.Aside (u s)) : Moves b (modify u) := .update fun s => (h s).goes

lemma bracket {enter leave : State → State} (henter : ∀ s : State, s.Goes b (enter s))
    (hleave : ∀ s : State, s.Goes b (leave s)) (hx : Moves b x) : Moves b (Check.bracket enter leave x) := fun s hs =>
  .bracket (henter s) hleave (hx (enter s) fun hb => (henter s).onto.updates.built.trans (hs hb))

lemma inModule (id : Nat) (hx : Moves false x) : Moves b (Check.inModule id x) := fun _ _ =>
  .inModule id hx (fun hc => absurd hc Bool.false_ne_true) fun hc => absurd hc Bool.false_ne_true

lemma inScope {sc : Scope} (hsc : sc.Fresh) (hx : Moves b x) : Moves b (Check.inScope sc x) := by
  refine .bracket (fun s => ⟨(State.Update.inner s hsc.built).onto rfl, ?_⟩)
    (fun s => ⟨(State.Update.outer s).onto rfl, ?_⟩) hx
  · refine State.orderly_modifyFrame (fun _ => rfl) fun f => List.forall_mem_cons.mpr ⟨fun x hx => ?_, fun sc hsc x hx => ?_⟩
    · exact .inl (hsc.inner x hx)
    · exact .inr ⟨sc, hsc, hx⟩
  · exact State.orderly_modifyFrame (fun _ => rfl) fun f sc hsc x hx => .inr ⟨sc, List.mem_of_mem_tail hsc, hx⟩

end Moves

/-! ### Reading and noting -/

lemma pathOf_moves (names : List String) : Moves b (pathOf names) := by
  unfold pathOf
  split
  · exact .pure _
  · exact .throw _

lemma entry_moves (id : Nat) : Moves b (entry id) := .get fun _ => .pure _

lemma modifyEntry_moves (id : Nat) {f : ModuleEntry → ModuleEntry} (hscope : ∀ m, (f m).scope = m.scope)
    (hdefs : ∀ m, (f m).defs = m.defs) (hbooks : ∀ m, (f m).upcasts = m.upcasts ∧ (f m).relImports = m.relImports) :
    Moves b (modifyEntry id f) := by
  refine .update fun s => ⟨(State.Update.entry s id f hscope).onto rfl, State.orderly_modify hbooks ?_ ?_⟩
  · exact fun m x hx => .inr (hscope m ▸ hx)
  · exact fun m k d hd => .inr (hdefs m ▸ hd)

lemma frame_moves : Moves b frame := by
  refine .get fun s => ?_
  cases s.frames.peek? with
  | none => exact .throw _
  | some f => exact .pure f

lemma of_run_frame {f : Frame} {t : State} (h : frame.run s = (.ok f, t)) : t = s ∧ s.frames.peek? = some f := by
  rw [frame, run_get_bind] at h
  cases htop : s.frames.peek? with
  | none =>
    rw [htop] at h
    cases h
  | some g =>
    rw [htop] at h
    cases h
    exact ⟨rfl, rfl⟩

lemma currentModule_moves : Moves b currentModule := frame_moves.bind fun _ => .pure _

lemma run_currentModule {f : Frame} (h : s.frames.peek? = some f) : currentModule.run s = (.ok f.module, s) := by
  have hframe : frame.run s = (.ok f, s) := by
    rw [frame, run_get_bind, h]
    rfl
  exact run_bind_ok hframe _

lemma run_currentModule_none (h : s.frames.peek? = none) : currentModule.run s = (.error .noModule, s) := by
  have hframe : frame.run s = (.error .noModule, s) := by
    rw [frame, run_get_bind, h]
    rfl
  exact run_bind_error hframe _

lemma define_moves (name : String) {d : Definition} (hd : d.Inner) : Moves b (define name d) := by
  refine .update fun s => ⟨(State.Update.define s name d).onto rfl, State.orderly_modifyFrame (fun _ => rfl) ?_⟩
  intro f sc hsc x hx
  cases hlocals : f.locals with
  | nil => simp [hlocals] at hsc
  | cons inner rest =>
    rw [hlocals] at hsc
    rcases List.mem_cons.mp hsc with rfl | hsc
    · rcases List.mem_cons.mp hx with rfl | hx
      · exact .inl hd
      · exact .inr ⟨inner, by simp, hx⟩
    · exact .inr ⟨sc, by simp [hsc], hx⟩

lemma selfType?_moves : Moves b selfType? := frame_moves.bind fun _ => .pure _

lemma body?_moves : Moves b body? := frame_moves.bind fun _ => .pure _

lemma defs_of_note {t : Ty} {l : List Scope} : ∀ sc ∈ addReturn.note t l, ∃ sc' ∈ l, sc.defs = sc'.defs := by
  induction l with
  | nil => simp [addReturn.note]
  | cons sc l ih =>
    rw [addReturn.note]
    cases sc.body with
    | none =>
      refine List.forall_mem_cons.mpr ⟨⟨sc, by simp, rfl⟩, fun sc' hsc' => ?_⟩
      obtain ⟨sc'', hmem, hdefs⟩ := ih sc' hsc'
      exact ⟨sc'', List.mem_cons_of_mem sc hmem, hdefs⟩
    | some b =>
      exact List.forall_mem_cons.mpr ⟨⟨sc, by simp, rfl⟩, fun sc' hsc' => ⟨sc', List.mem_cons_of_mem sc hsc', rfl⟩⟩

lemma addReturn_moves (t : Ty) : Moves b (addReturn t) := by
  refine .update fun s => ⟨(State.Update.addReturn s t).onto rfl, State.orderly_modifyFrame (fun _ => rfl) ?_⟩
  intro f sc hsc x hx
  obtain ⟨sc', hmem, hdefs⟩ := defs_of_note sc hsc
  exact .inr ⟨sc', hmem, hdefs ▸ hx⟩

lemma report_moves (at? : Option Syntax.Info) (cause : Diagnostic.Cause) : Moves b (report at? cause) :=
  .update fun s => ⟨(State.Update.report s _).onto rfl, State.orderly_of_eq rfl rfl rfl rfl rfl⟩

lemma completed_moves (t : Ty) : Moves b (completed t) := .get fun _ => .pure _

lemma slot_moves (id : Nat) : Moves b (slot id) := .get fun _ => completed_moves _

lemma setSlot_moves (id : Nat) (t : Ty) : Moves b (setSlot id t) :=
  .note fun _ => ⟨⟨rfl, rfl, rfl, rfl, rfl, rfl, rfl⟩, rfl, rfl, rfl⟩

lemma newResult_moves : Moves b newResult := fun _ _ =>
  State.Aside.goes ⟨⟨rfl, rfl, rfl, rfl, rfl, rfl, rfl⟩, rfl, rfl, rfl⟩

lemma setResult_moves (id : Nat) (t : Ty) : Moves b (setResult id t) := by
  refine .update fun s => ⟨⟨?_, Relation.ReflTransGen.single ⟨id, t, rfl⟩⟩, State.orderly_of_eq rfl rfl rfl rfl rfl⟩
  exact State.Beside.updates ⟨rfl, rfl, rfl, rfl, rfl, rfl, rfl⟩

/-! ### Questions -/

lemma ask_moves {q : {m : Type → Type} → [Monad m] → (Path → m (List Chain)) → m α} (h : AboutChains q) :
    Moves true (ask q) := by
  intro s hs
  have hknows : Knows s.relations (fun _ => True) s := ⟨hs rfl, rfl, trivial⟩
  obtain ⟨-, hgrows, -, -⟩ := h s.relations (fun _ => []) s.memo trivial
  refine .of_run (run_ask q hknows) ⟨(State.Update.remember (hs rfl) hgrows).onto rfl, ?_⟩
  exact State.orderly_of_eq rfl rfl rfl rfl rfl

lemma isAssignable_moves (t u : Ty) : Moves true (isAssignable t u) := ask_moves (assign_aboutChains t u)

lemma combine_moves (t u : Ty) : Moves true (combine t u) := ask_moves (combine_aboutChains t u)

lemma chainsOf_moves (p : Path) : Moves true (chainsOf p) := by
  apply ask_moves (q := fun chains => chains p)
  intro rels cs
  have hruns : Runs (fun _ => True) cs (fun l => ∀ c ∈ l, c.Within Set.univ) (chains rels p) (pure (cs p)) :=
    chainsAlike_any rels cs p (Set.mem_univ p)
  exact hruns.weaken fun _ _ => trivial

lemma instantiate_moves (t : Ty) (c : Chain) : Moves true (instantiate t c) := ask_moves (instantiate_aboutChains t c)

lemma evidenceOr_moves (r : Except EvidenceError α) : Moves b (evidenceOr r) := by
  match r with
  | .ok a => exact .pure a
  | .error (.notATrait t) => exact .throw _
  | .error .tooDeep => exact .throw _

lemma evidenceFor_moves (source goal : Ty) : Moves true (evidenceFor source goal) := by
  refine .get fun s => .bind (ask_moves fun rels cs => ?_) fun r => evidenceOr_moves r
  have hruns := evidenceWith_runs (Set.mem_univ _) s.relations (chainsAlike_any rels cs) s.reserve
  exact Runs.weaken (hruns source goal source.within_univ goal.within_univ) fun _ _ => trivial

/-! ### Resolving -/

section Glance

variable {visit : Nat → Check Unit} (hvisit : ∀ id, Moves b (visit id))
include hvisit

lemma firstCut_moves (package : Package) (kinds : List Kind) (cuts : List (Path × Path)) :
    Moves b (firstCut visit package kinds cuts) := by
  induction cuts with
  | nil => exact .pure _
  | cons cut cuts ih =>
    obtain ⟨front, rest⟩ := cut
    refine .get fun s => ?_
    cases s.moduleIn? package front with
    | none => exact ih
    | some id =>
      refine .ite (.ite (.pure _) ih) ((hvisit id).bind fun _ => (entry_moves id).bind fun m => .get fun s => ?_)
      refine (Moves.ofExcept _).bind fun r => ?_
      cases r with
      | none => exact ih
      | some r => exact .pure _

lemma qualifiedWith_moves (kinds : List Kind) (p : Path) : Moves b (qualifiedWith visit kinds p) := by
  refine .get fun s => ?_
  cases s.package? p.first with
  | none => exact .pure _
  | some package => exact firstCut_moves hvisit package kinds (cuts p)

omit hvisit in
lemma reportCycle_moves (id : Nat) : Moves b (reportCycle id) := by
  refine .getAt fun s hs => ?_
  dsimp only
  split
  · exact .refl s
  · refine .set (State.Aside.goes ⟨⟨rfl, rfl, rfl, rfl, rfl, rfl, rfl⟩, rfl, rfl, rfl⟩) ?_
    exact Moves.bind (entry_moves id) (fun m => report_moves _ _) _ hs

lemma visitWith_moves (id : Nat) : Moves b (visitWith visit id) := by
  refine (entry_moves id).bind fun m => ?_
  cases m.phase with
  | unvisited => exact hvisit id
  | glancing => exact reportCycle_moves id
  | _ => exact .pure _

omit hvisit in
lemma defs_insert {id key : Nat} (defs : Std.TreeMap Nat Definition) {d : Definition} (hd : d.In (· = id)) (k : Nat)
    (d' : Definition) (h : (defs.insert key d)[k]? = some d') : d'.In (· = id) ∨ defs[k]? = some d' := by
  rw [Std.TreeMap.getElem?_insert] at h
  split at h
  · exact .inl (Option.some.inj h ▸ hd)
  · exact .inr h

omit hvisit in
lemma in_of_topLevel? {id : Nat} {path : Path} {stmt : Syntax.Stmt} {name : String} {d : Definition}
    (h : topLevel? id path stmt = some (name, d)) : d.In (· = id) := by
  intro v m hd hm
  subst hd
  cases stmt <;> cases h
  exact (Option.some.inj hm).symm

def registerNamed (id : Nat) (m : ModuleEntry) (stmt : Syntax.Stmt) : Check Unit := do
  match topLevel? id m.path stmt with
  | some (name, d) =>
    if (m.scope.get? d.kind name).isSome then report (some stmt.info) (.redeclaration name)
    else modifyEntry id fun e => { e with scope := e.scope.define name d, defs := e.defs.insert stmt.info.id d }
  | none => return

omit hvisit in
lemma register_moves (id : Nat) (stmt : Syntax.Stmt) : Moves b (register id stmt) := by
  refine (entry_moves id).bind fun m => ?_
  have hnamed : Moves b (registerNamed id m stmt) := by
    rw [registerNamed]
    cases htop : topLevel? id m.path stmt with
    | none => exact .pure _
    | some named =>
      obtain ⟨name, d⟩ := named
      have hd : d.In (· = id) := in_of_topLevel? htop
      refine .ite (report_moves _ _) (.update fun s => ⟨(State.Update.register s id _ _ _).onto rfl, ?_⟩)
      refine State.orderly_modify (fun _ => ⟨rfl, rfl⟩) (fun m => List.forall_mem_cons.mpr ⟨.inl hd, fun x => .inr⟩) ?_
      exact fun m => defs_insert m.defs hd
  cases stmt with
  | impl d =>
    have hentry (s : State) := State.Update.entry s id
      (fun e => { e with defs := e.defs.insert d.info.id (.impl ⟨d, id⟩) }) fun _ => rfl
    refine .update fun s => ⟨(hentry s).onto rfl, ?_⟩
    refine State.orderly_modify (fun _ => ⟨rfl, rfl⟩) (fun m x => .inr) fun m => defs_insert m.defs ?_
    exact Definition.in_of_kind (by simp [Definition.kind])
  | _ => exact hnamed

omit hvisit in
lemma addReference_moves (p : Path) : Moves b (addReference p) :=
  currentModule_moves.bind fun id => modifyEntry_moves id (fun _ => rfl) (fun _ => rfl) fun _ => ⟨rfl, rfl⟩

omit hvisit in
lemma mayUse_moves (r : Resolved) : Moves b (mayUse r) := by
  unfold mayUse
  cases r.module with
  | none => exact .pure _
  | some id => exact currentModule_moves.bind fun _ => .pure _

lemma useAll_moves (info : Syntax.Info) (p : Path) : Moves b (useAll visit info p) := by
  refine (qualifiedWith_moves hvisit _ p).bind fun r => ?_
  cases r with
  | none => exact report_moves _ _
  | some r =>
    obtain ⟨_, d, _⟩ := r
    cases d with
    | module id =>
      refine (hvisit id).bind fun _ => (entry_moves id).bind fun m => currentModule_moves.bind fun current => ?_
      refine .bind (.forIn fun name => ?_) fun _ => .pure _
      cases m.scope.find? Kind.any name with
      | none => exact Moves.bind (.throw _) fun _ => .pure _
      | some d =>
        dsimp only
        split
        · exact (addReference_moves _).bind fun _ => .pure _
        · exact .pure _
    | _ => exact .throw _

lemma useOne_moves (info : Syntax.Info) (p : Path) : Moves b (useOne visit info p) := by
  refine (qualifiedWith_moves hvisit _ p).bind fun r => ?_
  cases r with
  | none => exact report_moves _ _
  | some r =>
    refine (mayUse_moves r).bind fun may => .ite (addReference_moves _) ?_
    exact (report_moves _ _).bind fun _ => addReference_moves _

end Glance

mutual

lemma flatten_moves {visit : Nat → Check Unit} (hvisit : ∀ id, Moves b (visit id)) (outer : List String) (u : Syntax.Use) :
    Moves b (flatten visit outer u) := by
  obtain ⟨info, pub, segments, wildcard, nested⟩ := u
  rw [flatten]
  cases Path.ofSegments? (outer ++ segments) with
  | none => exact report_moves _ _
  | some path =>
    refine .ite (useAll_moves hvisit info path) (.ite (useOne_moves hvisit info path) ?_)
    exact flattenAll_moves hvisit path.segments nested

lemma flattenAll_moves {visit : Nat → Check Unit} (hvisit : ∀ id, Moves b (visit id)) (outer : List String)
    (us : List Syntax.Use) : Moves b (flattenAll visit outer us) := by
  cases us with
  | nil => exact .pure _
  | cons u us =>
    rw [flattenAll]
    exact (flatten_moves hvisit outer u).bind fun _ => flattenAll_moves hvisit outer us

end

lemma setPhase_moves (id : Nat) (phase : Phase) : Moves b (modifyEntry id fun m => { m with phase := phase }) :=
  modifyEntry_moves id (fun _ => rfl) (fun _ => rfl) fun _ => ⟨rfl, rfl⟩

lemma glance_moves (fuel id : Nat) : Moves b (glance fuel id) := by
  apply Moves.any
  induction fuel generalizing id with
  | zero => exact .throw _
  | succ fuel ih =>
    have hphase (phase : Phase) (s : State) (glances : Stack Nat) :
        s.Goes false { s with modules := s.modules.modify id fun m => { m with phase := phase }, glances := glances } :=
      ((setPhase_moves id phase).anywhere s).trans
        (State.Aside.goes ⟨⟨rfl, rfl, rfl, rfl, rfl, rfl, rfl⟩, rfl, rfl, rfl⟩)
    refine (entry_moves id).bind fun m => .ite ?_ (.pure _)
    refine .bracket (fun s => hphase .glancing s _) (fun s => hphase .glanced s _) (.inModule id ?_)
    exact .bind (.forM (register_moves id)) fun _ => flattenAll_moves (visitWith_moves ih) [] m.syn.uses

lemma glanceModule_moves (id : Nat) : Moves b (glanceModule id) :=
  .bind (.get fun _ => .get fun _ => .pure _) fun fuel => glance_moves fuel id

lemma visit_moves (id : Nat) : Moves b (visit id) := visitWith_moves glanceModule_moves id

lemma qualified_moves (kinds : List Kind) (p : Path) : Moves b (qualified kinds p) :=
  qualifiedWith_moves visit_moves kinds p

lemma ofSelf?_moves (kinds : List Kind) (p : Path) : Moves b (ofSelf? kinds p) := by
  refine .ite (.pure _) (.get fun s => selfType?_moves.bind fun r => ?_)
  match r with
  | none => exact .pure _
  | some (owner, t) =>
    dsimp only
    split <;> exact .pure _

lemma inFrame?_moves (kinds : List Kind) (p : Path) : Moves b (inFrame? kinds p) := by
  refine frame_moves.bind fun f => (entry_moves f.module).bind fun m => .get fun s => (Moves.ofExcept _).bind fun r => ?_
  cases r with
  | none => exact .ofExcept _
  | some r => exact .pure _

lemma viaImports_moves (kinds : List Kind) (p : Path) (refs : List Path) : Moves b (viaImports kinds p refs) := by
  induction refs with
  | nil => exact .pure _
  | cons reference refs ih =>
    refine .ite ?_ ih
    cases reference.parent? with
    | none => exact ih
    | some scope =>
      refine (qualified_moves kinds _).bind fun r => ?_
      cases r with
      | none => exact ih
      | some r => exact .pure _

lemma resolve_moves (kinds : List Kind) (p : Path) : Moves b (resolve kinds p) := by
  refine (ofSelf?_moves kinds p).bind fun r => ?_
  cases r with
  | some r => exact .pure _
  | none =>
    refine (inFrame?_moves kinds p).bind fun r => ?_
    cases r with
    | some r => exact .pure _
    | none =>
      refine (qualified_moves kinds p).bind fun r => ?_
      cases r with
      | some r => exact .pure _
      | none => exact currentModule_moves.bind fun id => (entry_moves id).bind fun m => .get fun s => viaImports_moves kinds p _

lemma resolveOrReport_moves (info : Syntax.Info) (what : String) (kinds : List Kind) (p : Path) :
    Moves b (resolveOrReport info what kinds p) := by
  refine (resolve_moves kinds p).bind fun r => ?_
  cases r with
  | none => exact (report_moves _ _).bind fun _ => .pure _
  | some r =>
    refine (mayUse_moves r).bind fun may => .ite (.pure _) ?_
    exact (report_moves _ _).bind fun _ => .pure _

/-! ### Types -/

lemma fresh_ofGenerics (gs : List (Generic Ty)) : (Scope.ofGenerics gs).Fresh :=
  Scope.Fresh.empty.foldl Generic.name (fun _ => Definition.in_of_kind (by simp [Definition.kind])) gs

lemma checkArity_moves (info : Syntax.Info) (expected got : Nat) : Moves b (checkArity info expected got) :=
  .ite (.pure _) ((report_moves _ _).bind fun _ => .pure _)

lemma fitArgs_moves (info : Syntax.Info) (expected : Nat) (args : List Ty) : Moves b (fitArgs info expected args) :=
  .ite (.pure _) ((checkArity_moves _ _ _).bind fun _ => .ite (.pure _) (.pure _))

structure Declare.Sound (declare : Declare) : Prop where
  moves : ∀ {b} decls owner, Moves b (declare decls owner)
  yields : ∀ decls owner, Yields (fun r => r.1.Fresh) (declare decls owner)

lemma Declare.Sound.bind {declare : Declare} (h : declare.Sound) {decls : List Syntax.GenericDecl} {owner : Path}
    {f : Scope × List (Generic Ty) → Check β} (hf : ∀ r, r.1.Fresh → Moves b (f r)) :
    Moves b (declare decls owner >>= f) := (h.moves decls owner).bindYields (h.yields decls owner) hf

mutual

lemma resolveType_moves {declare : Declare} (h : declare.Sound) (t : Syntax.TypeExpr) :
    Moves b (resolveType declare t) := by
  cases t with
  | hole info => exact .pure _
  | fn info gs ps r =>
    rw [resolveType]
    refine h.bind fun scope hscope => .inScope hscope ?_
    exact (resolveTypes_moves h ps).bind fun _ => (resolveOptType_moves h r).bind fun _ => .pure _
  | named info names args =>
    rw [resolveType]
    refine (pathOf_moves names).bind fun p => (resolveOrReport_moves info _ _ p).bind fun r => ?_
    cases r with
    | none => exact .pure _
    | some r =>
      refine (resolveTypes_moves h args).bind fun args => ?_
      have hdeclared (module : Nat) (gs : List Syntax.GenericDecl) (path : Path) :
          Moves b (do
            let (_, generics) ← inModule module (declare gs path)
            return Ty.named path (← fitArgs info generics.length args)) :=
        (Moves.inModule module (h.moves gs path)).bind fun r => (fitArgs_moves _ _ _).bind fun _ => .pure _
      obtain ⟨_, d, _⟩ := r
      cases d with
      | self owner t => exact (checkArity_moves _ _ _).discard.bind fun _ => .pure _
      | generic g => exact (checkArity_moves _ _ _).discard.bind fun _ => .pure _
      | type d => exact hdeclared d.module d.node.generics d.path
      | trait d => exact hdeclared d.module d.node.generics d.path
      | _ => exact .throw _

lemma resolveTypes_moves {declare : Declare} (h : declare.Sound) (ts : List Syntax.TypeExpr) :
    Moves b (resolveTypes declare ts) := by
  cases ts with
  | nil => exact .pure _
  | cons t ts =>
    rw [resolveTypes]
    exact (resolveType_moves h t).bind fun _ => (resolveTypes_moves h ts).bind fun _ => .pure _

lemma resolveOptType_moves {declare : Declare} (h : declare.Sound) (t : Option Syntax.TypeExpr) :
    Moves b (resolveOptType declare t) := by
  cases t with
  | none => exact .pure _
  | some t =>
    rw [resolveOptType]
    exact resolveType_moves h t

end

lemma declareWith_sound {bound : Syntax.TypeExpr → Check Ty} (h : ∀ {b} t, Moves b (bound t)) :
    (declareWith bound).Sound where
  moves {b} decls owner := by
    refine .get fun s => .ite ?_ (.pure _)
    have hstore (gs : List (Generic Ty)) : Moves b (modify fun s : State => { s with
        generics := (decls.zip gs).foldl (fun m e => m.insert e.1.info.id e.2) s.generics }) :=
      .note fun _ => ⟨⟨rfl, rfl, rfl, rfl, rfl, rfl, rfl⟩, rfl, rfl, rfl⟩
    refine (hstore _).bind fun _ => .bind (.inScope (fresh_ofGenerics _) (.mapM fun e => ?_)) fun resolved => ?_
    · exact .ite ((Moves.mapM h).bind fun _ => .pure _) (.pure _)
    · exact (hstore _).bind fun _ => .pure _
  yields decls owner := by
    refine .last fun s => .ite ?_ (.pure (fresh_ofGenerics _))
    exact .last fun _ => .last fun _ => .last fun _ => .pure (fresh_ofGenerics _)

lemma declare_sound (fuel : Nat) : (declare fuel).Sound := by
  induction fuel with
  | zero => exact ⟨fun _ _ => .throw _, fun _ _ => .throw _⟩
  | succ fuel ih => exact declareWith_sound (resolveType_moves ih)

lemma declareGenerics_sound : declareGenerics.Sound where
  moves decls owner := .get fun _ => (declare_sound _).moves decls owner
  yields decls owner := .last fun _ => (declare_sound _).yields decls owner

lemma typeOf_moves (t : Syntax.TypeExpr) : Moves b (typeOf t) := resolveType_moves declareGenerics_sound t

lemma typeOf?_moves (t : Option Syntax.TypeExpr) : Moves b (typeOf? t) := resolveOptType_moves declareGenerics_sound t

lemma typeGenerics_moves (d : TypeDecl) : Moves b (typeGenerics d) :=
  (Moves.inModule d.module (declareGenerics_sound.moves _ _)).bind fun _ => .pure _

lemma traitGenerics_moves (d : TraitDecl) : Moves b (traitGenerics d) :=
  (Moves.inModule d.module (declareGenerics_sound.moves _ _)).bind fun _ => .pure _

lemma typeSelf_moves (d : TypeDecl) : Moves b (typeSelf d) := (typeGenerics_moves d).bind fun _ => .pure _

lemma traitSelf_moves (d : TraitDecl) : Moves b (traitSelf d) := (traitGenerics_moves d).bind fun _ => .pure _

lemma traitSelfGeneric_moves (d : TraitDecl) : Moves b (traitSelfGeneric d) := (traitSelf_moves d).bind fun _ => .pure _

lemma fieldType_moves (d : TypeDecl) (f : Syntax.FieldDef) : Moves b (fieldType d f) := by
  refine (slot_moves _).bind fun known => .ite (.inModule d.module ?_) (.pure _)
  refine declareGenerics_sound.bind fun scope hscope => .bind (.inScope hscope (typeOf?_moves _)) fun t => ?_
  exact .ite (.pure _) ((setSlot_moves _ _).bind fun _ => .pure _)

lemma ownerScope_moves (o : Owner) : Moves b (ownerScope o) := by
  cases o with
  | trait d => exact (traitGenerics_moves d).bind fun _ => (traitSelfGeneric_moves d).bind fun _ => .pure _
  | impl d =>
    refine .get fun s => ?_
    cases s.instanceOf? (.impl d) with
    | none => exact .throw _
    | some i => exact .pure _

lemma ownerScope_yields (o : Owner) : Yields Scope.Fresh (ownerScope o) := by
  cases o with
  | trait d => exact .last fun gs => .last fun _ => .pure (.same (fresh_ofGenerics gs) rfl)
  | impl d =>
    refine .last fun s => ?_
    cases s.instanceOf? (.impl d) with
    | none => exact .throw _
    | some i => exact .pure (.same (fresh_ofGenerics i.relation.generics) rfl)

lemma ownerPath_moves (o : Owner) : Moves b (ownerPath o) := by
  cases o with
  | trait d => exact .pure _
  | impl d =>
    refine .get fun s => ?_
    cases s.instanceOf? (.impl d) with
    | none => exact (entry_moves _).bind fun _ => .pure _
    | some i => exact .pure _

lemma paramType_moves (p : Syntax.Param) : Moves b (paramType p) := by
  unfold paramType
  cases p.type with
  | some t => exact typeOf_moves t
  | none =>
    refine selfType?_moves.bind fun self => ?_
    split
    · exact .pure _
    · exact (report_moves _ _).bind fun _ => .pure _

lemma paramSlot_moves (p : Syntax.Param) : Moves b (paramSlot p) := by
  refine (slot_moves _).bind fun known => .ite ((paramType_moves p).bind fun t => ?_) (.pure _)
  exact (setSlot_moves _ _).bind fun _ => .pure _

lemma signatureOf_moves (fn : Syntax.Fn) (owner : Path) : Moves b (signatureOf fn owner) := by
  refine declareGenerics_sound.bind fun scope hscope => .inScope hscope ?_
  exact (Moves.mapM paramSlot_moves).bind fun _ => (typeOf?_moves _).bind fun _ => .pure _

lemma signatureOnce_moves (id : Nat) {make : Check Ty} (h : Moves b make) : Moves b (signatureOnce id make) := by
  refine .get fun s => ?_
  cases s.signatures[id]? with
  | some t => exact .pure t
  | none => exact h.bind fun t => .bind (.note fun _ => ⟨⟨rfl, rfl, rfl, rfl, rfl, rfl, rfl⟩, rfl, rfl, rfl⟩) fun _ => .pure t

lemma fnSignature_moves (f : Function) : Moves b (fnSignature f) := by
  unfold fnSignature
  split
  · exact completed_moves _
  · exact signatureOnce_moves _ (.inModule _ (signatureOf_moves _ _))
  · exact .throw _

lemma methodSignature_moves (m : Method) : Moves b (methodSignature m) := by
  refine signatureOnce_moves _ (.inModule _ ?_)
  refine (ownerScope_moves m.owner).bindYields (ownerScope_yields m.owner) fun scope hscope => .inScope hscope ?_
  exact (ownerPath_moves m.owner).bind fun _ => signatureOf_moves _ _

lemma inDeclaration_moves (g : Generic Ty) : Moves b (inDeclaration g) := by
  refine .ite (selfType?_moves.bind fun self => ?_) ((resolve_moves _ _).bind fun r => ?_)
  · split <;> exact .pure _
  · split
    · exact .pure _
    · exact .throw _
    · exact .pure _

lemma keptGenerics_moves (info : Option Syntax.Info) (gs : List (Generic Ty)) : Moves b (keptGenerics info gs) := by
  induction gs with
  | nil => exact .pure _
  | cons g gs ih =>
    refine (inDeclaration_moves g).bind fun inside => .ite (ih.bind fun _ => .pure _) ?_
    exact (report_moves _ _).bind fun _ => ih

lemma resolveGenerics_moves (info : Option Syntax.Info) (maps : List Bindings) (t : Ty) :
    Moves b (resolveGenerics info maps t) := (keptGenerics_moves info _).bind fun _ => .pure _

lemma explicitGenerics_moves (info : Syntax.Info) (generics : List (Generic Ty)) (args : List Syntax.TypeExpr) :
    Moves b (explicitGenerics info generics args) := by
  refine .ite (.pure _) ((checkArity_moves _ _ _).bind fun fits => .ite (.foldlM (fun c e => ?_) _) (.pure _))
  exact (typeOf_moves e.2).bind fun _ => .pure _

end Check

end TraitCheck
