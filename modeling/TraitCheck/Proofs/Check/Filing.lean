import TraitCheck.Proofs.Check.Moves
import TraitCheck.Proofs.Check.Packages
import TraitCheck.Proofs.Check.Program

/-! Every scope that there is while a check runs files its definitions under their own kinds. So what a path stands for
is always of a kind that was asked for. -/

namespace TraitCheck

/-! ### Scopes -/

/-- Each definition is bound under its own kind. -/
def Scope.Filed (sc : Scope) : Prop := ∀ e ∈ sc.defs, e.2.kind = e.1.1

lemma Scope.Filed.define {sc : Scope} (h : sc.Filed) (name : String) (d : Definition) : (sc.define name d).Filed :=
  List.forall_mem_cons.mpr ⟨rfl, h⟩

lemma Scope.Built.filed {sc : Scope} (h : sc.Built) : sc.Filed := by
  induction h with
  | empty => exact List.forall_mem_nil _
  | define _ name d ih => exact ih.define name d
  | same _ hdefs ih => rwa [Scope.Filed, hdefs]

def Frame.Filed (f : Frame) : Prop := ∀ sc ∈ f.locals, sc.Filed

namespace State

/-- All scopes are filed: those of modules, those of what is being worked on, and those that closures were written in. -/
structure Filed (s : State) : Prop where
  modules : ∀ m ∈ s.modules, m.scope.Filed
  frames : ∀ f ∈ s.frames.top, f.Filed
  pending : ∀ p ∈ s.pending, p.frame.Filed

variable {s t : State}

lemma Filed.scope (hs : s.Filed) (id : Nat) : (s.module id).scope.Filed := by
  rw [State.module]
  cases hm : s.modules[id]? with
  | none => exact List.forall_mem_nil _
  | some m => exact hs.modules m (List.mem_of_getElem? hm)

lemma filed_modifyFrame (hs : s.Filed) {u : Frame → Frame} (hu : ∀ f : Frame, f.Filed → (u f).Filed) :
    (Check.modifyFrame u s).Filed := by
  refine { hs with frames := ?_ }
  have hframes := hs.frames
  change ∀ f ∈ (s.frames.modifyTop u).top, f.Filed
  rw [Stack.modifyTop]
  split
  · exact hframes
  · next f fs htop =>
    rw [htop, List.forall_mem_cons] at hframes
    exact List.forall_mem_cons.mpr ⟨hu f hframes.1, hframes.2⟩

lemma filed_modify (hs : s.Filed) (id : Nat) {u : ModuleEntry → ModuleEntry}
    (hu : ∀ m : ModuleEntry, m.scope.Filed → (u m).scope.Filed) : Filed { s with modules := s.modules.modify id u } := by
  refine { hs with modules := fun m hm => ?_ }
  obtain ⟨i, hi, rfl⟩ := List.getElem_of_mem hm
  rw [List.getElem_modify]
  have hlt : i < s.modules.length := by simpa using hi
  have hmodule := hs.modules s.modules[i] (List.getElem_mem hlt)
  split
  · exact hu _ hmodule
  · exact hmodule

lemma filed_note (t : Ty) {l : List Scope} (h : ∀ sc ∈ l, sc.Filed) : ∀ sc ∈ Check.addReturn.note t l, sc.Filed := by
  induction l with
  | nil => exact h
  | cons sc l ih =>
    rw [List.forall_mem_cons] at h
    rw [Check.addReturn.note]
    split
    · exact List.forall_mem_cons.mpr h
    · exact List.forall_mem_cons.mpr ⟨h.1, ih h.2⟩

lemma filed_modifyHead (name : String) (d : Definition) {l : List Scope} (h : ∀ sc ∈ l, sc.Filed) :
    ∀ sc ∈ l.modifyHead (·.define name d), sc.Filed := by
  cases l with
  | nil => exact h
  | cons sc l =>
    rw [List.forall_mem_cons] at h
    exact List.forall_mem_cons.mpr ⟨h.1.define name d, h.2⟩

lemma Update.filed (h : s.Update t) (hs : s.Filed) : t.Filed := by
  cases h with
  | note h => exact ⟨h.modules ▸ hs.modules, h.frames ▸ hs.frames, h.pending ▸ hs.pending⟩
  | report d => exact { hs with }
  | remember _ h => exact { hs with }
  | enter id => exact { hs with frames := List.forall_mem_cons.mpr ⟨List.forall_mem_nil _, hs.frames⟩ }
  | leave => exact { hs with frames := fun f hf => hs.frames f (List.mem_of_mem_tail hf) }
  | inner hsc => exact filed_modifyFrame hs fun f hf => List.forall_mem_cons.mpr ⟨hsc.filed, hf⟩
  | outer => exact filed_modifyFrame hs fun f hf sc hsc => hf sc (List.mem_of_mem_tail hsc)
  | define name d => exact filed_modifyFrame hs fun f hf => filed_modifyHead name d hf
  | addReturn ty => exact filed_modifyFrame hs fun f hf => filed_note ty hf
  | entry id f h => exact filed_modify hs id fun m hm => (h m).symm ▸ hm
  | register id key name d => exact filed_modify hs id fun m hm => hm.define name d
  | await c h =>
    refine { hs with pending := fun p hp => ?_ }
    obtain hp | hp := List.mem_append.mp hp
    · exact hs.pending p hp
    · obtain rfl := List.mem_singleton.mp hp
      exact hs.frames _ (List.mem_of_mem_head? h)
  | settle h => exact { hs with pending := fun p hp => hs.pending p (h.subset hp) }

lemma Updates.filed (h : s.Updates t) (hs : s.Filed) : t.Filed := by
  induction h with
  | refl => exact hs
  | tail _ h ih => exact h.filed ih

lemma Reaches.filed (h : s.Reaches t) (hs : s.Filed) : t.Filed := by
  induction h with
  | refl => exact hs
  | tail _ h ih =>
    cases h with
    | update h => exact h.filed ih
    | relate _ i => exact { ih with }
    | build => exact { ih with }

end State

/-! ### Resolving -/

namespace Check

variable {s : State} {kinds : List Kind}

def FindsOnly (kinds : List Kind) (x : Except Failure (Option Resolved)) : Prop :=
  ∀ r, x = .ok (some r) → r.definition.kind ∈ kinds

lemma FindsOnly.nothing : FindsOnly kinds (.ok none) := by
  intro r hr
  cases hr

lemma FindsOnly.bind {α : Type} {x : Except Failure α} {f : α → Except Failure (Option Resolved)}
    (h : ∀ a, x = .ok a → FindsOnly kinds (f a)) : FindsOnly kinds (x >>= f) := by
  cases x with
  | error φ =>
    intro r hr
    cases hr
  | ok a => exact h a rfl

lemma FindsOnly.map {α : Type} {o : Option α} {g : α → Resolved} (h : ∀ a, o = some a → (g a).definition.kind ∈ kinds) :
    FindsOnly kinds (.ok (o.map g)) := by
  intro r hr
  obtain ⟨a, ha, rfl⟩ := Option.map_eq_some_iff.mp (Except.ok.inj hr)
  exact h a ha

def Respects (kinds : List Kind) (x : Check (Option Resolved)) : Prop :=
  ∀ s : State, s.Filed → ∀ r t, x.run s = (.ok (some r), t) → r.definition.kind ∈ kinds

namespace Respects

variable {α : Type}

lemma pure {o : Option Resolved} (h : ∀ r, o = some r → r.definition.kind ∈ kinds) : Respects kinds (Pure.pure o) := by
  intro s _ r t hrun
  exact h r (Except.ok.inj (Prod.mk.inj hrun).1)

lemma none : Respects kinds (Pure.pure Option.none) := .pure fun r hr => by cases hr

lemma bind {x : Check α} {f : α → Check (Option Resolved)} (hx : ∀ b, Moves b x) (hf : ∀ a, Respects kinds (f a)) :
    Respects kinds (x >>= f) := by
  intro s hs r t hrun
  obtain ⟨a, u, hfirst, hlast⟩ := exists_of_run_bind hrun
  exact hf a u (((hx s.built).updates rfl hfirst).filed hs) r t hlast

lemma get {f : State → Check (Option Resolved)}
    (hf : ∀ s : State, s.Filed → ∀ r t, (f s).run s = (.ok (some r), t) → r.definition.kind ∈ kinds) :
    Respects kinds (MonadState.get >>= f) := hf

lemma orElse {x : Check (Option Resolved)} {f : Option Resolved → Check (Option Resolved)} (hx : Respects kinds x)
    (hmoves : ∀ b, Moves b x) (hsome : ∀ r, f (some r) = Pure.pure (some r)) (hnone : Respects kinds (f .none)) :
    Respects kinds (x >>= f) := by
  intro s hs r t hrun
  obtain ⟨o, u, hfirst, hlast⟩ := exists_of_run_bind hrun
  cases o with
  | none =>
    exact hnone u (((hmoves s.built).updates rfl hfirst).filed hs) r t hlast
  | some r' =>
    rw [hsome] at hlast
    cases hlast
    exact hx s hs r _ hfirst

end Respects

end Check

namespace State

lemma Unchecked.filed {wf : Prop} {s : State} (h : s.Unchecked wf) : s.Filed := by
  have hframes : s.frames = .empty := by rw [h.rest]; rfl
  have hpending : s.pending = [] := by rw [h.rest]; rfl
  refine ⟨fun m hm => ?_, ?_, ?_⟩
  · rw [h.bare m hm]
    exact List.forall_mem_nil _
  · rw [hframes]
    exact List.forall_mem_nil _
  · rw [hpending]
    exact List.forall_mem_nil _

variable (prelude : List Path) (reserve : Nat) (packages : List (String × List (String × Syntax.Module)))

end State

/-! A type and a variable of one name. -/

namespace Namesakes

def shape : Path := ⟨["app", "main", "Shape"]⟩

def start : State :=
  .ofPackages [] 64 [("app", [("app::main", Standard.module
    [Standard.type "Shape", .var ⟨{}, true, "Shape", none, .literal ⟨{}, .int, "1"⟩⟩])])]

end Namesakes

end TraitCheck
