import TraitCheck.Proofs.Check.Sane

/-! Resolving names in a sane state. Nothing but the fixed parts of the state and the scopes of the frame decides what a
path stands for, the state stays as it is, and what is found is of a kind that was asked for. -/

namespace TraitCheck

open Check.Regime
open Syntax (Stmt)

variable {e : Setting}

/-! ### Methods -/

lemma Owner.Known.fns {o : Owner} (h : o.Known e) : ∀ f ∈ o.fns, Syntax.Fn.Fits e.toForm f := by
  cases o with
  | trait d => exact (Stmt.Fits.trait h).2
  | impl d => exact (Stmt.Fits.impl h.1).2.2.2

lemma Owner.Known.method? {o : Owner} (h : o.Known e) {name : String} {m : Method} (hm : o.method? name = some m) :
    m.Known e := by
  obtain ⟨f, hf, rfl⟩ := Option.map_eq_some_iff.mp hm
  exact ⟨h.fns f (List.mem_reverse.mp (List.mem_of_find?_eq_some hf)), h⟩

lemma Instance.Proper.trait? {i : Instance} (h : i.Proper e) {d : TraitDecl} (hd : i.trait? = some d) :
    (Stmt.trait d.node).Fits e.toForm := by
  rw [Instance.trait?.eq_def] at hd
  have howner := h.owner
  split at hd
  · next d' heq =>
    obtain rfl := Option.some.inj hd
    rwa [heq] at howner
  · split at hd
    · simp at hd
    · exact h.implemented d hd

lemma Instance.Proper.method? {i : Instance} (h : i.Proper e) {name : String} {m : Method}
    (hm : i.method? name = some m) : m.Known e := by
  rw [Instance.method?, Option.or_eq_some_iff] at hm
  obtain hm | ⟨-, hm⟩ := hm
  · exact h.owner.method? hm
  · split at hm
    · simp at hm
    · obtain ⟨d, hd, hm⟩ := Option.bind_eq_some_iff.mp hm
      exact Owner.Known.method? (o := .trait d) (h.trait? hd) hm

variable {s : State}

lemma memberOf?_known (hinstances : ∀ i ∈ s.instances, i.Proper e) {o : Owner} (ho : o.Known e) {name : String}
    {m : Method} (hm : s.memberOf? o name = some m) : m.Known e := by
  rw [State.memberOf?.eq_def, Option.or_eq_some_iff] at hm
  obtain hm | ⟨-, hm⟩ := hm
  · exact ho.method? hm
  · split at hm
    · simp at hm
    · obtain ⟨i, hi, hm⟩ := Option.bind_eq_some_iff.mp hm
      exact (hinstances i (List.mem_of_find?_eq_some hi)).method? hm

/-! ### Looking names up -/

def Gives {α : Type} (P : α → Prop) (x : Except Failure (Option α)) : Prop := ∃ r, x = .ok r ∧ ∀ a, r = some a → P a

lemma Gives.nothing {α : Type} {P : α → Prop} : Gives P (.ok none) := ⟨_, rfl, by simp⟩

lemma Gives.found {α : Type} {P : α → Prop} {a : α} (h : P a) : Gives P (.ok (some a)) := ⟨_, rfl, by simpa using h⟩

lemma Gives.bind {α β : Type} {P : α → Prop} {Q : β → Prop} {x : Except Failure (Option α)}
    {f : Option α → Except Failure (Option β)} (hx : Gives P x) (hf : ∀ r, (∀ a, r = some a → P a) → Gives Q (f r)) :
    Gives Q (x >>= f) := by
  obtain ⟨r, rfl, hP⟩ := hx
  exact hf r hP

lemma gives_findSomeM? {α β : Type} {P : β → Prop} {l : List α} {f : α → Except Failure (Option β)}
    (h : ∀ a ∈ l, Gives P (f a)) : Gives P (l.findSomeM? f) := by
  induction l with
  | nil => exact .nothing
  | cons a l ih =>
    obtain ⟨r, hr, hP⟩ := h a (by simp)
    rw [List.findSomeM?, hr]
    cases r with
    | none => exact ih fun b hb => h b (List.mem_cons_of_mem _ hb)
    | some b => exact .found (hP b rfl)

lemma inherentMethod?_gives (hinstances : ∀ i ∈ s.instances, i.Proper e) (d : TypeDecl) (name : String) :
    Gives (Method.Known e) (s.inherentMethod? d name) := by
  refine gives_findSomeM? fun i hi => ?_
  have hproper := hinstances i hi
  split
  · next hkind =>
    simp only [Bool.and_eq_true, decide_eq_true_eq] at hkind
    obtain ⟨o, ho⟩ := hproper.isImpl (by simp [hkind.1])
    rw [ho]
    refine ⟨_, rfl, fun m hm => ?_⟩
    exact (ho ▸ hproper.owner).method? hm
  · exact .nothing

lemma get?_proper {sc : Scope} (h : sc.Proper e) {k : Kind} {name : String} {d : Definition}
    (hd : sc.get? k name = some d) : d.kind = k ∧ d.Proper e := by
  obtain ⟨front, back, heq, -⟩ := List.lookup_eq_some_iff.mp hd
  exact h.defs ((k, name), d) (by simp [heq])

lemma type?_gives {sc : Scope} (h : sc.Proper e) (name : String) :
    Gives (fun d => d.node.Fits e.toForm) (sc.type? name) := by
  rw [Scope.type?]
  cases hd : sc.get? .type name with
  | none => exact .nothing
  | some d =>
    obtain ⟨hkind, hproper⟩ := get?_proper h hd
    cases d <;> simp [Definition.kind] at hkind
    exact .found hproper

lemma trait?_gives {sc : Scope} (h : sc.Proper e) (name : String) :
    Gives (fun d => (Stmt.trait d.node).Fits e.toForm) (sc.trait? name) := by
  rw [Scope.trait?]
  cases hd : sc.get? .trait name with
  | none => exact .nothing
  | some d =>
    obtain ⟨hkind, hproper⟩ := get?_proper h hd
    cases d <;> simp [Definition.kind] at hkind
    exact .found hproper

structure Resolved.Fits (e : Setting) (kinds : List Kind) (r : Resolved) : Prop where
  kind : r.definition.kind ∈ kinds
  proper : r.definition.Proper e

namespace Check

lemma typeMember?_gives (hinstances : ∀ i ∈ s.instances, i.Proper e) (kinds : List Kind) {d : TypeDecl}
    (hd : d.node.Fits e.toForm) (name : String) : Gives (Resolved.Fits e kinds) (typeMember? s kinds d name) := by
  rw [typeMember?]
  split
  · next v hv =>
    split at hv
    · next hkind =>
      have hmem : v ∈ d.node.variants := List.mem_reverse.mp (List.mem_of_find?_eq_some hv)
      exact .found ⟨hkind, hd, hmem⟩
    · simp at hv
  · obtain ⟨r, hr, hknown⟩ := inherentMethod?_gives hinstances d name
    rw [hr]
    refine ⟨_, rfl, fun a ha => ?_⟩
    split at ha
    · next hkind =>
      obtain ⟨m, hm, rfl⟩ := Option.map_eq_some_iff.mp ha
      exact ⟨hkind, hknown m hm⟩
    · simp at ha

lemma ofType?_gives (hinstances : ∀ i ∈ s.instances, i.Proper e) {sc : Scope} (hsc : sc.Proper e)
    (kinds : List Kind) (first last : String) : Gives (Resolved.Fits e kinds) (ofType? s sc kinds first last) := by
  rw [ofType?]
  split
  · refine (type?_gives hsc first).bind fun r hr => ?_
    cases r with
    | none => exact .nothing
    | some d => exact typeMember?_gives hinstances kinds (hr d rfl) last
  · exact .nothing

lemma ofTrait?_gives {sc : Scope} (hsc : sc.Proper e) (kinds : List Kind) (first last : String) :
    Gives (Resolved.Fits e kinds) (ofTrait? sc kinds first last) := by
  rw [ofTrait?]
  split
  · next hkind =>
    refine (trait?_gives hsc first).bind fun r hr => ?_
    cases r with
    | none => exact .nothing
    | some d =>
      refine ⟨_, rfl, fun r hr' => ?_⟩
      obtain ⟨m, hm, rfl⟩ := Option.map_eq_some_iff.mp hr'
      exact ⟨hkind, Owner.Known.method? (o := .trait d) (hr d rfl) hm⟩
  · exact .nothing

lemma memberInScope?_gives (hinstances : ∀ i ∈ s.instances, i.Proper e) {sc : Scope} (hsc : sc.Proper e)
    (kinds : List Kind) (first last : String) :
    Gives (Resolved.Fits e kinds) (memberInScope? s sc kinds first last) := by
  rw [memberInScope?]
  refine (ofType?_gives hinstances hsc kinds first last).bind fun r hr => ?_
  cases r with
  | none => exact ofTrait?_gives hsc kinds first last
  | some r => exact .found (hr r rfl)

lemma inScope?_gives (hinstances : ∀ i ∈ s.instances, i.Proper e) {sc : Scope} (hsc : sc.Proper e)
    (kinds : List Kind) (owner : Option (Nat × Path)) (p : Path) :
    Gives (Resolved.Fits e kinds) (inScope? s sc kinds owner p) := by
  rw [inScope?.eq_def]
  split
  · refine ⟨_, rfl, fun r hr => ?_⟩
    obtain ⟨d, hd, rfl⟩ := Option.map_eq_some_iff.mp hr
    obtain ⟨k, hk, hget⟩ := List.exists_of_findSome?_eq_some hd
    obtain ⟨rfl, hproper⟩ := get?_proper hsc hget
    cases owner <;> exact ⟨hk, hproper⟩
  · exact memberInScope?_gives hinstances hsc kinds _ _
  · exact .nothing

/-! ### Modules -/

lemma run_entry (id : Nat) (s : State) : (entry id).run s = (.ok (s.module id), s) := rfl

lemma run_visit (hglanced : s.Glanced) {id : Nat} (hid : id < s.modules.length) :
    (visit id).run s = (.ok (), s) := by
  have hphase := hglanced s.modules[id] (List.getElem_mem hid)
  rw [visit, visitWith, run_bind_ok (run_entry id s), State.module_eq (List.getElem?_eq_getElem hid)]
  split
  · exact absurd ‹_› hphase.1
  · exact absurd ‹_› hphase.2
  · rfl

lemma lt_of_moduleIn? {package : Package} {p : Path} {id : Nat} (h : s.moduleIn? package p = some id) :
    id < s.modules.length := by
  have := List.find?_some h
  by_contra hge
  rw [List.getElem?_eq_none (Nat.le_of_not_lt hge)] at this
  simp at this

lemma ofExcept_safe {α : Type} {P : α → Prop} {x : Except Failure (Option α)} (h : Gives P x) :
    Safe e (fun r => ∀ a, r = some a → P a) (ofExcept x : Check (Option α)) := by
  obtain ⟨r, rfl, hP⟩ := h
  exact .pure hP

def Finds (e : Setting) (kinds : List Kind) (r : Option Resolved) : Prop := ∀ a, r = some a → a.Fits e kinds

lemma finds_none (kinds : List Kind) : Finds e kinds none := by simp [Finds]

lemma finds_some {kinds : List Kind} {r : Resolved} (h : r.Fits e kinds) : Finds e kinds (some r) := by
  intro a ha
  exact Option.some.inj ha ▸ h

lemma firstCut_safe (package : Package) (kinds : List Kind) (cuts : List (Path × Path)) :
    Safe e (Finds e kinds) (firstCut visit package kinds cuts) := by
  induction cuts with
  | nil => exact .pure (finds_none kinds)
  | cons cut cuts ih =>
    obtain ⟨front, rest⟩ := cut
    rw [firstCut]
    refine .get fun s hs => ?_
    split
    · exact ih s hs
    · next id hid =>
      split
      · split
        · next hkind =>
          have hlt : id < e.modules.length := by
            rw [← hs.fixed]
            simpa [State.fixed] using lt_of_moduleIn? hid
          exact .pure hs (finds_some ⟨hkind, hlt⟩)
        · exact ih s hs
      · have hvisit : SafeAt e (fun _ => True) (visit id) s :=
          .of_run (run_visit hs.glanced (lt_of_moduleIn? hid)) hs ((quiet e).refl s) trivial
        refine hvisit.bind fun _ s' _ hs' _ => ?_
        refine Keeps.bind (entry_safe id) (fun m hm => ?_) s' hs'
        refine .get fun s hs => ?_
        refine Keeps.bind (ofExcept_safe (inScope?_gives hs.properInstances hm.scope kinds _ rest)) (fun r hr => ?_) s hs
        cases r with
        | none => exact ih
        | some r => exact .pure hr

lemma qualified_safe (kinds : List Kind) (p : Path) : Safe e (Finds e kinds) (qualified kinds p) := by
  refine .get fun s hs => ?_
  split
  · exact firstCut_safe _ kinds (cuts p) s hs
  · exact .pure hs (finds_none kinds)

lemma ofSelf?_safe (kinds : List Kind) (p : Path) : Safe e (Finds e kinds) (ofSelf? kinds p) := by
  rw [ofSelf?]
  split
  · exact .pure (finds_none kinds)
  · refine .get fun s hs => ?_
    refine Keeps.bind selfType?_safe (fun r hr => ?_) s hs
    split
    · exact .pure (finds_none kinds)
    · next owner t =>
      have hself := hr owner t rfl
      split
      · refine .pure fun a ha => ?_
        split at ha
        · next hkind =>
          obtain rfl := Option.some.inj ha
          exact ⟨hkind, hself⟩
        · simp at ha
      · refine .pure fun a ha => ?_
        obtain ⟨m, hm, rfl⟩ := Option.map_eq_some_iff.mp ha
        split at hm
        · next hkind => exact ⟨hkind, memberOf?_known hs.properInstances hself.1 hm⟩
        · simp at hm
      · exact .pure (finds_none kinds)

lemma inFrame?_safe (kinds : List Kind) (p : Path) : Safe e (Finds e kinds) (inFrame? kinds p) := by
  rw [inFrame?]
  refine frame_safe.bind fun f hf => (entry_safe f.module).bind fun m hm => ?_
  refine .get fun s hs => ?_
  have hlocals : Gives (Resolved.Fits e kinds) (f.locals.findSomeM? fun sc => inScope? s sc kinds none p) :=
    gives_findSomeM? fun sc hsc => inScope?_gives hs.properInstances (hf sc hsc).toProper kinds none p
  have htop := inScope?_gives hs.properInstances hm.scope kinds (some (f.module, m.path)) p
  refine Keeps.bind (ofExcept_safe hlocals) (fun r hr => ?_) s hs
  cases r with
  | none => exact ofExcept_safe htop
  | some r => exact .pure hr

lemma viaImports_safe (kinds : List Kind) (p : Path) (refs : List Path) :
    Safe e (Finds e kinds) (viaImports kinds p refs) := by
  induction refs with
  | nil => exact .pure (finds_none kinds)
  | cons reference refs ih =>
    rw [viaImports]
    split
    · split
      · refine (qualified_safe kinds _).bind fun r hr => ?_
        cases r with
        | none => exact ih
        | some r => exact .pure hr
      · exact ih
    · exact ih

lemma resolve_safe (kinds : List Kind) (p : Path) : Safe e (Finds e kinds) (resolve kinds p) := by
  rw [resolve]
  refine (ofSelf?_safe kinds p).bind fun r hr => ?_
  cases r with
  | some r => exact .pure hr
  | none =>
    refine (inFrame?_safe kinds p).bind fun r hr => ?_
    cases r with
    | some r => exact .pure hr
    | none =>
      refine (qualified_safe kinds p).bind fun r hr => ?_
      cases r with
      | some r => exact .pure hr
      | none =>
        refine currentModule_safe.skip fun id => (entry_safe id).skip fun m => ?_
        exact .get fun s hs => viaImports_safe kinds p _ s hs

lemma mayUse_safe (r : Resolved) : Safe e (fun _ => True) (mayUse r) := by
  rw [mayUse]
  split
  · exact currentModule_safe.skip fun _ => .pure trivial
  · exact .pure trivial

lemma resolveOrReport_safe (info : Syntax.Info) (what : String) (kinds : List Kind) (p : Path) :
    Safe e (Finds e kinds) (resolveOrReport info what kinds p) := by
  rw [resolveOrReport]
  refine (resolve_safe kinds p).bind fun r hr => ?_
  cases r with
  | none => exact (report_safe _ _).skip fun _ => .pure hr
  | some r =>
    refine (mayUse_safe r).skip fun may => ?_
    split
    · exact .pure hr
    · exact (report_safe _ _).skip fun _ => .pure hr

/-! ### What resolving depends on -/

end Check

def Frame.plain (f : Frame) : Frame := { id := 0, module := f.module, locals := f.locals.map Scope.plain }

def State.view (s : State) : State := { s.fixed with frames := ⟨s.frames.top.head?.toList.map Frame.plain⟩ }

lemma Frame.plain_plain (f : Frame) : f.plain.plain = f.plain := by
  simp [Frame.plain, Function.comp_def, Scope.plain]

lemma State.fixed_fixed (s : State) : s.fixed.fixed = s.fixed := by
  simp [State.fixed, Function.comp_def, ModuleEntry.fixed]

lemma State.view_fixed (s : State) : s.view.fixed = s.fixed := State.fixed_fixed s

lemma State.view_view (s : State) : s.view.view = s.view := by
  have hframes : s.view.view.frames = s.view.frames := by
    simp only [State.view, State.fixed]
    cases s.frames.top <;> simp [Frame.plain_plain]
  change { s.view.fixed with frames := s.view.view.frames } = { s.fixed with frames := s.view.frames }
  rw [hframes, State.view_fixed]

lemma State.fixed_glanced (s : State) : s.fixed.Glanced := by
  intro m hm
  obtain ⟨m', -, rfl⟩ := List.mem_map.mp hm
  exact ⟨nofun, nofun⟩

lemma State.fixed_moduleIn? (s : State) (package : Package) (p : Path) :
    s.fixed.moduleIn? package p = s.moduleIn? package p := by
  simp only [State.moduleIn?, State.fixed, List.getElem?_map, Option.any_map]
  rfl

namespace Check

variable {α β : Type}

/-- What an action may look at. -/
structure Sight where
  see : State → State
  again : ∀ s, see (see s) = see s
  glanced : ∀ s, (see s).Glanced

namespace Sight

def fixed : Sight := ⟨State.fixed, State.fixed_fixed, State.fixed_glanced⟩

def names : Sight := ⟨State.view, State.view_view, State.fixed_glanced⟩

end Sight

variable {v : Sight}

def ReadsAt (v : Sight) (x : Check α) (s : State) : Prop := x.run s = ((x.run (v.see s)).1, s)

def Reads (v : Sight) (x : Check α) : Prop := ∀ s, s.Glanced → ReadsAt v x s

lemma ReadsAt.bind {x : Check α} {f : α → Check β} (hx : ReadsAt v x s) (hseen : ReadsAt v x (v.see s))
    (hf : ∀ a, ReadsAt v (f a) s) : ReadsAt v (x >>= f) s := by
  rw [ReadsAt, v.again] at hseen
  rw [ReadsAt] at hx ⊢
  match hresult : (x.run (v.see s)).1 with
  | .ok a =>
    rw [hresult] at hx hseen
    rw [run_bind_ok hx, run_bind_ok hseen]
    exact hf a
  | .error φ =>
    rw [hresult] at hx hseen
    rw [run_bind_error hx, run_bind_error hseen]

namespace Reads

lemma pure (a : α) : Reads v (Pure.pure a) := fun _ _ => rfl

lemma bind {x : Check α} {f : α → Check β} (hx : Reads v x) (hf : ∀ a, Reads v (f a)) : Reads v (x >>= f) :=
  fun s hs => (hx s hs).bind (hx _ (v.glanced s)) fun a => hf a s hs

lemma get {f : State → Check α} (hsee : ∀ s, f (v.see s) = f s) (h : ∀ s, s.Glanced → ReadsAt v (f s) s) :
    Reads v (MonadState.get >>= f) := by
  intro s hs
  rw [ReadsAt, run_get_bind, run_get_bind, hsee]
  exact h s hs

lemma ofExcept (x : Except Failure α) : Reads v (ofExcept x) := by
  cases x <;> exact fun _ _ => rfl

lemma names {x : Check α} (h : Reads .fixed x) : Reads .names x := by
  intro s hs
  have hview : x.run s.view = ((x.run s.view.fixed).1, s.view) := h s.view (State.fixed_glanced s)
  rw [ReadsAt, h s hs]
  change ((x.run s.fixed).1, s) = ((x.run s.view).1, s)
  rw [hview, State.view_fixed]

lemma entry (id : Nat) {f : ModuleEntry → Check α} (hfixed : ∀ m : ModuleEntry, f m.fixed = f m)
    (hmodules : ∀ s, (v.see s).modules = s.modules.map ModuleEntry.fixed) (h : ∀ m, Reads v (f m)) :
    Reads v (Check.entry id >>= f) := by
  intro s hs
  rw [ReadsAt, run_bind_ok (run_entry id s), run_bind_ok (run_entry id (v.see s))]
  have : f ((v.see s).module id) = f (s.module id) := by
    rw [State.module, State.module, hmodules, List.getElem?_map]
    cases s.modules[id]? with
    | none => rfl
    | some m => exact hfixed m
  rw [this]
  exact h _ s hs

lemma frame {f : Frame → Check α} (hplain : ∀ g : Frame, f g.plain = f g) (h : ∀ g, Reads .names (f g)) :
    Reads .names (Check.frame >>= f) := by
  intro s hs
  cases htop : s.frames.top with
  | nil =>
    have hrun : Check.frame.run s = (.error .noModule, s) := by
      rw [Check.frame, run_get_bind]
      simp only [Stack.peek?, htop, List.head?_nil]
      rfl
    have hview : Check.frame.run s.view = (.error .noModule, s.view) := by
      rw [Check.frame, run_get_bind]
      simp only [Stack.peek?, State.view, htop, List.head?_nil]
      rfl
    rw [ReadsAt, run_bind_error hrun, Sight.names, run_bind_error hview]
  | cons g fs =>
    have hview : s.view.frames.top = [g.plain] := by simp [State.view, htop]
    rw [ReadsAt, run_bind_ok (run_frame htop), Sight.names, run_bind_ok (run_frame hview), hplain]
    exact h g s hs

end Reads

lemma firstCut_reads (package : Package) (kinds : List Kind) (cuts : List (Path × Path)) :
    Reads .fixed (firstCut visit package kinds cuts) := by
  induction cuts with
  | nil => exact .pure _
  | cons cut cuts ih =>
    obtain ⟨front, rest⟩ := cut
    rw [firstCut]
    refine .get (fun s => by simp only [Sight.fixed, State.fixed_moduleIn?]) fun s hs => ?_
    cases hid : s.moduleIn? package front with
    | none => exact ih s hs
    | some id =>
      simp only
      split
      · split
        · rfl
        · exact ih s hs
      · have hlt := lt_of_moduleIn? hid
        have hfixed : (visit id).run s.fixed = (.ok (), s.fixed) :=
          run_visit s.fixed_glanced (by simpa [State.fixed] using hlt)
        have hvisit : ReadsAt .fixed (visit id) s := by rw [ReadsAt, run_visit hs hlt, Sight.fixed, hfixed]
        refine hvisit.bind (by rw [ReadsAt, Sight.again, Sight.fixed, hfixed]) fun _ => ?_
        refine Reads.entry id (fun m => rfl) (fun s => rfl) (fun m => ?_) s hs
        refine .get (fun s => rfl) fun s hs => ?_
        refine Reads.bind (.ofExcept _) (fun r => ?_) s hs
        cases r with
        | none => exact ih
        | some r => exact .pure _

lemma qualified_reads (kinds : List Kind) (p : Path) : Reads .fixed (qualified kinds p) := by
  refine .get (fun s => rfl) fun s hs => ?_
  split
  · exact firstCut_reads _ kinds (cuts p) s hs
  · rfl

lemma ofSelf?_reads (kinds : List Kind) (p : Path) : Reads .names (ofSelf? kinds p) := by
  have hself : ∀ {f : Option (Owner × Ty) → Check (Option Resolved)}, (∀ r, Reads .names (f r)) →
      Reads .names (selfType? >>= f) := by
    intro f hf
    rw [selfType?, bind_assoc]
    refine .frame (fun g => ?_) fun g => by simpa using hf _
    simp [Frame.plain, List.findSome?_map, Function.comp_def, Scope.plain]
  rw [ofSelf?]
  split
  · exact .pure _
  · refine .get (fun s => rfl) fun s hs => hself (fun r => ?_) s hs
    split
    · exact .pure _
    · split <;> exact .pure _

lemma findSomeM?_plain (s : State) (l : List Scope) {kinds : List Kind} {p : Path} :
    (l.map Scope.plain).findSomeM? (fun sc => inScope? s sc kinds none p) =
      l.findSomeM? fun sc => inScope? s sc kinds none p := by
  induction l with
  | nil => rfl
  | cons sc l ih =>
    rw [List.map_cons, List.findSomeM?, List.findSomeM?, ih]
    rfl

lemma inFrame?_reads (kinds : List Kind) (p : Path) : Reads .names (inFrame? kinds p) := by
  rw [inFrame?]
  refine .frame (fun g => ?_) fun g => .entry g.module (fun m => rfl) (fun s => rfl) fun m => ?_
  · simp only [Frame.plain, findSomeM?_plain]
  · refine .get (fun s => rfl) fun s hs => Reads.bind (.ofExcept _) (fun r => ?_) s hs
    cases r with
    | none => exact .ofExcept _
    | some r => exact .pure _

lemma viaImports_reads (kinds : List Kind) (p : Path) (refs : List Path) :
    Reads .fixed (viaImports kinds p refs) := by
  induction refs with
  | nil => exact .pure _
  | cons reference refs ih =>
    rw [viaImports]
    split
    · split
      · refine (qualified_reads kinds _).bind fun r => ?_
        cases r with
        | none => exact ih
        | some r => exact .pure _
      · exact ih
    · exact ih

lemma resolve_reads (kinds : List Kind) (p : Path) : Reads .names (resolve kinds p) := by
  rw [resolve]
  refine (ofSelf?_reads kinds p).bind fun r => ?_
  cases r with
  | some r => exact .pure _
  | none =>
    refine (inFrame?_reads kinds p).bind fun r => ?_
    cases r with
    | some r => exact .pure _
    | none =>
      refine (qualified_reads kinds p).names.bind fun r => ?_
      cases r with
      | some r => exact .pure _
      | none =>
        rw [currentModule, bind_assoc]
        refine .frame (fun g => by simp [Frame.plain]) fun g => ?_
        rw [pure_bind]
        refine .entry _ (fun m => rfl) (fun s => rfl) fun m => ?_
        exact .get (fun s => rfl) fun s hs => (viaImports_reads kinds p _).names s hs

/-- What a path stands for in a state. -/
def meaning (s : State) (kinds : List Kind) (p : Path) : Except Failure (Option Resolved) := ((resolve kinds p).run s).1

lemma run_resolve (hs : s.Glanced) (kinds : List Kind) (p : Path) :
    (resolve kinds p).run s = (meaning s kinds p, s) := by
  rw [meaning, resolve_reads kinds p s hs]

lemma meaning_congr {t : State} (hs : s.Glanced) (ht : t.Glanced) (h : t.view = s.view) (kinds : List Kind) (p : Path) :
    meaning t kinds p = meaning s kinds p := by
  rw [meaning, meaning, resolve_reads kinds p t ht, resolve_reads kinds p s hs]
  exact congrArg (fun u => ((resolve kinds p).run u).1) h

lemma run_mayUse (hs : s.frames.top ≠ []) (r : Resolved) : ∃ may, (mayUse r).run s = (.ok may, s) := by
  obtain ⟨f, fs, htop⟩ := List.exists_cons_of_ne_nil hs
  have hmodule : currentModule.run s = (.ok f.module, s) := run_bind_ok (run_frame htop) _
  rw [mayUse]
  split
  · exact ⟨_, run_bind_ok hmodule _⟩
  · exact ⟨_, rfl⟩

lemma resolveOrReport_bind {Q : β → Prop} {info : Syntax.Info} {what : String} {kinds : List Kind} {p : Path}
    {f : Option Resolved → Check β} (hs : Ready e s)
    (hf : ∀ r s', Ready e s' → (quiet e).Step s s' → Finds e kinds r → meaning s kinds p = .ok r →
      meaning s' kinds p = .ok r → SafeAt e Q (f r) s') :
    SafeAt e Q (resolveOrReport info what kinds p >>= f) s := by
  have hrun := run_resolve hs.glanced kinds p
  have hsafe := resolve_safe kinds p s hs
  cases hmeaning : meaning s kinds p with
  | error φ =>
    rw [hmeaning] at hrun
    have hfails : (resolveOrReport info what kinds p >>= f).run s = (.error φ, s) :=
      run_bind_error (run_bind_error hrun _) f
    exact .fails hfails (hsafe.error φ s hrun)
  | ok r =>
    rw [hmeaning] at hrun
    obtain ⟨ds, hreports⟩ : ∃ ds, (resolveOrReport info what kinds p).run s =
        (.ok r, { s with diagnostics := s.diagnostics ++ ds }) := by
      rw [resolveOrReport, run_bind_ok hrun]
      cases r with
      | none => exact ⟨_, rfl⟩
      | some r =>
        obtain ⟨may, hmay⟩ := run_mayUse hs.framed r
        dsimp only
        rw [run_bind_ok hmay]
        cases may with
        | true => exact ⟨[], by simp; rfl⟩
        | false => exact ⟨_, rfl⟩
    have hstep : (quiet e).Step s { s with diagnostics := s.diagnostics ++ ds } :=
      { Quiet.refl s with diagnostics := List.prefix_append _ _ }
    refine .after hreports hstep (hf r _ ⟨{ hs.toSane with }, hs.framed⟩ hstep ?_ hmeaning ?_)
    · exact (hsafe.ok r s hrun).2.2
    · rw [← hmeaning]
      exact meaning_congr (t := { s with diagnostics := s.diagnostics ++ ds }) hs.glanced hs.glanced rfl kinds p

end Check

end TraitCheck
