import TraitCheck.Proofs.Check.Leaks
import TraitCheck.Proofs.Check.Packages
import TraitCheck.Proofs.Path

/-! Generics of the declarations around a place. A generic that nothing binds stays where the innermost generic of its name
has its key. A key is made of the path of the declaration's owner, so that owners with one text are not told apart. -/

namespace TraitCheck

open Syntax (GenericDecl Info)

/-! ### Keys -/

namespace Generic

/-- What tells generics apart. -/
def ident (g : Generic Ty) : String × String := (g.name, g.key)

lemma ident_tieSiblings (gs : List (Generic Ty)) (rounds : Nat) : (tieSiblings gs rounds).map ident = gs.map ident := by
  cases rounds with
  | zero => rfl
  | succ n => simp [tieSiblings, ident]

end Generic

namespace Check

variable {s t : State}

lemma ident_of_run_mapM {f : GenericDecl × Generic Ty → Check (Generic Ty)}
    (hf : ∀ x s g t, (f x).run s = (.ok g, t) → g.ident = x.2.ident) {l : List (GenericDecl × Generic Ty)}
    {gs : List (Generic Ty)} (hrun : (l.mapM f).run s = (.ok gs, t)) :
    gs.map Generic.ident = (l.map Prod.snd).map Generic.ident := by
  induction l generalizing s gs with
  | nil =>
    cases hrun
    rfl
  | cons x l ih =>
    rw [List.mapM_cons] at hrun
    obtain ⟨g, s₁, hg, hrest⟩ := exists_of_run_bind hrun
    obtain ⟨gs, s₂, hgs, hpure⟩ := exists_of_run_bind hrest
    cases hpure
    simp only [List.map_cons, hf x _ _ _ hg, ih hgs]

def firstOf (s : State) (owner : Path) (d : GenericDecl) : Generic Ty :=
  (s.generics[d.info.id]?).getD ⟨d.name, (owner.child d.name).render, []⟩

lemma ident_of_run_declareGenerics {decls : List GenericDecl} {owner : Path} {scope : Scope} {gs : List (Generic Ty)}
    (hrun : (declareGenerics decls owner).run s = (.ok (scope, gs), t)) :
    gs.map Generic.ident = (decls.map (firstOf s owner)).map Generic.ident := by
  rw [declareGenerics, run_get_bind, show s.nextNode + 1 + s.reserve = s.nextNode + s.reserve + 1 by omega, declare,
    declareWith, run_get_bind] at hrun
  dsimp only at hrun
  split at hrun
  · obtain ⟨_, s₁, -, hrest⟩ := exists_of_run_bind hrun
    obtain ⟨resolved, s₂, hresolved, hrest⟩ := exists_of_run_bind hrest
    obtain ⟨_, s₃, -, hpure⟩ := exists_of_run_bind hrest
    cases hpure
    obtain ⟨u, hmap, -⟩ := exists_of_run_bracket hresolved
    rw [Generic.ident_tieSiblings, ident_of_run_mapM ?_ hmap, List.map_snd_zip (by simp)]
    · rfl
    · intro x s g t hg
      split at hg
      · obtain ⟨bounds, u, -, hpure⟩ := exists_of_run_bind hg
        cases hpure
        rfl
      · cases hg
        rfl
  · cases hrun
    rfl

end Check

/-- A generic that an owner has declared, or `Self` in a trait. Its bounds may have been filled in later. -/
inductive Generic.DeclaredBy : Path → Generic Ty → Prop
  | listed {decls : List GenericDecl} {owner : Path} {s t : State} {scope : Scope} {gs : List (Generic Ty)}
      (hrun : (Check.declareGenerics decls owner).run s = (.ok (scope, gs), t))
      (hnew : ∀ d ∈ decls, s.generics[d.info.id]? = none) {g : Generic Ty} (hg : g.ident ∈ gs.map ident) : DeclaredBy owner g
  | self {d : TraitDecl} {s t : State} {h : Generic Ty} (hrun : (Check.traitSelfGeneric d).run s = (.ok h, t))
      {g : Generic Ty} (hg : g.ident = h.ident) : DeclaredBy d.path g

lemma Generic.DeclaredBy.key_eq {owner : Path} {g : Generic Ty} (h : g.DeclaredBy owner) :
    g.key = (owner.child g.name).render := by
  cases h with
  | listed hrun hnew hg =>
    rw [Check.ident_of_run_declareGenerics hrun, List.map_map] at hg
    obtain ⟨d, hd, hident⟩ := List.mem_map.mp hg
    rw [Function.comp_apply, Check.firstOf, hnew d hd] at hident
    obtain ⟨hname, hkey⟩ := Prod.mk.inj hident
    rw [← hname]
    exact hkey.symm
  | self hrun hg =>
    obtain ⟨u, s₁, -, hpure⟩ := Check.exists_of_run_bind hrun
    cases hpure
    obtain ⟨hname, hkey⟩ := Prod.mk.inj hg
    rw [hname]
    exact hkey

/-! ### Frames -/

def Ty.generic? : Ty → Option (Generic Ty)
  | .generic g => some g
  | _ => none

def Definition.generic? : Definition → Option (Generic Ty)
  | .generic g => some g
  | _ => none

/-- The innermost generic of a name. `Self` is one in a trait only. -/
def Frame.generic? (f : Frame) (name : String) : Option (Generic Ty) :=
  if name = selfName then (f.locals.findSome? (·.self)).bind (·.2.generic?)
  else (f.locals.findSome? (·.get? .generic name)).bind (·.generic?)

/-- Whether the innermost generic of the name of `g` has its key. -/
def Frame.encloses (f : Frame) (g : Generic Ty) : Bool := (f.generic? g.name).any (·.key = g.key)

lemma Frame.encloses_congr (f : Frame) {g h : Generic Ty} (hident : g.ident = h.ident) : f.encloses g = f.encloses h := by
  obtain ⟨hname, hkey⟩ := Prod.mk.inj hident
  rw [encloses, encloses, hname, hkey]

/-- A place in a module: scopes hold what they are said to, and generics are in scopes below the top only. -/
structure State.At (s : State) (f : Frame) : Prop where
  frame : s.frames.peek? = some f
  glanced : s.Glanced
  filed : ∀ sc ∈ f.locals, ∀ x ∈ sc.defs, x.2.kind = x.1.1
  top : ∀ m ∈ s.modules, ∀ name, m.scope.get? .generic name = none

namespace Check

variable {s : State} {f : Frame}

lemma find?_generic (sc : Scope) (name : String) : sc.find? [.generic] name = sc.get? .generic name := by
  rw [Scope.find?, List.findSome?_cons]
  cases sc.get? .generic name <;> rfl

lemma inScope?_name (s : State) (sc : Scope) (name : String) : inScope? s sc [.generic] none ⟨[name]⟩ =
    .ok ((sc.get? .generic name).map fun d => ⟨⟨[name]⟩, d, none⟩) := by
  rw [← find?_generic]
  rfl

lemma inScope?_none (s : State) {sc : Scope} (hsc : ∀ name, sc.get? .generic name = none) (owner : Option (Nat × Path))
    (p : Path) : inScope? s sc [.generic] owner p = .ok none := by
  rw [inScope?.eq_def]
  split
  · rw [find?_generic, hsc]
    rfl
  · rfl
  · rfl

/-- What is reported of generics that nothing is known about. -/
def unresolvedAt (s : State) (info : Option Info) (gs : List (Generic Ty)) : List Diagnostic :=
  gs.map fun g => diagnosticAt s info (.unresolvedGeneric g.name)

section Place

variable (hs : s.At f)
include hs

lemma no_generic (id : Nat) (name : String) : (s.module id).scope.get? .generic name = none := by
  rw [State.module]
  cases hm : s.modules[id]? with
  | none => rfl
  | some m => exact hs.top m (List.mem_of_getElem? hm) name

lemma run_firstCut_generic (package : Package) (cuts : List (Path × Path)) :
    (firstCut visit package [.generic] cuts).run s = (.ok none, s) := by
  induction cuts with
  | nil => rfl
  | cons cut cuts ih =>
    obtain ⟨front, rest⟩ := cut
    rw [firstCut, run_get_bind]
    split
    · exact ih
    · next id hid =>
      split
      · exact ih
      · rw [run_bind_ok (run_visit hs.glanced (lt_of_moduleIn? hid)), run_bind_ok (run_entry id s), run_get_bind,
          inScope?_none s (no_generic hs id)]
        exact ih

lemma run_qualified_generic (p : Path) : (qualified [.generic] p).run s = (.ok none, s) := by
  rw [qualified, qualifiedWith, run_get_bind]
  split
  · exact run_firstCut_generic hs _ _
  · rfl

lemma run_viaImports_generic (p : Path) (refs : List Path) : (viaImports [.generic] p refs).run s = (.ok none, s) := by
  induction refs with
  | nil => rfl
  | cons reference refs ih =>
    rw [viaImports]
    split
    · split
      · rw [run_bind_ok (run_qualified_generic hs _)]
        exact ih
      · exact ih
    · exact ih

lemma run_frame_at : frame.run s = (.ok f, s) := by
  rw [frame, run_get_bind, hs.frame]
  rfl

lemma run_inFrame?_generic (name : String) : (inFrame? [.generic] ⟨[name]⟩).run s =
    (.ok ((f.locals.findSome? (·.get? .generic name)).map fun d => ⟨⟨[name]⟩, d, none⟩), s) := by
  have hlocals : f.locals.findSomeM? (fun sc => inScope? s sc [.generic] none ⟨[name]⟩) =
      .ok ((f.locals.findSome? (·.get? .generic name)).map fun d => ⟨⟨[name]⟩, d, none⟩) := by
    simp only [inScope?_name]
    refine List.findSomeM?_pure.trans (congrArg Except.ok ?_)
    induction f.locals with
    | nil => rfl
    | cons sc locals ih =>
      rw [List.findSome?_cons, List.findSome?_cons, ih]
      cases sc.get? .generic name <;> rfl
  rw [inFrame?, run_bind_ok (run_frame_at hs), run_bind_ok (run_entry _ _), run_get_bind, hlocals]
  cases f.locals.findSome? (·.get? .generic name) with
  | some d => rfl
  | none =>
    rw [inScope?_none s (no_generic hs f.module)]
    rfl

lemma run_resolve_generic {name : String} (hname : name ≠ selfName) : (resolve [.generic] ⟨[name]⟩).run s =
    (.ok ((f.locals.findSome? (·.get? .generic name)).map fun d => ⟨⟨[name]⟩, d, none⟩), s) := by
  have hself : (ofSelf? [.generic] ⟨[name]⟩).run s = (.ok none, s) := by
    rw [ofSelf?, if_pos (show Path.first ⟨[name]⟩ ≠ "Self" from hname)]
    rfl
  have hframe := run_inFrame?_generic hs name
  rw [resolve, run_bind_ok hself]
  dsimp only
  cases hfound : f.locals.findSome? (·.get? .generic name) with
  | some d =>
    rw [hfound] at hframe
    rw [run_bind_ok hframe]
    rfl
  | none =>
    rw [hfound] at hframe
    have hmodule : currentModule.run s = (.ok f.module, s) := run_bind_ok (run_frame_at hs) _
    rw [run_bind_ok hframe]
    dsimp only [Option.map_none]
    rw [run_bind_ok (run_qualified_generic hs _)]
    dsimp only
    rw [run_bind_ok hmodule, run_bind_ok (run_entry _ _), run_get_bind]
    exact run_viaImports_generic hs _ _

lemma run_inDeclaration (g : Generic Ty) : (inDeclaration g).run s = (.ok (f.encloses g), s) := by
  rw [inDeclaration, Frame.encloses, Frame.generic?]
  split
  · have hself : selfType?.run s = (.ok (f.locals.findSome? (·.self)), s) := run_bind_ok (run_frame_at hs) _
    rw [run_bind_ok hself]
    cases f.locals.findSome? (·.self) with
    | none => rfl
    | some self =>
      obtain ⟨o, u⟩ := self
      cases u <;> rfl
  · next hname =>
    rw [run_bind_ok (run_resolve_generic hs hname)]
    cases hfound : f.locals.findSome? (·.get? .generic g.name) with
    | none => rfl
    | some d =>
      obtain ⟨sc, hsc, hget⟩ := List.exists_of_findSome?_eq_some hfound
      obtain ⟨front, back, hdefs, -⟩ := List.lookup_eq_some_iff.mp hget
      have hkind : d.kind = .generic := hs.filed sc hsc ((.generic, g.name), d) (by simp [hdefs])
      cases d <;> cases hkind
      rfl

lemma run_keptGenerics (info : Option Info) (gs : List (Generic Ty)) : (keptGenerics info gs).run s =
    (.ok ((gs.filter f.encloses).map Generic.ident),
      { s with diagnostics := s.diagnostics ++ unresolvedAt s info (gs.filter (!f.encloses ·)) }) := by
  induction gs generalizing s with
  | nil =>
    rw [List.filter_nil, List.filter_nil, unresolvedAt, List.map_nil, List.map_nil, List.append_nil]
    rfl
  | cons g gs ih =>
    rw [keptGenerics, run_bind_ok (run_inDeclaration hs g)]
    cases hg : f.encloses g with
    | true =>
      rw [List.filter_cons_of_pos hg, List.filter_cons_of_neg (by simp [hg])]
      exact run_bind_ok (ih hs) _
    | false =>
      rw [List.filter_cons_of_neg (by simp [hg]), List.filter_cons_of_pos (by simp [hg]), unresolvedAt, List.map_cons,
        List.append_cons]
      have hreported := ih (s := { s with diagnostics := s.diagnostics ++
        [diagnosticAt s info (.unresolvedGeneric g.name)] }) { hs with }
      exact (run_bind_ok (run_report info (.unresolvedGeneric g.name) s) _).trans hreported

end Place

end Check

/-! ### Places in a program -/

lemma kind_of_topLevel? {id : Nat} {path : Path} {stmt : Syntax.Stmt} {name : String} {d : Definition}
    (h : Check.topLevel? id path stmt = some (name, d)) : d.kind ≠ .generic := by
  cases stmt with
  | var | fn | trait | type =>
    obtain ⟨-, rfl⟩ := Prod.mk.inj (Option.some.inj h)
    nofun
  | impl | ret | expr => cases h

namespace ModuleEntry

lemma get?_register_generic (m : ModuleEntry) (id : Nat) (stmt : Syntax.Stmt) (name : String) :
    (m.register id stmt).scope.get? .generic name = m.scope.get? .generic name := by
  rw [register.eq_def]
  split
  · rfl
  · split
    · next n d hd =>
      have hkey : ((Kind.generic, name) == (d.kind, n)) = false :=
        beq_eq_false_iff_ne.mpr fun h => kind_of_topLevel? hd (congrArg Prod.fst h).symm
      rw [addTop]
      split
      · rfl
      · rw [Scope.define, Scope.get?, Scope.get?, List.lookup_cons, hkey]
    · rfl

lemma get?_registerAll_generic (m : ModuleEntry) (id : Nat) (stmts : List Syntax.Stmt) (name : String) :
    (stmts.foldl (register id) m).scope.get? .generic name = m.scope.get? .generic name := by
  induction stmts generalizing m with
  | nil => rfl
  | cons stmt stmts ih => rw [List.foldl_cons, ih, get?_register_generic]

end ModuleEntry

section Program

variable {s t : State} {wf : Prop} (hs : s.Unchecked wf)
  (hglanced : ((List.range s.modules.length).forM Check.glanceModule).run s = (.ok (), t))
include hs hglanced

lemma State.Unchecked.no_generic : ∀ m ∈ t.modules, ∀ name, m.scope.get? .generic name = none := by
  intro m hm name
  obtain ⟨i, hi⟩ := List.mem_iff_getElem?.mp hm
  have hphase := (hs.untouched.surveyed hglanced).modules m hm |>.2.2
  obtain ⟨-, hforward, -⟩ :=
    (Check.Regime.Keeps.forM fun id _ => Check.glanceModule_looking id) s hs.untouched.early |>.ok _ t hglanced
  have hforward : s.Forward t := hforward
  -- the scope is the one that the statements make
  have hchart : (s.modules[i]?).map (ModuleEntry.charted i) = some (m.charted i) := by
    rw [← State.chart_modules, ← hforward.chart, State.chart_modules, hi]
    rfl
  obtain ⟨k, hk, hcharted⟩ := Option.map_eq_some_iff.mp hchart
  have hbare := hs.bare k (List.mem_of_getElem? hk)
  have hunvisited : k.phase = .unvisited := by rw [hbare]; rfl
  have hscope : (k.charted i).scope = (k.syn.statements.foldl (ModuleEntry.register i) k).scope := by
    rw [ModuleEntry.charted, if_pos hunvisited]
  have hown : (m.charted i).scope = m.scope := ModuleEntry.charted_scope (by simp [hphase])
  rw [← hown, ← hcharted, hscope, ModuleEntry.get?_registerAll_generic, hbare]
  rfl

/-- Whatever packages are checked, every state of the check in which a module is being worked on is at such a place. -/
lemma State.Unchecked.exists_at {e : Setting} (he : e.modules = t.fixed.modules) {u : State} (hu : Check.Ready e u) :
    ∃ f, u.At f := by
  obtain ⟨f, fs, hframes⟩ := List.exists_cons_of_ne_nil hu.framed
  have hlocal := hu.frames f (by simp [hframes])
  refine ⟨f, by simp [Stack.peek?, hframes], hu.glanced, fun sc hsc x hx => ((hlocal sc hsc).defs x hx).1, ?_⟩
  intro m hm name
  have hmem : m.fixed ∈ t.fixed.modules := by
    rw [← he, ← hu.fixed]
    exact List.mem_map_of_mem hm
  obtain ⟨k, hk, hfixed⟩ := List.mem_map.mp hmem
  have hscope : k.fixed.scope = m.fixed.scope := by rw [hfixed]
  change m.fixed.scope.get? .generic name = none
  rw [← hscope]
  exact hs.no_generic hglanced k hk name

end Program

/-! ### What becomes of generics -/

/-- What stands for a generic at a place: what it is bound to, or itself if it belongs to a declaration around. -/
def Frame.valueOf (f : Frame) (maps : List Bindings) (g : Generic Ty) : Ty :=
  (Bindings.lookupIn maps g.name).getD (if f.encloses g then .generic g else .unknown)

/-- The generics in a type that are neither bound nor of a declaration around. -/
def Frame.unresolved (f : Frame) (maps : List Bindings) (t : Ty) : List (Generic Ty) :=
  t.occurrences.filter fun g => (Bindings.lookupIn maps g.name).isNone && !f.encloses g

lemma Check.run_resolveGenerics {s : State} {f : Frame} (hs : s.At f) (info : Option Info) (maps : List Bindings) (t : Ty) :
    (resolveGenerics info maps t).run s = (.ok (t.replace (f.valueOf maps) []),
      { s with diagnostics := s.diagnostics ++ unresolvedAt s info (f.unresolved maps t) }) := by
  rw [resolveGenerics, run_bind_ok (run_keptGenerics hs info _), List.filter_filter, List.filter_filter]
  have hreplace : t.replace (fun g => (Bindings.lookupIn maps g.name).getD (if (g.name, g.key) ∈
      (t.occurrences.filter fun g => f.encloses g && (Bindings.lookupIn maps g.name).isNone).map Generic.ident then
        .generic g else .unknown)) [] = t.replace (f.valueOf maps) [] := by
    refine Ty.replace_congr t fun g hg => ?_
    rw [Frame.valueOf]
    cases hget : Bindings.lookupIn maps g.name with
    | some u => rfl
    | none =>
      have hkept : (g.name, g.key) ∈ (t.occurrences.filter fun g =>
          f.encloses g && (Bindings.lookupIn maps g.name).isNone).map Generic.ident ↔ f.encloses g = true := by
        constructor
        · intro hmem
          obtain ⟨h, hh, hident⟩ := List.mem_map.mp hmem
          rw [← f.encloses_congr hident]
          exact (Bool.and_eq_true_iff.mp (List.mem_filter.mp hh).2).1
        · intro hencloses
          exact List.mem_map.mpr ⟨g, List.mem_filter.mpr ⟨hg, by simp [hencloses, hget]⟩, rfl⟩
      simp only [hkept, Option.getD_none]
  have hunresolved : f.unresolved maps t =
      t.occurrences.filter fun g => !f.encloses g && (Bindings.lookupIn maps g.name).isNone :=
    List.filter_congr fun g _ => Bool.and_comm _ _
  rw [hunresolved, ← hreplace]
  rfl

/-- The generic was made from the declaration with a number. -/
def State.Declares (s : State) (id : Nat) (g : Generic Ty) : Prop := ∃ d, s.generics[id]? = some d ∧ d.ident = g.ident

/-- No two declarations of generics have one name and one key. -/
def State.KeysApart (s : State) : Prop :=
  ∀ (i j : Nat) g h, s.generics[i]? = some g → s.generics[j]? = some h → g.ident = h.ident → i = j

/-- A generic that is not bound stays just where the innermost generic of its name was declared by an owner with the same
text; any other one becomes unknown and is reported. Where keys are apart, that is where it comes from that very
declaration. -/
theorem unbound_stays_iff_owner_around {s : State} {f : Frame} (hs : s.At f) (info : Option Info) (maps : List Bindings)
    (t : Ty) :
    (Check.resolveGenerics info maps t).run s = (.ok (t.replace (f.valueOf maps) []),
      { s with diagnostics := s.diagnostics ++ Check.unresolvedAt s info (f.unresolved maps t) }) ∧
    (∀ g, f.generic? g.name = none → f.encloses g = false) ∧
    ∀ g h, f.generic? g.name = some h → h.name = g.name →
      (∀ owner owner', g.DeclaredBy owner → h.DeclaredBy owner' → owner ≠ .empty → owner' ≠ .empty →
        (f.encloses g = true ↔ owner'.render = owner.render)) ∧
      (s.KeysApart → ∀ i j, s.Declares i g → s.Declares j h → (f.encloses g = true ↔ j = i)) := by
  refine ⟨Check.run_resolveGenerics hs info maps t, fun g hg => by rw [Frame.encloses, hg]; rfl, fun g h hh hname => ?_⟩
  have hencloses : f.encloses g = true ↔ h.key = g.key := by
    rw [Frame.encloses, hh]
    exact decide_eq_true_iff
  refine ⟨fun owner owner' hg hh howner howner' => ?_, ?_⟩
  · rw [hencloses, hg.key_eq, hh.key_eq, hname]
    exact Path.render_child_inj howner' howner g.name
  · rintro hapart i j ⟨d, hd, hdg⟩ ⟨k, hk, hkh⟩
    rw [hencloses]
    constructor
    · intro hkey
      refine hapart j i k d hk hd (hkh.trans ?_)
      rw [hdg, Generic.ident, Generic.ident, hname, hkey]
    · rintro rfl
      obtain rfl : k = d := Option.some.inj (hk.symm.trans hd)
      exact congrArg Prod.snd (hkh.symm.trans hdg)

namespace Bags

/-! An impl of a module `app::main`, and a function `first` of it, have generics of one name. -/

def own : Generic Ty := ⟨"T", "app::main::impl::T", []⟩

def other : Generic Ty := ⟨"T", "app::main::first::T", []⟩

def frame : Frame := { id := 0, module := 0, locals := [.ofGenerics [own]] }

/-- In a method of the impl. -/
def place : State := { frames := ⟨[frame]⟩, generics := ((∅ : Std.TreeMap Nat (Generic Ty)).insert 1 own).insert 2 other }

lemma place_at : place.At frame := by
  have hmodules : place.modules = [] := rfl
  exact ⟨rfl, by simp [State.Glanced, hmodules], by decide, by simp [hmodules]⟩

lemma own_declared : own.DeclaredBy ⟨["app", "main", "impl"]⟩ := by
  obtain ⟨t, hrun⟩ : ∃ t, (Check.declareGenerics [Standard.gen "T"] ⟨["app", "main", "impl"]⟩).run {} =
    (.ok (.ofGenerics [own], [own]), t) := ⟨_, rfl⟩
  exact .listed hrun (by simp) (List.mem_singleton_self _)

lemma other_declared : other.DeclaredBy ⟨["app", "main", "first"]⟩ := by
  obtain ⟨t, hrun⟩ : ∃ t, (Check.declareGenerics [Standard.gen "T"] ⟨["app", "main", "first"]⟩).run {} =
    (.ok (.ofGenerics [other], [other]), t) := ⟨_, rfl⟩
  exact .listed hrun (by simp) (List.mem_singleton_self _)

lemma place_keysApart : place.KeysApart := by
  have hplace (i : Nat) (g : Generic Ty) (hg : place.generics[i]? = some g) : i = 2 ∧ g = other ∨ i = 1 ∧ g = own := by
    simp only [place, Std.TreeMap.getElem?_insert, Nat.compare_eq_eq] at hg
    split at hg
    · next hi => exact .inl ⟨hi.symm, (Option.some.inj hg).symm⟩
    · split at hg
      · next hi => exact .inr ⟨hi.symm, (Option.some.inj hg).symm⟩
      · simp at hg
  intro i j g h hg hh hident
  obtain ⟨rfl, rfl⟩ | ⟨rfl, rfl⟩ := hplace i g hg <;> obtain ⟨rfl, rfl⟩ | ⟨rfl, rfl⟩ := hplace j h hh
  · rfl
  · exact absurd hident (by decide)
  · exact absurd hident (by decide)
  · rfl

/-- The type `fn(T): T` with one generic from the impl and one from the function. -/
theorem first_left_out : place.At frame ∧ place.KeysApart ∧ place.Declares 1 own ∧ place.Declares 2 other ∧
    own.DeclaredBy ⟨["app", "main", "impl"]⟩ ∧ other.DeclaredBy ⟨["app", "main", "first"]⟩ ∧
    (Check.resolveGenerics none [] (.fn [] [.generic own] (.generic other))).run place =
      (.ok (.fn [] [.generic own] .unknown), { place with diagnostics := Check.unresolvedAt place none [other] }) ∧
    frame.encloses own = true ∧ frame.encloses other = false := by
  have hown : place.Declares 1 own := ⟨own, rfl, rfl⟩
  have hother : place.Declares 2 other := ⟨other, rfl, rfl⟩
  obtain ⟨hrun, -, hkept⟩ :=
    unbound_stays_iff_owner_around place_at none [] (.fn [] [.generic own] (.generic other))
  refine ⟨place_at, place_keysApart, hown, hother, own_declared, other_declared, hrun, ?_, ?_⟩
  · exact ((hkept own own rfl rfl).2 place_keysApart 1 1 hown hown).mpr rfl
  · have howners := (hkept other own rfl rfl).1 _ _ other_declared own_declared (by decide) (by decide)
    rw [Bool.eq_false_iff, Ne, howners]
    decide

/-- `impl<T> Box<T>` has `make(): T`, and in `impl<T> Bag<T>` the method `take` says `r = Box::make()`. -/
def statements : List Syntax.Stmt :=
  let take : Syntax.Fn := ⟨{}, false, "take", [], [Standard.receiver], none,
    some ⟨{}, [.var ⟨{}, false, "r", none, .call {} (Standard.ident "Box::make") []⟩]⟩⟩
  [Standard.type "Box" [] [Standard.gen "T"], Standard.type "Bag" [] [Standard.gen "T"],
    Standard.impl [Standard.gen "T"] none (Standard.ref "Box" [Standard.elemRef])
      [Standard.declared "make" [] (some Standard.elemRef)],
    Standard.impl [Standard.gen "T"] none (Standard.ref "Bag" [Standard.elemRef]) [take]]

def state : State := .ofPackages Standard.prelude 64 [("app", [("app::main", Standard.module statements)])]

/-- The numbers of the generics that the two impls declare, and of the value of `r`. -/
def numbers? (t : State) : Option (Nat × Nat × Nat) :=
  match (t.modules.getLast?.map fun m => m.syn.statements : Option (List Syntax.Stmt)) with
  | some [_, _, .impl box, .impl bag] =>
    match box.generics, bag.generics, bag.methods.map fun m => (m.body.map fun b => b.statements : Option (List Syntax.Stmt)) with
    | [d], [d'], [some [.var v]] => some (d.info.id, d'.info.id, v.value.info.id)
    | _, _, _ => none
  | _ => none

/-- After a check that reports nothing: whether the declarations are two, the generic that the value of `r` has as its type,
and those that were made from the declarations. -/
def outcome? (s : State) : Option (Bool × List (Option (String × String))) :=
  match s.check with
  | (none, t) =>
    match t.diagnostics, numbers? t with
    | [], some (i, j, k) => some (i ≠ j, [((t.slots[k]?).bind Ty.generic?).map Generic.ident,
        (t.generics[i]?).map Generic.ident, (t.generics[j]?).map Generic.ident])
    | _, _ => none
  | (some _, _) => none

lemma exists_of_outcome? {s : State} {x : String × String} (h : outcome? s = some (true, [some x, some x, some x])) :
    ∃ t, s.check = (none, t) ∧ t.diagnostics = [] ∧ ∃ i j k, numbers? t = some (i, j, k) ∧ i ≠ j ∧
      ∃ g, t.slots[k]? = some (.generic g) ∧ t.Declares i g ∧ t.Declares j g := by
  unfold outcome? at h
  split at h
  · next t hcheck =>
    split at h
    · next i j k hdiagnostics hnumbers =>
      obtain ⟨htwo, hidents⟩ := Prod.mk.inj (Option.some.inj h)
      simp only [List.cons.injEq, and_true, Option.map_eq_some_iff, Option.bind_eq_some_iff] at hidents
      obtain ⟨⟨g, ⟨u, hu, hg⟩, hident⟩, ⟨a, ha, hident'⟩, b, hb, hident''⟩ := hidents
      cases u <;> cases hg
      exact ⟨t, hcheck, hdiagnostics, i, j, k, hnumbers, of_decide_eq_true htwo, g, hu, ⟨a, ha, hident'.trans hident.symm⟩,
        b, hb, hident''.trans hident.symm⟩
    · cases h
  · cases h

lemma outcome_state : outcome? state = some (true, [some own.ident, some own.ident, some own.ident]) := by
  decide +kernel

/-- In `take` the generic of the impl of `Box` is taken for the one of the impl of `Bag`. -/
theorem take_keeps_generic_of_box : ∃ t, state.check = (none, t) ∧ t.diagnostics = [] ∧
    ∃ i j k, numbers? t = some (i, j, k) ∧ i ≠ j ∧ ∃ g, t.slots[k]? = some (.generic g) ∧ t.Declares i g ∧ t.Declares j g :=
  exists_of_outcome? outcome_state

end Bags

end TraitCheck
