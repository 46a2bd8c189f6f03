import Mathlib.Data.List.Perm.Basic
import TraitCheck.Proofs.Check.Cycles
import TraitCheck.Proofs.Path

/-! What types and traits are known by. A definition is registered under its kind and its name, but its identifier is
the path of its module and its name only: two of them have one identifier just if they are a type and a trait of one
name in one module. -/

namespace TraitCheck

open Syntax (Form Stmt)

/-! ### Modules of packages -/

namespace State

structure Apart (s : State) : Prop where
  paths : (s.modules.map (·.path)).Nodup
  inside : ∀ p ∈ s.modules.map (·.path), p.first ∈ s.packages.map (·.name)

variable {s : State}

lemma map_path_addModules (name : String) (ms : List (String × Syntax.Module)) (s : State) :
    (ms.foldl (addModule name) s).modules.map (·.path) = s.modules.map (·.path) ++ ms.map (Path.parse ·.1) := by
  induction ms generalizing s with
  | nil => simp
  | cons m ms ih => simp [ih, addModule]

lemma Apart.addPackage (hs : s.Apart) {name : String} (hname : name ∉ s.packages.map (·.name))
    {ms : List (String × Syntax.Module)} (hms : (ms.map (·.1)).Nodup)
    (hinside : ∀ m ∈ ms, (Path.parse m.1).first = name) : (s.addPackage name ms).Apart := by
  let sorted := sortBy (fun a b => a.1 ≤ b.1) ms
  have hmodules : (s.addPackage name ms).modules.map (·.path) = s.modules.map (·.path) ++ sorted.map (Path.parse ·.1) :=
    map_path_addModules name sorted s
  have hpackages : (s.addPackage name ms).packages.map (·.name) = s.packages.map (·.name) ++ [name] := by
    simp [State.addPackage]
  have hfirst : ∀ p ∈ sorted.map (Path.parse ·.1), p.first = name := by
    intro p hp
    obtain ⟨m, hm, rfl⟩ := List.mem_map.mp hp
    exact hinside m ((mem_sortBy _).mp hm)
  constructor
  · rw [hmodules, List.nodup_append']
    refine ⟨hs.paths, ?_, fun p hp hp' => ?_⟩
    · have hnew : (ms.map (Path.parse ·.1)).Nodup := by
        rw [← Function.comp_def Path.parse, ← List.map_map]
        exact hms.map Path.parse_injective
      exact ((sortBy_perm _ ms).map _).nodup_iff.mpr hnew
    · apply hname
      rw [← hfirst p hp']
      exact hs.inside p hp
  · intro p hp
    rw [hmodules, List.mem_append] at hp
    rw [hpackages, List.mem_append]
    rcases hp with hp | hp
    · exact .inl (hs.inside p hp)
    · exact .inr (by simp [hfirst p hp])

lemma Apart.run_addPackage (hs : s.Apart) (hbuilt : s.built = false) (name : String)
    (hname : name ∉ s.packages.map (·.name)) (ms : List (String × Syntax.Module)) (hms : (ms.map (·.1)).Nodup) :
    ((Check.addPackage name ms).run s).2.Apart ∧
      ∀ n ∈ ((Check.addPackage name ms).run s).2.packages.map (·.name), n = name ∨ n ∈ s.packages.map (·.name) := by
  rcases State.run_addPackage name ms hbuilt with hsame | ⟨hrun, hinside⟩
  · rw [hsame]
    exact ⟨hs, fun n hn => .inr hn⟩
  · rw [hrun]
    refine ⟨hs.addPackage hname hms fun m hm => (hinside m hm).1, fun n hn => ?_⟩
    simpa [State.addPackage, or_comm] using hn

lemma apart_ofPackages (prelude : List Path) (reserve : Nat) {packages : List (String × List (String × Syntax.Module))}
    (hnames : (Standard.packageName :: packages.map (·.1)).Nodup)
    (hpaths : ∀ p ∈ packages, (p.2.map (·.1)).Nodup) : (ofPackages prelude reserve packages).Apart := by
  have hempty : { prelude := prelude : State }.Apart := ⟨.nil, by simp⟩
  obtain ⟨hstart, hstd⟩ := hempty.run_addPackage rfl Standard.packageName (by simp) Standard.modules (by decide)
  have hunchecked : (initial prelude).Unchecked False := .initial prelude
  obtain ⟨hnotStd, hnodup⟩ := List.nodup_cons.mp hnames
  have hnew : ∀ n ∈ packages.map (·.1), n ∉ (initial prelude).packages.map (·.name) := by
    intro n hn hmem
    obtain rfl : n = Standard.packageName := by simpa using hstd n hmem
    exact hnotStd hn
  -- along the packages: no name of those to come is taken
  have hall : (packages.foldl (fun s p => ((Check.addPackage p.1 p.2).run s).2) (initial prelude)).Apart := by
    clear hnames hnotStd hstd
    change (initial prelude).Apart at hstart
    generalize initial prelude = s at hstart hunchecked hnew
    induction packages generalizing s with
    | nil => exact hstart
    | cons p packages ih =>
      obtain ⟨hp, hnodup⟩ := List.nodup_cons.mp hnodup
      have hbuilt : s.built = false := congrArg State.built hunchecked.rest
      obtain ⟨hapart, hnames⟩ := hstart.run_addPackage hbuilt p.1 (hnew p.1 (by simp)) p.2 (hpaths p (by simp))
      apply ih (fun q hq => hpaths q (List.mem_cons_of_mem _ hq)) hnodup _ hapart
      · exact hunchecked.addPackage p.1 False.elim
      · intro n hn hmem
        rcases hnames n hmem with rfl | hmem
        · exact hp hn
        · exact hnew n (List.mem_cons_of_mem _ hn) hmem
  exact ⟨hall.paths, hall.inside⟩

end State

/-! ### What is registered -/

namespace Check

def definition? (id : Nat) (path : Path) (kind : Kind) (name : String) (stmt : Stmt) : Option Definition :=
  (topLevel? id path stmt).bind fun x => if x.2.kind = kind ∧ x.1 = name then some x.2 else none

end Check

namespace ModuleEntry

lemma get?_addTop (m : ModuleEntry) (node : Nat) (name : String) (d : Definition) (kind : Kind) (name' : String) :
    (m.addTop node name d).scope.get? kind name' =
      (m.scope.get? kind name').or (if d.kind = kind ∧ name = name' then some d else none) := by
  rw [addTop]
  by_cases hkey : d.kind = kind ∧ name = name'
  · obtain ⟨rfl, rfl⟩ := hkey
    cases hget : m.scope.get? d.kind name with
    | none => simp [Scope.get?, Scope.define]
    | some e => simp [hget]
  · rw [if_neg hkey, Option.or_none]
    split
    · rfl
    · have hne : ((kind, name') == (d.kind, name)) = false := by
        rw [beq_eq_false_iff_ne, ne_eq, Prod.mk.injEq]
        exact fun h => hkey ⟨h.1.symm, h.2.symm⟩
      simp [Scope.get?, Scope.define, List.lookup_cons, hne]

lemma get?_register (m : ModuleEntry) (id : Nat) (stmt : Stmt) (kind : Kind) (name : String) :
    (m.register id stmt).scope.get? kind name =
      (m.scope.get? kind name).or (Check.definition? id m.path kind name stmt) := by
  rw [register.eq_def, Check.definition?]
  split
  · simp [Check.topLevel?]
  · split
    · next htop => rw [get?_addTop, htop, Option.bind_some]
    · next htop => rw [htop, Option.bind_none, Option.or_none]

lemma get?_registerAll (m : ModuleEntry) (id : Nat) (stmts : List Stmt) (kind : Kind) (name : String) :
    (stmts.foldl (register id) m).scope.get? kind name =
      (m.scope.get? kind name).or (stmts.findSome? (Check.definition? id m.path kind name)) := by
  induction stmts generalizing m with
  | nil => simp
  | cons stmt stmts ih =>
    rw [List.foldl_cons, ih, get?_register, (register_same id m stmt).2.2, List.findSome?_cons, Option.or_assoc]
    cases Check.definition? id m.path kind name stmt <;> rfl

end ModuleEntry

namespace State

structure Registered (t : State) : Prop where
  visited : ∀ id, t.Visited id
  scope : ∀ id kind name, (t.module id).scope.get? kind name =
    (t.module id).syn.statements.findSome? (Check.definition? id (t.module id).path kind name)

variable {s t : State} {wf : Prop}

lemma module_mapIdx {f : Nat → ModuleEntry → ModuleEntry} (h : t.modules = s.modules.mapIdx f) {id : Nat}
    (hid : id < s.modules.length) : t.module id = f id (s.module id) := by
  rw [module, h, List.getElem?_mapIdx, getElem?_module hid]
  rfl

lemma Unchecked.registered (hs : s.Unchecked wf) (p : Check.Plan s.chart) (ht : t.modules = s.modules.mapIdx p.finished) :
    t.Registered := by
  constructor
  · intro id m hm
    rw [ht, List.getElem?_mapIdx] at hm
    obtain ⟨k, -, rfl⟩ := Option.map_eq_some_iff.mp hm
    simp [Check.Plan.finished, ModuleEntry.charted]
  · intro id kind name
    by_cases hid : id < s.modules.length
    · rw [module_mapIdx ht hid]
      have hbare := hs.bare _ (List.mem_of_getElem? (getElem?_module hid))
      generalize s.module id = m at hbare
      have hphase : m.phase = .unvisited := by rw [hbare]; rfl
      have hscope : m.scope.get? kind name = none := by rw [hbare]; rfl
      have hsyn : (p.finished id m).syn = m.syn := m.charted_syn id
      have hpath : (p.finished id m).path = m.path := m.charted_path id
      have hdefs : (p.finished id m).scope = (m.syn.statements.foldl (ModuleEntry.register id) m).scope := by
        simp [Check.Plan.finished, ModuleEntry.charted, hphase]
      rw [hdefs, hsyn, hpath, ModuleEntry.get?_registerAll, hscope, Option.none_or]
    · have hlength : t.modules.length = s.modules.length := by rw [ht, List.length_mapIdx]
      have hnone : t.modules[id]? = none := List.getElem?_eq_none (by omega)
      rw [module, hnone]
      rfl

lemma exists_glanced (prelude : List Path) (reserve : Nat) (packages : List (String × List (String × Syntax.Module))) :
    ∃ (p : Check.Plan (ofPackages prelude reserve packages).chart) (t : State),
      ((List.range (ofPackages prelude reserve packages).modules.length).forM Check.glanceModule).run
        (ofPackages prelude reserve packages) = (.ok (), t) ∧
      t.modules = (ofPackages prelude reserve packages).modules.mapIdx p.finished ∧
      t.chart = (ofPackages prelude reserve packages).chart ∧ t.Registered := by
  have hunchecked : (ofPackages prelude reserve packages).Unchecked False := unchecked_ofPackages _ _ False.elim
  have h₀ := hunchecked.untouched
  have hglances : (ofPackages prelude reserve packages).glances.top = [] := by rw [h₀.rest]; rfl
  obtain ⟨p⟩ := Check.nonempty_plan (Check.State.Early.charted h₀.early)
  obtain ⟨order, t, hrun, hprogress, horder⟩ := Check.Plan.exists_surveyed h₀ p (.refl _)
  have hmodules := hprogress.modules_eq hglances horder
  exact ⟨p, t, hrun, hmodules, hprogress.seen.chart, hunchecked.registered p hmodules⟩

lemma map_path_of_chart (h : t.chart = s.chart) : t.modules.map (·.path) = s.modules.map (·.path) := by
  have hpaths : ∀ s : State, s.chart.modules.map (·.path) = s.modules.map (·.path) := by
    intro s
    apply List.ext_getElem?
    intro id
    rw [List.getElem?_map, List.getElem?_map, chart_modules]
    cases s.modules[id]? with
    | none => rfl
    | some m => exact congrArg some (m.charted_path id)
  rw [← hpaths, h, hpaths]

end State

/-! ### Identifiers -/

/-- What a type or a trait is known by. -/
def Definition.identifier? : Definition → Option Path
  | .type d => some d.path
  | .trait d => some d.path
  | _ => none

namespace Check

variable {id : Nat} {path : Path} {kind : Kind} {name : String} {stmt : Stmt} {d : Definition}

lemma definition?_eq_some (h : definition? id path kind name stmt = some d) :
    topLevel? id path stmt = some (name, d) ∧ d.kind = kind := by
  obtain ⟨⟨name', d'⟩, htop, hd⟩ := Option.bind_eq_some_iff.mp h
  split at hd
  · next hkey =>
    obtain rfl := Option.some.inj hd
    exact ⟨hkey.2 ▸ htop, hkey.1⟩
  · cases hd

lemma stmt_of_type {decl : TypeDecl} (h : topLevel? id path stmt = some (name, .type decl)) :
    stmt = .type decl.node ∧ decl.node.name = name ∧ decl.path = path.child name := by
  cases stmt <;> simp [topLevel?] at h
  obtain ⟨rfl, rfl⟩ := h
  exact ⟨rfl, rfl, rfl⟩

lemma stmt_of_trait {decl : TraitDecl} (h : topLevel? id path stmt = some (name, .trait decl)) :
    stmt = .trait decl.node ∧ decl.node.name = name ∧ decl.path = path.child name := by
  cases stmt <;> simp [topLevel?] at h
  obtain ⟨rfl, rfl⟩ := h
  exact ⟨rfl, rfl, rfl⟩

end Check

/-- A module declares a type and a trait of one name. -/
def Syntax.Module.Doubles (m : Syntax.Module) (name : String) : Prop :=
  ∃ a b, Stmt.type a ∈ m.statements ∧ Stmt.trait b ∈ m.statements ∧ a.name = name ∧ b.name = name

namespace State

/-- A type or a trait stands under a name at the top of a module. -/
structure Names (t : State) (id : Nat) (name : String) (d : Definition) : Prop where
  found : (t.module id).scope.get? d.kind name = some d
  identified : d.identifier?.isSome

/-- No two types or traits have one identifier. -/
def Unambiguous (t : State) : Prop :=
  ∀ i j name name' d e, t.Names i name d → t.Names j name' e → d.identifier? = e.identifier? → d = e

variable {t : State} {i j : Nat} {name name' : String} {d e : Definition}

lemma Registered.stmt (ht : t.Registered) (h : t.Names i name d) :
    ∃ stmt ∈ (t.module i).syn.statements, Check.topLevel? i (t.module i).path stmt = some (name, d) := by
  have hfound := h.found
  rw [ht.scope] at hfound
  obtain ⟨stmt, hstmt, hd⟩ := List.exists_of_findSome?_eq_some hfound
  exact ⟨stmt, hstmt, (Check.definition?_eq_some hd).1⟩

lemma Registered.identifier (ht : t.Registered) (h : t.Names i name d) :
    d.identifier? = some ((t.module i).path.child name) := by
  obtain ⟨stmt, -, htop⟩ := ht.stmt h
  have hsome := h.identified
  cases d <;> simp [Definition.identifier?] at hsome
  case type decl => exact congrArg some (Check.stmt_of_type htop).2.2
  case trait decl => exact congrArg some (Check.stmt_of_trait htop).2.2

lemma Registered.lt (ht : t.Registered) (h : t.Names i name d) : i < t.modules.length := by
  obtain ⟨stmt, hstmt, -⟩ := ht.stmt h
  by_contra hi
  rw [module, List.getElem?_eq_none (by omega)] at hstmt
  exact absurd hstmt List.not_mem_nil

lemma Registered.identifier_iff (ht : t.Registered) (hpaths : (t.modules.map (·.path)).Nodup) (hd : t.Names i name d)
    (he : t.Names j name' e) : d.identifier? = e.identifier? ↔ i = j ∧ name = name' := by
  rw [ht.identifier hd, ht.identifier he, Option.some_inj, Path.child_inj]
  refine and_congr_left fun _ => ⟨fun hpath => ?_, fun h => h ▸ rfl⟩
  have hget : ∀ {k}, k < t.modules.length → (t.modules.map (·.path))[k]? = some (t.module k).path := by
    intro k hk
    rw [List.getElem?_map, getElem?_module hk]
    rfl
  apply (List.getElem?_inj (by simpa using ht.lt hd) hpaths).mp
  rw [hget (ht.lt hd), hget (ht.lt he), hpath]

lemma Registered.exists_names (ht : t.Registered) {stmt : Stmt} (hstmt : stmt ∈ (t.module i).syn.statements)
    (htop : Check.topLevel? i (t.module i).path stmt = some (name, d)) (hsome : d.identifier?.isSome) :
    ∃ e, t.Names i name e ∧ e.kind = d.kind := by
  have hget : ((t.module i).scope.get? d.kind name).isSome := by
    rw [ht.scope, List.findSome?_isSome_iff]
    exact ⟨stmt, hstmt, by simp [Check.definition?, htop]⟩
  obtain ⟨e, he⟩ := Option.isSome_iff_exists.mp hget
  have hkind : e.kind = d.kind := by
    rw [ht.scope] at he
    obtain ⟨_, -, he⟩ := List.exists_of_findSome?_eq_some he
    exact (Check.definition?_eq_some he).2
  refine ⟨e, ⟨hkind ▸ he, ?_⟩, hkind⟩
  cases d <;> simp [Definition.identifier?] at hsome <;>
    cases e <;> simp [Definition.kind] at hkind <;> simp [Definition.identifier?]

lemma Names.eq_of_kind (hd : t.Names i name d) (he : t.Names i name e) (hkind : d.kind = e.kind) : d = e := by
  have hfound := hd.found
  rw [hkind, he.found] at hfound
  exact (Option.some.inj hfound).symm

lemma Registered.doubles (ht : t.Registered) (hd : t.Names i name d) (he : t.Names i name e) (hkind : d.kind ≠ e.kind) :
    (t.module i).syn.Doubles name := by
  obtain ⟨stmt, hstmt, htop⟩ := ht.stmt hd
  obtain ⟨stmt', hstmt', htop'⟩ := ht.stmt he
  have hsome := hd.identified
  have hsome' := he.identified
  cases d <;> simp [Definition.identifier?] at hsome <;> cases e <;> simp [Definition.identifier?] at hsome'
  case type.type => exact absurd rfl hkind
  case trait.trait => exact absurd rfl hkind
  case type.trait =>
    obtain ⟨rfl, hname, -⟩ := Check.stmt_of_type htop
    obtain ⟨rfl, hname', -⟩ := Check.stmt_of_trait htop'
    exact ⟨_, _, hstmt, hstmt', hname, hname'⟩
  case trait.type =>
    obtain ⟨rfl, hname, -⟩ := Check.stmt_of_trait htop
    obtain ⟨rfl, hname', -⟩ := Check.stmt_of_type htop'
    exact ⟨_, _, hstmt', hstmt, hname', hname⟩

lemma Registered.unambiguous_iff (ht : t.Registered) (hpaths : (t.modules.map (·.path)).Nodup) :
    t.Unambiguous ↔ ∀ m ∈ t.modules, ∀ name, ¬m.syn.Doubles name := by
  constructor
  · rintro hunique m hm _ ⟨a, b, ha, hb, rfl, hname⟩
    obtain ⟨i, hi⟩ := List.mem_iff_getElem?.mp hm
    obtain rfl : t.module i = m := by rw [module, hi]; rfl
    obtain ⟨d, hd, hkind⟩ := ht.exists_names ha rfl rfl
    obtain ⟨e, he, hkind'⟩ := ht.exists_names hb rfl rfl
    have hsame : d.identifier? = e.identifier? := (ht.identifier_iff hpaths hd he).mpr ⟨rfl, hname.symm⟩
    obtain rfl := hunique _ _ _ _ _ _ hd he hsame
    exact absurd (hkind.symm.trans hkind') (by simp [Definition.kind])
  · intro hapart i j name name' d e hd he hsame
    obtain ⟨rfl, rfl⟩ := (ht.identifier_iff hpaths hd he).mp hsame
    by_contra hne
    have hkind : d.kind ≠ e.kind := fun hkind => hne (hd.eq_of_kind he hkind)
    exact hapart _ (List.mem_of_getElem? (getElem?_module (ht.lt hd))) name (ht.doubles hd he hkind)

/-- Once all modules of some packages have been glanced, types and traits have one identifier just if they have one name in
one module. So identifiers are without ambiguity just if no module declares a type and a trait of one name. -/
theorem identifiers_of_glance (prelude : List Path) (reserve : Nat)
    (packages : List (String × List (String × Syntax.Module)))
    (hnames : (Standard.packageName :: packages.map (·.1)).Nodup) (hpaths : ∀ p ∈ packages, (p.2.map (·.1)).Nodup) :
    ∃ t, ((List.range (ofPackages prelude reserve packages).modules.length).forM Check.glanceModule).run
        (ofPackages prelude reserve packages) = (.ok (), t) ∧
      (∀ i j name name' d e, t.Names i name d → t.Names j name' e →
        (d.identifier? = e.identifier? ↔ i = j ∧ name = name') ∧ (i = j → name = name' → d.kind = e.kind → d = e)) ∧
      (t.Unambiguous ↔ ∀ m ∈ t.modules, ∀ name, ¬m.syn.Doubles name) := by
  obtain ⟨p, t, hrun, -, hchart, ht⟩ := exists_glanced prelude reserve packages
  have hnodup : (t.modules.map (·.path)).Nodup := by
    rw [map_path_of_chart hchart]
    exact (apart_ofPackages prelude reserve hnames hpaths).paths
  refine ⟨t, hrun, fun i j name name' d e hd he => ⟨ht.identifier_iff hnodup hd he, ?_⟩, ht.unambiguous_iff hnodup⟩
  rintro rfl rfl hkind
  exact hd.eq_of_kind he hkind

end State

namespace Homonyms

open Syntax (Module)

def boxType : Stmt := .type ⟨{}, true, "Box", [], []⟩

def boxTrait : Stmt :=
  .trait ⟨{}, true, "Box", [],
    [⟨{}, false, "size", [], [⟨{}, Syntax.receiverName, none⟩], some (.named {} ["Int"] []), none⟩]⟩

/-- Asks a box of the type for its size. -/
def weigh : Stmt :=
  .fn ⟨{}, true, "weigh", [], [⟨{}, "box", some (.named {} ["Box"] [])⟩], some (.named {} ["Int"] []),
    some ⟨{}, [.expr {} (.method {} (.ident ⟨{}, ["box"], []⟩) "size" [] [])]⟩⟩

/-- The type and the trait in one module. -/
def together : List (String × List (String × Module)) :=
  [("app", [("app::main", ⟨{}, [], [boxType, boxTrait, weigh]⟩)])]

/-- The type and the trait in two modules. -/
def separate : List (String × List (String × Module)) :=
  [("app", [("app::main", ⟨{}, [], [boxType, weigh]⟩), ("app::other", ⟨{}, [], [boxTrait]⟩)])]

def start (packages : List (String × List (String × Module))) : State := State.ofPackages Standard.prelude 64 packages

def glanced (packages : List (String × List (String × Module))) : Except Failure Unit × State :=
  ((List.range (start packages).modules.length).forM Check.glanceModule).run (start packages)

def kinds (packages : List (String × List (String × Module))) (id : Nat) (name : String) : List Kind :=
  [Kind.type, .trait].filter fun k => ((((glanced packages).2.module id).scope.get? k name).map (·.kind)) = some k

lemma names_of_kinds (packages : List (String × List (String × Module))) (id : Nat) (name : String) (k : Kind)
    (h : k ∈ kinds packages id name) : ∃ d, (glanced packages).2.Names id name d ∧ d.kind = k := by
  obtain ⟨hk, hkind⟩ := List.mem_filter.mp h
  obtain ⟨d, hd, rfl⟩ := Option.map_eq_some_iff.mp (of_decide_eq_true hkind)
  refine ⟨d, ⟨hd, ?_⟩, rfl⟩
  cases d <;> simp [Definition.kind] at hk <;> rfl

theorem distinct_of_separate :
    (Standard.packageName :: separate.map (·.1)).Nodup ∧ (∀ p ∈ separate, (p.2.map (·.1)).Nodup) ∧
      ∃ t d e, glanced separate = (.ok (), t) ∧ t.Names 12 "Box" d ∧ t.Names 13 "Box" e ∧
        d.identifier? ≠ e.identifier? := by
  have hnames : (Standard.packageName :: separate.map (·.1)).Nodup := by decide
  have hpaths : ∀ p ∈ separate, (p.2.map (·.1)).Nodup := by decide
  obtain ⟨t, hrun, hiff, -⟩ := State.identifiers_of_glance Standard.prelude 64 separate hnames hpaths
  have hrun : glanced separate = (.ok (), t) := hrun
  have hkinds : .type ∈ kinds separate 12 "Box" ∧ .trait ∈ kinds separate 13 "Box" := by decide +kernel
  obtain ⟨d, hd, -⟩ := names_of_kinds separate 12 "Box" .type hkinds.1
  obtain ⟨e, he, -⟩ := names_of_kinds separate 13 "Box" .trait hkinds.2
  rw [hrun] at hd he
  refine ⟨hnames, hpaths, t, d, e, hrun, hd, he, fun hsame => ?_⟩
  exact absurd ((hiff _ _ _ _ _ _ hd he).1.mp hsame).1 (by decide)

/-- In one module the type and the trait have one identifier. Nothing is reported, and the type takes the method of the trait
for its own. -/
theorem ambiguous_of_together :
    (Standard.packageName :: together.map (·.1)).Nodup ∧ (∀ p ∈ together, (p.2.map (·.1)).Nodup) ∧
      (∃ t d e, glanced together = (.ok (), t) ∧ t.Names 12 "Box" d ∧ t.Names 12 "Box" e ∧ d ≠ e ∧
        d.identifier? = e.identifier?) ∧
      (start together).check.2.diagnostics.length = 0 := by
  obtain ⟨-, t, hrun, -, -, ht⟩ := State.exists_glanced Standard.prelude 64 together
  have hrun : glanced together = (.ok (), t) := hrun
  obtain ⟨htype, htrait, hnone⟩ : .type ∈ kinds together 12 "Box" ∧ .trait ∈ kinds together 12 "Box" ∧
    (start together).check.2.diagnostics.length = 0 := by decide +kernel
  obtain ⟨d, hd, hkind⟩ := names_of_kinds together 12 "Box" .type htype
  obtain ⟨e, he, hkind'⟩ := names_of_kinds together 12 "Box" .trait htrait
  rw [hrun] at hd he
  refine ⟨by decide, by decide, ⟨t, d, e, hrun, hd, he, ?_, ?_⟩, hnone⟩
  · rintro rfl
    exact absurd (hkind.symm.trans hkind') (by decide)
  · rw [ht.identifier hd, ht.identifier he]

end Homonyms

end TraitCheck
