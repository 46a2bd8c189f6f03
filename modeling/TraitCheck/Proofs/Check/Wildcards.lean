import TraitCheck.Proofs.Check.Identifiers

/-! What imports bring in. The imports of a module are those of its `use`s, taken apart, one after the other. A wildcard
looks at one definition of each name: it brings in the name if that definition is public, whatever the others are. -/

namespace TraitCheck

open Syntax (Form Stmt)

namespace Syntax

/-- An import by itself: of what a path names or, with a wildcard, of all names of the module at the path. -/
structure Import where
  path : Path
  wildcard : Bool
  deriving DecidableEq

mutual

def Use.imports (outer : List String) : Use → List Import
  | .mk _ _ segments wildcard nested =>
    match Path.ofSegments? (outer ++ segments) with
    | none => []
    | some path => if wildcard || nested.isEmpty then [⟨path, wildcard⟩] else allImports path.segments nested

def allImports (outer : List String) : List Use → List Import
  | [] => []
  | u :: us => u.imports outer ++ allImports outer us

end

/-- Whether a definition is public, if a statement makes one of a kind and a name. -/
def Stmt.visibility? (kind : Kind) (name : String) : Stmt → Option Bool
  | .var d => if .var = kind ∧ d.name = name then some d.pub else none
  | .fn d => if .fn = kind ∧ d.name = name then some d.pub else none
  | .trait d => if .trait = kind ∧ d.name = name then some d.pub else none
  | .type d => if .type = kind ∧ d.name = name then some d.pub else none
  | _ => none

/-- Whether the definition that stands for a name is public: variables come first, then functions, types and traits. -/
def Module.visibility? (m : Module) (name : String) : Option Bool :=
  [Kind.var, .fn, .type, .trait].findSome? fun kind => m.statements.findSome? (Stmt.visibility? kind name)

/-- Some definition of a name is public, or private. -/
def Module.Declares (m : Module) (name : String) (pub : Bool) : Prop :=
  ∃ s ∈ m.statements, ∃ kind, s.visibility? kind name = some pub

variable {m : Module} {name : String} {pub : Bool}

lemma Module.declares_of_visibility (h : m.visibility? name = some pub) : m.Declares name pub := by
  obtain ⟨kind, -, hkind⟩ := List.exists_of_findSome?_eq_some h
  obtain ⟨s, hs, hpub⟩ := List.exists_of_findSome?_eq_some hkind
  exact ⟨s, hs, kind, hpub⟩

lemma Stmt.kind_of_visibility {s : Stmt} {kind : Kind} (h : s.visibility? kind name = some pub) :
    kind ∈ [Kind.var, .fn, .type, .trait] := by
  cases s <;> simp [Stmt.visibility?] at h <;> obtain ⟨⟨rfl, -⟩, -⟩ := h <;> decide

lemma Module.visibility_of_declares (h : m.Declares name pub) : ∃ pub', m.visibility? name = some pub' := by
  obtain ⟨s, hs, kind, hpub⟩ := h
  rw [← Option.isSome_iff_exists, visibility?, List.findSome?_isSome_iff]
  refine ⟨kind, s.kind_of_visibility hpub, ?_⟩
  rw [List.findSome?_isSome_iff]
  exact ⟨s, hs, by rw [hpub]; rfl⟩

end Syntax

/-! ### What a name of a module stands for -/

lemma Check.isPublic_definition? (id : Nat) (path : Path) (kind : Kind) (name : String) (stmt : Stmt) :
    (definition? id path kind name stmt).map (·.isPublic) = stmt.visibility? kind name := by
  cases stmt with
  | var | fn | trait | type =>
    simp only [definition?, topLevel?, Option.bind_some, apply_ite (Option.map _), Option.map_some, Option.map_none]
    rfl
  | impl | ret | expr => rfl

lemma Check.definition?_eq_none {id : Nat} {path : Path} {kind : Kind} (h : kind ∉ [Kind.var, .fn, .type, .trait])
    (name : String) (stmt : Stmt) : definition? id path kind name stmt = none := by
  rw [← Option.map_eq_none_iff, isPublic_definition?]
  by_contra hsome
  obtain ⟨pub, hpub⟩ := Option.ne_none_iff_exists'.mp hsome
  exact h (stmt.kind_of_visibility hpub)

namespace State

variable {t : State}

lemma Registered.get?_none (ht : t.Registered) (id : Nat) (kind : Kind) (h : kind ∉ [Kind.var, .fn, .type, .trait])
    (name : String) : (t.module id).scope.get? kind name = none := by
  rw [ht.scope, List.findSome?_eq_none_iff]
  exact fun stmt _ => Check.definition?_eq_none h name stmt

lemma Registered.isPublic_get? (ht : t.Registered) (id : Nat) (kind : Kind) (name : String) :
    ((t.module id).scope.get? kind name).map (·.isPublic) =
      (t.module id).syn.statements.findSome? (Stmt.visibility? kind name) := by
  rw [ht.scope, List.map_findSome?]
  congr 1
  funext stmt
  exact Check.isPublic_definition? id _ kind name stmt

lemma Registered.isPublic_find? (ht : t.Registered) (id : Nat) (name : String) :
    ((t.module id).scope.find? Kind.any name).map (·.isPublic) = (t.module id).syn.visibility? name := by
  have hnone : ∀ kind ∉ [Kind.var, .fn, .type, .trait], (t.module id).scope.get? kind name = none := fun kind h =>
    ht.get?_none id kind h name
  have hkinds : (t.module id).scope.find? Kind.any name =
      [Kind.var, .fn, .type, .trait].findSome? ((t.module id).scope.get? · name) := by
    simp only [Scope.find?, Kind.any, Kind.values, Kind.types, Kind.modules, List.cons_append, List.nil_append,
      List.findSome?_cons, List.findSome?_nil, hnone .param (by decide), hnone .variant (by decide),
      hnone .method (by decide), hnone .self (by decide), hnone .generic (by decide), hnone .module (by decide)]
  rw [hkinds, List.map_findSome?, Syntax.Module.visibility?]
  congr 1
  funext kind
  exact ht.isPublic_get? id kind name

lemma Registered.mem_names (ht : t.Registered) {id : Nat} {name : String} {pub : Bool}
    (h : (t.module id).syn.visibility? name = some pub) : name ∈ (t.module id).scope.names := by
  rw [← ht.isPublic_find?] at h
  obtain ⟨d, hd, -⟩ := Option.map_eq_some_iff.mp h
  obtain ⟨kind, -, hget⟩ := List.exists_of_findSome?_eq_some hd
  have hsome : ((t.module id).scope.defs.lookup (kind, name)).isSome := Option.isSome_iff_exists.mpr ⟨d, hget⟩
  obtain ⟨x, hx, hkey⟩ := List.lookup_isSome_iff.mp hsome
  rw [Scope.names, List.mem_eraseDups, mem_sortBy, List.mem_map]
  exact ⟨x, hx, congrArg Prod.snd (eq_of_beq hkey).symm⟩

end State

namespace Check

/-! ### What is added -/

variable {α β : Type} {c s t : State} {m : Nat}

def Adds (c : State) (m : Nat) (x : Check α) (a : α) (l : List Path) : Prop :=
  ∀ s, (noting c m).Inv s → ∃ t, x.run s = (.ok a, t) ∧ (noting c m).Inv t ∧
    (t.module m).references = (s.module m).references ++ l

namespace Adds

variable {x : Check α} {a : α} {b : β} {l l' : List Path}

lemma pure (a : α) : Adds c m (Pure.pure a) a [] := fun s hs => ⟨s, rfl, hs, (List.append_nil _).symm⟩

lemma bind {k : α → Check β} (hx : Adds c m x a l) (hk : Adds c m (k a) b l') : Adds c m (x >>= k) b (l ++ l') := by
  intro s hs
  obtain ⟨t, hrun, ht, hl⟩ := hx s hs
  obtain ⟨u, hrun', hu, hl'⟩ := hk t ht
  exact ⟨u, (run_bind_ok hrun _).trans hrun', hu, by rw [hl', hl, List.append_assoc]⟩

lemma after {k : α → Check β} (hx : Adds c m x a []) (hk : Adds c m (k a) b l) : Adds c m (x >>= k) b l :=
  hx.bind hk

lemma get {k : State → Check α} (hk : ∀ s, (noting c m).Inv s → Adds c m (k s) a l) :
    Adds c m (MonadState.get >>= k) a l := by
  intro s hs
  rw [run_get_bind]
  exact hk s hs s hs

lemma entry {id : Nat} {k : ModuleEntry → Check α}
    (hk : ∀ e : ModuleEntry, e.path = (c.module id).path → e.scope = (c.module id).scope → Adds c m (k e) a l) :
    Adds c m (Check.entry id >>= k) a l := by
  intro s hs
  obtain ⟨hpath, hscope⟩ := State.module_of_visited (hs.2.1 id)
  rw [run_bind_ok (run_entry id s)]
  rw [hs.1] at hpath hscope
  exact hk _ hpath hscope s hs

lemma currentModule : Adds c m Check.currentModule m [] := by
  intro s hs
  obtain ⟨f, fs, htop, hf⟩ := hs.2.2
  exact ⟨s, hf ▸ run_bind_ok (run_frame htop) _, hs, (List.append_nil _).symm⟩

lemma note (id : Nat) : Adds c m (Check.note id) () [] := fun _ hs => ⟨_, rfl, hs, (List.append_nil _).symm⟩

lemma report (at? : Option Syntax.Info) (cause : Diagnostic.Cause) : Adds c m (Check.report at? cause) () [] :=
  fun s hs => ⟨_, run_report at? cause s, hs, (List.append_nil _).symm⟩

lemma refer (hm : m < c.modules.length) (p : Path) : Adds c m (addReference p) () [p] := by
  intro s hs
  obtain ⟨f, fs, htop, rfl⟩ := hs.2.2
  have hcurrent : Check.currentModule.run s = (.ok f.module, s) := run_bind_ok (run_frame htop) _
  have hrun := run_bind_ok hcurrent fun id => modifyEntry id fun e => { e with references := e.references ++ [p] }
  refine ⟨_, hrun, (((imports_noting c f.module).refer p s hs).ok _ _ hrun).1, ?_⟩
  have hlt : f.module < s.modules.length := by
    rw [← hs.1] at hm
    simpa [State.chart] using hm
  rw [State.module, State.module, getElem?_modify_self, List.getElem?_eq_getElem hlt]
  rfl

lemma forIn {names : List α} {body : α → PUnit → Check (ForInStep PUnit)} {g : α → List Path}
    (h : ∀ a ∈ names, Adds c m (body a ⟨⟩) (.yield ⟨⟩) (g a)) :
    Adds c m (ForIn.forIn names ⟨⟩ body) ⟨⟩ (names.flatMap g) := by
  induction names with
  | nil => exact .pure _
  | cons a names ih =>
    rw [List.forIn_cons, List.flatMap_cons]
    exact (h a (by simp)).bind (ih fun b hb => h b (List.mem_cons_of_mem _ hb))

end Adds

lemma acts_adds (hm : m < c.modules.length) (moves : List Move) :
    Adds c m (acts note moves) () (moves.filterMap Move.refer?) := by
  induction moves with
  | nil => exact .pure ()
  | cons move moves ih =>
    rw [acts, forM_cons]
    cases move with
    | visit id => exact (Adds.note id).after ih
    | report at? cause => exact (Adds.report at? cause).after ih
    | refer p => exact (Adds.refer hm p).bind ih

end Check

namespace State

open Syntax (Import)

/-- The path of what a full path names, as a module sees it. -/
def found? (t : State) (m : Nat) (p : Path) : Option Path :=
  match ((Check.inModule m (Check.qualifiedWith Check.note Kind.any p)).run t).1 with
  | .ok r => r.map (·.path)
  | .error _ => none

/-- What an import brings into a module: with a wildcard, the names of a module that stand for something public, or all
names if it is the module itself. -/
def brings (t : State) (m : Nat) : Import → List Path
  | ⟨p, true⟩ =>
    match t.module? p with
    | some id =>
      ((t.module id).scope.names.filter fun name => id = m ∨ (t.module id).syn.visibility? name = some true).map
        (t.module id).path.child
    | none => []
  | ⟨p, false⟩ => (t.found? m p).toList

end State

namespace Check

open Syntax (Import allImports)

variable {F : Form} {t : State} {m : Nat} (ht : t.Registered) (hc : t.chart.Charted F)

include ht

lemma inScope?_modules (s : State) (id : Nat) (owner : Option (Nat × Path)) (p : Path) :
    inScope? s (t.module id).scope Kind.modules owner p = .ok none := by
  rw [inScope?.eq_def]
  split
  · next name _ =>
    have hfind : (t.module id).scope.find? Kind.modules name = none := by
      simp [Scope.find?, Kind.modules, ht.get?_none id .module (by decide)]
    rw [hfind]
    rfl
  · rfl
  · rfl

lemma firstCut_modules (package : Package) (cuts : List (Path × Path)) :
    Adds t.chart m (firstCut note package Kind.modules cuts)
      (cuts.findSome? fun x => if x.2.isEmpty then (t.moduleIn? package x.1).map (⟨x.1, .module ·, none⟩) else none) [] := by
  induction cuts with
  | nil => exact .pure _
  | cons cut cuts ih =>
    obtain ⟨front, rest⟩ := cut
    rw [firstCut, List.findSome?_cons]
    refine .get fun s hs => ?_
    have hmodule : s.moduleIn? package front = t.moduleIn? package front := by
      rw [← s.chart_moduleIn?, hs.1, t.chart_moduleIn?]
    rw [hmodule]
    cases t.moduleIn? package front with
    | none => simpa using ih
    | some id =>
      dsimp only
      split
      · exact .pure _
      · refine (Adds.note id).after (.entry fun e _ hscope => .get fun s hs => ?_)
        rw [hscope, ← (State.module_of_visited (ht.visited id)).2, inScope?_modules ht]
        exact ih

omit ht in
lemma findSome?_cuts {α : Type} (p : Path) (f : Path → Option α) :
    (cuts p).findSome? (fun x => if x.2.isEmpty then f x.1 else none) = if 1 < p.length then f p else none := by
  have hcut : ∀ i, (fun x : Path × Path => if x.2.isEmpty then f x.1 else none)
      (⟨p.segments.take (i + 2)⟩, ⟨p.segments.drop (i + 2)⟩) = if p.length ≤ i + 2 then f p else none := by
    intro i
    by_cases hi : p.length ≤ i + 2
    · have htake : p.segments.take (i + 2) = p.segments := List.take_of_length_le hi
      have hdrop : p.segments.drop (i + 2) = [] := List.drop_eq_nil_of_le hi
      simp [hi, htake, hdrop, Path.isEmpty]
    · have hdrop : p.segments.drop (i + 2) ≠ [] := by
        rw [ne_eq, List.drop_eq_nil_iff]
        exact hi
      simp [hi, Path.isEmpty, hdrop]
  rw [cuts, List.findSome?_map]
  simp only [Function.comp_def, hcut]
  by_cases hp : 1 < p.length
  · -- only the last cut counts
    obtain ⟨n, hn⟩ : ∃ n, p.length - 1 = n + 1 := ⟨p.length - 2, by omega⟩
    have hfront : (List.range n).findSome? (fun i => if p.length ≤ i + 2 then f p else none) = none := by
      rw [List.findSome?_eq_none_iff]
      intro i hi
      have := List.mem_range.mp hi
      exact if_neg (by omega)
    rw [hn, List.range_succ, List.findSome?_append, hfront, Option.none_or, if_pos hp]
    have hlast : p.length ≤ n + 2 := by omega
    simp [hlast]
  · have hnone : p.length - 1 = 0 := by omega
    simp [hnone, hp]

lemma qualifiedWith_modules (p : Path) : Adds t.chart m (qualifiedWith note Kind.modules p)
    (if 1 < p.length then (t.module? p).map (⟨p, .module ·, none⟩) else none) [] := by
  refine .get fun s hs => ?_
  have hpackage : s.package? p.first = t.package? p.first := by
    have hpackages : s.chart.packages = t.chart.packages := congrArg State.packages hs.1
    exact congrArg (List.find? _) hpackages
  rw [hpackage, State.module?]
  cases t.package? p.first with
  | none => simpa using Adds.pure _
  | some package =>
    have hcuts := firstCut_modules (m := m) ht package (cuts p)
    rw [findSome?_cuts p fun q => (t.moduleIn? package q).map fun id => (⟨q, .module id, none⟩ : Resolved)] at hcuts
    exact hcuts

omit ht in
lemma flatMap_filter {α β : Type} (l : List α) (P : α → Prop) [DecidablePred P] (f : α → β) :
    (l.flatMap fun a => if P a then [f a] else []) = (l.filter P).map f := by
  induction l with
  | nil => rfl
  | cons a l ih => by_cases ha : P a <;> simp [ha, ih]

include hc

lemma useAll_adds (hm : m < t.chart.modules.length) (hhoused : ∀ p id, t.module? p = some id → 1 < p.length)
    (info : Syntax.Info) (p : Path) : Adds t.chart m (useAll note info p) () (t.brings m ⟨p, true⟩) := by
  have hqualified := qualifiedWith_modules (m := m) ht p
  rw [useAll, State.brings]
  cases hid : t.module? p with
  | none =>
    rw [hid, Option.map_none, ite_self] at hqualified
    exact hqualified.after (.report _ _)
  | some id =>
    rw [hid, if_pos (hhoused p id hid), Option.map_some] at hqualified
    refine hqualified.after ((Adds.note id).after (.entry fun e hpath hscope => Adds.currentModule.after ?_))
    obtain ⟨hpath', hscope'⟩ := State.module_of_visited (ht.visited id)
    rw [hpath, ← hpath', hscope, ← hscope']
    dsimp only
    rw [← flatMap_filter, ← List.append_nil (List.flatMap _ _)]
    refine .bind (.forIn fun name hname => ?_) (.pure ())
    -- the definition that is looked at is the one that the visibility of the name is about
    rw [hscope'] at hname
    obtain ⟨d, hd⟩ := exists_of_mem_names (hc.module id) hname
    rw [← hscope'] at hd
    have hpublic : d.isPublic = true ↔ (t.module id).syn.visibility? name = some true := by
      rw [← ht.isPublic_find?, hd]
      simp
    simp only [hd, Bool.or_eq_true, decide_eq_true_eq, hpublic]
    split
    · exact (Adds.refer hm _).bind (.pure _)
    · exact .pure _

omit ht in
lemma firstCut_adds (package : Package) (kinds : List Kind) (cuts : List (Path × Path)) :
    ∃ r, Adds t.chart m (firstCut note package kinds cuts) r [] := by
  induction cuts with
  | nil => exact ⟨none, .pure _⟩
  | cons cut cuts ih =>
    obtain ⟨r, ih⟩ := ih
    obtain ⟨front, rest⟩ := cut
    have hmodule : ∀ s, (noting t.chart m).Inv s → s.moduleIn? package front = t.moduleIn? package front := by
      intro s hs
      rw [← s.chart_moduleIn?, hs.1, t.chart_moduleIn?]
    cases hid : t.moduleIn? package front with
    | none =>
      refine ⟨r, .get fun s hs => ?_⟩
      rw [hmodule s hs, hid]
      exact ih
    | some id =>
      by_cases hrest : rest.isEmpty
      · by_cases hkind : .module ∈ kinds
        · refine ⟨some ⟨front, .module id, none⟩, .get fun s hs => ?_⟩
          simp only [hmodule s hs, hid, hrest, hkind, if_true]
          exact .pure _
        · refine ⟨r, .get fun s hs => ?_⟩
          simp only [hmodule s hs, hid, hrest, hkind, if_true, if_false]
          exact ih
      · -- what is behind the module is looked up in its scope
        have hnone : ∀ i ∈ t.chart.instances, i.Proper ⟨t.chart, F, .none⟩ := by simp [hc.instances]
        have hscope : (t.chart.module id).scope.Proper ⟨t.chart, F, .none⟩ := (hc.module id).scope_proper rfl
        obtain ⟨r', hr', -⟩ := inScope?_gives hnone hscope kinds (some (id, (t.chart.module id).path)) rest
        refine ⟨if r'.isSome then r' else r, .get fun s hs => ?_⟩
        simp only [hmodule s hs, hid, hrest]
        refine (Adds.note id).after (.entry fun e hpath hscope => .get fun s hs => ?_)
        rw [hpath, hscope, inScope?_chart hs.1, hr']
        cases r' with
        | none => exact ih
        | some r' => exact .pure _

omit ht in
lemma qualifiedWith_adds (kinds : List Kind) (p : Path) :
    ∃ r, Adds t.chart m (qualifiedWith note kinds p) r [] := by
  have hpackage : ∀ s, (noting t.chart m).Inv s → s.package? p.first = t.package? p.first := by
    intro s hs
    have hpackages : s.chart.packages = t.chart.packages := congrArg State.packages hs.1
    exact congrArg (List.find? _) hpackages
  cases hp : t.package? p.first with
  | none =>
    refine ⟨none, .get fun s hs => ?_⟩
    rw [hpackage s hs, hp]
    exact .pure _
  | some package =>
    obtain ⟨r, hr⟩ := firstCut_adds (m := m) hc package kinds (cuts p)
    refine ⟨r, .get fun s hs => ?_⟩
    rw [hpackage s hs, hp]
    exact hr

lemma useOne_adds (hm : m < t.chart.modules.length) (info : Syntax.Info) (p : Path) :
    Adds t.chart m (useOne note info p) () (t.brings m ⟨p, false⟩) := by
  obtain ⟨r, hr⟩ := qualifiedWith_adds (m := m) hc Kind.any p
  have hfound : t.found? m p = r.map (·.path) := by
    let s : State := { t with
      frames := t.frames.push { id := t.nextFrame, module := m }, nextFrame := t.nextFrame + 1 }
    obtain ⟨u, hrun, -⟩ := hr s ⟨rfl, ht.visited, _, _, rfl, rfl⟩
    have hresult : ((inModule m (qualifiedWith note Kind.any p)).run t).1 = .ok r := congrArg Prod.fst hrun
    rw [State.found?, hresult]
  rw [useOne, State.brings, hfound]
  refine hr.after ?_
  cases r with
  | none => exact .report _ _
  | some r =>
    have hmay : ∃ may, Adds t.chart m (mayUse r) may [] := by
      simp only [mayUse]
      cases r.module with
      | none => exact ⟨_, .pure _⟩
      | some id => exact ⟨_, Adds.currentModule.after (.pure _)⟩
    obtain ⟨may, hmay⟩ := hmay
    refine hmay.after ?_
    cases may with
    | true => exact Adds.refer hm r.path
    | false => exact (Adds.report _ _).after (Adds.refer hm r.path)

omit ht hc

mutual

lemma flatten_adds (ht : t.Registered) (hc : t.chart.Charted F) (hm : m < t.chart.modules.length)
    (hhoused : ∀ p id, t.module? p = some id → 1 < p.length) (outer : List String) : (u : Syntax.Use) →
    Adds t.chart m (flatten note outer u) () ((u.imports outer).flatMap (t.brings m))
  | .mk info _ segments wildcard nested => by
    rw [flatten, Syntax.Use.imports]
    cases Path.ofSegments? (outer ++ segments) with
    | none => exact .report _ _
    | some path =>
      cases wildcard with
      | true => simpa using useAll_adds ht hc hm hhoused info path
      | false =>
        cases nested with
        | nil => simpa using useOne_adds ht hc hm info path
        | cons u us => exact flattenAll_adds ht hc hm hhoused _ (u :: us)

lemma flattenAll_adds (ht : t.Registered) (hc : t.chart.Charted F) (hm : m < t.chart.modules.length)
    (hhoused : ∀ p id, t.module? p = some id → 1 < p.length) (outer : List String) : (us : List Syntax.Use) →
    Adds t.chart m (flattenAll note outer us) () ((allImports outer us).flatMap (t.brings m))
  | [] => by
    rw [flattenAll, allImports]
    exact .pure ()
  | u :: us => by
    rw [flattenAll, allImports, List.flatMap_append]
    exact (flatten_adds ht hc hm hhoused outer u).bind (flattenAll_adds ht hc hm hhoused outer us)

end

lemma Plan.refers {c : State} (p : Plan c) (hchart : t.chart = c) (ht : t.Registered) (hc : c.Charted F)
    (hm : m < t.modules.length) (hhoused : ∀ p id, t.module? p = some id → 1 < p.length) :
    (p.moves m).filterMap Move.refer? = (allImports [] (t.module m).syn.uses).flatMap (t.brings m) := by
  subst hchart
  let s : State := { t with
    frames := t.frames.push { id := t.nextFrame, module := m }, nextFrame := t.nextFrame + 1 }
  have hs : (noting t.chart m).Inv s := ⟨rfl, ht.visited, _, _, rfl, rfl⟩
  have hlt : m < t.chart.modules.length := by simpa [State.chart] using hm
  obtain ⟨u, hrun, -, hadds⟩ := acts_adds hlt (p.moves m) s hs
  obtain ⟨u', hrun', -, hadds'⟩ := flattenAll_adds ht hc hlt hhoused [] (t.module m).syn.uses s hs
  have hsame := p.run m _ _ (imports_noting t.chart m) s hs
  rw [State.syn_chart, hrun, hrun'] at hsame
  obtain rfl : u' = u := congrArg Prod.snd hsame
  exact List.append_cancel_left (hadds.symm.trans hadds')

end Check

/-! ### Where modules are -/

namespace State

def Housed (s : State) : Prop :=
  ∀ package ∈ s.packages, ∀ id ∈ package.modules, ∃ q : Path, (s.modules.map (·.path))[id]? = some q ∧
    q.first = package.name ∧ 1 < q.length

variable {s t : State}

lemma Housed.run_addPackage (hs : s.Housed) (hbuilt : s.built = false) (name : String)
    (ms : List (String × Syntax.Module)) : ((Check.addPackage name ms).run s).2.Housed := by
  rcases State.run_addPackage name ms hbuilt with hsame | ⟨hrun, hinside⟩
  · rwa [hsame]
  rw [hrun]
  intro package hpackage id hid
  let sorted := sortBy (fun a b => a.1 ≤ b.1) ms
  have hmodules : (s.addPackage name ms).modules.map (·.path) = s.modules.map (·.path) ++ sorted.map (Path.parse ·.1) :=
    map_path_addModules name sorted s
  rw [hmodules]
  rcases List.mem_append.mp hpackage with hold | hnew
  · obtain ⟨q, hq, hfirst, hlength⟩ := hs package hold id hid
    exact ⟨q, List.getElem?_append_left (List.getElem?_eq_some_iff.mp hq).1 ▸ hq, hfirst, hlength⟩
  · obtain rfl := List.mem_singleton.mp hnew
    obtain ⟨i, hi, rfl⟩ := List.mem_map.mp hid
    have hi : i < sorted.length := List.mem_range.mp hi
    have hmem : sorted[i] ∈ ms := (mem_sortBy _).mp (List.getElem_mem hi)
    refine ⟨Path.parse sorted[i].1, ?_, hinside _ hmem⟩
    rw [List.getElem?_append_right (by simp), List.length_map, Nat.add_sub_cancel_left, List.getElem?_map,
      List.getElem?_eq_getElem hi]
    rfl

lemma Housed.initial (prelude : List Path) : (State.initial prelude).Housed := by
  have hempty : { prelude := prelude : State }.Housed := by simp [Housed]
  exact hempty.run_addPackage rfl _ _

lemma housed_ofPackages (prelude : List Path) (reserve : Nat) (packages : List (String × List (String × Syntax.Module))) :
    (ofPackages prelude reserve packages).Housed := by
  have hstart : (initial prelude).Housed := .initial prelude
  have hunchecked : (initial prelude).Unchecked False := .initial prelude
  have hall : (packages.foldl (fun s p => ((Check.addPackage p.1 p.2).run s).2) (initial prelude)).Housed := by
    generalize initial prelude = s at hstart hunchecked
    induction packages generalizing s with
    | nil => exact hstart
    | cons p packages ih =>
      have hbuilt : s.built = false := congrArg State.built hunchecked.rest
      exact ih _ (hstart.run_addPackage hbuilt p.1 p.2) (hunchecked.addPackage p.1 False.elim)
  exact hall

lemma Housed.of_chart (hs : s.Housed) (h : t.chart = s.chart) : t.Housed := by
  have hpackages : t.packages = s.packages := (congrArg State.packages h : t.chart.packages = s.chart.packages)
  rw [Housed, hpackages, map_path_of_chart h]
  exact hs

lemma Housed.length (hs : s.Housed) {p : Path} {id : Nat} (h : s.module? p = some id) : 1 < p.length := by
  obtain ⟨package, hpackage, hid⟩ := Option.bind_eq_some_iff.mp h
  have hname : package.name = p.first := by simpa using List.find?_some hpackage
  obtain ⟨q, hq, hfirst, hlength⟩ := hs package (List.mem_of_find?_eq_some hpackage) id (List.mem_of_find?_eq_some hid)
  have hrender : q.render = p.render := by
    have hfound := List.find?_some hid
    rw [List.getElem?_map] at hq
    obtain ⟨e, he, rfl⟩ := Option.map_eq_some_iff.mp hq
    simpa [he] using hfound
  by_contra hp
  have hone : p.render = p.first := by
    obtain ⟨segments⟩ := p
    rcases segments with _ | ⟨x, _ | ⟨y, l⟩⟩
    · rfl
    · simp [Path.render, Path.first]
    · simp [Path.length] at hp
  obtain ⟨segments⟩ := q
  rcases segments with _ | ⟨a, _ | ⟨b, l⟩⟩
  · simp [Path.length] at hlength
  · simp [Path.length] at hlength
  · -- the text of a longer path is longer than its first segment
    have htext : a ++ (Path.separator ++ Path.separator.intercalate (b :: l)) = a := by
      rw [← String.append_assoc]
      refine Eq.trans ?_ ((hrender.trans hone).trans (hname.symm.trans hfirst.symm))
      simp [Path.render, String.intercalate_cons_cons]
    have hempty := String.append_eq_left_iff.mp htext
    simp [Path.separator] at hempty

open Syntax (allImports)

lemma Registered.mem_brings (ht : t.Registered) {m id : Nat} {p : Path} (hid : t.module? p = some id) (hne : id ≠ m)
    (q : Path) : q ∈ t.brings m ⟨p, true⟩ ↔
      ∃ name, q = (t.module id).path.child name ∧ (t.module id).syn.visibility? name = some true := by
  simp only [brings, hid, List.mem_map, List.mem_filter, decide_eq_true_eq, hne, false_or]
  constructor
  · rintro ⟨name, ⟨-, hpublic⟩, rfl⟩
    exact ⟨name, rfl, hpublic⟩
  · rintro ⟨name, rfl, hpublic⟩
    exact ⟨name, ⟨ht.mem_names hpublic, hpublic⟩, rfl⟩

/-- Once all modules of some packages have been glanced, the references of each are what its imports bring in, one after
the other. A wildcard for another module brings in a name just if the definition that stands for it is public: all
names that have only public definitions, and none that has only private ones. -/
theorem references_of_glance (prelude : List Path) (reserve : Nat)
    (packages : List (String × List (String × Syntax.Module))) :
    ∃ t, ((List.range (ofPackages prelude reserve packages).modules.length).forM Check.glanceModule).run
        (ofPackages prelude reserve packages) = (.ok (), t) ∧
      ∀ m < t.modules.length,
        (t.module m).references = (allImports [] (t.module m).syn.uses).flatMap (t.brings m) ∧
        ∀ p id, ⟨p, true⟩ ∈ allImports [] (t.module m).syn.uses → t.module? p = some id → id ≠ m →
          (∀ q, q ∈ t.brings m ⟨p, true⟩ ↔
            ∃ name, q = (t.module id).path.child name ∧ (t.module id).syn.visibility? name = some true) ∧
          (∀ name, (t.module id).syn.Declares name true → ¬(t.module id).syn.Declares name false →
            (t.module id).path.child name ∈ (t.module m).references) ∧
          ∀ name, ¬(t.module id).syn.Declares name true →
            (t.module id).path.child name ∉ t.brings m ⟨p, true⟩ := by
  obtain ⟨plan, t, hrun, hmodules, hchart, ht⟩ := exists_glanced prelude reserve packages
  have hunchecked : (ofPackages prelude reserve packages).Unchecked False := unchecked_ofPackages _ _ False.elim
  have hcharted := Check.State.Early.charted hunchecked.untouched.early
  have hhoused := (housed_ofPackages prelude reserve packages).of_chart hchart
  refine ⟨t, hrun, fun m hm => ?_⟩
  have hreferences : (t.module m).references = (plan.moves m).filterMap Check.Move.refer? := by
    have hm : m < (ofPackages prelude reserve packages).modules.length := by rwa [hmodules, List.length_mapIdx] at hm
    have hbare := hunchecked.bare _ (List.mem_of_getElem? (getElem?_module hm))
    rw [module_mapIdx hmodules hm, hbare]
    rfl
  rw [plan.refers hchart ht hcharted hm fun p id => hhoused.length] at hreferences
  refine ⟨hreferences, fun p id himport hid hne => ⟨ht.mem_brings hid hne, fun name hpublic hprivate => ?_, ?_⟩⟩
  · rw [hreferences, List.mem_flatMap]
    refine ⟨⟨p, true⟩, himport, (ht.mem_brings hid hne _).mpr ⟨name, rfl, ?_⟩⟩
    obtain ⟨pub, hpub⟩ := Syntax.Module.visibility_of_declares hpublic
    cases pub with
    | true => exact hpub
    | false => exact absurd (Syntax.Module.declares_of_visibility hpub) hprivate
  · intro name hnone hmem
    obtain ⟨name', hname, hpub⟩ := (ht.mem_brings hid hne _).mp hmem
    obtain rfl := (Path.child_inj.mp hname).2
    exact hnone (Syntax.Module.declares_of_visibility hpub)

end State

namespace Cabinets

open Syntax (Module)

def fn (name : String) (pub : Bool) : Stmt := .fn ⟨{}, pub, name, [], [], none, some ⟨{}, []⟩⟩

/-- A private function, a public type of the same name, and another function. -/
def cabinet : Module := ⟨{}, [], [fn "drawer" false, .type ⟨{}, true, "drawer", [], []⟩, fn "open" true]⟩

def packages : List (String × List (String × Module)) :=
  [("app", [("app::cabinet", cabinet), ("app::main", ⟨{}, [.mk {} false ["app", "cabinet"] true []], []⟩)])]

def start : State := State.ofPackages Standard.prelude 64 packages

def glanced : Except Failure Unit × State :=
  ((List.range start.modules.length).forM Check.glanceModule).run start

/-- The private function hides the public type from a wildcard. -/
theorem drawer_left_out : ∃ t, glanced = (.ok (), t) ∧ t.module? ⟨["app", "cabinet"]⟩ = some 12 ∧
    ⟨⟨["app", "cabinet"]⟩, true⟩ ∈ Syntax.allImports [] (t.module 13).syn.uses ∧
    (t.module 12).syn.Declares "drawer" true ∧ (t.module 13).references = [⟨["app", "cabinet", "open"]⟩] ∧
    t.diagnostics.length = 0 := by
  obtain ⟨-, t, hrun, -⟩ := State.exists_glanced Standard.prelude 64 packages
  have hrun : glanced = (.ok (), t) := hrun
  have hfound : (glanced.2.module 12).syn.statements.any (·.visibility? .type "drawer" = some true) = true ∧
      glanced.2.module? ⟨["app", "cabinet"]⟩ = some 12 ∧
      ⟨⟨["app", "cabinet"]⟩, true⟩ ∈ Syntax.allImports [] (glanced.2.module 13).syn.uses ∧
      (glanced.2.module 13).references = [⟨["app", "cabinet", "open"]⟩] ∧ glanced.2.diagnostics.length = 0 := by
    decide +kernel
  rw [hrun] at hfound
  obtain ⟨hpublic, hmodule, himport, hreferences, hnone⟩ := hfound
  obtain ⟨stmt, hstmt, hvisible⟩ := List.any_eq_true.mp hpublic
  exact ⟨t, hrun, hmodule, himport, ⟨stmt, hstmt, .type, of_decide_eq_true hvisible⟩, hreferences, hnone⟩

end Cabinets

end TraitCheck
