import TraitCheck.Proofs.Check.Wildcards
import TraitCheck.Proofs.Project.Files
import TraitCheck.Proofs.Project.Loaded

/-! The modules of loaded projects. Every module file below the root of a package gives one module of that package, under
the path that the file declares, and there are no others. A package has its modules in the order of their paths. -/

namespace TraitCheck

/-! ### Manifests -/

lemma of_guard {ε α : Type} {c : Prop} [Decidable c] {e : ε} {f : PUnit → Except ε α} {a : α}
    (h : (if c then throw e >>= f else f ⟨⟩) = .ok a) : ¬c ∧ f ⟨⟩ = .ok a := by
  split at h
  · cases h
  · next hc => exact ⟨hc, h⟩

namespace Manifest

lemma checkNames_ok {i : Nat} {seen : List String} {packages : List PackageRoot} (h : checkNames i seen packages = .ok ()) :
    (packages.map (·.name)).Nodup ∧ ∀ name ∈ packages.map (·.name), name ≠ Standard.packageName ∧ name ∉ seen := by
  induction packages generalizing i seen with
  | nil => simp
  | cons package packages ih =>
    rw [checkNames] at h
    obtain ⟨-, h⟩ := of_guard h
    obtain ⟨-, h⟩ := of_guard h
    obtain ⟨hstd, h⟩ := of_guard h
    obtain ⟨hseen, h⟩ := of_guard h
    obtain ⟨hnodup, hnames⟩ := ih h
    have hnew : package.name ∉ packages.map (·.name) := fun hmem => (hnames _ hmem).2 List.mem_cons_self
    refine ⟨List.nodup_cons.mpr ⟨hnew, hnodup⟩, List.forall_mem_cons.mpr ⟨⟨hstd, hseen⟩, fun name hname => ?_⟩⟩
    exact ⟨(hnames name hname).1, fun hmem => (hnames name hname).2 (List.mem_cons_of_mem _ hmem)⟩

lemma validate_ok {m : Manifest} (h : m.validate = .ok ()) : (Standard.packageName :: m.packages.map (·.name)).Nodup := by
  rw [validate] at h
  obtain ⟨-, h⟩ := of_guard h
  obtain ⟨⟨⟩, hnames, -⟩ := exists_of_bind_eq_ok h
  obtain ⟨hnodup, hnames⟩ := checkNames_ok hnames
  exact List.nodup_cons.mpr ⟨fun hmem => (hnames _ hmem).1 rfl, hnodup⟩

lemma load_names {storage : Storage} {process? : String → Option String} {t : FileTree} {m : Manifest}
    (h : load storage process? t = .ok m) : (Standard.packageName :: m.packages.map (·.name)).Nodup := by
  unfold load at h
  extract_lets rest at h
  have hrest {k : Manifest} (h : rest k = .ok m) : (Standard.packageName :: m.packages.map (·.name)).Nodup := by
    obtain ⟨vars, -, h⟩ := exists_of_bind_eq_ok h
    dsimp only at h
    split at h
    · next hvalid => exact Except.ok.inj h ▸ validate_ok hvalid
    · cases h
  split at h
  · cases h
  · exact hrest h
  · split at h
    · exact hrest h
    · cases h
    · cases h

end Manifest

/-! ### Modules of states -/

namespace State

def block (s : State) (name : String) : List ModuleEntry :=
  match s.packages.find? (·.name = name) with
  | some found => found.modules.filterMap (s.modules[·]?)
  | none => []

variable {s : State} {name other : String} {ms : List (String × Syntax.Module)}

lemma exists_addModules (name : String) (ms : List (String × Syntax.Module)) (s : State) :
    ∃ new, (ms.foldl (addModule name) s).modules = s.modules ++ new ∧
      new.map (fun m => (m.path, m.package)) = ms.map fun m => (Path.parse m.1, name) := by
  induction ms generalizing s with
  | nil => exact ⟨[], by simp⟩
  | cons m ms ih =>
    obtain ⟨new, hmodules, hnew⟩ := ih (s.addModule name m)
    refine ⟨{ path := Path.parse m.1, package := name, syn := (m.2.number.run s.nextNode).1 } :: new, ?_, ?_⟩
    · rw [List.foldl_cons, hmodules, addModule, List.append_assoc]
      rfl
    · rw [List.map_cons, List.map_cons, hnew]

lemma filterMap_getElem?_append {α : Type} (l new : List α) :
    ((List.range new.length).map (l.length + ·)).filterMap ((l ++ new)[·]?) = new := by
  induction new using List.reverseRecOn with
  | nil => rfl
  | append_singleton new a ih =>
    have hold : ∀ i ∈ (List.range new.length).map (l.length + ·), (l ++ (new ++ [a]))[i]? = (l ++ new)[i]? := by
      intro i hi
      obtain ⟨j, hj, rfl⟩ := List.mem_map.mp hi
      rw [← List.append_assoc]
      exact List.getElem?_append_left (by simpa using hj)
    rw [List.length_append, List.length_singleton, List.range_succ, List.map_append, List.filterMap_append,
      List.filterMap_congr hold, ih]
    simp

lemma block_addPackage (hname : name ∉ s.packages.map (·.name)) (ms : List (String × Syntax.Module)) :
    (s.addPackage name ms).modules = s.modules ++ (s.addPackage name ms).block name ∧
      ((s.addPackage name ms).block name).map (fun m => (m.path, m.package)) =
        (sortBy (fun a b => a.1 ≤ b.1) ms).map fun m => (Path.parse m.1, name) := by
  obtain ⟨new, hmodules, hnew⟩ := exists_addModules name (sortBy (fun a b => a.1 ≤ b.1) ms) s
  have hlength : new.length = (sortBy (fun a b => a.1 ≤ b.1) ms).length := by simpa using congrArg List.length hnew
  have hfind : s.packages.find? (·.name = name) = none := by
    rw [List.find?_eq_none]
    intro package hpackage heq
    exact hname (List.mem_map.mpr ⟨package, hpackage, by simpa using heq⟩)
  have hblock : (s.addPackage name ms).block name = new := by
    rw [block, addPackage]
    simp only [List.find?_append, hfind, Option.none_or, List.find?_singleton, decide_true, if_true, hmodules, ← hlength]
    exact filterMap_getElem?_append s.modules new
  rw [hblock]
  exact ⟨hmodules, hnew⟩

lemma block_addPackage_of_mem (hs : s.Housed) (hother : other ∈ s.packages.map (·.name)) (hname : name ∉ s.packages.map (·.name))
    (ms : List (String × Syntax.Module)) : (s.addPackage name ms).block other = s.block other := by
  obtain ⟨hmodules, -⟩ := block_addPackage hname ms
  obtain ⟨package, hpackage, rfl⟩ := List.mem_map.mp hother
  have hsome : (s.packages.find? (·.name = package.name)).isSome := List.find?_isSome.mpr ⟨package, hpackage, by simp⟩
  obtain ⟨found, hfound⟩ := Option.isSome_iff_exists.mp hsome
  have hfind : (s.addPackage name ms).packages.find? (·.name = package.name) = some found := by
    rw [addPackage]
    simp only [List.find?_append, hfound, Option.some_or]
  rw [block, block, hfind, hfound, hmodules]
  refine List.filterMap_congr fun id hid => List.getElem?_append_left ?_
  obtain ⟨q, hq, -⟩ := hs found (List.mem_of_find?_eq_some hfound) id hid
  simpa using (List.getElem?_eq_some_iff.mp hq).1

end State

namespace Project

variable {p q r : Project} {storage : Storage} {t tree : FileTree}

/-! ### Packages that join -/

def moduleFiles (root : String) (tree : FileTree) : List (String × String) :=
  (tree.files root).filter (·.1.endsWith moduleSuffix)

/-- Packages join a project one after the other, and no module is refused. -/
inductive Joins (storage : Storage) (t : FileTree) : Project → List PackageRoot → Project → Prop
  | nil (p : Project) : Joins storage t p [] p
  | cons {p q r : Project} {package : PackageRoot} {packages : List PackageRoot} {tree : FileTree}
      {modules : List (String × Syntax.Module)} {state : State}
      (hroot : storage.subtree t (FilePath.clean package.root) = .ok tree)
      (hfiles : addFiles package.name p (moduleFiles (FilePath.clean package.root) tree) = .ok (modules, q))
      (haccepted : (Check.addPackage package.name modules).run q.state = (.ok (), state))
      (hrest : Joins storage t { q with state := state } packages r) : Joins storage t p (package :: packages) r

/-- The modules of a package: they are in it, and in the order of their paths. -/
structure InOrder (package : PackageRoot) (block : List ModuleEntry) : Prop where
  inside : ∀ m ∈ block, m.package = package.name ∧ ∃ rest ≠ [], m.path.segments = package.name :: rest
  sorted : (block.map (·.path.render)).Pairwise (· < ·)

/-- The file at the end of a path below the root of a package is one for a module. -/
structure ModuleFile (t : FileTree) (package : PackageRoot) (segments : List String) (text : String) : Prop where
  below : ∃ base tree rest, FilePath.segments? (FilePath.clean package.root) = some base ∧ t.find base = .tree tree ∧
    tree.HasFile rest text ∧ segments = base ++ rest
  named : ∃ name ∈ segments.getLast?, name.endsWith moduleSuffix = true

structure Holds (t : FileTree) (joined : List PackageRoot) (p : Project) : Prop where
  unchecked : p.state.Unchecked False
  housed : p.state.Housed
  names : p.state.packages.map (·.name) = Standard.packageName :: joined.map (·.name)
  ordered : ∀ package ∈ joined, InOrder package (p.state.block package.name)
  keys : ((joined.flatMap fun package => p.state.block package.name).map (·.path.render)).Perm (p.origins.map (·.1))
  distinct : (p.origins.map (·.1)).Nodup
  declared : ∀ o ∈ p.origins, ∃ text, t.Holds o.2 text ∧ Declares text o.1
  found : ∀ package ∈ joined, ∀ segments text, ModuleFile t package segments text →
    ∃ key, (key, FilePath.text segments) ∈ p.origins

lemma endsWith_append {a b : String} (h : a.endsWith b = true) (c : String) : (c ++ a).endsWith b = true := by
  rw [String.endsWith_eq_endsWith_toSlice, String.Slice.endsWith_string_iff] at h ⊢
  rw [String.copy_toSlice] at h ⊢
  rw [String.toList_append]
  exact h.trans (List.suffix_append _ _)

lemma endsWith_text {segments : List String} {name suffix : String} (hname : name ∈ segments.getLast?)
    (h : name.endsWith suffix = true) : (FilePath.text segments).endsWith suffix = true := by
  obtain ⟨front, rfl⟩ := List.getLast?_eq_some_iff.mp hname
  rw [FilePath.text, if_neg (by simp)]
  cases front with
  | nil => simpa using h
  | cons s front =>
    rw [String.intercalate_append_of_ne_nil (by simp) (by simp), String.intercalate_singleton]
    exact endsWith_append h _

section Block

variable {root : PackageRoot} {block : List ModuleEntry} {ms : List (String × Syntax.Module)}
  (hblock : block.map (fun m => (m.path, m.package)) =
    (sortBy (fun a b => a.1 ≤ b.1) ms).map fun m => (Path.parse m.1, root.name))
include hblock

lemma render_block : block.map (·.path.render) = (sortBy (fun a b => a.1 ≤ b.1) ms).map (·.1) := by
  have hrender := congrArg (List.map fun x : Path × String => x.1.render) hblock
  simpa [Function.comp_def, Path.render_parse] using hrender

lemma inOrder_block (hinside : ∀ m ∈ ms, Inside root.name m.1) (hdistinct : (ms.map (·.1)).Nodup) :
    InOrder root block where
  inside m hm := by
    have hmem : (m.path, m.package) ∈ block.map fun m => (m.path, m.package) := List.mem_map_of_mem hm
    rw [hblock] at hmem
    obtain ⟨k, hk, heq⟩ := List.mem_map.mp hmem
    obtain ⟨hpath, hpackage⟩ := Prod.mk.inj heq
    obtain ⟨hfirst, hlength⟩ := hinside k ((mem_sortBy _).mp hk)
    rw [hpath] at hfirst hlength
    refine ⟨hpackage.symm, m.path.segments.tail, List.ne_nil_of_length_pos ?_, ?_⟩
    · rw [Path.length] at hlength
      rw [List.length_tail]
      omega
    · rw [← hfirst]
      cases hsegments : m.path.segments with
      | nil => simp [Path.length, hsegments] at hlength
      | cons s rest => simp [Path.first, hsegments]
  sorted := by
    rw [render_block hblock, List.pairwise_map]
    have hsorted : (sortBy (fun a b => a.1 ≤ b.1) ms).Pairwise fun a b => decide (a.1 ≤ b.1) = true :=
      sortBy_pairwise (fun a b => by simpa using String.le_total a.1 b.1) (fun a b c => by simpa using String.le_trans) ms
    have hnodup : ((sortBy (fun a b => a.1 ≤ b.1) ms).map (·.1)).Nodup := ((sortBy_perm _ ms).map _).nodup_iff.mpr hdistinct
    refine (hsorted.and (List.pairwise_map.mp hnodup)).imp fun h => ?_
    exact Std.lt_of_le_of_ne (by simpa using h.1) h.2

end Block

lemma Holds.join (ht : t.Proper) {joined : List PackageRoot} (h : Holds t joined p) {root : PackageRoot}
    (hname : root.name ∉ Standard.packageName :: joined.map (·.name))
    (hroot : storage.subtree t (FilePath.clean root.root) = .ok tree) {ms : List (String × Syntax.Module)}
    (hfiles : addFiles root.name p (moduleFiles (FilePath.clean root.root) tree) = .ok (ms, q)) :
    (Check.addPackage root.name ms).run q.state = (.ok (), q.state.addPackage root.name ms) ∧
      Holds t (joined ++ [root]) { q with state := q.state.addPackage root.name ms } := by
  obtain ⟨new, hreads⟩ := addFiles_ok hfiles
  have horigins := hreads.origins
  rw [hreads.state]
  have hbuilt : p.state.built = false := congrArg State.built h.unchecked.rest
  -- a module outside of the package would have been refused when its file was read
  have hrun : (Check.addPackage root.name ms).run p.state = (.ok (), p.state.addPackage root.name ms) := by
    obtain ⟨hrun, -⟩ | ⟨m, hm, hout, -⟩ := State.run_addPackage_cases root.name ms hbuilt
    · exact hrun
    · exact absurd (hreads.inside m hm) hout
  obtain ⟨base, hbase, hfind⟩ := Storage.of_subtree hroot
  obtain ⟨htext, hnames⟩ := FilePath.of_segments? hbase
  have hmem {file text : String} : (file, text) ∈ tree.files (FilePath.clean root.root) ↔
      ∃ rest, tree.HasFile rest text ∧ file = FilePath.text (base ++ rest) := by
    rw [htext]
    exact FileTree.mem_files_text ht hnames hfind
  have hfresh : root.name ∉ p.state.packages.map (·.name) := h.names ▸ hname
  obtain ⟨-, hblock⟩ := State.block_addPackage hfresh ms
  have hold : ∀ k ∈ joined, (p.state.addPackage root.name ms).block k.name = p.state.block k.name := fun k hk =>
    State.block_addPackage_of_mem h.housed (by simpa [h.names] using .inr ⟨k, hk, rfl⟩) hfresh ms
  have hdistinct : (q.origins.map (·.1)).Nodup := hreads.distinct h.distinct
  refine ⟨hrun, ?_, ?_, ?_, ?_, ?_, hdistinct, ?_, ?_⟩
  · have hunchecked : ((Check.addPackage root.name ms).run p.state).2.Unchecked False :=
      h.unchecked.addPackage root.name False.elim
    rwa [hrun] at hunchecked
  · have hhoused := h.housed.run_addPackage hbuilt root.name ms
    rwa [hrun] at hhoused
  · simp [State.addPackage, h.names]
  · refine List.forall_mem_append.mpr ⟨fun k hk => ?_, List.forall_mem_singleton.mpr (inOrder_block hblock hreads.inside ?_)⟩
    · simpa only [hold k hk] using h.ordered k hk
    · rw [horigins, List.map_append, hreads.keys] at hdistinct
      exact (List.nodup_append'.mp hdistinct).2.1
  · have hkeys : (((p.state.addPackage root.name ms).block root.name).map (·.path.render)).Perm (new.map (·.1)) := by
      rw [render_block hblock, hreads.keys]
      exact (sortBy_perm _ ms).map _
    rw [List.flatMap_append, List.flatMap_singleton, List.flatMap_congr hold, List.map_append]
    exact (h.keys.append hkeys).trans (.of_eq (by rw [horigins, List.map_append]))
  · intro o ho
    rw [horigins] at ho
    obtain ho | ho := List.mem_append.mp ho
    · exact h.declared o ho
    · obtain ⟨text, hfile, hdeclares⟩ := hreads.declared o ho
      obtain ⟨rest, hrest, heq⟩ := hmem.mp (List.mem_filter.mp hfile).1
      exact ⟨text, heq ▸ hrest.holds ht hnames hfind, hdeclares⟩
  · refine List.forall_mem_append.mpr ⟨fun k hk segments text hfile => ?_, List.forall_mem_singleton.mpr ?_⟩
    · obtain ⟨key, hkey⟩ := h.found k hk segments text hfile
      exact ⟨key, horigins ▸ List.mem_append_left _ hkey⟩
    · rintro segments text ⟨⟨base', tree', rest, hbase', hfind', hrest, rfl⟩, name, hlast, hsuffix⟩
      obtain rfl := Option.some.inj (hbase.symm.trans hbase')
      obtain rfl := FileTree.Found.tree.inj (hfind.symm.trans hfind')
      have hfile := hreads.found _ (List.mem_filter.mpr ⟨hmem.mpr ⟨rest, hrest, rfl⟩, endsWith_text hlast hsuffix⟩)
      obtain ⟨o, ho, heq⟩ := List.mem_map.mp hfile
      exact ⟨o.1, horigins ▸ List.mem_append_right _ ((congrArg (o.1, ·) heq : o = _) ▸ ho)⟩

lemma addPackages_ok (ht : t.Proper) {packages joined : List PackageRoot} (h : addPackages storage t p packages = .ok r)
    (hp : Holds t joined p) (hnames : (Standard.packageName :: (joined ++ packages).map (·.name)).Nodup) :
    Joins storage t p packages r ∧ Holds t (joined ++ packages) r ∧ r.manifest = p.manifest := by
  induction packages generalizing p joined with
  | nil =>
    obtain rfl := Except.ok.inj h
    exact ⟨.nil _, by rwa [List.append_nil], rfl⟩
  | cons root packages ih =>
    unfold addPackages at h
    split at h
    · next q' hq' =>
      rw [addPackage] at hq'
      split at hq'
      · cases hq'
      · next tree hroot =>
        obtain ⟨⟨ms, q⟩, hfiles, hq'⟩ := exists_of_bind_eq_ok hq'
        obtain rfl := Except.ok.inj hq'
        rw [List.append_cons] at hnames ⊢
        have hname : root.name ∉ Standard.packageName :: joined.map (·.name) := by
          have hdisjoint := hnames.sublist (.cons_cons _ (.map _ (List.sublist_append_left (joined ++ [root]) packages)))
          rw [List.map_append, ← List.cons_append] at hdisjoint
          exact fun hmem => (List.nodup_append'.mp hdisjoint).2.2 hmem (by simp)
        obtain ⟨hrun, hq⟩ := hp.join ht hname hroot hfiles
        rw [hrun] at h
        obtain ⟨hjoins, hr, hmanifest⟩ := ih h hq hnames
        obtain ⟨_, hreads⟩ := addFiles_ok hfiles
        exact ⟨.cons hroot hfiles hrun hjoins, hr, hmanifest.trans hreads.manifest⟩
    · cases h

lemma accepts_standard (prelude : List Path) :
    (Check.addPackage Standard.packageName Standard.modules).run { prelude := prelude } =
      (.ok (), { prelude := prelude : State }.addPackage Standard.packageName Standard.modules) := by
  have hinside : ∀ m ∈ Standard.modules, (Path.parse m.1).first = Standard.packageName ∧ 1 < (Path.parse m.1).length := by
    decide +kernel
  obtain ⟨hrun, -⟩ | ⟨m, hm, hout, -⟩ := State.run_addPackage_cases (s := { prelude := prelude }) Standard.packageName
    Standard.modules rfl
  · exact hrun
  · exact absurd (hinside m hm) hout

lemma holds_initial (t : FileTree) (m : Manifest) (prelude : List Path) :
    Holds t [] { manifest := m, state := .initial prelude } := by
  refine ⟨.initial prelude, .initial prelude, ?_, by simp, by simp, .nil, by simp, by simp⟩
  rw [State.initial, accepts_standard]
  rfl

/-- A project has all modules of its packages, each of them once. -/
structure Complete (storage : Storage) (t : FileTree) (p : Project) : Prop where
  distinct : (p.origins.map (·.1)).Nodup
  keys : (p.modules.map (·.path.render)).Perm (p.origins.map (·.1))
  grouped : ∃ blocks, p.modules = blocks.flatten ∧ List.Forall₂ InOrder p.manifest.packages blocks
  declared : ∀ o ∈ p.origins, ∃ text, t.Holds o.2 text ∧ Declares text o.1
  found : ∀ package ∈ p.manifest.packages, ∀ segments text, ModuleFile t package segments text →
    ∃! key, (key, FilePath.text segments) ∈ p.origins
  accepted : ∃ prelude state,
    (Check.addPackage Standard.packageName Standard.modules).run { prelude := prelude } = (.ok (), state) ∧
      Joins storage t { manifest := p.manifest, state := state } p.manifest.packages p

/-- Loading loses no module and has none of them twice. -/
theorem complete_of_load {process? : String → Option String} (ht : t.Proper) (h : load storage process? t = .ok p) :
    Complete storage t p := by
  unfold load at h
  split at h
  · cases h
  · next m hm =>
    obtain ⟨hjoins, hp, hmanifest⟩ := addPackages_ok ht h (holds_initial t m _) (Manifest.load_names hm)
    rw [List.nil_append] at hp
    obtain rfl : p.manifest = m := hmanifest
    refine ⟨hp.distinct, hp.keys, ⟨p.manifest.packages.map fun k => p.state.block k.name, ?_, ?_⟩, hp.declared, ?_, ?_⟩
    · exact List.flatMap_def ..
    · exact List.forall₂_map_right_iff.mpr (List.forall₂_same.mpr hp.ordered)
    · intro package hpackage segments text hfile
      obtain ⟨key, hkey⟩ := hp.found package hpackage segments text hfile
      refine ⟨key, hkey, fun key' hkey' => ?_⟩
      -- a file has one text, and a text declares one path
      obtain ⟨text, hholds, hdeclares⟩ := hp.declared _ hkey
      obtain ⟨text', hholds', hdeclares'⟩ := hp.declared _ hkey'
      obtain rfl := hholds.unique hholds'
      exact hdeclares'.unique hdeclares
    · exact ⟨_, _, accepts_standard _, by rwa [State.initial, accepts_standard] at hjoins⟩

namespace Shelf

/-- Two packages, one of them in a directory of its own and with a file that is no module. -/
def files : FileTree := .ofFiles [
  ("tarn.yaml", "packages: [\x7bname: app, root: .//app\x7d, \x7bname: lib, root: lib/src\x7d]"),
  ("app/b.ast.yaml", "module: 'app::b'"), ("app/inner/z.ast.yaml", "module: 'app::a'"), ("app/notes.yaml", ""),
  ("lib/src/c.ast.yaml", "module: 'lib::c::d'")]

lemma proper_files : files.Proper := FileTree.proper_ofFiles (by decide +kernel)

def summary (r : Except LoadError Project) : Option (List String × List (String × String)) :=
  r.toOption.map fun p => (p.modules.map (·.path.render), p.origins)

theorem complete_shelf : ∃ p, load .memory (fun _ => none) files = .ok p ∧ Complete .memory files p ∧
    p.modules.map (·.path.render) = ["app::a", "app::b", "lib::c::d"] ∧
    p.origins = [("app::b", "app/b.ast.yaml"), ("app::a", "app/inner/z.ast.yaml"), ("lib::c::d", "lib/src/c.ast.yaml")] := by
  have hsummary : summary (load .memory (fun _ => none) files) = some (["app::a", "app::b", "lib::c::d"],
      [("app::b", "app/b.ast.yaml"), ("app::a", "app/inner/z.ast.yaml"), ("lib::c::d", "lib/src/c.ast.yaml")]) := by
    decide +kernel
  cases hload : load .memory (fun _ => none) files with
  | error e => simp [summary, hload, Except.toOption] at hsummary
  | ok p =>
    rw [summary, hload] at hsummary
    obtain ⟨hmodules, horigins⟩ := Prod.mk.inj (Option.some.inj hsummary)
    exact ⟨p, rfl, complete_of_load proper_files hload, hmodules, horigins⟩

end Shelf

end Project

end TraitCheck
