import TraitCheck.Check.Program
import TraitCheck.Proofs.Check.Glance
import TraitCheck.Proofs.Syntax.Decoded

/-! Packages. The modules of all packages of a state can be told apart by the numbers of their nodes, and nothing is
known about them before the check. -/

namespace TraitCheck

open Syntax (Mark Form Ascends ids stmtMarks)

namespace Check

variable {α : Type} {s : State}

lemma run_forIn_guard {l : List α} {p : α → Prop} [DecidablePred p] (φ : α → Failure) (s : State) :
    (forIn l PUnit.unit fun a _ => (do
      unless p a do throw (φ a)
      pure (.yield ⟨⟩) : Check (ForInStep PUnit))).run s = (.ok ⟨⟩, s) ∧ (∀ a ∈ l, p a) ∨
      ∃ a ∈ l, ¬p a ∧ (forIn l PUnit.unit fun a _ => (do
        unless p a do throw (φ a)
        pure (.yield ⟨⟩) : Check (ForInStep PUnit))).run s = (.error (φ a), s) := by
  induction l with
  | nil => exact .inl ⟨rfl, by simp⟩
  | cons a l ih =>
    rw [List.forIn_cons]
    by_cases ha : p a
    · simp only [ha, ↓reduceIte, pure_bind]
      obtain ⟨hrun, hall⟩ | ⟨b, hb, hpb, hrun⟩ := ih
      · exact .inl ⟨hrun, List.forall_mem_cons.mpr ⟨ha, hall⟩⟩
      · exact .inr ⟨b, List.mem_cons_of_mem _ hb, hpb, hrun⟩
    · refine .inr ⟨a, by simp, ha, ?_⟩
      simp only [ha, ↓reduceIte]
      rfl

end Check

def ModuleEntry.bare (m : ModuleEntry) : ModuleEntry := { path := m.path, package := m.package, syn := m.syn }

namespace State

def marks (s : State) : List Mark := s.modules.flatMap fun m => stmtMarks m.syn.statements

structure Unchecked (wf : Prop) (s : State) : Prop where
  bare : ∀ m ∈ s.modules, m = m.bare
  distinct : ∀ m ∈ s.modules, (m.syn.statements.map (·.info.id)).Nodup
  wellFormed : wf → ∀ m ∈ s.modules, ∀ t ∈ m.syn.statements, t.WellFormed
  marks : Ascends 1 s.nextNode (ids s.marks)
  rest : s = { s.start with modules := s.modules }

def form (s : State) (strict : Prop) : Form where
  strict := strict
  node id := (s.marks.find? (·.id = id)).getD ⟨id, false, []⟩

variable {s : State} {wf : Prop}

lemma Unchecked.form_marks (h : s.Unchecked wf) : (s.form wf).Marks s.marks := by
  intro m hm
  have hfind : (s.marks.find? (·.id = m.id)).isSome := by
    rw [List.find?_isSome]
    exact ⟨m, hm, by simp⟩
  obtain ⟨k, hk⟩ := Option.isSome_iff_exists.mp hfind
  have hid : k.id = m.id := by simpa using List.find?_some hk
  have hnodup : (s.marks.map (·.id)).Nodup := h.marks.sorted.imp Nat.ne_of_lt
  obtain rfl := List.inj_on_of_nodup_map hnodup (List.mem_of_find?_eq_some hk) hm hid
  change (s.marks.find? (·.id = k.id)).getD _ = k
  rw [hk]
  rfl

lemma Unchecked.untouched (h : s.Unchecked wf) : s.Untouched (s.form wf) := by
  refine ⟨fun m hm => ?_, h.rest⟩
  have hbare := h.bare m hm
  have hmarks : (s.form wf).Marks (stmtMarks m.syn.statements) := fun k hk =>
    h.form_marks k (List.mem_flatMap.mpr ⟨m, hm, hk⟩)
  rw [Syntax.stmtMarks_eq, Form.marks_flatMap] at hmarks
  have hscope : m.scope = {} := by rw [hbare]; rfl
  have hdefs : m.defs = {} := by rw [hbare]; rfl
  refine ⟨⟨fun t ht => ⟨fun hwf => h.wellFormed hwf m hm t ht, hmarks t ht⟩, h.distinct m hm, ?_, ?_, ?_, ?_⟩, ?_⟩
  · simp [hscope]
  · rw [hscope]
  · simp [hdefs]
  · simp [hdefs]
  · rw [hbare]
    rfl

end State

/-! ### Adding packages -/

def WellFormedModules (ms : List (String × Syntax.Module)) : Prop := ∀ m ∈ ms, ∀ s ∈ m.2.statements, s.WellFormed

namespace State

variable {s : State} {wf : Prop}

def addModule (name : String) (s : State) (m : String × Syntax.Module) : State :=
  { s with
    modules := s.modules ++ [{ path := Path.parse m.1, package := name, syn := (m.2.number.run s.nextNode).1 }]
    nextNode := (m.2.number.run s.nextNode).2 }

def addPackage (name : String) (ms : List (String × Syntax.Module)) (s : State) : State :=
  let sorted := sortBy (fun a b => a.1 ≤ b.1) ms
  { sorted.foldl (addModule name) s with
    packages := s.packages ++ [⟨name, (List.range sorted.length).map (s.modules.length + ·)⟩] }

lemma run_addPackage_cases (name : String) (ms : List (String × Syntax.Module)) (hbuilt : s.built = false) :
    (Check.addPackage name ms).run s = (.ok (), s.addPackage name ms) ∧
        (∀ m ∈ ms, (Path.parse m.1).first = name ∧ 1 < (Path.parse m.1).length) ∨
      ∃ m ∈ ms, ¬((Path.parse m.1).first = name ∧ 1 < (Path.parse m.1).length) ∧
        (Check.addPackage name ms).run s = (.error (.outsidePackage m.1 name), s) := by
  rw [Check.addPackage, Check.run_get_bind, hbuilt]
  obtain ⟨hrun, hall⟩ | ⟨m, hm, hout, hrun⟩ := Check.run_forIn_guard (l := sortBy (fun a b => a.1 ≤ b.1) ms)
    (p := fun m => ((Path.parse m.1).first = name && 1 < (Path.parse m.1).length) = true)
    (fun m => .outsidePackage m.1 name) s
  · refine .inl ⟨Check.run_bind_ok hrun _, fun m hm => ?_⟩
    simpa using hall m ((mem_sortBy _).mpr hm)
  · exact .inr ⟨m, (mem_sortBy _).mp hm, by simpa using hout, Check.run_bind_error hrun _⟩

lemma run_addPackage (name : String) (ms : List (String × Syntax.Module)) (hbuilt : s.built = false) :
    ((Check.addPackage name ms).run s).2 = s ∨
      ((Check.addPackage name ms).run s).2 = s.addPackage name ms ∧
        ∀ m ∈ ms, (Path.parse m.1).first = name ∧ 1 < (Path.parse m.1).length := by
  obtain ⟨hrun, hall⟩ | ⟨m, -, -, hrun⟩ := run_addPackage_cases name ms hbuilt
  · exact .inr ⟨congrArg Prod.snd hrun, hall⟩
  · exact .inl (congrArg Prod.snd hrun)

namespace Unchecked

lemma addModule (hs : s.Unchecked wf) (name : String) {m : String × Syntax.Module}
    (hm : wf → ∀ t ∈ m.2.statements, t.WellFormed) : (s.addModule name m).Unchecked wf := by
  have hmem : ∀ {P : ModuleEntry → Prop}, (∀ k ∈ s.modules, P k) →
      P { path := Path.parse m.1, package := name, syn := (m.2.number.run s.nextNode).1 } →
      ∀ k ∈ (s.addModule name m).modules, P k := by
    intro P hold hnew k hk
    obtain hk | hk := List.mem_append.mp hk
    · exact hold k hk
    · exact List.mem_singleton.mp hk ▸ hnew
  refine ⟨hmem hs.bare rfl, hmem hs.distinct (m.2.distinct _), fun hwf => hmem (hs.wellFormed hwf) ?_, ?_, ?_⟩
  · exact (m.2.marking s.nextNode).2 (hm hwf)
  · have hmarks : ids (s.addModule name m).marks =
        ids s.marks ++ ids (stmtMarks (m.2.number.run s.nextNode).1.statements) := by
      simp [State.marks, State.addModule]
    rw [hmarks]
    exact hs.marks.append (m.2.marking s.nextNode).1
  · have hrest : (s.addModule name m).start = { s.start with nextNode := (m.2.number.run s.nextNode).2 } := rfl
    rw [hrest]
    conv_lhs => rw [State.addModule, hs.rest]
    rfl

lemma addModules (hs : s.Unchecked wf) (name : String) {ms : List (String × Syntax.Module)}
    (hms : wf → WellFormedModules ms) : (ms.foldl (State.addModule name) s).Unchecked wf := by
  induction ms generalizing s with
  | nil => exact hs
  | cons m ms ih =>
    refine ih (hs.addModule name fun hwf => hms hwf m (by simp)) fun hwf k hk => ?_
    exact hms hwf k (List.mem_cons_of_mem _ hk)

lemma addPackage (hs : s.Unchecked wf) (name : String) {ms : List (String × Syntax.Module)}
    (hms : wf → WellFormedModules ms) : ((Check.addPackage name ms).run s).2.Unchecked wf := by
  obtain hsame | ⟨hrun, -⟩ := run_addPackage name ms (congrArg State.built hs.rest)
  · rwa [hsame]
  · rw [hrun]
    have hsorted : wf → WellFormedModules (sortBy (fun a b => a.1 ≤ b.1) ms) := fun hwf m hm =>
      hms hwf m ((mem_sortBy _).mp hm)
    have hfold := hs.addModules name hsorted
    refine { hfold with rest := ?_ }
    rw [State.addPackage, hfold.rest]
    rfl

lemma withReserve (hs : s.Unchecked wf) (reserve : Nat) : { s with reserve := reserve : State }.Unchecked wf := by
  refine { hs with rest := ?_ }
  conv_lhs => rw [hs.rest]
  rfl

lemma initial (prelude : List Path) : (State.initial prelude).Unchecked wf := by
  have hempty : { prelude := prelude : State }.Unchecked wf :=
    ⟨by simp, by simp, by simp, .nil 1, rfl⟩
  exact hempty.addPackage _ fun _ => Standard.modules_wellFormed

end Unchecked

/-- A state with the standard package and all those others that it does not refuse. -/
def ofPackages (prelude : List Path) (reserve : Nat) (packages : List (String × List (String × Syntax.Module))) : State :=
  { packages.foldl (fun s p => ((Check.addPackage p.1 p.2).run s).2) (initial prelude) with reserve := reserve }

lemma unchecked_ofPackages (prelude : List Path) (reserve : Nat) {packages : List (String × List (String × Syntax.Module))}
    (h : wf → ∀ p ∈ packages, WellFormedModules p.2) : (ofPackages prelude reserve packages).Unchecked wf := by
  refine Unchecked.withReserve ?_ reserve
  have hstart : (initial prelude).Unchecked wf := .initial prelude
  generalize initial prelude = s at hstart
  induction packages generalizing s with
  | nil => exact hstart
  | cons p packages ih =>
    refine ih (fun hwf q hq => h hwf q (List.mem_cons_of_mem _ hq)) _ ?_
    exact hstart.addPackage p.1 fun hwf => h hwf p (by simp)

end State

end TraitCheck
