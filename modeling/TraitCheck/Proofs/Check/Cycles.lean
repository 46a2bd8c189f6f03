import Mathlib.Data.List.Sort
import TraitCheck.Proofs.Check.Packages
import TraitCheck.Proofs.Check.Survey

/-! What glancing all modules comes to. In whatever order modules are glanced, they end up the same, and the same is
reported, cycles of imports apart. A cycle is reported if there is one, and whatever is reported as one is one. -/

namespace TraitCheck

open Check.Regime
open Syntax (Form)

/-! ### Keys of cycles -/

section

variable {α : Type} {le : α → α → Bool}

lemma sortBy_eq_insertionSort (le : α → α → Bool) (l : List α) : sortBy le l = l.insertionSort fun a b => le a b = true := by
  have hinsert (a : α) (l : List α) : insertBy le a l = l.orderedInsert (fun a b => le a b = true) a := by
    induction l with
    | nil => rfl
    | cons b l ih => rw [insertBy, List.orderedInsert, ih]
  induction l with
  | nil => rfl
  | cons a l ih => rw [sortBy, List.insertionSort_cons, hinsert, ih]

lemma sortBy_perm (le : α → α → Bool) (l : List α) : (sortBy le l).Perm l :=
  sortBy_eq_insertionSort le l ▸ List.perm_insertionSort _ l

variable (htotal : ∀ a b, le a b = true ∨ le b a = true) (htrans : ∀ a b c, le a b = true → le b c = true → le a c = true)
include htotal htrans

lemma sortBy_pairwise (l : List α) : (sortBy le l).Pairwise fun a b => le a b = true := by
  have : Std.Total fun a b => le a b = true := ⟨htotal⟩
  have : IsTrans α fun a b => le a b = true := ⟨htrans⟩
  rw [sortBy_eq_insertionSort]
  exact List.pairwise_insertionSort _ l

lemma sortBy_of_perm (hantisymm : ∀ a b, le a b = true → le b a = true → a = b) {l l' : List α} (h : l.Perm l') :
    sortBy le l = sortBy le l' :=
  List.Perm.eq_of_pairwise (fun a b _ _ => hantisymm a b) (sortBy_pairwise htotal htrans l) (sortBy_pairwise htotal htrans l')
    (((sortBy_perm le l).trans h).trans (sortBy_perm le l').symm)

end

namespace Check

lemma cycleKey_of_perm {names names' : List String} (h : names.Perm names') : cycleKey names = cycleKey names' := by
  have hsort : sortBy (fun a b : String => a ≤ b) names = sortBy (fun a b : String => a ≤ b) names' :=
    sortBy_of_perm (fun a b => by simpa using String.le_total a b) (fun a b c => by simpa using String.le_trans)
      (fun a b => by simpa using String.le_antisymm) h
  rw [cycleKey, cycleKey, hsort]

/-! ### What modules ask for -/

def note (id : Nat) : Check Unit := modify fun s => { s with glances := s.glances.push id }

end Check

namespace State

/-- The modules that the imports of a module ask for, one after the other. -/
def asked (s : State) (m : Nat) : List Nat :=
  ((Check.inModule m (Check.flattenAll Check.note [] (s.module m).syn.uses)).run { s with glances := .empty }).2.glances.items

/-- The imports of a module ask for another one to be glanced. -/
def Asks (s : State) (m n : Nat) : Prop := n ∈ s.asked m

end State

namespace Check

variable {F : Form} {c s t : State} {m : Nat}

def noting (c : State) (m : Nat) : Regime where
  Inv s := s.chart = c ∧ (∀ id, s.Visited id) ∧ ∃ f fs, s.frames.top = f :: fs ∧ f.module = m
  Step _ _ := True
  refl _ := trivial
  trans _ _ := trivial
  Allowed _ := False

lemma imports_noting (c : State) (m : Nat) : Imports c m (noting c m) note where
  chart _ hs := hs.1
  frame _ hs := hs.2.2
  visited id _ s t hs hrun := by
    cases hrun
    exact hs.2.1 id
  visit id _ s hs := .of_run rfl hs trivial trivial
  report info cause s hs := .of_run (run_report info cause s) hs trivial trivial
  refer path s hs := by
    obtain ⟨hchart, hvisited, f, fs, htop, hf⟩ := hs
    have hcurrent : currentModule.run s = (.ok f.module, s) := run_bind_ok (run_frame htop) _
    refine .after hcurrent trivial (.of_run rfl ⟨?_, fun id e he => ?_, f, fs, htop, hf⟩ trivial trivial)
    · exact (State.chart_modify fun e _ => ModuleEntry.charted_references _ e _).trans hchart
    · rw [List.getElem?_modify] at he
      obtain ⟨k, hk, rfl⟩ := Option.map_eq_some_iff.mp he
      have hphase := hvisited id k hk
      split <;> exact hphase

lemma mem_glances_acts {moves : List Move} (hs : (noting c m).Inv s) (n : Nat) :
    n ∈ ((acts note moves).run s).2.glances.top ↔ Move.visit n ∈ moves ∨ n ∈ s.glances.top := by
  induction moves generalizing s with
  | nil =>
    change n ∈ s.glances.top ↔ _
    simp
  | cons move moves ih =>
    have hstep : ∃ t, (Move.act note move).run s = (.ok (), t) ∧ (noting c m).Inv t ∧
        (n ∈ t.glances.top ↔ .visit n = move ∨ n ∈ s.glances.top) := by
      cases move with
      | visit id => exact ⟨_, rfl, hs, by simp [Stack.push]⟩
      | report at? cause => exact ⟨_, run_report at? cause s, hs, by simp⟩
      | refer path =>
        obtain ⟨f, fs, htop, -⟩ := hs.2.2
        have hcurrent : currentModule.run s = (.ok f.module, s) := run_bind_ok (run_frame htop) _
        have hrun := run_bind_ok hcurrent fun id =>
          modifyEntry id fun e => { e with references := e.references ++ [path] }
        exact ⟨_, hrun, ((imports_noting c m).refer path s hs).ok _ _ hrun |>.1, by simp⟩
    obtain ⟨t, hrun, ht, hmem⟩ := hstep
    rw [acts, forM_cons, run_bind_ok hrun]
    exact (ih ht).trans (by simp [hmem, or_left_comm, or_assoc])

lemma asks_iff (p : Plan c) (ht : t.chart = c) (hvisited : ∀ id, t.Visited id) (m n : Nat) :
    t.Asks m n ↔ p.Asks m n := by
  subst ht
  let s : State := { t with glances := .empty, frames := t.frames.push { id := t.nextFrame, module := m }, nextFrame := t.nextFrame + 1 }
  have hs : (noting t.chart m).Inv s := ⟨rfl, hvisited, _, _, rfl, rfl⟩
  have hasked : t.asked m = ((flattenAll note [] (t.module m).syn.uses).run s).2.glances.top.reverse := rfl
  rw [State.Asks, hasked, List.mem_reverse, ← State.syn_chart, p.run m _ _ (imports_noting t.chart m) s hs,
    mem_glances_acts hs]
  exact or_iff_left (by simp [s, Stack.empty])

/-! ### Cycles -/

namespace Plan

variable {s₀ : State} {p : Plan s₀.chart} {order : List Nat} {cycles : List (List Nat)}

lemma Reported.pairwise (h : p.Reported cycles t) : cycles.Pairwise fun l l' => ¬∀ id, id ∈ l ↔ id ∈ l' := by
  have hkeys : (cycles.map fun l => cycleKey (l.map s₀.name)).Nodup := by
    have hdistinct := h.distinct
    rwa [h.keys, List.nodup_reverse] at hdistinct
  rw [List.Nodup, List.pairwise_map] at hkeys
  refine hkeys.imp_of_mem fun {l l'} hl hl' hne hsame => hne ?_
  have hperm := (List.perm_ext_iff_of_nodup (h.cycle l hl).nodup (h.cycle l' hl').nodup).mpr hsame
  exact cycleKey_of_perm (hperm.map s₀.name)

lemma Seen.cycles_iff (h : p.Seen F order t) (horder : order.Perm (List.range s₀.modules.length)) :
    t.cyclesReported ≠ [] ↔ ∃ m, Relation.TransGen p.Asks m m := by
  obtain ⟨cycles, hreported⟩ := h.reported
  constructor
  · intro hsome
    have hcycles : cycles ≠ [] := by
      rintro rfl
      exact hsome hreported.told
    obtain ⟨l, hl⟩ := List.exists_mem_of_ne_nil _ hcycles
    exact (hreported.cycle l hl).transGen
  · rintro ⟨m, hm⟩ hnone
    obtain ⟨n, -, hn⟩ := Relation.TransGen.tail'_iff.mp hm
    have hmem : m ∈ order := horder.mem_iff.mpr (List.mem_range.mpr hn.lt)
    exact (h.sorted hnone).irreflexive h.distinct.of_append_right hmem hm

lemma Progress.modules_eq (h : p.Progress F [] s₀ order t) (hglances : s₀.glances.top = [])
    (horder : order.Perm (List.range s₀.modules.length)) : t.modules = s₀.modules.mapIdx p.finished := by
  have hseen := h.seen
  rw [List.append_nil] at hseen
  apply List.ext_getElem?
  intro id
  rw [List.getElem?_mapIdx]
  by_cases hid : id < s₀.modules.length
  · have htop : id ∉ t.glances.top := by simp [State.glances_of_apart h.forward.apart, hglances]
    have hmem : id ∈ order := horder.mem_iff.mpr (List.mem_range.mpr hid)
    rw [State.getElem?_module (hseen.length ▸ hid), State.getElem?_module hid, Option.map_some, hseen.modules id htop,
      if_pos hmem]
  · have hnone : t.modules[id]? = none := List.getElem?_eq_none (by rw [hseen.length]; omega)
    rw [hnone, List.getElem?_eq_none (by omega)]
    rfl

end Plan

end Check

namespace State

/-- In whatever order the modules of some packages are glanced, they have the same imports, scopes and definitions in the
end, and the same has been reported, but for the cycles: these may be told from another of their modules on. -/
theorem glance_any_order (prelude : List Path) (reserve : Nat) (packages : List (String × List (String × Syntax.Module)))
    {ids ids' : List Nat} (hids : ids.Perm (List.range (ofPackages prelude reserve packages).modules.length))
    (hids' : ids'.Perm (List.range (ofPackages prelude reserve packages).modules.length)) :
    ∃ t t', (ids.forM Check.glanceModule).run (ofPackages prelude reserve packages) = (.ok (), t) ∧
      (ids'.forM Check.glanceModule).run (ofPackages prelude reserve packages) = (.ok (), t') ∧
      t'.modules = t.modules ∧ t'.others.Perm t.others ∧ (t'.cyclesReported = [] ↔ t.cyclesReported = []) := by
  have hunchecked : (ofPackages prelude reserve packages).Unchecked False := unchecked_ofPackages _ _ nofun
  have h₀ := hunchecked.untouched
  generalize ofPackages prelude reserve packages = s at hids hids' h₀ ⊢
  have hglances : s.glances.top = [] := by rw [h₀.rest]; rfl
  obtain ⟨p⟩ := Check.nonempty_plan (Check.State.Early.charted h₀.early)
  obtain ⟨order, t, hrun, hprogress, horder⟩ := Check.Plan.exists_surveyed h₀ p hids
  obtain ⟨order', t', hrun', hprogress', horder'⟩ := Check.Plan.exists_surveyed h₀ p hids'
  refine ⟨t, t', hrun, hrun', ?_, ?_, ?_⟩
  · rw [hprogress.modules_eq hglances horder, hprogress'.modules_eq hglances horder']
  · have horders : order'.Perm order := horder'.trans horder.symm
    exact (hprogress'.others.trans ((horders.flatMap_right _).append_right _)).trans hprogress.others.symm
  · have hcycles := hprogress.seen.cycles_iff (by rwa [List.append_nil])
    have hcycles' := hprogress'.seen.cycles_iff (by rwa [List.append_nil])
    exact not_iff_not.mp (hcycles'.trans hcycles.symm)

end State

namespace Ring

open Syntax (Module Stmt)

def text (name : String) (pub : Bool) : Stmt := .var ⟨{}, pub, name, none, .literal ⟨{}, .string, "s"⟩⟩

/-- A module that imports everything from another one, and also a private and a missing variable. It declares one of its
variables twice. -/
def module (other : String) : Module where
  info := {}
  uses := [.mk {} false ["app", other] true [], .mk {} false ["app", other, "hidden"] false [],
    .mk {} false ["app", other, "missing"] false []]
  statements := [text "shown" true, text "hidden" false, text "shown" true]

/-- Modules that import from each other in turn. -/
def packages : List (String × List (String × Module)) :=
  [("app", [("app::a", module "b"), ("app::b", module "c"), ("app::c", module "a")])]

def start : State := State.ofPackages Standard.prelude 64 packages

def told (ids : List Nat) : List (List String) := ((ids.forM Check.glanceModule).run start).2.cyclesReported

theorem told_from_either_end :
    (List.range start.modules.length).reverse.Perm (List.range start.modules.length) ∧
      ∃ t t', ((List.range start.modules.length).forM Check.glanceModule).run start = (.ok (), t) ∧
        ((List.range start.modules.length).reverse.forM Check.glanceModule).run start = (.ok (), t') ∧
        t'.modules = t.modules ∧ t'.others.Perm t.others ∧
        t.cyclesReported = [["app::a", "app::b", "app::c", "app::a"]] ∧
        t'.cyclesReported = [["app::c", "app::a", "app::b", "app::c"]] := by
  have hreverse := List.reverse_perm (List.range start.modules.length)
  obtain ⟨t, t', hrun, hrun', hmodules, hothers, -⟩ :=
    State.glance_any_order Standard.prelude 64 packages (.refl _) hreverse
  obtain ⟨htold, htold'⟩ : told (List.range start.modules.length) = [["app::a", "app::b", "app::c", "app::a"]] ∧
    told (List.range start.modules.length).reverse = [["app::c", "app::a", "app::b", "app::c"]] := by decide +kernel
  refine ⟨hreverse, t, t', hrun, hrun', hmodules, hothers, ?_, ?_⟩
  · exact (congrArg (·.2.cyclesReported) hrun).symm.trans htold
  · exact (congrArg (·.2.cyclesReported) hrun').symm.trans htold'

end Ring

namespace State

/-- Cycles of imports are reported exactly. -/
theorem cycles_of_glance (prelude : List Path) (reserve : Nat)
    (packages : List (String × List (String × Syntax.Module))) :
    ∃ (t : State) (cycles : List (List Nat)), ((List.range (ofPackages prelude reserve packages).modules.length).forM Check.glanceModule).run
        (ofPackages prelude reserve packages) = (.ok (), t) ∧
      (t.cyclesReported ≠ [] ↔ ∃ m, Relation.TransGen t.Asks m m) ∧
      t.cyclesReported = cycles.map (fun l => (l ++ l.head?.toList).map t.name) ∧
      (∀ l ∈ cycles, l ≠ [] ∧ l.Nodup ∧ (l ++ l.head?.toList).IsChain t.Asks) ∧
      cycles.Pairwise fun l l' => ¬∀ id, id ∈ l ↔ id ∈ l' := by
  have hunchecked : (ofPackages prelude reserve packages).Unchecked False := unchecked_ofPackages _ _ nofun
  have h₀ := hunchecked.untouched
  generalize ofPackages prelude reserve packages = s at h₀ ⊢
  have hglances : s.glances.top = [] := by rw [h₀.rest]; rfl
  obtain ⟨p⟩ := Check.nonempty_plan (Check.State.Early.charted h₀.early)
  obtain ⟨order, t, hrun, hprogress, horder⟩ := Check.Plan.exists_surveyed h₀ p (.refl _)
  have hseen := hprogress.seen
  rw [List.append_nil] at hseen
  obtain ⟨cycles, hreported⟩ := hseen.reported
  have hvisited : ∀ id, t.Visited id := by
    intro id m hm
    rw [hprogress.modules_eq hglances horder, List.getElem?_mapIdx] at hm
    obtain ⟨k, -, rfl⟩ := Option.map_eq_some_iff.mp hm
    simp [Check.Plan.finished, ModuleEntry.charted]
  have hasks : t.Asks = p.Asks := by
    funext m n
    exact propext (Check.asks_iff p hseen.chart hvisited m n)
  have hname : t.name = s.name := funext hseen.name
  refine ⟨t, cycles, hrun, ?_⟩
  rw [hasks, hname]
  refine ⟨hseen.cycles_iff horder, hreported.told, fun l hl => ?_, hreported.pairwise⟩
  exact ⟨(hreported.cycle l hl).nonempty, (hreported.cycle l hl).nodup, (hreported.cycle l hl).chain⟩

end State

end TraitCheck
