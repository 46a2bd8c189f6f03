import TraitCheck.Project.Load
import TraitCheck.Proofs.Check.Identifiers
import TraitCheck.Proofs.Check.Program

/-! Loaded projects. Their modules come from files that were decoded, so that nothing but an unknown operator can stop
the check. -/

namespace TraitCheck

open Syntax.Decode (decodeFile)

lemma exists_of_bind_eq_ok {ε α β : Type} {x : Except ε α} {f : α → Except ε β} {b : β} (h : x >>= f = .ok b) :
    ∃ a, x = .ok a ∧ f a = .ok b := by
  cases x with
  | error e => cases h
  | ok a => exact ⟨a, rfl, h⟩

namespace Project

/-! ### Files of packages -/

variable {p q : Project} {package file text path path' : String}

/-- The path of the module that a text is. -/
def Declares (text path : String) : Prop :=
  ∃ doc f, Yaml.read text = some (some doc) ∧ Syntax.Decode.mapping doc.root = .ok f ∧ f.str "module" = .ok path

lemma Declares.unique (h : Declares text path) (h' : Declares text path') : path = path' := by
  obtain ⟨doc, f, hread, hmap, hstr⟩ := h
  obtain ⟨doc', f', hread', hmap', hstr'⟩ := h'
  obtain rfl := Option.some.inj (Option.some.inj (hread.symm.trans hread'))
  obtain rfl := Except.ok.inj (hmap.symm.trans hmap')
  exact Except.ok.inj (hstr.symm.trans hstr')

lemma declares_of_decodeFile {files files' : FileSet} {m : Syntax.Module}
    (h : decodeFile files file text = (.ok (path, m), files')) : Declares text path := by
  obtain ⟨doc, hread, -, hmodule⟩ := Syntax.Decode.decodeFile_ok h
  rw [Syntax.Decode.module] at hmodule
  obtain ⟨f, hmap, hmodule⟩ := exists_of_bind_eq_ok hmodule
  obtain ⟨uses, -, hmodule⟩ := exists_of_bind_eq_ok hmodule
  obtain ⟨statements, -, hmodule⟩ := exists_of_bind_eq_ok hmodule
  obtain ⟨name, hname, hmodule⟩ := exists_of_bind_eq_ok hmodule
  obtain ⟨rfl, -⟩ := Prod.mk.inj (Except.ok.inj hmodule)
  exact ⟨doc, f, hread, hmap, hname⟩

def Inside (package path : String) : Prop := (Path.parse path).first = package ∧ 1 < (Path.parse path).length

lemma addFile_ok {m : String × Syntax.Module} (h : addFile package p file text = .ok (m, q)) :
    (∀ s ∈ m.2.statements, s.WellFormed) ∧ Declares text m.1 ∧ Inside package m.1 ∧ m.1 ∉ p.origins.map (·.1) ∧
      q = { p with sources := q.sources, origins := p.origins ++ [(m.1, file)] } := by
  unfold addFile at h
  split at h
  · cases h
  · next name syn sources hdecode =>
    dsimp only at h
    rw [Path.render_parse] at h
    split at h
    · cases h
    · next hinside =>
      split at h
      · cases h
      · next hlookup =>
        obtain ⟨rfl, rfl⟩ := Prod.mk.inj (Except.ok.inj h)
        simp only [Bool.or_eq_true, decide_eq_true_eq, not_or, Nat.not_lt, ne_eq, Decidable.not_not] at hinside
        refine ⟨Syntax.Decode.decodeFile_wellFormed hdecode, declares_of_decodeFile hdecode, ⟨hinside.2, hinside.1⟩,
          fun hmem => ?_, rfl⟩
        obtain ⟨o, ho, heq⟩ := List.mem_map.mp hmem
        exact bne_iff_ne.mp (List.lookup_eq_none_iff.mp hlookup o ho) heq.symm

structure Reads (package : String) (files : List (String × String)) (ms : List (String × Syntax.Module))
    (new : List (String × String)) (p q : Project) : Prop where
  wellFormed : WellFormedModules ms
  keys : new.map (·.1) = ms.map (·.1)
  declared : ∀ o ∈ new, ∃ text, (o.2, text) ∈ files ∧ Declares text o.1
  found : ∀ f ∈ files, f.1 ∈ new.map (·.2)
  inside : ∀ m ∈ ms, Inside package m.1
  distinct : (p.origins.map (·.1)).Nodup → (q.origins.map (·.1)).Nodup
  origins : q.origins = p.origins ++ new
  state : q.state = p.state
  manifest : q.manifest = p.manifest

lemma addFiles_ok {files : List (String × String)} {ms : List (String × Syntax.Module)}
    (h : addFiles package p files = .ok (ms, q)) : ∃ new, Reads package files ms new p q := by
  induction files generalizing p ms with
  | nil =>
    obtain ⟨rfl, rfl⟩ := Prod.mk.inj (Except.ok.inj h)
    exact ⟨[], by simp [WellFormedModules], rfl, by simp, by simp, by simp, id, (List.append_nil _).symm, rfl, rfl⟩
  | cons f files ih =>
    rw [addFiles] at h
    obtain ⟨⟨m, u⟩, hfile, h⟩ := exists_of_bind_eq_ok h
    obtain ⟨⟨rest, v⟩, hrest, h⟩ := exists_of_bind_eq_ok h
    obtain ⟨rfl, rfl⟩ := Prod.mk.inj (Except.ok.inj h)
    obtain ⟨hm, hdeclares, hinside, hnew, hu⟩ := addFile_ok hfile
    obtain ⟨new, hreads⟩ := ih hrest
    refine ⟨(m.1, f.1) :: new, List.forall_mem_cons.mpr ⟨hm, hreads.wellFormed⟩, congrArg (m.1 :: ·) hreads.keys,
      List.forall_mem_cons.mpr ⟨?_, fun o ho => ?_⟩,
      List.forall_mem_cons.mpr ⟨List.mem_cons_self, fun f hf => List.mem_cons_of_mem _ (hreads.found f hf)⟩,
      List.forall_mem_cons.mpr ⟨hinside, hreads.inside⟩, fun hdistinct => hreads.distinct ?_, ?_,
      hreads.state.trans (hu ▸ rfl), hreads.manifest.trans (hu ▸ rfl)⟩
    · exact ⟨f.2, List.mem_cons_self, hdeclares⟩
    · obtain ⟨text, hmem, htext⟩ := hreads.declared o ho
      exact ⟨text, List.mem_cons_of_mem _ hmem, htext⟩
    · rw [hu, List.map_append]
      exact List.nodup_append'.mpr ⟨hdistinct, List.nodup_singleton _, by simpa using hnew⟩
    · rw [hreads.origins, hu, List.append_assoc]
      rfl

/-! ### Packages -/

/-- A project in which things may be nested deeper, or less deep. -/
def withReserve (p : Project) (reserve : Nat) : Project := { p with state := { p.state with reserve := reserve } }

namespace Inverted

/-- One module with the expression `~1`. -/
def files : FileTree := .ofFiles [("a.ast.yaml",
  "\x7bmodule: 'app::a', statements: [\x7bkind: unary, op: '~', operand: \x7bkind: int, value: 1\x7d\x7d]\x7d")]

end Inverted

end Project

end TraitCheck
