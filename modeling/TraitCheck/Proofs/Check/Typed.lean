import TraitCheck.Proofs.Check.Completion
import TraitCheck.Proofs.Check.Covered
import TraitCheck.Proofs.Syntax.Within

/-! Checks without errors. All expressions have types afterwards, but those in impls that have neither a trait nor a
relation. -/

namespace TraitCheck

open Syntax (Expr Form Hereditary Node Stmt)

namespace State

/-- An expression has a type, and a closure that of a function. -/
structure Typed (s : State) (x : Expr) : Prop where
  type : ∃ t, s.typeOf? x.info.id = some t
  closure : x.isClosure = true → ∃ gs ps r, s.typeOf? x.info.id = some (.fn gs ps r)

/-- An impl of a type's own methods for which no relation was made. -/
structure LeavesOut (s : State) (d : Syntax.Impl) : Prop where
  inherent : d.trait = none
  unrelated : ∀ i ∈ s.instances, i.owner.id ≠ d.info.id

end State

namespace Check

variable {F : Form} {s t : State}

def typedParts (hfinished : Finished F t) (hcovered : Covered ⟨t.fixed, F, .none⟩ t) (hclean : t.Clean) : Hereditary F where
  Holds := t.Has
  parts id hid := by
    refine (hcovered.complete hclean id hid).resolve_right ?_
    rintro ⟨-, hopened | ⟨-, hwaits⟩⟩
    · exact hopened
    · simp [Waits, hfinished.pending] at hwaits

lemma Finished.typed (h : Finished F t) (hstrict : F.strict) {x : Expr} (hx : x.Fits F) (hhas : t.Has x.info.id) :
    t.Typed x := by
  obtain ⟨ty, hty⟩ := Option.isSome_iff_exists.mp hhas
  have hwhole : (t.complete ty).Whole := by
    refine (h.resting.slots _ ty hty hstrict).complete fun id r hr => ?_
    exact h.resting.results id r hr hstrict
  refine ⟨⟨t.complete ty, by simp [State.typeOf?, hty, hwhole.isAbsent]⟩, fun hclosure => ?_⟩
  refine typeOf?_of_hasFn ((h.resting.awaited _ (.inr ⟨hx.closure_iff.mpr hclosure, hhas⟩)).resolve_right ?_)
  simp [Waits, h.pending]

lemma Passes.typed {glanced related : State} (h : Passes F levels glanced related t) (hstrict : F.strict) (hclean : t.Clean)
    {m : ModuleEntry} (hm : m ∈ t.modules) {stmt : Stmt} (hstmt : stmt ∈ m.syn.statements) :
    (∀ x, .expr x ∈ stmt.nodes → t.Typed x) ∨ ∃ d, stmt = .impl d ∧ t.LeavesOut d := by
  obtain ⟨hfinished, -, -⟩ := h.finished (levels_safe rfl h.built)
  have hcovered := h.covered
  obtain ⟨i, hi⟩ := List.mem_iff_getElem?.mp hm
  cases hdeclared : isDeclared t.fixed i stmt with
  | false =>
    obtain ⟨d, hd, htrait, hnone⟩ := h.exists_impl hclean hi hstmt hdeclared
    exact .inr ⟨d, hd, htrait, hnone⟩
  | true =>
    have hsyn : (t.fixed.module i).syn = m.syn := by rw [syn_fixed, State.module_eq hi]
    have hparts : t.Filled stmt.parts := by
      have hfilled := hcovered.checked i m hi (hfinished.checked m hm) stmt (hsyn ▸ hstmt)
      rwa [declaredParts, if_pos hdeclared] at hfilled
    have hproper := hfinished.resting.proper.modules m.fixed (List.mem_map_of_mem hm)
    left
    intro x hx
    obtain ⟨hfits, hhas⟩ := Stmt.within (H := typedParts hfinished hcovered hclean) stmt
      (hproper.statements stmt hstmt) (hparts hclean) x hx
    exact hfinished.typed hstrict hfits hhas

end Check

namespace State

/-- After a check of packages with well-formed syntax that ends well and reports no error every expression has a type,
and every closure that of a function. Only impls without a trait and without a relation are left out. -/
theorem typed_of_clean {prelude : List Path} {reserve : Nat} {packages : List (String × List (String × Syntax.Module))}
    (hwf : ∀ p ∈ packages, WellFormedModules p.2) {t : State}
    (hcheck : (ofPackages prelude reserve packages).check = (none, t)) (hclean : t.Clean) :
    ∀ m ∈ t.modules, ∀ x, .expr x ∈ m.syn.nodes →
      t.Typed x ∨ ∃ d, .impl d ∈ m.syn.statements ∧ t.LeavesOut d ∧ .expr x ∈ (Stmt.impl d).nodes := by
  intro m hm x hx
  have hunchecked : (ofPackages prelude reserve packages).Unchecked True := unchecked_ofPackages _ _ fun _ => hwf
  obtain ⟨hpasses, -⟩ := Check.checkModulesBy_passes (fun _ _ he => Check.levels_safe he) hunchecked.untouched
  obtain ⟨glanced, related, hpasses⟩ := hpasses t (run_of_check hcheck)
  obtain ⟨stmt, hstmt, hx⟩ := Syntax.exists_of_mem_nodes hx
  obtain htyped | ⟨d, rfl, hd⟩ := hpasses.typed trivial hclean hm hstmt
  · exact .inl (htyped x hx)
  · exact .inr ⟨d, hstmt, hd, hx⟩

def relatesAll (s : State) (m : ModuleEntry) : Bool :=
  m.syn.statements.all fun
    | .impl d => s.instances.any (·.owner.id = d.info.id)
    | _ => true

lemma LeavesOut.relatesAll {s : State} {d : Syntax.Impl} (h : s.LeavesOut d) {m : ModuleEntry}
    (hd : .impl d ∈ m.syn.statements) : s.relatesAll m = false := by
  refine List.all_eq_false.mpr ⟨.impl d, hd, ?_⟩
  simpa using h.unrelated

/-- For each closure, whether it has a type and whether all impls of its module have relations, if a check ends well and
reports no error. -/
def closuresTyped? (s : State) : Option (List (Bool × Bool)) :=
  match s.check with
  | (none, t) =>
    if t.diagnostics.all (!·.isError) then
      some <| t.modules.flatMap fun m => m.syn.nodes.filterMap fun
        | .expr (.closure c) => some ((t.typeOf? c.info.id).isSome, t.relatesAll m)
        | _ => none
    else none
  | (some _, _) => none

lemma exists_of_closuresTyped? {s : State} {l : List (Bool × Bool)} (h : s.closuresTyped? = some l) {a b : Bool}
    (hab : (a, b) ∈ l) : ∃ t, s.check = (none, t) ∧ t.Clean ∧ ∃ m ∈ t.modules, ∃ c : Syntax.Lambda,
      .expr (.closure c) ∈ m.syn.nodes ∧ (t.typeOf? c.info.id).isSome = a ∧ t.relatesAll m = b := by
  unfold closuresTyped? at h
  split at h
  · next t hcheck =>
    split at h
    · next hclean =>
      obtain rfl := Option.some.inj h
      obtain ⟨m, hm, hab⟩ := List.mem_flatMap.mp hab
      obtain ⟨n, hn, hab⟩ := List.mem_filterMap.mp hab
      refine ⟨t, hcheck, by simpa [Clean] using hclean, m, hm, ?_⟩
      split at hab
      · next c => exact ⟨c, hn, Prod.mk.inj (Option.some.inj hab)⟩
      · cases hab
    · cases h
  · cases h

end State

namespace Shelves

/-- A method in which a closure is bound. -/
def sort : Syntax.Fn := ⟨{}, false, "sort", [], [], none, some ⟨{}, [Lambdas.same "f"]⟩⟩

/-- An impl without a trait, for the type `Shelf` or for its own generic `T`. -/
def packages (forType : String) : List (String × List (String × Syntax.Module)) :=
  [("app", [("app::a", Standard.module
    [Standard.type "Shelf", Standard.impl [Standard.gen "T"] none (Standard.ref forType) [sort]])])]

lemma sort_wellFormed : Syntax.Fn.WellFormed sort := by
  refine .fn (by simp [sort]) (by simp [sort]) (by simp [sort]) fun b hb s hs => ?_
  obtain rfl := Option.some.inj hb
  obtain rfl := List.mem_singleton.mp hs
  refine .var (by simp) (.closure (by simp [Syntax.Param.WellFormed]) (by simp) fun s hs => ?_)
  obtain rfl := List.mem_singleton.mp hs
  exact .expr _ (Standard.ident_wellFormed "x")

lemma packages_wellFormed (forType : String) : ∀ p ∈ packages forType, WellFormedModules p.2 := by
  simp only [packages, WellFormedModules, Standard.module, List.forall_mem_cons]
  refine ⟨⟨⟨?_, ?_, by simp⟩, by simp⟩, by simp⟩
  · exact Standard.type_wellFormed _ (by simp) (by simp)
  · refine Standard.impl_wellFormed ?_ (by simp) ((Standard.ref_wellFormed _ _).mpr (by simp)) ?_
    · simp [Standard.gen_wellFormed]
    · simpa using sort_wellFormed

-- both runs in one evaluation, which shares the work on the standard package
lemma closuresTyped_packages :
    (State.ofPackages Standard.prelude 64 (packages "Shelf")).closuresTyped? = some [(true, true)] ∧
      (State.ofPackages Standard.prelude 64 (packages "T")).closuresTyped? = some [(false, false)] := by
  decide +kernel

theorem sorted_by_function : ∃ t, (State.ofPackages Standard.prelude 64 (packages "Shelf")).check = (none, t) ∧ t.Clean ∧
    ∃ m ∈ t.modules, ∃ c : Syntax.Lambda, .expr (.closure c) ∈ m.syn.nodes ∧
      ∃ gs ps r, t.typeOf? c.info.id = some (.fn gs ps r) := by
  obtain ⟨t, hcheck, hclean, m, hm, c, hc, -, hrelates⟩ :=
    State.exists_of_closuresTyped? closuresTyped_packages.1 (List.mem_singleton_self _)
  refine ⟨t, hcheck, hclean, m, hm, c, hc, ?_⟩
  obtain htyped | ⟨d, hd, hleft, -⟩ := State.typed_of_clean (packages_wellFormed "Shelf") hcheck hclean m hm _ hc
  · exact htyped.closure rfl
  · exact absurd hrelates (by simp [hleft.relatesAll hd])

theorem closure_left_out : ∃ t, (State.ofPackages Standard.prelude 64 (packages "T")).check = (none, t) ∧ t.Clean ∧
    ∃ m ∈ t.modules, ∃ c : Syntax.Lambda, .expr (.closure c) ∈ m.syn.nodes ∧ t.typeOf? c.info.id = none := by
  obtain ⟨t, hcheck, hclean, m, hm, c, hc, htype, -⟩ :=
    State.exists_of_closuresTyped? closuresTyped_packages.2 (List.mem_singleton_self _)
  exact ⟨t, hcheck, hclean, m, hm, c, hc, by simpa using htype⟩

end Shelves

end TraitCheck
