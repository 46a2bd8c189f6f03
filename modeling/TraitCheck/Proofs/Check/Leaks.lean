import TraitCheck.Proofs.Check.Calls
import TraitCheck.Proofs.Check.Resolve
import TraitCheck.Proofs.Ty.Leaves

/-! Generics of a function that a call of it leaves behind. While its arguments are checked, the type that is expected of
one may still mention generics that nothing has bound. A closure takes the types of its parameters from there, and so binds
such a generic to itself. -/

namespace TraitCheck

open Syntax (Expr Lambda TypeExpr Info)

def Bindings.Foreign (gs : List (Generic Ty)) (maps : List Bindings) : Prop :=
  ∀ name u, lookupIn maps name = some u → ¬ u.Mentions gs

def Bindings.valueOf (maps : List Bindings) (g : Generic Ty) : Ty := (lookupIn maps g.name).getD (.generic g)

namespace Bindings.Foreign

variable {gs : List (Generic Ty)} {maps more : List Bindings}

lemma append (h : Foreign gs maps) (hmore : Foreign gs more) : Foreign gs (maps ++ more) := by
  intro name u hu
  rw [lookupIn_append, Option.or_eq_some_iff] at hu
  obtain hu | ⟨-, hu⟩ := hu
  · exact h name u hu
  · exact hmore name u hu

lemma cons {b : Bindings} (h : Foreign gs [b]) (hmore : Foreign gs more) : Foreign gs (b :: more) := append h hmore

lemma unify {u : Ty} (h : ¬ u.Mentions gs) (param : Ty) : Foreign gs [Ty.unify u param] := by
  rintro name v hv ⟨leaf, hleaf, hown⟩
  rw [lookupIn_singleton] at hv
  exact h ⟨leaf, Ty.leaves_subset_of_unify hv hleaf, hown⟩

end Bindings.Foreign

namespace Check

variable {s t : State} {n : Nat}

/-! ### Closures that are typed in place -/

/-- Where the name of an own generic stands in a parameter or in the result, the generic is meant. -/
structure Callee.Clear (f : Callee) : Prop where
  keys : ∀ p ∈ f.result.resultOf :: f.params, ∀ h ∈ p.leaves, ∀ g ∈ f.generics, h.name = g.name → h.key = g.key
  declared : ∀ p ∈ f.result.resultOf :: f.params, ∀ g ∈ f.generics, g.name ∉ p.declared

/-- The argument is a closure without types at its parameters. It is expected to be a function with as many of them, of
types `qs` but for the bindings that are known. -/
structure Argument.InPlace (x : Argument) (qs : List Ty) : Prop where
  closure : ∃ c, x.expr = .closure c ∧ c.params.length = qs.length ∧ ∀ p ∈ c.params, p.type = none
  param : ∃ gs r, x.param = .fn gs qs r
  hint : ∀ gs ps r, x.hint = .fn gs ps r → (∀ p ∈ ps, p.isAbsent = false) ∧ ∀ known, Ty.completeAll known ps = ps

/-- The argument is such a closure, and nothing before it binds one of the generics in the types of its parameters. -/
def Argument.Early (gs : List (Generic Ty)) (x : Argument) : Prop :=
  ∃ qs, x.InPlace qs ∧ ∃ g ∈ gs, g.name ∈ Ty.mentionsAll qs ∧ Bindings.lookupIn x.known g.name = none

/-- The type of the argument is free of the generics, or it is such a closure and its result is. -/
def Argument.Ordinary (gs : List (Generic Ty)) (x : Argument) : Prop :=
  ¬ x.type.Mentions gs ∨ ∃ qs, x.InPlace qs ∧ ∀ ps r, x.type = .fn [] ps r → ¬ r.Mentions gs

lemma closureParams_given {p : Syntax.Param} (ps : List Syntax.Param) {u : Ty} (given : List Ty) (hp : p.type = none)
    (hu : u.isAbsent = false) : closureParams (p :: ps) (u :: given) = (do
      setSlot p.info.id u
      let us ← closureParams ps given
      return u :: us) := by
  rw [closureParams, List.headD_cons, List.tail_cons, hp, hu]
  rfl

lemma closureParams_of_run {ps : List Syntax.Param} {given us : List Ty} (hlength : ps.length = given.length)
    (hnone : ∀ p ∈ ps, p.type = none) (hgiven : ∀ u ∈ given, u.isAbsent = false)
    (hrun : (closureParams ps given).run s = (.ok us, t)) : us = given := by
  induction ps generalizing s given us with
  | nil =>
    cases List.length_eq_zero_iff.mp hlength.symm
    cases hrun
    rfl
  | cons p ps ih =>
    cases given with
    | nil => cases hlength
    | cons u given =>
      rw [List.forall_mem_cons] at hnone hgiven
      rw [closureParams_given ps given hnone.1 hgiven.1] at hrun
      obtain ⟨_, s₁, -, hrest⟩ := exists_of_run_bind hrun
      obtain ⟨us, s₂, hus, hpure⟩ := exists_of_run_bind hrest
      cases hpure
      rw [ih (by simpa using hlength) hnone.2 hgiven.2 hus]

lemma typeClosure_of_run {nested : Nested} {c : Lambda} {given : List Ty} {expected u : Ty}
    (hlength : c.params.length = given.length) (hnone : ∀ p ∈ c.params, p.type = none)
    (hgiven : ∀ u ∈ given, u.isAbsent = false) (hrun : (typeClosure nested c given expected).run s = (.ok u, t)) :
    ∃ known r, u = .fn [] (Ty.completeAll known given) r := by
  rw [typeClosure_eq] at hrun
  obtain ⟨⟨ps, written, id⟩, s₁, hhead, hrest⟩ := exists_of_run_bind hrun
  obtain ⟨_, s₂, -, hrest⟩ := exists_of_run_bind hrest
  obtain ⟨_, s₃, -, hcompleted⟩ := exists_of_run_bind hrest
  obtain ⟨ps', s₄, hparams, hrest⟩ := exists_of_run_bind hhead
  obtain ⟨_, s₅, -, hrest⟩ := exists_of_run_bind hrest
  obtain ⟨_, s₆, -, hpure⟩ := exists_of_run_bind hrest
  cases hpure
  obtain rfl := closureParams_of_run hlength hnone hgiven hparams
  cases hcompleted
  exact ⟨_, _, rfl⟩

lemma exists_of_run_argumentType {c : Lambda} {gs : List (Generic Ty)} {ps : List Ty} {r u : Ty}
    (hlength : c.params.length = ps.length) (hnone : ∀ p ∈ c.params, p.type = none)
    (hps : ∀ p ∈ ps, p.isAbsent = false)
    (hrun : (argumentType (levels n) (.closure c) (.fn gs ps r)).run s = (.ok u, t)) :
    ∃ known r', u = .fn [] (Ty.completeAll known ps) r' := by
  obtain ⟨v, s₁, hexpr, hrest⟩ := exists_of_run_bind hrun
  cases n with
  | zero => cases hexpr
  | succ n =>
    obtain ⟨w, s₂, hclosure, hkeep⟩ := exists_of_run_bind hexpr
    change (if ps.length = c.params.length then (levels n).closure c ps r.resultOf else _).run s = _ at hclosure
    rw [if_pos hlength.symm] at hclosure
    cases n with
    | zero => cases hclosure
    | succ n =>
      obtain ⟨known, r', rfl⟩ := typeClosure_of_run hlength hnone hps hclosure
      cases hkeep
      cases hrest
      exact ⟨known, r', rfl⟩

lemma Argument.InPlace.type_eq {x : Argument} {qs : List Ty} (hx : x.InPlace qs)
    (hgave : s.Gave t (argumentType (levels n) x.expr x.hint) x.type) :
    ∃ gs r r', x.param = .fn gs qs r ∧
      x.type = .fn [] (Ty.replaceAll (Bindings.valueOf x.known) (gs.map (·.name)) qs) r' := by
  obtain ⟨c, hc, hlength, hnone⟩ := hx.closure
  obtain ⟨gs, r, hparam⟩ := hx.param
  obtain ⟨u, v, -, hrun, -⟩ := hgave
  obtain ⟨r', hhint⟩ : ∃ r', x.hint = .fn gs (Ty.replaceAll (Bindings.valueOf x.known) (gs.map (·.name)) qs) r' := by
    rw [Argument.hint, hparam, Ty.substitute, Ty.replace, List.append_nil]
    exact ⟨_, rfl⟩
  obtain ⟨hpresent, hcomplete⟩ := hx.hint _ _ _ hhint
  rw [hc, hhint] at hrun
  obtain ⟨known, r'', htype⟩ := exists_of_run_argumentType (by simpa [replaceAll_eq_map] using hlength) hnone hpresent hrun
  exact ⟨gs, r, r'', hparam, by rw [htype, hcomplete]⟩

/-! ### What the arguments bind -/

section Inference

variable {f : Callee} (hclear : f.Clear)
include hclear

lemma not_mentions_of_not_early {x : Argument} (hparam : x.param ∈ f.params)
    (hgave : s.Gave t (argumentType (levels n) x.expr x.hint) x.type) (hknown : Bindings.Foreign f.generics x.known)
    (hordinary : x.Ordinary f.generics) (hearly : ¬ x.Early f.generics) : ¬ x.type.Mentions f.generics := by
  obtain hforeign | ⟨qs, hx, hresult⟩ := hordinary
  · exact hforeign
  obtain ⟨gs, r, r', hfn, htype⟩ := hx.type_eq hgave
  rintro ⟨h, hleaf, g, hg, hname, hkey⟩
  rw [htype, Ty.leaves, List.mem_append] at hleaf
  obtain hleaf | hleaf := hleaf
  · obtain hdeclared | ⟨q, hq, hvalue⟩ := Ty.mem_leavesAll_replaceAll qs hleaf
    · apply hclear.declared x.param (List.mem_cons_of_mem _ hparam) g hg
      rw [hfn, ← hname]
      exact List.mem_append_left _ hdeclared
    · unfold Bindings.valueOf at hvalue
      cases hlookup : Bindings.lookupIn x.known q.name with
      | some v =>
        rw [hlookup] at hvalue
        exact hknown q.name v hlookup ⟨h, hvalue, g, hg, hname, hkey⟩
      | none =>
        rw [hlookup] at hvalue
        obtain rfl : h = q := List.mem_singleton.mp hvalue
        refine hearly ⟨qs, hx, g, hg, ?_, hname ▸ hlookup⟩
        rw [Ty.mentionsAll_eq_map, ← hname]
        exact List.mem_map_of_mem (Ty.occurrencesInAll_subset _ qs hq)
  · exact hresult _ _ htype ⟨h, hleaf, g, hg, hname, hkey⟩

lemma foreign_of_not_early {known : List Bindings} {args : List Expr} {params us : List Ty} (hparams : params ⊆ f.params)
    (hlength : us.length = args.length) (hinferred : Inferred (levels n) s t (arguments known args params us))
    (hknown : Bindings.Foreign f.generics known) (hordinary : ∀ x ∈ arguments known args params us, x.Ordinary f.generics)
    (hearly : ∀ x ∈ arguments known args params us, ¬ x.Early f.generics) :
    Bindings.Foreign f.generics (List.zipWith Ty.unify us params) := by
  have hnil : Bindings.Foreign f.generics [] := fun name u hu => nomatch hu
  induction args generalizing known params us with
  | nil =>
    cases List.length_eq_zero_iff.mp hlength
    exact hnil
  | cons a args ih =>
    cases us with
    | nil => cases hlength
    | cons u us =>
      cases params with
      | nil => exact hnil
      | cons p params =>
        rw [arguments, List.forall_mem_cons] at hordinary hearly
        rw [arguments, Inferred, List.forall_mem_cons] at hinferred
        rw [List.cons_subset] at hparams
        have hfirst := not_mentions_of_not_early hclear hparams.1 hinferred.1 hknown hordinary.1 hearly.1
        have hlayer : Bindings.Foreign f.generics [Ty.unify u p] := .unify hfirst p
        exact hlayer.append
          (ih hparams.2 (by simpa using hlength) hinferred.2 (hknown.append hlayer) hordinary.2 hearly.2)

lemma unify_mentions_of_early {x : Argument} (hparam : x.param ∈ f.params)
    (hgave : s.Gave t (argumentType (levels n) x.expr x.hint) x.type) (hearly : x.Early f.generics) :
    ∃ name u, Bindings.lookupIn x.known name = none ∧ (Ty.unify x.type x.param).get? name = some u ∧
      u.Mentions f.generics := by
  obtain ⟨qs, hplace, g, hg, hmentions, hlookup⟩ := hearly
  obtain ⟨gs, r, r', hfn, htype⟩ := hplace.type_eq hgave
  have hleft : ∀ h : Generic Ty, h.name = g.name → Bindings.valueOf x.known h = .generic h := by
    intro h hh
    rw [Bindings.valueOf, hh, hlookup]
    rfl
  have hempty : Bindings.empty.get? g.name = none := rfl
  obtain ⟨h, hh, hname, hget⟩ := Ty.get?_unifyAllInto_replaceAll hleft (gs.map (·.name)) hempty qs hmentions
  refine ⟨g.name, .generic h, hlookup, ?_, h, List.mem_singleton_self h, g, hg, hname, ?_⟩
  · rw [htype, hfn, Ty.unify, Ty.unifyInto]
    split
    · exact hget
    · exact Ty.unifyInto_extends _ _ _ _ _ hget
  · apply hclear.keys x.param (List.mem_cons_of_mem _ hparam) h _ g hg hname
    rw [hfn]
    exact List.mem_append_left _ hh

lemma mentions_of_early {known : List Bindings} {args : List Expr} {params us : List Ty} (hparams : params ⊆ f.params)
    (hinferred : Inferred (levels n) s t (arguments known args params us))
    (hearly : ∃ x ∈ arguments known args params us, x.Early f.generics) :
    ∃ name u, Bindings.lookupIn known name = none ∧
      Bindings.lookupIn (List.zipWith Ty.unify us params) name = some u ∧ u.Mentions f.generics := by
  induction args generalizing known params us with
  | nil => simp [arguments] at hearly
  | cons a args ih =>
    cases us with
    | nil => cases params <;> simp [arguments] at hearly
    | cons u us =>
      cases params with
      | nil => simp [arguments] at hearly
      | cons p params =>
        rw [arguments, Inferred, List.forall_mem_cons] at hinferred
        rw [List.cons_subset] at hparams
        rw [arguments, List.exists_mem_cons_iff] at hearly
        obtain hearly | hearly := hearly
        · obtain ⟨name, v, hnone, hget, hmentions⟩ := unify_mentions_of_early hclear hparams.1 hinferred.1 hearly
          refine ⟨name, v, hnone, ?_, hmentions⟩
          rw [List.zipWith_cons_cons, Bindings.lookupIn, hget]
          rfl
        · obtain ⟨name, v, hnone, hsome, hmentions⟩ := ih hparams.2 hinferred.2 hearly
          rw [Bindings.lookupIn_append, Bindings.lookupIn_singleton, Option.or_eq_none_iff] at hnone
          refine ⟨name, v, hnone.1, ?_, hmentions⟩
          rw [List.zipWith_cons_cons, Bindings.lookupIn, hnone.2]
          exact hsome

end Inference

/-! ### What a call returns -/

/-- The generics are not those of declarations around the place. -/
structure Outside (gs : List (Generic Ty)) (s : State) : Prop where
  glanced : s.Glanced
  foreign : ∀ g ∈ gs, ((inDeclaration g).run s).1 = .ok false

lemma inDeclaration_reads (g : Generic Ty) : Reads .names (inDeclaration g) := by
  rw [inDeclaration]
  split
  · rw [selfType?, bind_assoc]
    refine .frame (fun f => ?_) fun f => ?_
    · simp [Frame.plain, List.findSome?_map, Function.comp_def, Scope.plain]
    · rw [pure_bind]
      split <;> exact .pure _
  · refine (resolve_reads _ _).bind fun r => ?_
    split
    · exact .pure _
    · exact .ofExcept (.error _)
    · exact .pure _

lemma inDeclaration_of_quiet {info : Option Info} {gs : List (Generic Ty)} {kept : List (String × String)}
    (hs : s.Glanced) (hbuilt : s.built = true) (hrun : (keptGenerics info gs).run s = (.ok kept, t))
    (hquiet : t.diagnostics = s.diagnostics) : ∀ g ∈ gs, ((inDeclaration g).run s).1 = .ok true := by
  induction gs generalizing kept with
  | nil => simp
  | cons g gs ih =>
    rw [keptGenerics] at hrun
    obtain ⟨inside, s₁, hinside, hrest⟩ := exists_of_run_bind hrun
    -- the question leaves the state as it is
    have hanswer : ((inDeclaration g).run s).1 = .ok inside := congrArg Prod.fst hinside
    obtain rfl : s = s₁ := by
      rw [inDeclaration_reads g s hs] at hinside
      exact congrArg Prod.snd hinside
    cases inside with
    | false => exact absurd hquiet (not_quiet_of_report (keptGenerics_moves info gs) hbuilt hrest)
    | true =>
      obtain ⟨kept', s₂, hkept, hpure⟩ := exists_of_run_bind hrest
      cases hpure
      exact List.forall_mem_cons.mpr ⟨hanswer, ih hkept⟩

lemma inDeclaration_congr {g h : Generic Ty} (hname : h.name = g.name) (hkey : h.key = g.key) :
    inDeclaration h = inDeclaration g := by
  obtain ⟨name, key, bounds⟩ := g
  obtain ⟨name', key', bounds'⟩ := h
  obtain rfl : name' = name := hname
  obtain rfl : key' = key := hkey
  rfl

lemma foreign_fromResult {gs : List (Generic Ty)} {expected : Ty} (h : ¬ expected.Mentions gs) (f : Callee) :
    Bindings.Foreign gs (fromResult f expected) := by
  unfold fromResult
  split
  · exact fun name u hu => nomatch hu
  · exact .unify h _

namespace Course

variable {nested : Nested} {info : Info} {f : Callee} {explicit : List TypeExpr} {args : List Expr}
  {receiver : List Bindings} {expected : Ty} (c : Course nested info f explicit args receiver expected s t)

lemma not_mentions_result (h : nested.Moves) (hs : s.built = true) (hclear : f.Clear)
    (hlayers : Bindings.Foreign f.generics c.layers) (houtside : Outside f.generics c.returning)
    (hquiet : t.diagnostics = c.returning.diagnostics) : ¬ c.result.Mentions f.generics := by
  rintro ⟨leaf, hleaf, g, hg, hname, hkey⟩
  have hdeclared : leaf.name ∉ f.result.resultOf.declared := by
    rw [hname]
    exact hclear.declared _ (by simp) g hg
  have hvalue {q : Generic Ty} {d : Ty} (hq : leaf ∈ ((Bindings.lookupIn c.layers q.name).getD d).leaves) :
      Bindings.lookupIn c.layers q.name = none ∧ leaf ∈ d.leaves := by
    cases hlookup : Bindings.lookupIn c.layers q.name with
    | some v =>
      rw [hlookup] at hq
      exact absurd ⟨leaf, hq, g, hg, hname, hkey⟩ (hlayers q.name v hlookup)
    | none =>
      rw [hlookup] at hq
      exact ⟨rfl, hq⟩
  rw [c.result_of_quiet h hs hquiet] at hleaf
  have hrun := c.returns
  unfold Callee.returns at hleaf
  unfold returnType at hrun
  split at hleaf
  · obtain hmem | ⟨q, hq, hmem⟩ := Ty.mem_leaves_replace _ hleaf
    · exact hdeclared hmem
    · cases (hvalue hmem).2
  · next hconstructor =>
    rw [if_neg hconstructor] at hrun
    obtain hmem | ⟨q, hq, hmem⟩ := Ty.mem_leaves_replace _ hleaf
    · exact hdeclared hmem
    · obtain ⟨hnone, hmem⟩ := hvalue hmem
      obtain rfl : leaf = q := List.mem_singleton.mp hmem
      -- the generic was left because it is in scope
      obtain ⟨kept, u, hkept, hpure⟩ := exists_of_run_bind hrun
      obtain rfl : u = t := congrArg Prod.snd hpure
      have hmoved := c.moved h hs
      have hreturning := (((hmoved.counts.trans hmoved.binds).trans hmoved.infers).trans hmoved.fits).built.trans hs
      have hunbound := (c.alike_layers h hs leaf.name).trans hnone
      have hinside := inDeclaration_of_quiet houtside.glanced hreturning hkept hquiet leaf
        (List.mem_filter.mpr ⟨hq, by rw [hunbound]; rfl⟩)
      rw [inDeclaration_congr hname hkey, houtside.foreign g hg] at hinside
      cases hinside

end Course

end Check

/-- A call leaves its callee's generics behind only through its arguments. Where these are ordinary, that is exactly if
a closure comes before the generics in its parameters are bound. -/
theorem call_leaks_iff_closure_early {n : Nat} {info : Info} {f : Check.Callee} {explicit : List TypeExpr}
    {args : List Expr} {receiver : List Bindings} {expected r : Ty} {s t : State} (hs : s.built = true)
    (hclear : f.Clear) (hreceiver : Bindings.Foreign f.generics receiver) (hexpected : ¬ expected.Mentions f.generics)
    (hrun : (Check.applyFn (Check.levels n) info f explicit args receiver expected).run s = (.ok r, t)) :
    ∃ c : Check.Course (Check.levels n) info f explicit args receiver expected s t, c.result = r ∧
      (Bindings.Foreign f.generics [c.bound] → (∀ x ∈ c.arguments, x.Ordinary f.generics) →
        ((∃ name u, c.inferred.get? name = some u ∧ u.Mentions f.generics) ↔ ∃ x ∈ c.arguments, x.Early f.generics)) ∧
      (Bindings.Foreign f.generics [c.bound] → Check.Outside f.generics c.returning → t.diagnostics = s.diagnostics →
        r.Mentions f.generics → ∃ name u, c.inferred.get? name = some u ∧ u.Mentions f.generics) := by
  obtain ⟨c, rfl⟩ := Check.exists_course hrun
  have hmoves := Check.levels_moves n
  obtain ⟨hlength, hinferred, halike⟩ := c.inferred_arguments hmoves hs
  have hget (name : String) : c.inferred.get? name = Bindings.lookupIn (List.zipWith Ty.unify c.types f.params) name := by
    rw [halike name, Bindings.lookupIn_singleton]
  refine ⟨c, rfl, fun hbound hordinary => ⟨?_, fun hearly => ?_⟩, fun hbound houtside hquiet hmentions => ?_⟩
  · rintro ⟨name, u, hu, hmentions⟩
    by_contra hearly
    have hforeign := Check.foreign_of_not_early hclear (List.Subset.refl _) hlength hinferred (hbound.cons hreceiver)
      hordinary fun x hx hx' => hearly ⟨x, hx, hx'⟩
    exact hforeign name u (hget name ▸ hu) hmentions
  · obtain ⟨name, u, -, hu, hmentions⟩ := Check.mentions_of_early hclear (List.Subset.refl _) hinferred hearly
    exact ⟨name, u, (hget name).trans hu, hmentions⟩
  · by_contra hforeign
    have hlayer : Bindings.Foreign f.generics (List.zipWith Ty.unify c.types f.params) := fun name u hu hu' =>
      hforeign ⟨name, u, (hget name).trans hu, hu'⟩
    have hlayers := ((hbound.cons hreceiver).append hlayer).append (Check.foreign_fromResult hexpected f)
    have hmoved := c.moved hmoves hs
    have hbefore := ((hmoved.counts.trans hmoved.binds).trans hmoved.infers).trans hmoved.fits
    obtain ⟨-, hreturns⟩ := hbefore.quiet hmoved.returns hquiet
    exact c.not_mentions_result hmoves hs hclear hlayers houtside hreturns hmentions

namespace Leaks

def state : State := Check.entered 0 (.of [])

def input : Generic Ty := ⟨"T", "apply::T", []⟩

def output : Generic Ty := ⟨"U", "apply::U", []⟩

/-- `|a| a` -/
def identity : Expr :=
  .closure ⟨⟨.none, 2⟩, [⟨⟨.none, 1⟩, "a", none⟩], none, ⟨⟨.none, 5⟩, [.expr ⟨.none, 4⟩ (.ident ⟨⟨.none, 3⟩, ["a"], []⟩)]⟩⟩

/-- `fn applyTo<T, U>(x: T, f: fn(T): U): U` -/
def applyTo : Check.Callee :=
  ⟨[input, output], [.generic input, .fn [] [.generic input] (.generic output)], .generic output, false⟩

/-- `fn apply<T, U>(f: fn(T): U): U` -/
def apply : Check.Callee := ⟨[input, output], [.fn [] [.generic input] (.generic output)], .generic output, false⟩

lemma applyTo_clear : applyTo.Clear := ⟨by decide, by decide⟩

lemma bound_eq {n : Nat} {f : Check.Callee} {args : List Expr} {expected : Ty} {s t : State}
    (c : Check.Course (Check.levels n) ⟨.none, 6⟩ f [] args [] expected s t) :
    c.bound = .empty ∧ c.checking = c.counted := by
  have hbinds := c.binds
  exact ⟨(Except.ok.inj (congrArg Prod.fst hbinds)).symm, (congrArg Prod.snd hbinds).symm⟩

/-- In `applyTo(1, |a| a)` the closure comes after the number that its parameter is of the type of. -/
theorem applyTo_leaves_nothing : state.built = true ∧ applyTo.Clear ∧ Bindings.Foreign applyTo.generics [] ∧
    ¬ Ty.absent.Mentions applyTo.generics ∧
    ∃ t, (Check.applyFn (Check.levels 4) ⟨.none, 6⟩ applyTo [] [Calls.one, identity] [] .absent).run state = (.ok .int, t) ∧
    ∃ c : Check.Course (Check.levels 4) ⟨.none, 6⟩ applyTo [] [Calls.one, identity] [] .absent state t,
      ¬ ∃ name u, c.inferred.get? name = some u ∧ u.Mentions applyTo.generics := by
  have hempty : Bindings.Foreign applyTo.generics [] := fun _ _ h => nomatch h
  have habsent : ¬ Ty.absent.Mentions applyTo.generics := by
    rintro ⟨_, hleaf, -⟩
    cases hleaf
  obtain ⟨t, hrun⟩ : ∃ t, (Check.applyFn (Check.levels 4) ⟨.none, 6⟩ applyTo [] [Calls.one, identity] [] .absent).run state =
    (.ok .int, t) := ⟨_, rfl⟩
  obtain ⟨c, -, hleaks, -⟩ := call_leaks_iff_closure_early rfl applyTo_clear hempty habsent hrun
  refine ⟨rfl, applyTo_clear, hempty, habsent, t, hrun, c, ?_⟩
  obtain ⟨hbound, hchecking⟩ := bound_eq c
  have hcounted : c.counted = state := (congrArg Prod.snd c.counts).symm
  have htypes : c.types = [.int, .fn [] [.int] .int] := by
    have hinfers := c.infers
    rw [hchecking, hcounted, hbound] at hinfers
    exact (congrArg Prod.fst (Except.ok.inj (congrArg Prod.fst hinfers))).symm
  have harguments : c.arguments = [⟨Calls.one, .generic input, [.empty], .int⟩, ⟨identity, .fn [] [.generic input] (.generic output),
      [.empty, Ty.unify .int (.generic input)], .fn [] [.int] .int⟩] := by
    rw [Check.Course.arguments, hbound, htypes]
    rfl
  rw [hleaks, harguments]
  · rintro ⟨x, hx, qs, hplace, g, hg, hmentions, hlookup⟩
    obtain ⟨gs, r, hparam⟩ := hplace.param
    obtain rfl | hx := List.mem_cons.mp hx
    · cases hparam
    · obtain rfl := List.mem_singleton.mp hx
      cases hparam
      rw [show g.name = "T" from List.mem_singleton.mp hmentions] at hlookup
      cases hlookup
  · intro name u hu
    rw [hbound, Bindings.lookupIn_singleton] at hu
    cases hu
  · rw [harguments]
    intro x hx
    left
    obtain rfl | hx := List.mem_cons.mp hx
    · rintro ⟨_, hleaf, -⟩
      cases hleaf
    · obtain rfl := List.mem_singleton.mp hx
      rintro ⟨_, hleaf, -⟩
      cases hleaf

/-- In `apply(|a| a)` nothing says what the parameter is, and the call has a type of the function's own. -/
theorem apply_leaves_generic : state.built = true ∧ apply.Clear ∧ Check.Outside apply.generics state ∧
    ∃ t, (Check.applyFn (Check.levels 4) ⟨.none, 6⟩ apply [] [identity] [] .absent).run state = (.ok (.generic input), t) ∧
      t.diagnostics = state.diagnostics ∧ (Ty.generic input).Mentions apply.generics := by
  refine ⟨rfl, ⟨by decide, by decide⟩, ⟨?_, ?_⟩, _, rfl, rfl, ?_⟩
  · intro m hm
    cases hm
  · intro g hg
    obtain rfl | hg := List.mem_cons.mp hg
    · rfl
    · obtain rfl := List.mem_singleton.mp hg
      rfl
  · exact ⟨input, List.mem_singleton_self _, input, List.mem_cons_self, rfl, rfl⟩

end Leaks

end TraitCheck
