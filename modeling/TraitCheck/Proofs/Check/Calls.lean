import TraitCheck.Proofs.Check.Joined
import TraitCheck.Proofs.Check.Nested
import TraitCheck.Proofs.Ty.Layers

/-! Calls. The bindings of a call lie in layers: explicit type arguments, the receiver, one layer for each argument, and the
type that is expected. A call about which nothing is reported is well typed under what they say together. -/

namespace TraitCheck

namespace State

variable {s t u : State}

lemma Updates.quiet (h : s.Updates u) (h' : u.Updates t) (hquiet : t.diagnostics = s.diagnostics) :
    u.diagnostics = s.diagnostics ∧ t.diagnostics = u.diagnostics := by
  have hlength := h'.diagnostics.length_le
  rw [hquiet] at hlength
  have heq : s.diagnostics = u.diagnostics := h.diagnostics.eq_of_length_le hlength
  exact ⟨heq.symm, hquiet.trans heq⟩

lemma accepts_of_run (hs : s.built = true) {a b : Ty} (hrun : (Check.isAssignable a b).run s = (.ok true, t))
    (hu : t.Later u) : u.Accepts b a := by
  obtain ⟨-, hanswer⟩ := Check.isAssignable_answers a b s hs
  obtain ⟨hlater, hasked⟩ := Check.isAssignable_answers a b u hu.built
  rw [hrun] at hanswer
  rw [Accepts, hasked _ (.refl hlater.built)]
  exact (hanswer _ (hu.trans hlater)).symm

end State

namespace Check

open Syntax (Expr TypeExpr Info)

variable {s t : State}

lemma not_quiet_of_report {α : Type} {at? : Option Info} {cause : Diagnostic.Cause} {f : PUnit → Check α}
    (hf : Moves true (f ⟨⟩)) (hs : s.built = true) {r : Except Failure α}
    (hrun : (report at? cause >>= f).run s = (r, t)) : t.diagnostics ≠ s.diagnostics := by
  rw [run_bind_ok (run_report at? cause s)] at hrun
  have hprefix := (hf.updates (by exact hs) hrun).diagnostics.length_le
  intro hquiet
  rw [hquiet, List.length_append, List.length_singleton] at hprefix
  omega

lemma quiet_of_run_forM {α : Type} {f : α → Check PUnit} (hf : ∀ a, Moves true (f a)) {l : List α} (hs : s.built = true)
    (hrun : (l.forM f).run s = (.ok ⟨⟩, t)) (hquiet : t.diagnostics = s.diagnostics) :
    ∀ a ∈ l, ∃ u v, u.built = true ∧ (f a).run u = (.ok ⟨⟩, v) ∧ v.diagnostics = u.diagnostics ∧ v.Updates t := by
  induction l generalizing s with
  | nil => simp
  | cons a l ih =>
    obtain ⟨_, s₁, ha, hrest⟩ := exists_of_run_bind hrun
    have h₁ := (hf a).updates hs ha
    have h₂ := (Moves.forM hf).updates (h₁.built.trans hs) hrest
    obtain ⟨hquiet₁, hquiet₂⟩ := h₁.quiet h₂ hquiet
    exact List.forall_mem_cons.mpr ⟨⟨s, s₁, hs, ha, hquiet₁, h₂⟩, ih (h₁.built.trans hs) hrest hquiet₂⟩

/-! ### Arguments -/

/-- How the type of an argument is found where the type of a parameter is expected. -/
def argumentType (nested : Nested) (a : Expr) (hint : Ty) : Check Ty := do
  settleAgainst nested a (← settle (← nested.expr a hint)) hint

lemma checkArgs_cons (nested : Nested) (maps : List Bindings) (a : Expr) (args : List Expr) (p : Ty) (params : List Ty)
    (inferred : Bindings) : checkArgs nested maps (a :: args) (p :: params) inferred = (do
      let t ← argumentType nested a (p.substitute (maps ++ [inferred]))
      let r ← checkArgs nested maps args params (inferred.underlay (Ty.unify t p))
      return (t :: r.1, r.2)) := by
  simp only [checkArgs, argumentType, bind_assoc]

/-- An argument of a call: its parameter, the bindings that were known before it was checked, and the type that was
found. -/
structure Argument where
  expr : Expr
  param : Ty
  known : List Bindings
  type : Ty

def Argument.hint (x : Argument) : Ty := x.param.substitute x.known

/-- Arguments with their parameters. Each one binds generics for those behind it. -/
def arguments : (known : List Bindings) → List Expr → (params types : List Ty) → List Argument
  | known, a :: args, p :: params, u :: us => ⟨a, p, known, u⟩ :: arguments (known ++ [Ty.unify u p]) args params us
  | _, _, _, _ => []

/-- Between two states the types of arguments were found, each one where its parameter was expected. -/
def Inferred (nested : Nested) (s t : State) (l : List Argument) : Prop :=
  ∀ x ∈ l, s.Gave t (argumentType nested x.expr x.hint) x.type

variable {nested : Nested}

lemma Inferred.mono {s' t' : State} {l : List Argument} (h : Inferred nested s t l) (hs : s'.Updates s)
    (ht : t.Updates t') : Inferred nested s' t' l := fun x hx => (h x hx).mono hs ht

lemma argumentType_moves (h : nested.Moves) (a : Expr) (hint : Ty) : Moves true (argumentType nested a hint) :=
  (h.expr a hint).bind fun u => (settle_moves u).bind fun u => settleAgainst_moves h a u hint

variable {maps : List Bindings} {explicit : List TypeExpr}

lemma inferred_of_run (h : nested.Moves) {known : List Bindings} {args : List Expr} {params us : List Ty}
    {inferred inferred' : Bindings} (hs : s.built = true) (hknown : Bindings.Alike known (maps ++ [inferred]))
    (hrun : (checkArgs nested maps args params inferred).run s = (.ok (us, inferred'), t)) :
    us.length = args.length ∧ Inferred nested s t (arguments known args params us) ∧
      Bindings.Alike (inferred :: List.zipWith Ty.unify us params) [inferred'] := by
  induction args generalizing s params inferred known us with
  | nil =>
    cases hrun
    exact ⟨rfl, by simp [Inferred, arguments], by simpa using .refl _⟩
  | cons a args ih =>
    cases params with
    | nil =>
      obtain ⟨u, s₁, ha, hrest⟩ := exists_of_run_bind hrun
      obtain ⟨⟨us, inferred'⟩, s₂, hargs, hpure⟩ := exists_of_run_bind hrest
      have h₁ := (h.expr a .absent).updates hs ha
      cases hpure
      obtain ⟨hlength, -, halike⟩ := ih (h₁.built.trans hs) hknown hargs
      exact ⟨by simpa using hlength, by simp [Inferred, arguments], by simpa using halike⟩
    | cons p params =>
      rw [checkArgs_cons] at hrun
      obtain ⟨u, s₁, ha, hrest⟩ := exists_of_run_bind hrun
      obtain ⟨⟨us, inferred'⟩, s₂, hargs, hpure⟩ := exists_of_run_bind hrest
      have h₁ := (argumentType_moves h a _).updates hs ha
      have h₂ := (checkArgs_moves h _ _ _ _).updates (h₁.built.trans hs) hargs
      cases hpure
      have hlayer := Bindings.Alike.underlay inferred (Ty.unify u p)
      have hnext : Bindings.Alike (known ++ [Ty.unify u p]) (maps ++ [inferred.underlay (Ty.unify u p)]) := by
        have hlayers : Bindings.Alike (known ++ [Ty.unify u p]) (maps ++ [inferred, Ty.unify u p]) := by
          simpa using hknown.append (.refl [Ty.unify u p])
        exact hlayers.trans ((Bindings.Alike.refl maps).append hlayer.symm)
      obtain ⟨hlength, hrest, halike⟩ := ih (h₁.built.trans hs) hnext hargs
      refine ⟨by simpa using hlength, List.forall_mem_cons.mpr ⟨⟨s, s₁, .refl s, ?_, h₂⟩, hrest.mono h₁ (.refl t)⟩, ?_⟩
      · rwa [Argument.hint, hknown.substitute]
      · exact (hlayer.symm.append (.refl (List.zipWith Ty.unify us params))).trans halike

/-! ### Explicit type arguments -/

/-- Between two states written types were bound to generics by position. -/
def ExplicitlyBound (s t : State) (generics : List (Generic Ty)) (explicit : List TypeExpr) (b : Bindings) : Prop :=
  explicit = [] ∧ b = .empty ∨ explicit.length = generics.length ∧
    ∃ us, List.Forall₂ (fun a u => s.Gave t (typeOf a) u) explicit us ∧ b = .ofList ((generics.map (·.name)).zip us)

def bindExplicit (b : Bindings) (e : Generic Ty × TypeExpr) : Check Bindings := return b.insert e.1.name (← typeOf e.2)

lemma bindExplicit_moves (b : Bindings) (e : Generic Ty × TypeExpr) : Moves true (bindExplicit b e) :=
  (typeOf_moves e.2).bind fun _ => .pure _

lemma exists_of_run_bindExplicit {generics : List (Generic Ty)} {b c : Bindings}
    (hs : s.built = true) (hlength : explicit.length = generics.length)
    (hrun : ((generics.zip explicit).foldlM bindExplicit c).run s = (.ok b, t)) :
    ∃ us, List.Forall₂ (fun a u => s.Gave t (typeOf a) u) explicit us ∧
      b = ((generics.map (·.name)).zip us).foldl (fun acc e => acc.insert e.1 e.2) c := by
  induction explicit generalizing s c generics with
  | nil =>
    cases List.length_eq_zero_iff.mp hlength.symm
    cases hrun
    exact ⟨[], .nil, rfl⟩
  | cons a explicit ih =>
    cases generics with
    | nil => cases hlength
    | cons g generics =>
      rw [List.zip_cons_cons, List.foldlM_cons] at hrun
      obtain ⟨c', s₁, ha, hrest⟩ := exists_of_run_bind hrun
      obtain ⟨u, s₁', hu, hpure⟩ := exists_of_run_bind ha
      cases hpure
      have h₁ := (typeOf_moves a).updates rfl hu
      have h₂ := (Moves.foldlM bindExplicit_moves _).updates (h₁.built.trans hs) hrest
      obtain ⟨us, hus, rfl⟩ := ih (h₁.built.trans hs) (by simpa using hlength) hrest
      exact ⟨u :: us, .cons ⟨s, s₁, .refl s, hu, h₂⟩ (hus.imp fun _ _ hgave => hgave.mono h₁ (.refl t)), rfl⟩

lemma explicitlyBound_of_run {info : Info} {generics : List (Generic Ty)} {b : Bindings}
    (hs : s.built = true) (hrun : (explicitGenerics info generics explicit).run s = (.ok b, t))
    (hquiet : t.diagnostics = s.diagnostics) : ExplicitlyBound s t generics explicit b := by
  unfold explicitGenerics at hrun
  split at hrun
  · next hempty =>
    cases hrun
    exact .inl ⟨List.isEmpty_iff.mp hempty, rfl⟩
  · unfold checkArity at hrun
    split at hrun
    · next hlength => exact .inr ⟨hlength.symm, exists_of_run_bindExplicit hs hlength.symm hrun⟩
    · rw [bind_assoc] at hrun
      exact absurd hquiet (not_quiet_of_report (f := fun _ => pure Bindings.empty) (.pure _) hs hrun)

lemma ExplicitlyBound.mono {s' t' : State} {generics : List (Generic Ty)} {b : Bindings}
    (h : ExplicitlyBound s t generics explicit b) (hs : s'.Updates s) (ht : t.Updates t') :
    ExplicitlyBound s' t' generics explicit b := by
  obtain h | ⟨hlength, us, hus, hb⟩ := h
  · exact .inl h
  · exact .inr ⟨hlength, us, hus.imp fun _ _ hgave => hgave.mono hs ht, hb⟩

/-! ### The end of a call -/

/-- A value that each one who asks later finds fit. -/
def Fits (s : State) (target value : Ty) : Prop := ∀ u, s.Later u → u.Accepts target value

lemma fits_of_run_fitArguments {args : List Expr} {us params : List Ty} (hs : s.built = true)
    (hargs : args.length = params.length) (hus : us.length = args.length)
    (hrun : (fitArguments maps args us params).run s = (.ok (), t)) (hquiet : t.diagnostics = s.diagnostics) :
    List.Forall₂ (fun u p => Fits t (p.substituteOrHole maps) u) us params := by
  induction args generalizing s us params with
  | nil =>
    cases List.length_eq_zero_iff.mp hargs.symm
    cases List.length_eq_zero_iff.mp hus
    exact .nil
  | cons a args ih =>
    cases us with
    | nil => cases hus
    | cons u us =>
      cases params with
      | nil => cases hargs
      | cons p params =>
        obtain ⟨fits, s₁, hfits, hrest⟩ := exists_of_run_bind hrun
        have h₁ := (isAssignable_moves u _).updates hs hfits
        have hs₁ := h₁.built.trans hs
        cases fits with
        | false =>
          have hmoves := (fitArguments_moves maps args us params)
          have hreported := not_quiet_of_report (f := fun _ => fitArguments maps args us params) hmoves hs₁ hrest
          have ht := (report_moves (some a.info) _).bind (fun _ => hmoves) |>.updates hs₁ hrest
          exact absurd (h₁.quiet ht hquiet).2 hreported
        | true =>
          obtain ⟨_, s₂, hupcast, hrest⟩ := exists_of_run_bind hrest
          have h₂ := (upcastTo_moves a u _).updates hs₁ hupcast
          have h₃ := (fitArguments_moves _ _ _ _).updates (h₂.built.trans hs₁) hrest
          have hquiet' := ((h₁.trans h₂).quiet h₃ hquiet).2
          refine .cons (fun w hw => ?_) (ih (h₂.built.trans hs₁) (by simpa using hargs) (by simpa using hus) hrest hquiet')
          exact State.accepts_of_run hs hfits (((h₂.trans h₃).later hs₁).trans hw)

def checkBound (info : Info) (maps : List Bindings) (value b : Ty) : Check Unit := do
  unless ← isAssignable value (b.substituteOrHole maps) do
    report (some info) (.typeMismatch (b.substituteOrHole maps) value)

def checkGeneric (info : Info) (maps : List Bindings) (g : Generic Ty) : Check Unit := do
  match Bindings.lookupIn maps g.name with
  | some value => unless value.absorbs do g.bounds.forM (checkBound info maps value)
  | none => return

lemma checkBounds_eq (info : Info) (maps : List Bindings) (generics : List (Generic Ty)) :
    checkBounds info maps generics = generics.forM (checkGeneric info maps) := rfl

lemma checkBound_moves (info : Info) (maps : List Bindings) (value b : Ty) : Moves true (checkBound info maps value b) :=
  (isAssignable_moves value _).bind fun _ => .ite (.pure _) (report_moves _ _)

lemma checkGeneric_moves (info : Info) (maps : List Bindings) (g : Generic Ty) :
    Moves true (checkGeneric info maps g) := by
  unfold checkGeneric
  cases Bindings.lookupIn maps g.name with
  | none => exact .pure _
  | some value => exact .ite (.pure _) (.forM (checkBound_moves info maps value))

lemma fits_of_run_checkBound {info : Info} {value b : Ty} (hs : s.built = true)
    (hrun : (checkBound info maps value b).run s = (.ok (), t)) (hquiet : t.diagnostics = s.diagnostics) :
    Fits t (b.substituteOrHole maps) value := by
  obtain ⟨fits, s₁, hfits, hreport⟩ := exists_of_run_bind hrun
  have h₁ := (isAssignable_moves value _).updates hs hfits
  have hs₁ := h₁.built.trans hs
  cases fits with
  | false =>
    have hreported := not_quiet_of_report (f := pure) (.pure _) hs₁ hreport
    exact absurd (h₁.quiet ((report_moves _ _).updates hs₁ hreport) hquiet).2 hreported
  | true =>
    cases hreport
    exact fun w hw => State.accepts_of_run hs hfits hw

lemma Fits.mono {target value : Ty} (h : Fits s target value) (hs : s.built = true) (ht : s.Updates t) :
    Fits t target value := fun w hw => h w ((ht.later hs).trans hw)

lemma fits_of_run_checkBounds {info : Info} {generics : List (Generic Ty)} (hs : s.built = true)
    (hrun : (checkBounds info maps generics).run s = (.ok (), t)) (hquiet : t.diagnostics = s.diagnostics) :
    ∀ g ∈ generics, ∀ value, Bindings.lookupIn maps g.name = some value →
      ∀ b ∈ g.bounds, Fits t (b.substituteOrHole maps) value := by
  intro g hg value hvalue b hb
  by_cases habsorbs : value.absorbs = true
  · exact fun w hw => State.accepts_neutral hw.built (.inr habsorbs) _
  rw [checkBounds_eq] at hrun
  obtain ⟨s₁, s₂, hs₁, hgeneric, hquiet₁, ht⟩ := quiet_of_run_forM (checkGeneric_moves info maps) hs hrun hquiet g hg
  unfold checkGeneric at hgeneric
  rw [hvalue] at hgeneric
  simp only [habsorbs, Bool.false_eq_true, if_false] at hgeneric
  obtain ⟨u, v, hu, hbound, hquiet₂, hv⟩ :=
    quiet_of_run_forM (checkBound_moves info maps value) hs₁ hgeneric hquiet₁ b hb
  have hmoved := (checkBound_moves info maps value b).updates hu hbound
  exact (fits_of_run_checkBound hu hbound hquiet₂).mono (hmoved.built.trans hu) (hv.trans ht)

lemma kept_of_run {info : Option Info} {gs : List (Generic Ty)} {kept : List (String × String)} (hs : s.built = true)
    (hrun : (keptGenerics info gs).run s = (.ok kept, t)) (hquiet : t.diagnostics = s.diagnostics) :
    ∀ g ∈ gs, (g.name, g.key) ∈ kept := by
  induction gs generalizing s kept with
  | nil => simp
  | cons g gs ih =>
    rw [keptGenerics] at hrun
    obtain ⟨inside, s₁, hinside, hrest⟩ := exists_of_run_bind hrun
    have h₁ := (inDeclaration_moves g).updates rfl hinside
    have hs₁ := h₁.built.trans hs
    cases inside with
    | false =>
      have hreported := not_quiet_of_report (f := fun _ => keptGenerics info gs) (keptGenerics_moves _ _) hs₁ hrest
      have ht := ((report_moves info _).bind fun _ => keptGenerics_moves info gs).updates hs₁ hrest
      exact absurd (h₁.quiet ht hquiet).2 hreported
    | true =>
      obtain ⟨kept', s₂, hkept, hpure⟩ := exists_of_run_bind hrest
      have h₂ := (keptGenerics_moves info gs).updates hs₁ hkept
      cases hpure
      refine List.forall_mem_cons.mpr ⟨by simp, fun g' hg' => List.mem_cons_of_mem _ ?_⟩
      exact ih hs₁ hkept (h₁.quiet h₂ hquiet).2 g' hg'

lemma substitute_of_run_resolveGenerics {info : Option Info} {u r : Ty} (hs : s.built = true)
    (hrun : (resolveGenerics info maps u).run s = (.ok r, t)) (hquiet : t.diagnostics = s.diagnostics) :
    r = u.substitute maps := by
  obtain ⟨kept, s₁, hkept, hpure⟩ := exists_of_run_bind hrun
  cases hpure
  refine Ty.replace_congr u fun g hg => ?_
  cases hget : Bindings.lookupIn maps g.name with
  | some value => rfl
  | none =>
    have hmem : (g.name, g.key) ∈ kept :=
      kept_of_run hs hkept hquiet g (List.mem_filter.mpr ⟨hg, by simp [hget]⟩)
    simp [hmem]

/-! ### Calls -/

/-- The bindings of a call in the order in which they count, one layer for each argument. -/
def layers (explicit : Bindings) (receiver : List Bindings) (us : List Ty) (f : Callee) (expected : Ty) : List Bindings :=
  explicit :: receiver ++ List.zipWith Ty.unify us f.params ++ fromResult f expected

/-- What a call returns if its generics are bound. -/
def Callee.returns (f : Callee) (maps : List Bindings) : Ty :=
  if f.isConstructor then f.result.resultOf.substituteOrHole maps else f.result.resultOf.substitute maps

/-- A call is well typed under some bindings. -/
structure CallFits (t : State) (f : Callee) (maps : List Bindings) (us : List Ty) (r : Ty) : Prop where
  arguments : List.Forall₂ (fun u p => Fits t (p.substituteOrHole maps) u) us f.params
  bounds : ∀ g ∈ f.generics, ∀ value, Bindings.lookupIn maps g.name = some value →
    ∀ b ∈ g.bounds, Fits t (b.substituteOrHole maps) value
  result : r = f.returns maps

def checkCount (info : Info) (f : Callee) (args : List Expr) : Check Unit := do
  unless args.length = f.params.length do
    report (some info) (.arityMismatch "arguments" f.params.length args.length)

def fitCall (info : Info) (f : Callee) (args : List Expr) (maps : List Bindings) (us : List Ty) : Check Unit := do
  fitArguments maps args us f.params
  checkBounds info maps f.generics

def returnType (info : Info) (f : Callee) (maps : List Bindings) : Check Ty := do
  if f.isConstructor then return f.result.resultOf.substituteOrHole maps
  else resolveGenerics (some info) maps f.result.resultOf

/-- A call in its parts, with the states between them. -/
structure Course (nested : Nested) (info : Info) (f : Callee) (explicit : List TypeExpr) (args : List Expr)
    (receiver : List Bindings) (expected : Ty) (s t : State) where
  bound : Bindings
  types : List Ty
  inferred : Bindings
  result : Ty
  counted : State
  checking : State
  fitting : State
  returning : State
  counts : (checkCount info f args).run s = (.ok (), counted)
  binds : (explicitGenerics info f.generics explicit).run counted = (.ok bound, checking)
  infers : (checkArgs nested (bound :: receiver) args f.params .empty).run checking = (.ok (types, inferred), fitting)
  fits : (fitCall info f args (bound :: receiver ++ [inferred] ++ fromResult f expected) types).run fitting =
    (.ok (), returning)
  returns : (returnType info f (bound :: receiver ++ [inferred] ++ fromResult f expected)).run returning = (.ok result, t)

lemma exists_course {info : Info} {f : Callee} {args : List Expr} {receiver : List Bindings}
    {expected r : Ty} (hrun : (applyFn nested info f explicit args receiver expected).run s = (.ok r, t)) :
    ∃ c : Course nested info f explicit args receiver expected s t, c.result = r := by
  have hcall : (checkCount info f args >>= fun _ => callWith nested info f explicit args receiver expected).run s =
      (.ok r, t) := by
    rw [applyFn_eq] at hrun
    unfold checkCount
    split_ifs at hrun ⊢
    · exact hrun
    · exact hrun
  obtain ⟨_, s₁, hcounts, hrest⟩ := exists_of_run_bind hcall
  obtain ⟨b, s₂, hbinds, hrest⟩ := exists_of_run_bind hrest
  obtain ⟨⟨us, inferred⟩, s₃, hinfers, hfinish⟩ := exists_of_run_bind hrest
  obtain ⟨_, s₄, hfit, hrest⟩ := exists_of_run_bind hfinish
  obtain ⟨_, s₅, hbounds, hreturns⟩ := exists_of_run_bind hrest
  exact ⟨⟨b, us, inferred, r, s₁, s₂, s₃, s₅, hcounts, hbinds, hinfers, (run_bind_ok hfit _).trans hbounds, hreturns⟩, rfl⟩

namespace Course

variable {info : Info} {f : Callee} {explicit : List TypeExpr} {args : List Expr} {receiver : List Bindings} {expected : Ty}

def layers (c : Course nested info f explicit args receiver expected s t) : List Bindings :=
  Check.layers c.bound receiver c.types f expected

def arguments (c : Course nested info f explicit args receiver expected s t) : List Argument :=
  Check.arguments (c.bound :: receiver) args f.params c.types

variable (c : Course nested info f explicit args receiver expected s t)

structure Moved : Prop where
  counts : s.Updates c.counted
  binds : c.counted.Updates c.checking
  infers : c.checking.Updates c.fitting
  fits : c.fitting.Updates c.returning
  returns : c.returning.Updates t

lemma moved (h : nested.Moves) (hs : s.built = true) : c.Moved := by
  have hcounts : s.Updates c.counted := Moves.updates (b := true) (.ite (.pure _) (report_moves _ _)) hs c.counts
  have hbinds := (explicitGenerics_moves _ _ _).updates (hcounts.built.trans hs) c.binds
  have hinfers := (checkArgs_moves h _ _ _ _).updates ((hcounts.trans hbinds).built.trans hs) c.infers
  have hfitting := ((hcounts.trans hbinds).trans hinfers).built.trans hs
  have hfits := Moves.updates (b := true)
    ((fitArguments_moves _ _ _ _).bind fun _ => checkBounds_moves _ _ _) hfitting c.fits
  have hreturns := Moves.updates (b := true)
    (.ite (.pure _) (resolveGenerics_moves _ _ _)) (hfits.built.trans hfitting) c.returns
  exact ⟨hcounts, hbinds, hinfers, hfits, hreturns⟩

lemma inferred_arguments (h : nested.Moves) (hs : s.built = true) :
    c.types.length = args.length ∧ Inferred nested c.checking c.fitting c.arguments ∧
      Bindings.Alike (List.zipWith Ty.unify c.types f.params) [c.inferred] := by
  have hmoved := c.moved h hs
  have hempty (maps : List Bindings) : Bindings.Alike (maps ++ [.empty]) maps := by
    intro name
    rw [Bindings.lookupIn_append, Bindings.lookupIn_singleton]
    exact Option.or_none
  obtain ⟨hlength, hinferred, halike⟩ :=
    inferred_of_run h ((hmoved.counts.trans hmoved.binds).built.trans hs) (hempty _).symm c.infers
  exact ⟨hlength, hinferred, ((hempty []).symm.append (.refl _)).trans halike⟩

lemma alike_layers (h : nested.Moves) (hs : s.built = true) :
    Bindings.Alike (c.bound :: receiver ++ [c.inferred] ++ fromResult f expected) c.layers :=
  ((Bindings.Alike.refl _).append (c.inferred_arguments h hs).2.2.symm).append (.refl _)

lemma length_eq_of_quiet (hs : s.built = true) (hquiet : c.counted.diagnostics = s.diagnostics) :
    args.length = f.params.length := by
  by_contra hlength
  have hrun := c.counts
  unfold checkCount at hrun
  rw [if_neg hlength] at hrun
  exact not_quiet_of_report (f := pure) (.pure _) hs hrun hquiet

lemma result_of_quiet (h : nested.Moves) (hs : s.built = true) (hquiet : t.diagnostics = c.returning.diagnostics) :
    c.result = f.returns c.layers := by
  have hmoved := c.moved h hs
  have hreturning := (((hmoved.counts.trans hmoved.binds).trans hmoved.infers).trans hmoved.fits).built.trans hs
  have hrun := c.returns
  have halike := c.alike_layers h hs
  unfold returnType at hrun
  unfold Callee.returns
  split at hrun
  · next hconstructor =>
    rw [if_pos hconstructor, ← halike.substituteOrHole]
    exact (Except.ok.inj (Prod.mk.inj hrun).1).symm
  · next hconstructor =>
    rw [if_neg hconstructor, ← halike.substitute]
    exact substitute_of_run_resolveGenerics hreturning hrun hquiet

lemma callFits_of_quiet (h : nested.Moves) (hs : s.built = true) (hargs : args.length = f.params.length)
    (hfits : c.returning.diagnostics = c.fitting.diagnostics) (hreturns : t.diagnostics = c.returning.diagnostics) :
    CallFits t f c.layers c.types c.result := by
  have hmoved := c.moved h hs
  have hfitting := ((hmoved.counts.trans hmoved.binds).trans hmoved.infers).built.trans hs
  obtain ⟨_, u, hfit, hbounds⟩ := exists_of_run_bind c.fits
  have hu := (fitArguments_moves _ _ _ _).updates hfitting hfit
  have hus := hu.built.trans hfitting
  have hv := (checkBounds_moves _ _ _).updates hus hbounds
  have hvs := hv.built.trans hus
  obtain ⟨hquiet, hquiet'⟩ := hu.quiet hv hfits
  have halike := c.alike_layers h hs
  refine ⟨?_, fun g hg value hvalue b hb => ?_, c.result_of_quiet h hs hreturns⟩
  · refine (fits_of_run_fitArguments hfitting hargs (c.inferred_arguments h hs).1 hfit hquiet).imp fun u p hfits => ?_
    exact halike.substituteOrHole p ▸ hfits.mono hus (hv.trans hmoved.returns)
  · have hfits := fits_of_run_checkBounds hus hbounds hquiet' g hg value ((halike g.name).trans hvalue) b hb
    exact halike.substituteOrHole b ▸ hfits.mono hvs hmoved.returns

end Course

end Check

/-- A call about which nothing is reported has as many arguments as parameters and is well typed under one choice of types
for the generics. Explicit type arguments come first in it, then the receiver, then the arguments from left to right, and
last the type that is expected. -/
theorem well_typed_of_quiet_call {n : Nat} {info : Syntax.Info} {f : Check.Callee} {explicit : List Syntax.TypeExpr}
    {args : List Syntax.Expr} {receiver : List Bindings} {expected r : Ty} {s t : State} (hs : s.built = true)
    (hrun : (Check.applyFn (Check.levels n) info f explicit args receiver expected).run s = (.ok r, t))
    (hquiet : t.diagnostics = s.diagnostics) :
    args.length = f.params.length ∧ ∃ b us, Check.ExplicitlyBound s t f.generics explicit b ∧
      Check.Inferred (Check.levels n) s t (Check.arguments (b :: receiver) args f.params us) ∧
      Check.CallFits t f (Check.layers b receiver us f expected) us r := by
  have hmoves := Check.levels_moves n
  obtain ⟨c, rfl⟩ := Check.exists_course hrun
  have hmoved := c.moved hmoves hs
  have hlater := (hmoved.infers.trans hmoved.fits).trans hmoved.returns
  obtain ⟨hcounts, hquiet⟩ := hmoved.counts.quiet (hmoved.binds.trans hlater) hquiet
  obtain ⟨hbinds, hquiet⟩ := hmoved.binds.quiet hlater hquiet
  obtain ⟨-, hquiet⟩ := hmoved.infers.quiet (hmoved.fits.trans hmoved.returns) hquiet
  obtain ⟨hfits, hreturns⟩ := hmoved.fits.quiet hmoved.returns hquiet
  have hargs := c.length_eq_of_quiet hs hcounts
  refine ⟨hargs, c.bound, c.types, ?_, ?_, c.callFits_of_quiet hmoves hs hargs hfits hreturns⟩
  · exact (Check.explicitlyBound_of_run (hmoved.counts.built.trans hs) c.binds hbinds).mono hmoved.counts hlater
  · exact (c.inferred_arguments hmoves hs).2.1.mono (hmoved.counts.trans hmoved.binds) (hmoved.fits.trans hmoved.returns)

namespace Calls

def shape : Path := ⟨["Shape"]⟩

def state : State := .of [⟨0, .impl, shape, [], .int, []⟩]

def element : Generic Ty := ⟨"T", "T", [.named shape []]⟩

/-- `fn both<T: Shape>(first: T, rest: List<T>): List<T>` -/
def both : Check.Callee := ⟨[element], [.generic element, .list (.generic element)], .list (.generic element), false⟩

def one : Syntax.Expr := .literal ⟨⟨.none, 1⟩, .int, "1"⟩

def none : Syntax.Expr := .list ⟨.none, 2⟩ []

/-- In `both(1, [])` the first argument says what the elements of the second one are. -/
theorem both_fits : state.built = true ∧ ∃ t,
    (Check.applyFn (Check.levels 2) ⟨.none, 3⟩ both [] [one, none] [] .absent).run state = (.ok (.list .int), t) ∧
    t.diagnostics = state.diagnostics ∧ [one, none].length = both.params.length ∧
    ∃ b us, Check.ExplicitlyBound state t both.generics [] b ∧
      Check.Inferred (Check.levels 2) state t (Check.arguments [b] [one, none] both.params us) ∧
      Check.CallFits t both (Check.layers b [] us both .absent) us (.list .int) :=
  ⟨rfl, _, rfl, rfl, well_typed_of_quiet_call (n := 2) rfl rfl rfl⟩

end Calls

end TraitCheck
