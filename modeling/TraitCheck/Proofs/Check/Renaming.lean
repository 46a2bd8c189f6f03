import TraitCheck.Proofs.Check.Enclosing
import TraitCheck.Proofs.Ty.Renaming

/-! The names of a method's own generics. All bindings of a call are found by bare names. A name may be changed where the
receiver binds neither the old nor the new one, and where no argument takes its type from the generic. -/

namespace TraitCheck

open Syntax (Expr TypeExpr Info)

namespace Renaming

variable {ρ : Renaming}

/-! ### Functions -/

/-- A function with one of its generics renamed. -/
def callee (ρ : Renaming) (f : Check.Callee) : Check.Callee :=
  { f with generics := f.generics.map ρ.generic, params := f.params.map ρ.ty, result := ρ.ty f.result }

/-- The new name is not used in the signature, and the old one only for the generic itself. What stands in the result is one
of the function's own generics, or has nothing to do with the renaming. -/
structure Fits (ρ : Renaming) (f : Check.Callee) : Prop where
  names : ∀ g ∈ f.generics, g.name ≠ ρ.new
  params : ∀ p ∈ f.params, ρ.Suits p
  result : ρ.Suits f.result.resultOf
  bounds : ∀ g, g ∈ f.generics ∨ .generic g ∈ f.params → ∀ b ∈ g.bounds, ρ.Suits b
  own : ∀ h ∈ f.result.resultOf.leaves, (∃ g ∈ f.generics, g.ident = h.ident) ∨ ρ.generic h = h

/-- None of the function's own generics is one of a declaration around, under the old name or the new one. -/
def Elsewhere (ρ : Renaming) (frame : Frame) (f : Check.Callee) : Prop :=
  ∀ g ∈ f.generics, frame.encloses g = false ∧ frame.encloses (ρ.generic g) = false

/-- A report of an unbound generic, which has its name. -/
def diagnostic (ρ : Renaming) (d : Diagnostic) : Diagnostic :=
  match d.cause with
  | .unresolvedGeneric n => { d with cause := .unresolvedGeneric (ρ.name n) }
  | _ => d

lemma Follows.fromResult {f : Check.Callee} (hf : ρ.Fits f) (expected : Ty) :
    ρ.Follows (Check.fromResult f expected) (Check.fromResult (ρ.callee f) expected) := by
  unfold Check.fromResult
  split
  · exact .nil
  · have hresult : (ρ.callee f).result.resultOf = ρ.ty f.result.resultOf := resultOf_ty ρ f.result
    rw [hresult]
    exact .unify expected hf.result

end Renaming

namespace Check

variable {nested : Nested} {ρ : Renaming} {maps maps' : List Bindings} {s t : State}

/-! ### Arguments -/

/-- The argument is of its type whether or not a generic in its parameter that is still unbound is renamed. -/
def Argument.Steady (nested : Nested) (ρ : Renaming) (x : Argument) : Prop :=
  ∀ s t, (argumentType nested x.expr x.hint).run s = (.ok x.type, t) →
    (argumentType nested x.expr (ρ.substituted x.known x.param)).run s = (.ok x.type, t)

lemma run_checkArgs_renamed {known : List Bindings} {args : List Expr} {params us : List Ty}
    {inferred inferred' result : Bindings} (hmaps : ρ.Follows maps maps') (hinferred : ρ.Follows [inferred] [inferred'])
    (hparams : ∀ p ∈ params, ρ.Suits p) (hknown : Bindings.Alike known (maps ++ [inferred]))
    (hsteady : ∀ x ∈ arguments known args params us, x.Steady nested ρ)
    (hrun : (checkArgs nested maps args params inferred).run s = (.ok (us, result), t)) :
    ∃ result', (checkArgs nested maps' args (params.map ρ.ty) inferred').run s = (.ok (us, result'), t) ∧
      ρ.Follows [result] [result'] := by
  induction args generalizing s params inferred inferred' known us with
  | nil =>
    cases hrun
    exact ⟨inferred', rfl, hinferred⟩
  | cons a args ih =>
    cases params with
    | nil =>
      obtain ⟨u, s₁, ha, hrest⟩ := exists_of_run_bind hrun
      obtain ⟨⟨us, result⟩, s₂, hargs, hpure⟩ := exists_of_run_bind hrest
      cases hpure
      obtain ⟨result', hargs', hresult⟩ := ih hinferred (by simp) hknown (by simp [arguments]) hargs
      refine ⟨result', ?_, hresult⟩
      rw [List.map_nil, checkArgs, run_bind_ok ha]
      exact run_bind_ok hargs' _
    | cons p params =>
      rw [checkArgs_cons] at hrun
      obtain ⟨u, s₁, ha, hrest⟩ := exists_of_run_bind hrun
      obtain ⟨⟨us, result⟩, s₂, hargs, hpure⟩ := exists_of_run_bind hrest
      cases hpure
      rw [arguments, List.forall_mem_cons] at hsteady
      rw [List.forall_mem_cons] at hparams
      have hnext : Bindings.Alike (known ++ [Ty.unify u p]) (maps ++ [inferred.underlay (Ty.unify u p)]) := by
        have hlayers : Bindings.Alike (known ++ [Ty.unify u p]) (maps ++ [inferred, Ty.unify u p]) := by
          simpa using hknown.append (.refl [Ty.unify u p])
        exact hlayers.trans ((Bindings.Alike.refl maps).append (Bindings.Alike.underlay inferred _).symm)
      obtain ⟨result', hargs', hresult⟩ :=
        ih (hinferred.underlay (.unify u hparams.1)) hparams.2 hnext hsteady.2 hargs
      refine ⟨result', ?_, hresult⟩
      have hhint : (ρ.ty p).substitute (maps' ++ [inferred']) = ρ.substituted known p := by
        rw [(hmaps.append hinferred).substitute hparams.1]
        simp only [Renaming.substituted, hknown _]
      have hargument : (argumentType nested a ((ρ.ty p).substitute (maps' ++ [inferred']))).run s = (.ok u, s₁) := by
        rw [hhint]
        rw [← hknown.substitute] at ha
        exact hsteady.1 s s₁ ha
      rw [List.map_cons, checkArgs_cons, run_bind_ok hargument]
      exact run_bind_ok hargs' _

lemma run_bindExplicit_renamed {generics : List (Generic Ty)} {explicit : List TypeExpr} {b b' c : Bindings}
    (hnames : ∀ g ∈ generics, g.name ≠ ρ.new) (h : ρ.Follows [b] [b'])
    (hrun : ((generics.zip explicit).foldlM bindExplicit b).run s = (.ok c, t)) :
    ∃ c', (((generics.map ρ.generic).zip explicit).foldlM bindExplicit b').run s = (.ok c', t) ∧ ρ.Follows [c] [c'] := by
  induction generics generalizing explicit s b b' with
  | nil =>
    cases hrun
    exact ⟨b', rfl, h⟩
  | cons g generics ih =>
    cases explicit with
    | nil =>
      cases hrun
      exact ⟨b', rfl, h⟩
    | cons a explicit =>
      rw [List.forall_mem_cons] at hnames
      rw [List.zip_cons_cons, List.foldlM_cons] at hrun
      obtain ⟨b₁, s₁, ha, hrest⟩ := exists_of_run_bind hrun
      obtain ⟨u, s₁', hu, hpure⟩ := exists_of_run_bind ha
      cases hpure
      obtain ⟨c', hrest', hc⟩ := ih hnames.2 (h.insert hnames.1 u) hrest
      refine ⟨c', ?_, hc⟩
      rw [List.map_cons, List.zip_cons_cons, List.foldlM_cons, bindExplicit, bind_assoc, run_bind_ok hu]
      exact hrest'

lemma run_explicitGenerics_renamed {info : Info} {generics : List (Generic Ty)} {explicit : List TypeExpr} {b : Bindings}
    (hnames : ∀ g ∈ generics, g.name ≠ ρ.new) (hrun : (explicitGenerics info generics explicit).run s = (.ok b, t)) :
    ∃ b', (explicitGenerics info (generics.map ρ.generic) explicit).run s = (.ok b', t) ∧ ρ.Follows [b] [b'] := by
  unfold explicitGenerics at hrun ⊢
  split
  · next hempty =>
    rw [if_pos hempty] at hrun
    cases hrun
    exact ⟨.empty, rfl, .empty⟩
  · next hempty =>
    rw [if_neg hempty] at hrun
    obtain ⟨fits, s₁, harity, hrest⟩ := exists_of_run_bind hrun
    rw [List.length_map, run_bind_ok harity]
    cases fits with
    | false =>
      cases hrest
      exact ⟨.empty, rfl, .empty⟩
    | true => exact run_bindExplicit_renamed hnames .empty hrest

/-! ### The end of a call -/

lemma upcastTo_renamed (hmaps : ρ.Follows maps maps') {p : Ty} (hp : ρ.Suits p)
    (hbounds : ∀ g, p = .generic g → ∀ b ∈ g.bounds, ρ.Suits b) (a : Expr) (u : Ty) :
    upcastTo a u (upcastTarget maps' (ρ.ty p)) = upcastTo a u (upcastTarget maps p) := by
  cases p with
  | generic g =>
    rw [Renaming.ty_generic, upcastTarget, upcastTarget]
    have hmap : (ρ.generic g).bounds = g.bounds.map ρ.ty := Renaming.tys_eq_map ρ g.bounds
    rw [hmap, List.isEmpty_map]
    split
    · rw [← Renaming.ty_generic, hmaps.substituteOrHole hp]
    · have hsame : (g.bounds.map ρ.ty).map (Ty.substituteOrHole maps') = g.bounds.map (Ty.substituteOrHole maps) := by
        rw [List.map_map]
        exact List.map_congr_left fun b hb => hmaps.substituteOrHole (hbounds g rfl b hb)
      rw [upcastTo, upcastTo, hsame]
  | _ => exact congrArg (upcastTo a u) (hmaps.substituteOrHole hp)

lemma fitArguments_renamed (hmaps : ρ.Follows maps maps') {params : List Ty} (hparams : ∀ p ∈ params, ρ.Suits p)
    (hbounds : ∀ g, .generic g ∈ params → ∀ b ∈ g.bounds, ρ.Suits b) (args : List Expr) (us : List Ty) :
    fitArguments maps' args us (params.map ρ.ty) = fitArguments maps args us params := by
  induction params generalizing args us with
  | nil => cases args <;> cases us <;> rfl
  | cons p params ih =>
    cases args with
    | nil => rfl
    | cons a args =>
      cases us with
      | nil => rfl
      | cons u us =>
        rw [List.forall_mem_cons] at hparams
        rw [List.map_cons, fitArguments, fitArguments, hmaps.substituteOrHole hparams.1,
          upcastTo_renamed hmaps hparams.1 fun g hg => hbounds g (by simp [hg]),
          ih hparams.2 fun g hg => hbounds g (List.mem_cons_of_mem _ hg)]

lemma forM_map_congr {α β : Type} {l : List α} {k : α → β} {x : β → Check Unit} {y : α → Check Unit}
    (h : ∀ a ∈ l, x (k a) = y a) : (l.map k).forM x = l.forM y := by
  induction l with
  | nil => rfl
  | cons a l ih =>
    rw [List.forall_mem_cons] at h
    change (x (k a) >>= fun _ => (l.map k).forM x) = (y a >>= fun _ => l.forM y)
    rw [h.1, ih h.2]

lemma checkBound_renamed (hmaps : ρ.Follows maps maps') (info : Info) (value : Ty) {b : Ty} (hb : ρ.Suits b) :
    checkBound info maps' value (ρ.ty b) = checkBound info maps value b := by
  rw [checkBound, checkBound, hmaps.substituteOrHole hb]

lemma checkBounds_renamed (hmaps : ρ.Follows maps maps') (info : Info) {generics : List (Generic Ty)}
    (hnames : ∀ g ∈ generics, g.name ≠ ρ.new) (hbounds : ∀ g ∈ generics, ∀ b ∈ g.bounds, ρ.Suits b) :
    checkBounds info maps' (generics.map ρ.generic) = checkBounds info maps generics := by
  have hgeneric : ∀ g ∈ generics, checkGeneric info maps' (ρ.generic g) = checkGeneric info maps g := by
    intro g hg
    have hlookup : Bindings.lookupIn maps' (ρ.generic g).name = Bindings.lookupIn maps g.name := hmaps g.name (hnames g hg)
    have hmap : (ρ.generic g).bounds = g.bounds.map ρ.ty := Renaming.tys_eq_map ρ g.bounds
    rw [checkGeneric, checkGeneric, hlookup, hmap]
    split
    · rw [forM_map_congr fun b hb => checkBound_renamed hmaps info _ (hbounds g hg b hb)]
    · rfl
  rw [checkBounds_eq, checkBounds_eq, forM_map_congr hgeneric]

lemma fitCall_renamed (hmaps : ρ.Follows maps maps') (info : Info) {f : Callee} (hf : ρ.Fits f) (args : List Expr)
    (us : List Ty) : fitCall info (ρ.callee f) args maps' us = fitCall info f args maps us := by
  have hfit : fitArguments maps' args us (ρ.callee f).params = fitArguments maps args us f.params :=
    fitArguments_renamed hmaps hf.params (fun g hg => hf.bounds g (.inr hg)) args us
  have hbounds : checkBounds info maps' (ρ.callee f).generics = checkBounds info maps f.generics :=
    checkBounds_renamed hmaps info hf.names fun g hg => hf.bounds g (.inl hg)
  rw [fitCall, fitCall, hfit, hbounds]

/-! ### The type of a call -/

section Place

variable {frame : Frame} {f : Callee} (hplace : ρ.Elsewhere frame f) (hf : ρ.Fits f)
include hplace hf

lemma encloses_leaf {g : Generic Ty} (hg : g ∈ f.result.resultOf.leaves) :
    (frame.encloses g = false ∧ frame.encloses (ρ.generic g) = false) ∨ ρ.generic g = g := by
  obtain ⟨own, hown, hident⟩ | hsame := hf.own g hg
  · obtain ⟨hname, hkey⟩ := Prod.mk.inj hident
    have hrenamed : (ρ.generic own).ident = (ρ.generic g).ident := by
      simp only [Generic.ident, Renaming.generic, hname, hkey]
    rw [← frame.encloses_congr hident, ← frame.encloses_congr hrenamed]
    exact .inl (hplace own hown)
  · exact .inr hsame

lemma valueOf_renamed (hmaps : ρ.Follows maps maps') {g : Generic Ty} (hg : g ∈ f.result.resultOf.leaves) :
    frame.valueOf maps' (ρ.generic g) = frame.valueOf maps g := by
  have hlookup : Bindings.lookupIn maps' (ρ.generic g).name = Bindings.lookupIn maps g.name :=
    hmaps g.name (hf.result.fresh g hg)
  rw [Frame.valueOf, Frame.valueOf, hlookup]
  obtain ⟨hold, hnew⟩ | hsame := encloses_leaf hplace hf hg
  · rw [hold, hnew]
    rfl
  · rw [hsame]

lemma unresolved_renamed (hmaps : ρ.Follows maps maps') :
    frame.unresolved maps' (ρ.ty f.result.resultOf) = (frame.unresolved maps f.result.resultOf).map ρ.generic := by
  rw [Frame.unresolved, Frame.unresolved, hf.result.occurrences, List.filter_map]
  refine congrArg (List.map ρ.generic) (List.filter_congr fun g hg => ?_)
  have hleaf := Ty.occurrencesIn_subset [] f.result.resultOf hg
  have hlookup : Bindings.lookupIn maps' (ρ.generic g).name = Bindings.lookupIn maps g.name :=
    hmaps g.name (hf.result.fresh g hleaf)
  rw [Function.comp_apply, hlookup]
  obtain ⟨hold, hnew⟩ | hsame := encloses_leaf hplace hf hleaf
  · rw [hold, hnew]
  · rw [hsame]

lemma run_returnType_renamed {info : Info} (hs : s.At frame) (hmaps : ρ.Follows maps maps') {r : Ty}
    (hrun : (returnType info f maps).run s = (.ok r, t)) :
    ∃ ds, t.diagnostics = s.diagnostics ++ ds ∧ (returnType info (ρ.callee f) maps').run s =
      (.ok r, { t with diagnostics := s.diagnostics ++ ds.map ρ.diagnostic }) := by
  have hresult : (ρ.callee f).result.resultOf = ρ.ty f.result.resultOf := Renaming.resultOf_ty ρ f.result
  unfold returnType at hrun ⊢
  rw [hresult]
  cases hconstructor : f.isConstructor with
  | true =>
    rw [if_pos hconstructor] at hrun
    rw [if_pos (show (ρ.callee f).isConstructor = true from hconstructor), hmaps.substituteOrHole hf.result]
    cases hrun
    refine ⟨[], (List.append_nil _).symm, ?_⟩
    rw [List.map_nil, List.append_nil]
    rfl
  | false =>
    rw [if_neg (by simp [hconstructor]), run_resolveGenerics hs] at hrun
    rw [if_neg (by simp [Renaming.callee, hconstructor]), run_resolveGenerics hs]
    obtain ⟨hr, rfl⟩ := Prod.mk.inj hrun
    refine ⟨_, rfl, ?_⟩
    rw [hf.result.replace fun g hg => valueOf_renamed hplace hf hmaps hg, hr,
      unresolved_renamed hplace hf hmaps, unresolvedAt, unresolvedAt, List.map_map, List.map_map]
    rfl

end Place

/-! ### Calls -/

namespace Course

variable {info : Info} {f : Callee} {explicit : List TypeExpr} {args : List Expr} {receiver : List Bindings} {expected : Ty}

lemma run_eq (c : Course nested info f explicit args receiver expected s t) :
    (applyFn nested info f explicit args receiver expected).run s = (.ok c.result, t) := by
  have hcall : applyFn nested info f explicit args receiver expected =
      checkCount info f args >>= fun _ => callWith nested info f explicit args receiver expected := by
    rw [applyFn_eq, checkCount]
    split_ifs
    · rfl
    · rfl
  have hfinish (maps : List Bindings) (us : List Ty) :
      finishCall info f args maps us = fitCall info f args maps us >>= fun _ => returnType info f maps :=
    (bind_assoc (fitArguments maps args us f.params) _ _).symm
  rw [hcall, run_bind_ok c.counts, callWith, run_bind_ok c.binds, run_bind_ok c.infers]
  dsimp only
  rw [hfinish, run_bind_ok c.fits]
  exact c.returns

lemma unique (c c' : Course nested info f explicit args receiver expected s t) : c = c' := by
  obtain ⟨_, _, _, _, _, _, _, _, hcounts, hbinds, hinfers, hfits, hreturns⟩ := c
  obtain ⟨_, _, _, _, _, _, _, _, hcounts', hbinds', hinfers', hfits', hreturns'⟩ := c'
  obtain ⟨-, rfl⟩ := Prod.mk.inj (hcounts.symm.trans hcounts')
  obtain ⟨hbound, rfl⟩ := Prod.mk.inj (hbinds.symm.trans hbinds')
  obtain rfl := Except.ok.inj hbound
  obtain ⟨htypes, rfl⟩ := Prod.mk.inj (hinfers.symm.trans hinfers')
  obtain ⟨rfl, rfl⟩ := Prod.mk.inj (Except.ok.inj htypes)
  obtain ⟨-, rfl⟩ := Prod.mk.inj (hfits.symm.trans hfits')
  obtain ⟨hresult, -⟩ := Prod.mk.inj (hreturns.symm.trans hreturns')
  obtain rfl := Except.ok.inj hresult
  rfl

lemma run_renamed (c : Course nested info f explicit args receiver expected s t) (hf : ρ.Fits f)
    (hreceiver : ρ.Follows receiver receiver) (hsteady : ∀ x ∈ c.arguments, x.Steady nested ρ) {frame : Frame}
    (hat : c.returning.At frame) (hplace : ρ.Elsewhere frame f) :
    ∃ ds, t.diagnostics = c.returning.diagnostics ++ ds ∧
      (applyFn nested info (ρ.callee f) explicit args receiver expected).run s =
        (.ok c.result, { t with diagnostics := c.returning.diagnostics ++ ds.map ρ.diagnostic }) := by
  obtain ⟨bound', hbinds, hbound⟩ := run_explicitGenerics_renamed hf.names c.binds
  have hknown : ρ.Follows (c.bound :: receiver) (bound' :: receiver) := hbound.append hreceiver
  have hempty : Bindings.Alike (c.bound :: receiver) ((c.bound :: receiver) ++ [.empty]) := by
    intro name
    rw [Bindings.lookupIn_append, Bindings.lookupIn_singleton]
    exact Option.or_none.symm
  obtain ⟨inferred', hinfers, hinferred⟩ := run_checkArgs_renamed hknown .empty hf.params hempty hsteady c.infers
  have hmaps := (hknown.append hinferred).append (.fromResult hf expected)
  obtain ⟨ds, ht, hreturns⟩ := run_returnType_renamed hplace hf hat hmaps c.returns
  have hcount : checkCount info (ρ.callee f) args = checkCount info f args := by
    simp only [checkCount, Renaming.callee, List.length_map]
  let c' : Course nested info (ρ.callee f) explicit args receiver expected s
      { t with diagnostics := c.returning.diagnostics ++ ds.map ρ.diagnostic } :=
    { bound := bound', types := c.types, inferred := inferred', result := c.result
      counted := c.counted, checking := c.checking, fitting := c.fitting, returning := c.returning
      counts := hcount ▸ c.counts, binds := hbinds, infers := hinfers
      fits := fitCall_renamed hmaps info hf args c.types ▸ c.fits, returns := hreturns }
  exact ⟨ds, ht, c'.run_eq⟩

end Course

/-! ### Methods -/

section Blind

variable {α β : Type}

def Blind (x : Check α) : Prop :=
  ∀ (s t : State) (a : α), s.built = true → x.run s = (.ok a, t) →
    t.built = true ∧ ∀ ds, x.run { s with diagnostics := ds } = (.ok a, { t with diagnostics := ds })

lemma Blind.pure (a : α) : Blind (Pure.pure a : Check α) := by
  intro s t b hs hrun
  cases hrun
  exact ⟨hs, fun _ => rfl⟩

lemma Blind.bind {x : Check α} {k : α → Check β} (hx : Blind x) (hk : ∀ a, Blind (k a)) : Blind (x >>= k) := by
  intro s t b hs hrun
  obtain ⟨a, u, hfirst, hrest⟩ := exists_of_run_bind hrun
  obtain ⟨hu, hfirst'⟩ := hx s u a hs hfirst
  obtain ⟨ht, hrest'⟩ := hk a u t b hu hrest
  exact ⟨ht, fun ds => (run_bind_ok (hfirst' ds) k).trans (hrest' ds)⟩

lemma Blind.ite {c : Prop} [Decidable c] {x y : Check α} (hx : Blind x) (hy : Blind y) : Blind (if c then x else y) := by
  split
  · exact hx
  · exact hy

lemma evidenceOr_blind (r : Except EvidenceError α) : Blind (evidenceOr r) := by
  cases r with
  | ok a => exact .pure a
  | error e =>
    intro s t a _ hrun
    cases e <;> cases hrun

lemma ask_blind (q : {m : Type → Type} → [Monad m] → (Path → m (List Chain)) → m α) : Blind (ask q) := by
  intro s t a hs hrun
  have hknows (ds : List Diagnostic) : Knows s.relations (fun _ => True) { s with diagnostics := ds } := ⟨hs, rfl, trivial⟩
  obtain ⟨ha, ht⟩ := Prod.mk.inj ((run_ask q (hknows s.diagnostics)).symm.trans hrun)
  subst ht
  exact ⟨hs, fun ds => (run_ask q (hknows ds)).trans (congrArg (Prod.mk · _) ha)⟩

lemma evidenceFor_blind (source goal : Ty) : Blind (evidenceFor source goal) := by
  intro s t e hs hrun
  have hquestion : Blind (do
      evidenceOr (← ask fun chains => (evidenceWith s.relations chains s.reserve source goal).run)) :=
    (ask_blind _).bind evidenceOr_blind
  rw [evidenceFor, run_get_bind] at hrun
  obtain ⟨ht, hrest⟩ := hquestion s t e hs hrun
  refine ⟨ht, fun ds => ?_⟩
  rw [evidenceFor, run_get_bind]
  exact hrest ds

lemma currentModule_blind : Blind currentModule := by
  intro s t a hs hrun
  obtain ⟨f, u, hframe, hmodule⟩ := exists_of_run_bind hrun
  obtain ⟨rfl, htop⟩ := of_run_frame hframe
  cases hmodule
  obtain ⟨fs, hfs⟩ := List.head?_eq_some_iff.mp htop
  refine ⟨hs, fun ds => ?_⟩
  have htop' : { t with diagnostics := ds : State }.frames.top = f :: fs := hfs
  exact run_bind_ok (run_frame htop') _

lemma recordUpcast_blind (node : Expr) (source goal : Ty) (e : Evidence) : Blind (recordUpcast node source goal e) := by
  intro s t a hs hrun
  have hentry : Blind (do
      modifyEntry (← currentModule) fun m =>
        addRelImports e.relations { m with upcasts := m.upcasts ++ [⟨node, source, goal, e⟩] }) := by
    refine currentModule_blind.bind fun id => ?_
    intro s t a hs hrun
    cases hrun
    exact ⟨hs, fun _ => rfl⟩
  unfold recordUpcast at hrun ⊢
  simp only [run_get_bind] at hrun ⊢
  split_ifs at hrun ⊢
  · cases hrun
    exact ⟨hs, fun _ => rfl⟩
  · exact hentry _ t a (by exact hs) hrun

mutual

lemma upcastTo_blind (node : Expr) (source goal : Ty) : Blind (upcastTo node source goal) := by
  have hother : Blind (do
      if source.absorbs then return
      match ← evidenceFor source goal with
      | some e => recordUpcast node source goal e
      | none => return) := by
    refine .ite (.pure _) ((evidenceFor_blind source goal).bind fun e => ?_)
    cases e with
    | none => exact .pure _
    | some e => exact recordUpcast_blind node source goal e
  cases goal with
  | generic g =>
    obtain ⟨_, _, bounds⟩ := g
    rw [upcastTo]
    exact upcastToAll_blind node source bounds
  | _ => exact hother

lemma upcastToAll_blind (node : Expr) (source : Ty) (goals : List Ty) : Blind (upcastToAll node source goals) := by
  cases goals with
  | nil => exact .pure _
  | cons g gs =>
    rw [upcastToAll]
    exact (upcastTo_blind node source g).bind fun _ => upcastToAll_blind node source gs

end

end Blind

/-- Records that a receiver is seen as a trait, unless the method is one of its own type. -/
def noteView (recv : Expr) (u : Ty) (c : Candidate) : (seenAs : Option Ty) → Check Unit
  | some trait => unless c.isStatic do upcastTo recv u trait
  | none => return

/-- The part of a call of a method that depends on its signature. -/
def callMethod (nested : Nested) (info : Info) (recv : Expr) (u : Ty) (c : Candidate) (name : String) (f : Callee)
    (typeArgs : List TypeExpr) (args : List Expr) (expected : Ty) : Check Ty := do
  let (b, seenAs) ← receiverBindings u c name
  let r ← applyFn nested info f typeArgs args [b] expected
  noteView recv u c seenAs
  return r

/-- The receiver of a call is of type `u`, has the method, and its signature is that of `f`. -/
structure FindsMethod (nested : Nested) (info : Info) (recv : Expr) (name : String) (s : State) (u : Ty) (c : Candidate)
    (f : Callee) (t : State) : Prop where
  typed : ∃ s₁ s₂ params, (nested.expr recv .absent >>= settle).run s = (.ok u, s₁) ∧
    (resolveMethod (some info) u name).run s₁ = (.ok (some c), s₂) ∧
    (methodSignature c.method).run s₂ = (.ok (.fn f.generics params f.result), t) ∧ params.tail = f.params
  known : u.absorbs = false
  receiver : c.method.node.hasReceiver = true
  constructor : f.isConstructor = false

namespace FindsMethod

variable {info : Info} {recv : Expr} {name : String} {u : Ty} {c : Candidate} {f : Callee}

lemma run_dispatch (h : FindsMethod nested info recv name s u c f t) (typeArgs : List TypeExpr) (args : List Expr)
    (expected : Ty) : (dispatch nested info recv name typeArgs args expected).run s =
      (callMethod nested info recv u c name f typeArgs args expected).run t := by
  obtain ⟨s₁, s₂, params, hrecv, hmethod, hsig, hparams⟩ := h.typed
  obtain ⟨generics, _, result, _⟩ := f
  obtain rfl := hparams
  obtain rfl := h.constructor
  rw [dispatch, ← bind_assoc, run_bind_ok hrecv]
  dsimp only
  rw [if_neg (by simp [h.known]), run_bind_ok hmethod]
  dsimp only
  rw [if_neg (by simp [h.receiver]), run_bind_ok hsig]
  refine congrArg (fun x : Check Ty => x.run t) (bind_congr fun b => bind_congr fun r => ?_)
  obtain ⟨b, seenAs⟩ := b
  cases seenAs with
  | none => rfl
  | some trait =>
    dsimp only [noteView]
    split
    · rfl
    · rfl

lemma updates (h : FindsMethod nested info recv name s u c f t) (hn : nested.Moves) (hs : s.built = true) : s.Updates t := by
  obtain ⟨s₁, s₂, params, hrecv, hmethod, hsig, -⟩ := h.typed
  have h₁ := ((hn.expr recv .absent).bind settle_moves).updates hs hrecv
  have hs₁ := h₁.built.trans hs
  have h₂ := (resolveMethod_moves _ _ _).updates hs₁ hmethod
  have h₃ := (methodSignature_moves _).updates (h₂.built.trans hs₁) hsig
  exact (h₁.trans h₂).trans h₃

end FindsMethod

lemma append_eq_of_prefix {α : Type} {l before : List α} (h : l <+: before) (more : List α) :
    before ++ more = l ↔ before = l ∧ more = [] := by
  constructor
  · intro heq
    have hlength := congrArg List.length heq
    rw [List.length_append] at hlength
    have hle := h.length_le
    exact ⟨(h.eq_of_length_le (by omega)).symm, List.length_eq_zero_iff.mp (by omega)⟩
  · rintro ⟨rfl, rfl⟩
    exact List.append_nil _

lemma noteView_blind (recv : Expr) (u : Ty) (c : Candidate) (seenAs : Option Ty) : Blind (noteView recv u c seenAs) := by
  cases seenAs with
  | none => exact .pure _
  | some trait => exact .ite (.pure _) (upcastTo_blind recv u trait)

end Check

open Check in
/-- The name of one of a method's own generics does not matter to a call where the receiver binds neither the old name nor
the new one, the generic is not one of a declaration around, and no argument takes its type from it before it is bound: the
type stays as it is, and of what is reported only the names of generics without a type change. -/
theorem own_generic_renamed {n : Nat} {info : Info} {recv : Expr} {name : String} {typeArgs : List TypeExpr}
    {args : List Expr} {expected u r : Ty} {c : Candidate} {f : Callee} {s s' t : State} (hs : s.built = true)
    (hfinds : FindsMethod (levels n) info recv name s u c f s')
    (hrun : (dispatch (levels n) info recv name typeArgs args expected).run s = (.ok r, t)) :
    ∃ b seenAs v w, (receiverBindings u c name).run s' = (.ok (b, seenAs), v) ∧
      ∃ call : Course (levels n) info f typeArgs args [b] expected v w, call.result = r ∧
        ∀ (ρ : Renaming) (frame : Frame), ρ.Fits f → b.get? ρ.old = none → b.get? ρ.new = none →
          (∀ x ∈ call.arguments, x.Steady (levels n) ρ) → call.returning.At frame → ρ.Elsewhere frame f →
          ∃ before ds, t.diagnostics = before ++ ds ∧
            (callMethod (levels n) info recv u c name (ρ.callee f) typeArgs args expected).run s' =
              (.ok r, { t with diagnostics := before ++ ds.map ρ.diagnostic }) ∧
            (t.diagnostics = s.diagnostics ↔ before ++ ds.map ρ.diagnostic = s.diagnostics) := by
  have hmoves := levels_moves n
  have hfound := hfinds.updates hmoves hs
  rw [hfinds.run_dispatch] at hrun
  obtain ⟨⟨b, seenAs⟩, v, hreceiver, hrest⟩ := exists_of_run_bind hrun
  obtain ⟨r', w, hcall, hrest⟩ := exists_of_run_bind hrest
  obtain ⟨_, w', hnote, hpure⟩ := exists_of_run_bind hrest
  cases hpure
  obtain ⟨call, rfl⟩ := exists_course hcall
  refine ⟨b, seenAs, v, w, hreceiver, call, rfl, fun ρ frame hf hold hnew hsteady hat hplace => ?_⟩
  have hbound := (receiverBindings_moves u c name).updates (hfound.built.trans hs) hreceiver
  have hv : v.built = true := (hbound.built.trans hfound.built).trans hs
  have hfollows : ρ.Follows [b] [b] := .of_none (by rw [Bindings.lookupIn_singleton, hold])
    (by rw [Bindings.lookupIn_singleton, hnew])
  obtain ⟨ds, hw, hrenamed⟩ := call.run_renamed hf hfollows hsteady hat hplace
  have hcalled := call.moved hmoves hv
  have hcalling := ((hcalled.counts.trans hcalled.binds).trans hcalled.infers).trans hcalled.fits
  have hbefore : s.diagnostics <+: call.returning.diagnostics := (hfound.trans (hbound.trans hcalling)).diagnostics
  obtain ⟨-, hblind⟩ := noteView_blind recv u c seenAs w t _ ((hcalling.trans hcalled.returns).built.trans hv) hnote
  have ht : t.diagnostics = w.diagnostics :=
    congrArg (fun x => x.2.diagnostics) (hnote.symm.trans (hblind w.diagnostics))
  refine ⟨call.returning.diagnostics, ds, ht.trans hw, ?_, ?_⟩
  · rw [callMethod, run_bind_ok hreceiver]
    exact (run_bind_ok hrenamed _).trans (run_bind_ok (hblind _) _)
  · rw [ht.trans hw, append_eq_of_prefix hbefore, append_eq_of_prefix hbefore, List.map_eq_nil_iff]

namespace Picks

def element : Generic Ty := ⟨"T", "app::main::impl::T", []⟩

def own : Generic Ty := ⟨"U", "std::list::List::pick::U", []⟩

/-- `fn pick<U>(self, first: U, rest: List<U>): U` -/
def pick : Check.Callee := ⟨[own], [.generic own, .list (.generic own)], .generic own, false⟩

def node : Syntax.Fn :=
  Standard.declared "pick"
    [Standard.receiver, Standard.param "first" (Standard.ref "U"),
      Standard.param "rest" (Standard.ref "List" [Standard.ref "U"])]
    (some (Standard.ref "U")) [Standard.gen "U"]

/-- `impl<T> List<T>` -/
def owner : Owner := .impl ⟨⟨{}, false, [Standard.gen "T"], none, some (Standard.ref "List" [Standard.elemRef]), [node]⟩, 0⟩

def provider : Instance :=
  ⟨⟨0, .inherent, Ty.listPath, [.generic element], .list (.generic element), [element]⟩, owner, none, 0⟩

def candidate : Candidate := ⟨provider, ⟨node, owner⟩, []⟩

def frame : Frame := { id := 0, module := 0 }

def signature : Ty := .fn pick.generics (.list (.generic element) :: pick.params) pick.result

def state : State :=
  { frames := ⟨[frame]⟩, instances := [provider], built := true
    signatures := (∅ : Std.TreeMap Nat Ty).insert node.info.id signature }

/-- `[1]` -/
def numbers : Expr := .list ⟨.none, 2⟩ [Calls.one]

def text : Expr := .literal ⟨⟨.none, 3⟩, .string, "s"⟩

def empty : Expr := .list ⟨.none, 4⟩ []

def typed : State := { state with slots := (state.slots.insert 1 .int).insert 2 (.list .int) }

def found : State := { typed with memo := [(Ty.listPath.render, [])] }

def returning : State := { found with slots := (found.slots.insert 3 .string).insert 4 (.list .string) }

def bound : Bindings := (Ty.unify (.list .int) (.list (.generic element))).insert selfName (.list .int)

lemma pick_found : Check.FindsMethod (Check.levels 4) ⟨.none, 5⟩ numbers "pick" state (.list .int) candidate pick found :=
  ⟨⟨typed, found, _, rfl, rfl, rfl, rfl⟩, rfl, rfl, rfl⟩

lemma run_receiverBindings :
    (Check.receiverBindings (.list .int) candidate "pick").run found = (.ok (bound, none), found) := rfl

def course : Check.Course (Check.levels 4) ⟨.none, 5⟩ pick [] [text, empty] [bound] .absent found returning where
  bound := .empty
  types := [.string, .list .string]
  inferred := (Ty.unify .string (.generic own)).underlay (Ty.unify (.list .string) (.list (.generic own)))
  result := .string
  counted := found
  checking := found
  fitting := returning
  returning := returning
  counts := rfl
  binds := rfl
  infers := rfl
  fits := rfl
  returns := rfl

lemma run_dispatch : (Check.dispatch (Check.levels 4) ⟨.none, 5⟩ numbers "pick" [] [text, empty] .absent).run state =
    (.ok .string, returning) := by
  rw [pick_found.run_dispatch, Check.callMethod, Check.run_bind_ok run_receiverBindings]
  exact Check.run_bind_ok course.run_eq _

lemma returning_at : returning.At frame := by
  have hmodules : returning.modules = [] := rfl
  exact ⟨rfl, by simp [State.Glanced, hmodules], by decide, by simp [hmodules]⟩

/-- `U` becomes `V`. -/
def toV : Renaming := ⟨"U", "V", "std::list::List::pick::V"⟩

lemma pick_fits : toV.Fits pick where
  names := by decide
  params := by
    simp only [pick, List.forall_mem_cons, List.not_mem_nil, false_imp_iff, implies_true, and_true]
    exact ⟨⟨by decide, by simp [Renaming.Spares]⟩, by decide, by simp [Ty.list, Renaming.Spares, Renaming.SparesAll]⟩
  result := ⟨by decide, by simp [pick, Ty.resultOf, Renaming.Spares]⟩
  bounds := by
    intro g hg
    have hown : g = own := by simpa [pick, Ty.list] using hg
    simp [hown, own]
  own := by
    intro h hh
    exact .inl ⟨own, List.mem_singleton_self own, by rw [List.mem_singleton.mp hh]⟩

lemma course_steady : ∀ x ∈ course.arguments, x.Steady (Check.levels 4) toV := by
  have harguments : course.arguments = [⟨text, .generic own, [.empty, bound], .string⟩,
      ⟨empty, .list (.generic own), [.empty, bound, Ty.unify .string (.generic own)], .list .string⟩] := rfl
  rw [harguments, List.forall_mem_cons, List.forall_mem_singleton]
  -- a literal has its type from nowhere else, and the generic is bound when the list is checked
  exact ⟨fun _ _ h => h, fun _ _ h => h⟩

theorem pick_under_new_name : state.built = true ∧
    Check.FindsMethod (Check.levels 4) ⟨.none, 5⟩ numbers "pick" state (.list .int) candidate pick found ∧
    (Check.dispatch (Check.levels 4) ⟨.none, 5⟩ numbers "pick" [] [text, empty] .absent).run state =
      (.ok .string, returning) ∧
    toV.Fits pick ∧ bound.get? "U" = none ∧ bound.get? "V" = none ∧ toV.Elsewhere frame pick ∧
    (Check.callMethod (Check.levels 4) ⟨.none, 5⟩ numbers (.list .int) candidate "pick" (toV.callee pick) [] [text, empty]
      .absent).run found = (.ok .string, returning) := by
  obtain ⟨b, seenAs, v, w, hreceiver, call, hresult, hrenamed⟩ := own_generic_renamed rfl pick_found run_dispatch
  obtain ⟨hvalue, rfl⟩ := Prod.mk.inj (run_receiverBindings.symm.trans hreceiver)
  obtain ⟨rfl, rfl⟩ := Prod.mk.inj (Except.ok.inj hvalue)
  obtain ⟨-, rfl⟩ := Prod.mk.inj (course.run_eq.symm.trans call.run_eq)
  obtain rfl := call.unique course
  have hplace : toV.Elsewhere frame pick := by
    intro g hg
    rw [List.mem_singleton.mp hg]
    exact ⟨rfl, rfl⟩
  obtain ⟨before, ds, hds, hrun, -⟩ := hrenamed toV frame pick_fits rfl rfl course_steady returning_at hplace
  obtain ⟨rfl, rfl⟩ := List.append_eq_nil_iff.mp hds.symm
  exact ⟨rfl, pick_found, run_dispatch, pick_fits, rfl, rfl, hplace, hrun⟩

end Picks

namespace Swaps

/-- `impl<T> Box<T>` has a method `swap` with a generic of its own and the parameter and result of that type. In `use` there
is a box of numbers `b`, and `r = b.swap("s")`. -/
def statements (own : String) : List Syntax.Stmt :=
  let swap := Standard.declared "swap" [Standard.receiver, Standard.param "x" (Standard.ref own)] (some (Standard.ref own))
    [Standard.gen own]
  let call : Expr := .method {} (Standard.ident "b") "swap" [] [.literal ⟨{}, .string, "s"⟩]
  let use : Syntax.Fn := ⟨{}, false, "use", [], [Standard.param "b" (Standard.ref "Box" [Standard.intRef])], none,
    some ⟨{}, [.var ⟨{}, false, "r", none, call⟩]⟩⟩
  [Standard.type "Box" [] [Standard.gen "T"],
    Standard.impl [Standard.gen "T"] none (Standard.ref "Box" [Standard.elemRef]) [swap], .fn use]

def state (own : String) : State :=
  .ofPackages Standard.prelude 64 [("app", [("app::main", Standard.module (statements own))])]

def number? (t : State) : Option Nat :=
  match (t.modules.getLast?.map fun m => m.syn.statements : Option (List Syntax.Stmt)) with
  | some [_, _, .fn use] =>
    match (use.body.map fun b => b.statements : Option (List Syntax.Stmt)) with
    | some [.var v] => some v.value.info.id
    | _ => none
  | _ => none

def outcome? (s : State) : Option (Nat × Path) :=
  match s.check with
  | (none, t) =>
    match number? t with
    | some i =>
      match t.slots[i]? with
      | some (.named p []) => some (t.diagnostics.length, p)
      | _ => none
    | none => none
  | (some _, _) => none

lemma exists_of_outcome? {s : State} {n : Nat} {p : Path} (h : outcome? s = some (n, p)) :
    ∃ t, s.check = (none, t) ∧ t.diagnostics.length = n ∧ ∃ i, number? t = some i ∧ t.slots[i]? = some (.named p []) := by
  unfold outcome? at h
  split at h
  · next t hcheck =>
    split at h
    · next j hnumber =>
      split at h
      · next q hslot =>
        cases h
        exact ⟨t, hcheck, rfl, _, hnumber, hslot⟩
      · cases h
    · cases h
  · cases h

-- both runs in one evaluation, which shares the work on the standard package
lemma outcome_state : outcome? (state "T") = some (1, Ty.intPath) ∧ outcome? (state "U") = some (0, Ty.stringPath) := by
  decide +kernel

/-- The text is taken for a number where the method's generic has the name of that of the impl. -/
theorem swap_depends_on_name :
    (∃ t, (state "T").check = (none, t) ∧ t.diagnostics.length = 1 ∧ ∃ i, number? t = some i ∧ t.slots[i]? = some .int) ∧
    ∃ t, (state "U").check = (none, t) ∧ t.diagnostics = [] ∧ ∃ i, number? t = some i ∧ t.slots[i]? = some .string := by
  obtain ⟨hsame, hother⟩ := outcome_state
  obtain ⟨t, hcheck, hlength, hslot⟩ := exists_of_outcome? hother
  exact ⟨exists_of_outcome? hsame, t, hcheck, List.length_eq_zero_iff.mp hlength, hslot⟩

end Swaps

end TraitCheck
