import TraitCheck.Proofs.Check.Resolve

/-! Written types, declarations and signatures in a sane state. A written type is never absent. -/

namespace TraitCheck

open Check.Regime
open Syntax (Stmt TypeExpr GenericDecl)

variable {e : Setting}

namespace Setting

variable {t : Ty}

lemma Optional.whole (h : e.Optional t) (ht : t.isAbsent = false) : e.Whole t := by
  apply h
  rintro rfl
  cases ht

lemma Optional.resultOf (h : e.Optional t) : e.Whole t.resultOf := by
  intro hstrict
  by_cases ht : t = .absent
  · subst ht
    exact .unit
  · exact (h ht hstrict).resultOf

lemma Whole.optional (h : e.Whole t) : e.Optional t := fun _ => h

lemma whole_fn (gs : List (Generic Ty)) {ps : List Ty} {r : Ty} (hps : ∀ p ∈ ps, e.Whole p) (hr : e.Whole r) :
    e.Whole (.fn gs ps r) := fun hstrict => .fn (fun p hp => hps p hp hstrict) (hr hstrict)

lemma whole_named (p : Path) {args : List Ty} (h : ∀ a ∈ args, e.Whole a) : e.Whole (.named p args) :=
  fun hstrict => .named fun a ha => h a ha hstrict

lemma whole_unknown : e.Whole .unknown := fun _ => .unknown

lemma whole_unit : e.Whole .unit := fun _ => .unit

end Setting

lemma local_ofGenerics {gs : List (Generic Ty)} (hgs : ∀ g ∈ gs, e.Whole (.generic g)) :
    (Scope.ofGenerics gs).Local e := by
  have : ∀ sc : Scope, sc.Local e → (gs.foldl (fun s g => s.define g.name (.generic g)) sc).Local e := by
    induction gs with
    | nil => exact fun sc hsc => hsc
    | cons g gs ih =>
      intro sc hsc
      have hproper : (Definition.generic g).Proper e := hgs g (by simp)
      exact ih (fun h hh => hgs h (List.mem_cons_of_mem _ hh)) _
        (Check.local_define hsc (by simp [Definition.kind, Kind.locals]) hproper _)
  exact this _ Check.local_empty

namespace Check

lemma pathOf_safe {names : List String} (h : e.strict → names ≠ []) : Safe e (· = ⟨names⟩) (pathOf names) := by
  cases names with
  | nil => exact .throw (.inl (.inr ⟨fun hstrict => h hstrict rfl, .inl rfl⟩))
  | cons n ns => exact .pure rfl

lemma checkArity_safe (info : Syntax.Info) (expected got : Nat) :
    Safe e (fun _ => True) (checkArity info expected got) := by
  rw [checkArity]
  split
  · exact .pure trivial
  · exact (report_safe _ _).skip fun _ => .pure trivial

lemma fitArgs_safe (info : Syntax.Info) (expected : Nat) {args : List Ty} (hargs : ∀ a ∈ args, e.Whole a) :
    Safe e (fun r => ∀ a ∈ r, e.Whole a) (fitArgs info expected args) := by
  rw [fitArgs]
  split
  · exact .pure fun a ha hstrict => .holes _ a ha
  · refine (checkArity_safe _ _ _).skip fun b => ?_
    cases b with
    | true => exact .pure hargs
    | false =>
      refine .pure fun a ha => ?_
      obtain ha | ha := List.mem_append.mp (List.mem_of_mem_take ha)
      · exact hargs a ha
      · exact List.eq_of_mem_replicate ha ▸ Setting.whole_unknown

def SafeDeclare (e : Setting) (declare : Declare) : Prop :=
  ∀ decls owner, (∀ d ∈ decls, GenericDecl.Fits e.toForm d) →
    Safe e (fun r => r.1.Local e ∧ ∀ g ∈ r.2, e.Whole (.generic g)) (declare decls owner)

section Written

variable {declare : Declare}

mutual

lemma resolveType_safe (hdeclare : SafeDeclare e declare) : (t : TypeExpr) → t.Fits e.toForm →
    Safe e e.Whole (resolveType declare t)
  | .hole _, _ => by
    rw [resolveType]
    exact .pure fun _ => .hole
  | .fn _ gs ps r, h => by
    obtain ⟨hgenerics, hparams, hresult⟩ := TypeExpr.Fits.fn h
    rw [resolveType]
    refine (hdeclare gs _ hgenerics).bind fun d hd => Safe.inScope hd.1 ?_
    refine (resolveTypes_safe hdeclare ps hparams).bind fun ps hps => ?_
    exact (resolveOptType_safe hdeclare r hresult).bind fun r hr => .pure (Setting.whole_fn _ hps hr.1.resultOf)
  | .named info names args, h => by
    obtain ⟨hnames, hargs⟩ := TypeExpr.Fits.named h
    rw [resolveType]
    refine (pathOf_safe hnames).skip fun p => (resolveOrReport_safe info "type" Kind.types p).bind fun r hr => ?_
    cases r with
    | none => exact .pure Setting.whole_unknown
    | some r =>
      obtain ⟨hkind, hproper⟩ := hr r rfl
      refine (resolveTypes_safe hdeclare args hargs).bind fun args hargs => ?_
      cases hdef : r.definition <;> rw [hdef] at hkind hproper <;> simp [Definition.kind, Kind.types] at hkind
      case trait d =>
        refine ((hdeclare d.node.generics d.path (Stmt.Fits.trait hproper).1).inModule d.module).safe.skip fun _ => ?_
        exact (fitArgs_safe _ _ hargs).bind fun _ hfit => .pure (Setting.whole_named _ hfit)
      case type d =>
        refine ((hdeclare d.node.generics d.path hproper.generics).inModule d.module).safe.skip fun _ => ?_
        exact (fitArgs_safe _ _ hargs).bind fun _ hfit => .pure (Setting.whole_named _ hfit)
      case generic g => exact (checkArity_safe _ _ _).discard.skip fun _ => .pure hproper
      case self o t => exact (checkArity_safe _ _ _).discard.skip fun _ => .pure hproper.2

lemma resolveTypes_safe (hdeclare : SafeDeclare e declare) : (ts : List TypeExpr) → (∀ t ∈ ts, t.Fits e.toForm) →
    Safe e (fun rs => ∀ r ∈ rs, e.Whole r) (resolveTypes declare ts)
  | [], _ => by
    rw [resolveTypes]
    exact .pure (by simp)
  | t :: ts, h => by
    rw [resolveTypes]
    refine (resolveType_safe hdeclare t (h t (by simp))).bind fun r hr => ?_
    refine (resolveTypes_safe hdeclare ts fun u hu => h u (List.mem_cons_of_mem _ hu)).bind fun rs hrs => .pure ?_
    exact List.forall_mem_cons.mpr ⟨hr, hrs⟩

lemma resolveOptType_safe (hdeclare : SafeDeclare e declare) : (t : Option TypeExpr) →
    (∀ u, t = some u → u.Fits e.toForm) →
    Safe e (fun r => e.Optional r ∧ (t.isSome → e.Whole r)) (resolveOptType declare t)
  | none, _ => by
    rw [resolveOptType]
    exact .pure ⟨fun h => absurd rfl h, nofun⟩
  | some t, h => by
    rw [resolveOptType]
    exact (resolveType_safe hdeclare t (h t rfl)).mono fun _ hr => ⟨hr.optional, fun _ => hr⟩

end

end Written

/-! ### Generics -/

lemma store_safe (decls : List GenericDecl) {gs : List (Generic Ty)} (h : ∀ g ∈ gs, e.Whole (.generic g)) :
    Safe e (fun _ => True) (modify fun s => { s with
      generics := (decls.zip gs).foldl (fun m x => m.insert x.1.info.id x.2) s.generics } : Check Unit) := by
  refine Free.safe (.update (fun s hs => { hs with generics := ?_ }) fun s => { Quiet.refl s with })
  have hzip : ∀ x ∈ decls.zip gs, e.Whole (.generic x.2) := fun x hx => h x.2 (List.of_mem_zip hx).2
  have hstart := hs.generics
  simp only
  generalize s.generics = known at hstart
  generalize decls.zip gs = entries at hzip
  induction entries generalizing known with
  | nil => exact hstart
  | cons x entries ih =>
    refine ih _ (fun id g hg => ?_) fun y hy => hzip y (List.mem_cons_of_mem _ hy)
    rw [Std.TreeMap.getElem?_insert] at hg
    split at hg
    · obtain rfl := Option.some.inj hg
      exact hzip x (by simp)
    · exact hstart id g hg

lemma declareWith_safe {bound : TypeExpr → Check Ty} (hbound : ∀ t, t.Fits e.toForm → Safe e e.Whole (bound t)) :
    SafeDeclare e (declareWith bound) := by
  intro decls owner hdecls
  refine .get fun s hs => ?_
  let start := decls.map fun d => ((s.generics)[d.info.id]?).getD ⟨d.name, (owner.child d.name).render, []⟩
  have hstart : ∀ g ∈ start, e.Whole (.generic g) := by
    intro g hg
    obtain ⟨d, -, rfl⟩ := List.mem_map.mp hg
    cases hknown : s.generics[d.info.id]? with
    | none => exact fun _ => .generic (by simp)
    | some g => exact hs.generics _ g hknown
  dsimp only
  split
  · refine Keeps.bind (store_safe decls hstart) (fun _ _ => ?_) s hs
    have hbounds : Safe e (fun gs => ∀ g ∈ gs, e.Whole (.generic g))
        ((decls.zip start).mapM fun x => do
          if (s.generics[x.1.info.id]?).isNone then return { x.2 with bounds := ← x.1.bounds.mapM bound }
          else return x.2) := by
      refine .mapM fun x hx => ?_
      obtain ⟨hd, hg⟩ := List.of_mem_zip (a := x.1) (b := x.2) hx
      dsimp only
      split
      · refine (Keeps.mapM fun t ht => hbound t (hdecls _ hd t ht)).bind fun bs hbs => .pure ?_
        exact fun hstrict => .generic fun b hb => hbs b hb hstrict
      · exact .pure (hstart _ hg)
    refine (Safe.inScope (local_ofGenerics hstart) hbounds).bind fun resolved hresolved => ?_
    have htied : ∀ g ∈ Generic.tieSiblings resolved resolved.length, e.Whole (.generic g) := fun g hg hstrict =>
      Generic.whole_tieSiblings (fun k hk => hresolved k hk hstrict) _ g hg
    exact (store_safe decls htied).skip fun _ => .pure ⟨local_ofGenerics htied, htied⟩
  · exact .pure hs ⟨local_ofGenerics hstart, hstart⟩

lemma declare_safe (fuel : Nat) : SafeDeclare e (declare fuel) := by
  induction fuel with
  | zero => exact fun _ _ _ => .throw tooDeep_allowed
  | succ fuel ih =>
    rw [declare]
    exact declareWith_safe fun t ht => resolveType_safe ih t ht

lemma declareGenerics_safe : SafeDeclare e declareGenerics := fun decls owner hdecls =>
  .get fun s hs => declare_safe _ decls owner hdecls s hs

lemma typeOf_safe {t : TypeExpr} (h : t.Fits e.toForm) : Safe e e.Whole (typeOf t) :=
  resolveType_safe declareGenerics_safe t h

lemma typeOf?_safe {t : Option TypeExpr} (h : ∀ u, t = some u → u.Fits e.toForm) :
    Safe e (fun r => e.Optional r ∧ (t.isSome → e.Whole r)) (typeOf? t) :=
  resolveOptType_safe declareGenerics_safe t h

/-! ### Declarations -/

lemma typeGenerics_safe {d : TypeDecl} (h : d.node.Fits e.toForm) :
    Safe e (fun gs => ∀ g ∈ gs, e.Whole (.generic g)) (typeGenerics d) :=
  ((declareGenerics_safe _ d.path h.generics).inModule d.module).safe.bind fun _ hr => .pure hr.2

lemma traitGenerics_safe {d : TraitDecl} (h : (Stmt.trait d.node).Fits e.toForm) :
    Safe e (fun gs => ∀ g ∈ gs, e.Whole (.generic g)) (traitGenerics d) :=
  ((declareGenerics_safe _ d.path h.trait.1).inModule d.module).safe.bind fun _ hr => .pure hr.2

lemma typeSelf_safe {d : TypeDecl} (h : d.node.Fits e.toForm) : Safe e e.Whole (typeSelf d) :=
  (typeGenerics_safe h).bind fun _ hgs => .pure (Setting.whole_named _ (List.forall_mem_map.mpr hgs))

lemma traitSelf_safe {d : TraitDecl} (h : (Stmt.trait d.node).Fits e.toForm) : Safe e e.Whole (traitSelf d) :=
  (traitGenerics_safe h).bind fun _ hgs => .pure (Setting.whole_named _ (List.forall_mem_map.mpr hgs))

lemma traitSelfGeneric_safe {d : TraitDecl} (h : (Stmt.trait d.node).Fits e.toForm) :
    Safe e (fun g => e.Whole (.generic g)) (traitSelfGeneric d) :=
  (traitSelf_safe h).bind fun _ ht => .pure fun hstrict => .generic (by simpa using ht hstrict)

lemma fieldType_safe {d : TypeDecl} (h : d.node.Fits e.toForm) {f : Syntax.FieldDef} (hf : f.Fits e.toForm) :
    Safe e e.Whole (fieldType d f) := by
  rw [fieldType]
  refine (slot_safe _).bind fun known hknown => ?_
  split
  · refine (Safe.inModule ?_ _).safe
    refine (declareGenerics_safe _ d.path h.generics).bind fun r hr => ?_
    have htype : ∀ u, f.type = some u → u.Fits e.toForm := by
      intro u hu hstrict
      obtain ⟨t, ht, hwellFormed⟩ := hf.type hstrict
      rw [ht] at hu
      exact Option.some.inj hu ▸ hwellFormed
    refine (Safe.inScope hr.1 (typeOf?_safe htype)).bind fun t ht => ?_
    have hwhole : e.Whole t := fun hstrict => by
      obtain ⟨u, hu, -⟩ := hf.type hstrict
      exact ht.2 (by simp [hu]) hstrict
    split
    · exact .pure hwhole
    · exact (setSlot_safe hf.leaf hwhole).skip fun _ => .pure hwhole
  · next habsent => exact .pure (hknown.whole (by simpa using habsent))

lemma local_withSelf {sc : Scope} (h : sc.Local e) {o : Owner} (ho : o.Known e) {t : Ty} (ht : e.Whole t) :
    { sc with self := some (o, t) : Scope }.Local e := by
  refine ⟨⟨h.defs, fun o' t' hself => ?_⟩, h.kinds, h.body⟩
  obtain ⟨rfl, rfl⟩ := Prod.mk.inj (Option.some.inj hself)
  exact ⟨ho, ht⟩

lemma ownerScope_safe {o : Owner} (h : o.Known e) : Safe e (fun sc => sc.Local e) (ownerScope o) := by
  rw [ownerScope.eq_def]
  cases o with
  | trait d =>
    refine (traitGenerics_safe h).bind fun generics hgenerics => (traitSelfGeneric_safe h).bind fun self hself => ?_
    exact .pure (local_withSelf (local_ofGenerics hgenerics) h hself)
  | impl d =>
    refine .get fun s hs => ?_
    obtain ⟨i, hi, hid⟩ := h.2
    have hsome : (s.instanceOf? (.impl d)).isSome := by
      rw [State.instanceOf?, List.find?_isSome, hs.instances]
      exact ⟨i, hi, decide_eq_true hid⟩
    obtain ⟨j, hj⟩ := Option.isSome_iff_exists.mp hsome
    rw [hj]
    have hrelation := (hs.properInstances j (List.mem_of_find?_eq_some hj)).relation
    refine .pure hs (local_withSelf (local_ofGenerics fun g hg hstrict => ?_) h fun hstrict => ?_)
    · exact (hrelation hstrict).generics g hg
    · exact (hrelation hstrict).forType

lemma ownerPath_safe (o : Owner) : Safe e (fun _ => True) (ownerPath o) := by
  rw [ownerPath.eq_def]
  cases o with
  | trait d => exact .pure trivial
  | impl d =>
    refine .get fun s hs => ?_
    split
    · exact .pure hs trivial
    · exact (Keeps.skip (entry_safe _) fun _ => .pure trivial) s hs

/-! ### Signatures -/

lemma paramType_safe {p : Syntax.Param} (h : p.Fits e.toForm) : Safe e e.Whole (paramType p) := by
  rw [paramType]
  split
  · next t ht => exact typeOf_safe (h.type t ht)
  · refine selfType?_safe.bind fun self hself => ?_
    split
    · next o t heq =>
      split at heq
      · exact .pure (hself o t heq).2
      · cases heq
    · exact (report_safe _ _).skip fun _ => .pure Setting.whole_unknown

lemma paramSlot_safe {p : Syntax.Param} (h : p.Fits e.toForm) : Safe e e.Whole (paramSlot p) := by
  rw [paramSlot]
  refine (slot_safe _).bind fun known hknown => ?_
  split
  · exact (paramType_safe h).bind fun _ ht => (setSlot_safe h.leaf ht).skip fun _ => .pure ht
  · next habsent => exact .pure (hknown.whole (by simpa using habsent))

lemma signatureOf_safe {fn : Syntax.Fn} (h : Syntax.Fn.Fits e.toForm fn) (owner : Path) :
    Safe e e.Signature (signatureOf fn owner) := by
  obtain ⟨-, hgenerics, hparams, hresult, -⟩ := h.fn
  rw [signatureOf]
  refine (declareGenerics_safe _ owner hgenerics).bind fun r hr => Safe.inScope hr.1 ?_
  refine (Keeps.mapM fun p hp => paramSlot_safe (hparams p hp)).bind fun ps hps => ?_
  refine (typeOf?_safe hresult).bind fun t ht => .pure ⟨rfl, Setting.whole_fn _ hps ht.1.resultOf, ?_⟩
  intro _ _ _ heq
  injection heq with _ _ heq
  exact heq ▸ ht.1.resultOf

lemma signatureOnce_safe (id : Nat) {make : Check Ty} (h : Safe e e.Signature make) :
    Safe e e.Signature (signatureOnce id make) := by
  refine .get fun s hs => ?_
  split
  · next t ht => exact .pure hs (hs.signatures id t ht)
  · refine Keeps.bind h (fun t ht => ?_) s hs
    refine Keeps.skip (Free.safe (.update (fun s hs => ?_) fun s => { Quiet.refl s with })) fun _ => .pure ht
    refine { hs with signatures := fun k u hu => ?_ }
    rw [Std.TreeMap.getElem?_insert] at hu
    split at hu
    · exact Option.some.inj hu ▸ ht
    · exact hs.signatures k u hu

lemma fnSignature_safe {f : Function} (h : f.Known e) : Safe e e.Signature (fnSignature f) := by
  rw [fnSignature]
  split
  · next t hsignature => exact completed_signature (h.signature t hsignature)
  · exact signatureOnce_safe _ ((signatureOf_safe h.node _).inModule _).safe
  · next hsignature hmodule =>
    have htyped := h.typed
    simp [hsignature, hmodule] at htyped

lemma methodSignature_safe {m : Method} (h : m.Known e) : Safe e e.Signature (methodSignature m) := by
  refine signatureOnce_safe _ (Safe.inModule ?_ _).safe
  refine (ownerScope_safe h.owner).bind fun scope hscope => Safe.inScope hscope ?_
  exact (ownerPath_safe _).skip fun path => signatureOf_safe h.node _

/-! ### Substitution -/

lemma inDeclaration_safe (g : Generic Ty) : Safe e (fun _ => True) (inDeclaration g) := by
  rw [inDeclaration]
  split
  · refine selfType?_safe.skip fun self => ?_
    split <;> exact .pure trivial
  · refine (resolve_safe [.generic] _).bind fun r hr => ?_
    cases r with
    | none => exact .pure trivial
    | some r =>
      obtain ⟨path, d, module⟩ := r
      have hkind := (hr _ rfl).kind
      cases d <;> simp [Definition.kind] at hkind
      exact .pure trivial

lemma keptGenerics_safe (info : Option Syntax.Info) (gs : List (Generic Ty)) :
    Safe e (fun _ => True) (keptGenerics info gs) := by
  induction gs with
  | nil => exact .pure trivial
  | cons g gs ih =>
    rw [keptGenerics]
    refine (inDeclaration_safe g).skip fun b => ?_
    split
    · exact ih.skip fun _ => .pure trivial
    · exact (report_safe _ _).skip fun _ => ih

lemma resolveGenerics_safe (info : Option Syntax.Info) {maps : List Bindings} (hmaps : ∀ b ∈ maps, e.WholeMap b) {t : Ty}
    (ht : e.Whole t) : Safe e e.Whole (resolveGenerics info maps t) := by
  refine (keptGenerics_safe _ _).skip fun kept => .pure fun hstrict => (ht hstrict).replace (fun g hg => ?_) []
  refine Bindings.Whole.lookupOr (fun b hb => hmaps b hb hstrict) g.name ?_
  split
  · exact hg
  · exact .unknown

lemma explicitGenerics_safe (info : Syntax.Info) (generics : List (Generic Ty)) {args : List TypeExpr}
    (h : ∀ t ∈ args, t.Fits e.toForm) : Safe e e.WholeMap (explicitGenerics info generics args) := by
  have hempty : e.WholeMap .empty := fun _ => .empty
  rw [explicitGenerics]
  split
  · exact .pure hempty
  · refine (checkArity_safe _ _ _).skip fun b => ?_
    split
    · refine .foldlM (fun x hx b hb => ?_) hempty
      refine (typeOf_safe (h x.2 (List.of_mem_zip (a := x.1) (b := x.2) hx).2)).bind fun t ht => .pure ?_
      exact fun hstrict => (hb hstrict).insert _ (ht hstrict)
    · exact .pure hempty

end Check

end TraitCheck
