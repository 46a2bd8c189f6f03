import TraitCheck.Proofs.Check.Places
import TraitCheck.Proofs.Check.Types

/-! Collecting relations. Every impl that has a relation is known by it, so that states stay sane as relations are
added. -/

namespace TraitCheck

open Check.Regime
open Syntax (Form Stmt TypeExpr)

/-! ### More relations -/

structure Setting.More (e e' : Setting) : Prop where
  form : e'.toForm = e.toForm
  modules : e.modules.length ≤ e'.modules.length
  instances : ∀ i ∈ e.instances, i ∈ e'.instances

section More

variable {e e' : Setting} (hmore : e.More e')

include hmore

lemma Setting.Whole.mono {t : Ty} (h : e.Whole t) : e'.Whole t := by
  rw [Setting.Whole, hmore.form]
  exact h

lemma Setting.Signature.mono {t : Ty} (h : e.Signature t) : e'.Signature t :=
  ⟨h.isFn, h.whole.mono hmore, fun gs ps r heq => (h.result gs ps r heq).mono hmore⟩

lemma Owner.Known.mono {o : Owner} (h : o.Known e) : o.Known e' := by
  cases o with
  | trait d =>
    rw [Owner.Known, hmore.form]
    exact h
  | impl d =>
    obtain ⟨hd, i, hi, hid⟩ := h
    exact ⟨hmore.form ▸ hd, i, hmore.instances i hi, hid⟩

lemma Definition.Proper.mono {d : Definition} (h : d.Proper e) : d.Proper e' := by
  cases d with
  | var v => exact ⟨fun d hd => hmore.form ▸ h.node d hd, fun t ht => (h.type t ht).mono hmore⟩
  | fn f => exact ⟨hmore.form ▸ h.node, h.typed, fun t ht => (h.signature t ht).mono hmore⟩
  | trait d =>
    rw [Definition.Proper, hmore.form]
    exact h
  | impl d =>
    rw [Definition.Proper, hmore.form]
    exact h
  | type d =>
    rw [Definition.Proper, hmore.form]
    exact h
  | variant d v =>
    rw [Definition.Proper, hmore.form]
    exact h
  | method m => exact ⟨hmore.form ▸ h.node, h.owner.mono hmore⟩
  | generic g => exact Setting.Whole.mono hmore h
  | self o t => exact ⟨Owner.Known.mono hmore h.1, Setting.Whole.mono hmore h.2⟩
  | module id => exact Nat.lt_of_lt_of_le h hmore.modules
  | param _ => trivial

lemma Scope.Proper.mono {sc : Scope} (h : sc.Proper e) : sc.Proper e' := by
  refine ⟨fun x hx => ?_, fun o t hself => ?_⟩
  · obtain ⟨hkind, hproper⟩ := h.defs x hx
    exact ⟨hkind, hproper.mono hmore⟩
  · obtain ⟨ho, ht⟩ := h.self o t hself
    exact ⟨ho.mono hmore, ht.mono hmore⟩

lemma Scope.Local.mono {sc : Scope} (h : sc.Local e) : sc.Local e' := by
  refine ⟨h.toProper.mono hmore, h.kinds, fun b hb => ?_⟩
  obtain ⟨hresult, hreturns⟩ := h.body b hb
  exact ⟨fun habsent => (hresult habsent).mono hmore, fun t ht => (hreturns t ht).mono hmore⟩

lemma Instance.Proper.mono {i : Instance} (h : i.Proper e) : i.Proper e' where
  owner := h.owner.mono hmore
  implemented := hmore.form ▸ h.implemented
  relation := hmore.form ▸ h.relation
  isImpl := h.isImpl

lemma ModuleEntry.Proper.mono {m : ModuleEntry} (h : m.Proper e) : m.Proper e' where
  statements := hmore.form ▸ h.statements
  scope := h.scope.mono hmore
  defs id d hd := (h.defs id d hd).mono hmore
  impls := h.impls
  defined := h.defined

end More

lemma Setting.more_watch (e : Setting) (w : Watch) : e.More { e with toWatch := w } :=
  ⟨rfl, Nat.le_refl _, fun _ hi => hi⟩

lemma Sane.watch {e : Setting} {s : State} (hs : Sane e s) (w : Watch) : Sane { e with toWatch := w } s :=
  have hmore := e.more_watch w
  { hs with
    proper :=
      ⟨fun m hm => (hs.proper.modules m hm).mono hmore, fun i hi => (hs.proper.instances i hi).mono hmore⟩
    frames := fun f hf sc hsc => (hs.frames f hf sc hsc).mono hmore
    signatures := fun id t ht => (hs.signatures id t ht).mono hmore }

def State.related (s : State) (instances : List Instance) (built : Bool) : State :=
  { s with instances := instances, built := built }

variable {F : Form} {s : State}

lemma Sane.related (hs : Sane ⟨s.fixed, F, .none⟩ s) {instances : List Instance} (built : Bool)
    (hmore : ∀ i ∈ s.instances, i ∈ instances)
    (hnew : ∀ i ∈ instances, i ∉ s.instances → i.Proper ⟨(s.related instances built).fixed, F, .none⟩) :
    Sane ⟨(s.related instances built).fixed, F, .none⟩ (s.related instances built) := by
  have hmore : Setting.More ⟨s.fixed, F, .none⟩ ⟨(s.related instances built).fixed, F, .none⟩ := ⟨rfl, Nat.le_refl _, hmore⟩
  refine
    { hs with
      proper := ⟨fun m hm => (hs.proper.modules m hm).mono hmore, fun i hi => ?_⟩
      fixed := rfl
      frames := fun f hf sc hsc => (hs.frames f hf sc hsc).mono hmore
      signatures := fun id t ht => (hs.signatures id t ht).mono hmore
      memo := ?_ }
  · by_cases hold : i ∈ s.instances
    · exact (hs.proper.instances i hold).mono hmore
    · exact hnew i hi hold
  · intro p hp l hl c hc
    have hc := hs.memo p hp l hl c hc
    refine { hc with impls := fun r hr => ?_ }
    obtain ⟨i, hi, rfl⟩ := List.mem_map.mp (hc.impls r hr).1
    exact ⟨List.mem_map_of_mem (hmore.instances i hi), (hc.impls _ hr).2⟩

def Owner.Fits (F : Form) : Owner → Prop
  | .trait d => (Stmt.trait d.node).Fits F
  | .impl d => (Stmt.impl d.node).Fits F

structure Instance.New (F : Form) (i : Instance) : Prop where
  owner : i.owner.Fits F
  implemented : ∀ d, i.implemented = some d → (Stmt.trait d.node).Fits F
  relation : F.strict → i.relation.Whole
  isImpl : i.relation.kind ≠ .trait → ∃ d, i.owner = .impl d

lemma Instance.New.proper {e : Setting} {i : Instance} (h : i.New e.toForm) (hi : i ∈ e.instances) : i.Proper e := by
  refine ⟨?_, h.implemented, h.relation, h.isImpl⟩
  have hfits := h.owner
  cases howner : i.owner with
  | trait d =>
    rw [howner] at hfits
    exact hfits
  | impl d =>
    rw [howner] at hfits
    exact ⟨hfits, i, hi, by rw [howner]; rfl⟩

namespace Check

variable {α β : Type} {e : Setting} {P : α → Prop} {Q : β → Prop} {x : Check α}

/-! ### Relations of declarations -/

lemma traitInstance_safe (id : Nat) {d : TraitDecl} (h : (Stmt.trait d.node).Fits e.toForm) :
    Safe e (Instance.New e.toForm) (traitInstance id d) := by
  refine (traitGenerics_safe h).bind fun gs hgs => .pure ⟨h, by simp, fun hstrict => ?_, by simp⟩
  have hargs : ∀ a ∈ gs.map Ty.generic, a.Whole := List.forall_mem_map.mpr fun g hg => hgs g hg hstrict
  exact ⟨hargs, .named hargs, fun g hg => hgs g hg hstrict⟩

lemma pathOf_bind {names : List String} (h : e.strict → names ≠ []) {f : Path → Check β}
    (hf : names ≠ [] → SafeAt e Q (f ⟨names⟩) s) : SafeAt e Q (pathOf names >>= f) s := by
  cases names with
  | nil => exact .fails rfl (.inl (.inr ⟨fun hstrict => h hstrict rfl, .inl rfl⟩))
  | cons n ns => exact hf (List.cons_ne_nil _ _)

lemma typeOf_trait {info : Syntax.Info} {names : List String} {args : List TypeExpr} {path : Path} {t : TraitDecl}
    {module : Option Nat} (hs : Ready e s) (hnames : names ≠ []) (hargs : ∀ t ∈ args, t.Fits e.toForm)
    (hmeaning : meaning s Kind.types ⟨names⟩ = .ok (some ⟨path, .trait t, module⟩)) :
    SafeAt e (fun r => ∃ p ts, r = .named p ts ∧ ∀ t ∈ ts, e.Whole t) (typeOf (.named info names args)) s := by
  rw [typeOf, resolveType]
  refine pathOf_bind (fun _ => hnames) fun _ => ?_
  refine resolveOrReport_bind hs fun r s' hs' _ hfinds hr _ => ?_
  rw [hmeaning] at hr
  obtain rfl := Except.ok.inj hr
  obtain ⟨-, hproper⟩ := hfinds _ rfl
  refine Keeps.bind (resolveTypes_safe declareGenerics_safe args hargs) (fun ts hts => ?_) s' hs'
  refine ((declareGenerics_safe t.node.generics t.path (Stmt.Fits.trait hproper).1).inModule t.module).safe.skip
    fun _ => ?_
  exact (fitArgs_safe _ _ hts).bind fun us hus => .pure ⟨_, us, rfl, hus⟩

lemma implInstance_safe (id : Nat) {d : ImplDecl} (h : (Stmt.impl d.node).Fits e.toForm) :
    Safe e (fun r => ∀ i, r = some i → i.New e.toForm ∧ i.owner = .impl d) (implInstance id d) := by
  obtain ⟨hgenerics, htrait, hfor, -⟩ := h.impl
  rw [implInstance]
  refine (entry_safe d.module).skip fun m => (declareGenerics_safe _ _ hgenerics).bind fun r hr => ?_
  obtain ⟨scope, generics⟩ := r
  refine Safe.inScope hr.1 ?_
  have hfits : ∀ u, d.node.forType = some u → u.Fits e.toForm := by
    intro u hu hstrict
    obtain ⟨t, hsome, ht⟩ := hfor hstrict
    rw [hsome] at hu
    exact Option.some.inj hu ▸ ht
  refine (typeOf?_safe hfits).bind fun forType hforType => ?_
  have hforType : e.Whole forType := by
    intro hstrict
    obtain ⟨t, hsome, -⟩ := hfor hstrict
    exact hforType.2 (by simp [hsome]) hstrict
  match htraitOf : d.node.trait with
  | none =>
    cases forType with
    | named p args =>
      refine .pure fun i hi => ?_
      obtain rfl := Option.some.inj hi
      refine ⟨⟨h, by simp, fun hstrict => ?_, fun _ => ⟨d, rfl⟩⟩, rfl⟩
      exact ⟨(hforType hstrict).args, hforType hstrict, fun g hg => hr.2 g hg hstrict⟩
    | _ => exact .pure (by simp)
  | some (.hole _) | some (.fn _ _ _ _) => exact (report_safe _ _).skip fun _ => .pure (by simp)
  | some (.named info names args) =>
    obtain ⟨hnames, hargs⟩ := TypeExpr.Fits.named (htrait _ htraitOf)
    intro s hs
    refine pathOf_bind hnames fun hnames => ?_
    refine resolveOrReport_bind hs fun r s' hs' _ hfinds _ hmeaning => ?_
    match r, hfinds with
    | none, _ => exact .pure hs' (by simp)
    | some ⟨path, definition, module⟩, hfinds =>
      obtain ⟨hkind, hproper⟩ := hfinds _ rfl
      cases definition <;> simp [Definition.kind, Kind.types] at hkind
      case trait t =>
        refine (typeOf_trait hs' hnames hargs hmeaning).bind fun u s'' hu hs'' _ => ?_
        obtain ⟨p, ts, rfl, hts⟩ := hu
        refine .pure hs'' fun i hi => ?_
        obtain rfl := Option.some.inj hi
        refine ⟨⟨h, fun t' ht' => ?_, fun hstrict => ?_, fun _ => ⟨d, rfl⟩⟩, rfl⟩
        · exact Option.some.inj ht' ▸ hproper
        · exact ⟨fun a ha => hts a ha hstrict, hforType hstrict, fun g hg => hr.2 g hg hstrict⟩
      all_goals exact Keeps.skip (report_safe _ _) (fun _ => .pure (by simp)) s' hs'

/-! ### All relations -/

structure Grows (F : Form) (s t : State) : Prop extends Quiet ⟨{}, F, .none⟩ s t where
  instances : s.instances <+: t.instances
  modules : t.fixed.modules = s.fixed.modules

/-- How relations are collected in a module: the fixed parts of the state change with each of them. -/
def building (F : Form) : Regime where
  Inv s := Ready ⟨s.fixed, F, .none⟩ s
  Step := Grows F
  refl s := ⟨.refl s, List.prefix_rfl, rfl⟩
  trans h h' := ⟨h.toQuiet.trans h'.toQuiet, h.instances.trans h'.instances, h'.modules.trans h.modules⟩
  Allowed φ := Setting.Allowed ⟨{}, F, .none⟩ φ

def collecting (F : Form) : Regime := { building F with Inv := fun s => Sane ⟨s.fixed, F, .none⟩ s }

lemma grows_of_fixed {t : State} (h : Quiet ⟨s.fixed, F, .none⟩ s t) (hfixed : t.fixed = s.fixed) : Grows F s t := by
  have hinstances : t.instances = s.instances := by
    have : t.fixed.instances = s.fixed.instances := by rw [hfixed]
    exact this
  exact ⟨{ h with }, hinstances ▸ List.prefix_rfl, congrArg State.modules hfixed⟩

lemma building_of_safe (hs : (building F).Inv s) (h : Safe ⟨s.fixed, F, .none⟩ P x) : (building F).KeepsAt P x s := by
  refine ⟨fun a t hrun => ?_, (h s hs).error⟩
  obtain ⟨ht, hquiet, ha⟩ := (h s hs).ok a t hrun
  have hfixed : t.fixed = s.fixed := ht.fixed
  refine ⟨?_, grows_of_fixed hquiet hfixed, ha⟩
  change Ready ⟨t.fixed, F, .none⟩ t
  rw [hfixed]
  exact ht

lemma collecting_of_free (hs : (collecting F).Inv s) (h : Free ⟨s.fixed, F, .none⟩ P x) : (collecting F).KeepsAt P x s := by
  refine ⟨fun a t hrun => ?_, (h s hs).error⟩
  obtain ⟨ht, hquiet, ha⟩ := (h s hs).ok a t hrun
  have hfixed : t.fixed = s.fixed := ht.fixed
  refine ⟨?_, grows_of_fixed hquiet hfixed, ha⟩
  change Sane ⟨t.fixed, F, .none⟩ t
  rw [hfixed]
  exact ht

lemma inModule_collecting (h : (building F).Keeps P x) (id : Nat) : (collecting F).Keeps P (inModule id x) := by
  intro s hs
  refine .bracket (S := building F) (h _ (.entered hs id)) (fun _ hφ => hφ) fun _ t _ ht hstep => ?_
  have ht : Ready ⟨t.fixed, F, .none⟩ t := ht
  have hstep : Grows F (entered id s) t := hstep
  exact ⟨sane_pop ht.toSane, { hstep with toCalm := hstep.toCalm.left }⟩

lemma addInstance_building (module : Nat) (stmt : Stmt) :
    (building F).Keeps (fun _ => True) (addInstance module stmt) := by
  have hadd : ∀ {i : Instance}, i.New F →
      (building F).Keeps (fun _ => True) (modify fun s => { s with instances := s.instances ++ [i] } : Check Unit) := by
    intro i hi s hs
    have hs : Ready ⟨s.fixed, F, .none⟩ s := hs
    have hsane : Sane ⟨(s.related (s.instances ++ [i]) s.built).fixed, F, .none⟩ (s.related (s.instances ++ [i]) s.built) := by
      refine hs.toSane.related s.built (fun j hj => List.mem_append_left _ hj) fun j hj hold => ?_
      obtain rfl := List.mem_singleton.mp ((List.mem_append.mp hj).resolve_left hold)
      exact hi.proper (List.mem_append_right _ (List.mem_singleton_self _))
    exact .of_run rfl ⟨hsane, hs.framed⟩ ⟨{ Quiet.refl s with }, List.prefix_append _ _, rfl⟩ trivial
  refine .get fun s hs => (building_of_safe hs (entry_safe module)).bind fun m s' hm hs' _ => ?_
  split
  · next d hd =>
    have hd := hm.defs _ _ hd
    exact (building_of_safe hs' (traitInstance_safe _ hd)).bind fun i s'' hi hs'' _ => hadd hi s'' hs''
  · next d hd =>
    have hd := hm.defs _ _ hd
    refine (building_of_safe hs' (implInstance_safe _ hd)).bind fun r s'' hr hs'' _ => ?_
    cases r with
    | none => exact .pure hs'' trivial
    | some i => exact hadd (hr i rfl).1 s'' hs''
  · exact .pure hs' trivial

def addInstances (id : Nat) : Check Unit := do
  let e ← entry id
  inModule id (e.syn.statements.forM (addInstance id))

lemma addInstances_collecting (id : Nat) : (collecting F).Keeps (fun _ => True) (addInstances id) := by
  intro s hs
  refine (collecting_of_free hs (entry_free id)).bind fun m s' _ hs' _ => ?_
  exact inModule_collecting (.forM fun stmt _ => addInstance_building id stmt) id s' hs'

lemma forIn_yield (l : List α) (f : α → Check Unit) :
    (forIn l PUnit.unit fun a _ => f a >>= fun _ => pure (.yield PUnit.unit)) = l.forM f := by
  induction l with
  | nil => rfl
  | cons a l ih =>
    rw [List.forIn_cons, forM_cons, bind_assoc]
    exact congrArg (f a >>= ·) (funext fun _ => by rw [pure_bind]; exact ih)

lemma run_buildRelations (hbuilt : s.built = false) : buildRelations.run s = (do
    (List.range s.modules.length).forM addInstances
    modify fun s => { s with built := true }
    reportOverlaps [] (← get).instances : Check Unit).run s := by
  have hround : (fun id (_ : PUnit) => do
      let e ← entry id
      inModule id (e.syn.statements.forM (addInstance id))
      pure (ForInStep.yield PUnit.unit)) = fun id _ => addInstances id >>= fun _ => pure (.yield PUnit.unit) := by
    funext id _
    rw [addInstances, bind_assoc]
  rw [buildRelations, run_get_bind, if_neg (by simp [hbuilt]), run_get_bind, hround, forIn_yield]

lemma reportOverlaps_free (seen : List String) {is : List Instance} (h : ∀ i ∈ is, i.Proper e) :
    Free e (fun _ => True) (reportOverlaps seen is) := by
  induction is generalizing seen with
  | nil => exact .pure trivial
  | cons i is ih =>
    have hrest := fun seen => ih seen fun j hj => h j (List.mem_cons_of_mem _ hj)
    rw [reportOverlaps]
    refine .ite (fun hoverlap => .ite (fun _ => ?_) fun _ => hrest _) fun _ => hrest seen
    have hkind : i.relation.kind ≠ .trait := by
      simp only [Relation.isImpl, Bool.and_eq_true, decide_eq_true_eq] at hoverlap
      simp [hoverlap.1]
    obtain ⟨d, hd⟩ := (h i (by simp)).isImpl hkind
    rw [hd]
    exact ((report_safe _ _).inModule _).skip fun _ => hrest seen

def collected (F : Form) : Regime :=
  { building F with Inv := fun s => Sane ⟨s.fixed, F, .none⟩ s ∧ s.built = true }

lemma reportAll_collected (hs : Sane ⟨s.fixed, F, .none⟩ s) : (collected F).KeepsAt (fun _ => True) (do
    modify fun s => { s with built := true }
    reportOverlaps [] (← get).instances : Check Unit) s := by
  have hrelated : Sane ⟨(s.related s.instances true).fixed, F, .none⟩ (s.related s.instances true) :=
    hs.related true (fun _ hi => hi) fun i hi hold => absurd hi hold
  have hreport := reportOverlaps_free [] hrelated.properInstances _ hrelated
  refine .after (t := s.related s.instances true) rfl ⟨{ Quiet.refl s with }, List.prefix_rfl, rfl⟩ (.get ?_)
  refine ⟨fun a u hu => ?_, hreport.error⟩
  obtain ⟨hu, hquiet, ha⟩ := hreport.ok a u hu
  have hfixed : u.fixed = (s.related s.instances true).fixed := hu.fixed
  have hbuilt : u.built = true := by
    have : u.fixed.built = true := by rw [hfixed]; rfl
    exact this
  refine ⟨⟨?_, hbuilt⟩, grows_of_fixed hquiet hfixed, trivial⟩
  rw [hfixed]
  exact hu

lemma buildRelations_collected (hs : Sane ⟨s.fixed, F, .none⟩ s) (hbuilt : s.built = false) :
    (collected F).KeepsAt (fun _ => True) buildRelations s := by
  have hloop := Keeps.forM (l := List.range s.modules.length) (fun id _ => addInstances_collecting id) s hs
  refine .congr (run_buildRelations hbuilt) ?_
  match hrun : ((List.range s.modules.length).forM addInstances).run s with
  | (.error φ, t) => exact .fails (run_bind_error hrun _) (hloop.error φ t hrun)
  | (.ok _, t) =>
    obtain ⟨ht, hgrows, -⟩ := hloop.ok _ t hrun
    exact .after hrun hgrows (reportAll_collected ht)

end Check

end TraitCheck
