import TraitCheck.Proofs.Check.Glance

/-! Nodes that get types. What has a type has parts with types, but for closures that are being worked on or wait for
their first use, as long as no error has been reported. An action is described by the nodes that must have types before
and those that have one afterwards. -/

namespace TraitCheck

open Check.Regime
open Syntax (Expr)

namespace State

def Has (s : State) (id : Nat) : Prop := (s.slots[id]?).isSome

def Filled (s : State) (l : List Nat) : Prop := s.Clean → ∀ id ∈ l, s.Has id

/-- If no error has been reported, the parts of what has a type have types. The closures that satisfy `opened` are being
worked on. -/
def Complete (e : Setting) (opened : Nat → Prop) (s : State) : Prop :=
  s.Clean → ∀ id, s.Has id → (∀ p ∈ (e.node id).parts, s.Has p) ∨
    e.Closure id ∧ (opened id ∨ ¬ s.HasFn id ∧ Waits s.pending id)

variable {e : Setting} {opened : Nat → Prop} {s t : State} {k l : List Nat}

lemma Filled.nil (s : State) : s.Filled [] := fun _ => by simp

lemma Filled.mono (h : s.Filled l) (hk : k ⊆ l) : s.Filled k := fun hclean id hid => h hclean id (hk hid)

lemma Filled.append (hk : s.Filled k) (hl : s.Filled l) : s.Filled (k ++ l) := fun hclean =>
  List.forall_mem_append.mpr ⟨hk hclean, hl hclean⟩

lemma Filled.calm (h : s.Filled l) (hst : Check.Calm s t) : t.Filled l := fun hclean id hid =>
  hst.slots id (h (hclean.of_prefix hst.diagnostics) id hid)

lemma Complete.parts (h : s.Complete e opened) {id : Nat} (hid : ¬ e.Closure id) (hhas : s.Filled [id]) :
    s.Filled (e.node id).parts := fun hclean =>
  (h hclean id (hhas hclean id (by simp))).resolve_right fun hclosure => hid hclosure.1

lemma Complete.quiet (h : s.Complete e opened) (hst : Check.Quiet e s t) : t.Complete e opened := by
  intro hclean id hhas
  by_cases hleaf : e.Leaf id
  · left
    rw [Syntax.Form.Leaf] at hleaf
    simp [hleaf]
  · have hslot := hst.kept id hleaf
    rw [Has, hslot] at hhas
    refine (h (hclean.of_prefix hst.diagnostics) id hhas).imp (fun hparts p hp => hst.slots p (hparts p hp)) ?_
    rw [hst.pending, HasFn, HasFn, hslot]
    exact fun h => h

lemma Complete.typed {opened' : Nat → Prop} (h : s.Complete e opened) {id : Nat} {r : Ty}
    (hslots : t.slots = s.slots.insert id r) (hdiagnostics : t.diagnostics = s.diagnostics)
    (hpending : ∀ p ∈ s.pending, p ∈ t.pending) (hopened : ∀ k, opened k → opened' k)
    (hid : t.Clean → (∀ p ∈ (e.node id).parts, t.Has p) ∨
      e.Closure id ∧ (opened' id ∨ ¬ t.HasFn id ∧ Waits t.pending id)) : t.Complete e opened' := by
  have hsame {k : Nat} (hk : id ≠ k) : t.slots[k]? = s.slots[k]? := by
    rw [hslots]
    exact Check.slots_typed_ne hk r s
  have hhas {k : Nat} (hk : s.Has k) : t.Has k := by
    by_cases hik : id = k
    · subst hik
      rw [Has, hslots, Std.TreeMap.getElem?_insert_self]
      rfl
    · rwa [Has, hsame hik]
  intro hclean k hk
  by_cases hik : id = k
  · exact hik ▸ hid hclean
  · have hclean' : s.Clean := by rwa [State.Clean, hdiagnostics] at hclean
    rw [Has, hsame hik] at hk
    obtain hparts | ⟨hclosure, hcase⟩ := h hclean' k hk
    · exact .inl fun p hp => hhas (hparts p hp)
    · refine .inr ⟨hclosure, hcase.imp (hopened k) fun hwaits => ?_⟩
      obtain ⟨hfn, p, hp, hpid⟩ := hwaits
      rw [HasFn, ← hsame hik] at hfn
      exact ⟨hfn, p, hpending p hp, hpid⟩

lemma Complete.drop (h : s.Complete e opened) {old kept new : List PendingClosure} (hpending : s.pending = old ++ new)
    (hdropped : ∀ p ∈ old, p ∉ kept → s.Settled new p.node.info.id) :
    { s with pending := kept ++ new : State }.Complete e opened := by
  intro hclean id hid
  obtain hparts | ⟨hclosure, hopened | ⟨hfn, p, hp, rfl⟩⟩ := h hclean id hid
  · exact .inl hparts
  · exact .inr ⟨hclosure, .inl hopened⟩
  · refine .inr ⟨hclosure, .inr ⟨hfn, ?_⟩⟩
    rw [hpending] at hp
    obtain hp | hp := List.mem_append.mp hp
    · by_cases hmem : p ∈ kept
      · exact ⟨p, List.mem_append_left _ hmem, rfl⟩
      · obtain ⟨q, hq, hqid⟩ := (hdropped p hp hmem).resolve_left hfn
        exact ⟨q, List.mem_append_right _ hq, hqid⟩
    · exact ⟨p, List.mem_append_right _ hp, rfl⟩

end State

namespace Check

variable {α β : Type} {e : Setting} {P P' : α → Prop} {Q : β → Prop} {x : Check α} {f : α → Check β} {s t : State}
  {pre pre' mid post : List Nat}

/-- From a state an action keeps to the rules of bodies. If the nodes `pre` have types before, the nodes `post` have types
afterwards. -/
structure TypesAt (e : Setting) (pre : List Nat) (P : α → Prop) (post : List Nat) (x : Check α) (s : State) : Prop where
  keeps : (bodies e).KeepsAt P x s
  fills : ∀ opened, s.Complete e opened → s.Filled pre → ∀ a t, x.run s = (.ok a, t) →
    t.Complete e opened ∧ t.Filled post

def Types (e : Setting) (pre : List Nat) (P : α → Prop) (post : List Nat) (x : Check α) : Prop :=
  ∀ s, Checking e s → TypesAt e pre P post x s

lemma TypesAt.calm (h : TypesAt e pre P post x s) {a : α} (hrun : x.run s = (.ok a, t)) : Calm s t :=
  Onward.toCalm (h.keeps.ok a t hrun).2.1

lemma TypesAt.widen (h : TypesAt e pre P mid x s) (hpre : pre ⊆ pre') (hpost : post ⊆ mid ++ pre') :
    TypesAt e pre' P post x s := by
  refine ⟨h.keeps, fun opened hcomplete hfilled a t hrun => ?_⟩
  obtain ⟨hcomplete, hmid⟩ := h.fills opened hcomplete (hfilled.mono hpre) a t hrun
  exact ⟨hcomplete, (hmid.append (hfilled.calm (h.calm hrun))).mono hpost⟩

lemma TypesAt.bindIn (hx : TypesAt e pre P mid x s) (hpre : pre ⊆ pre')
    (hf : ∀ a, P a → Types e (mid ++ pre') Q post (f a)) : TypesAt e pre' Q post (x >>= f) s := by
  replace hx := hx.widen hpre (List.Subset.refl (mid ++ pre'))
  refine ⟨hx.keeps.bind fun a t ha ht _ => (hf a ha t ht).keeps, fun opened hcomplete hpre b u hrun => ?_⟩
  obtain ⟨a, t, hfirst, hrest⟩ := exists_of_run_bind hrun
  obtain ⟨ht, -, ha⟩ := hx.keeps.ok a t hfirst
  obtain ⟨hcomplete, hmid⟩ := hx.fills opened hcomplete hpre a t hfirst
  exact (hf a ha t ht).fills opened hcomplete hmid b u hrest

lemma TypesAt.pure {a : α} (hs : Checking e s) (ha : P a) (hpost : post ⊆ pre) : TypesAt e pre P post (Pure.pure a) s := by
  refine ⟨.pure hs ha, fun opened hcomplete hpre b t hrun => ?_⟩
  cases hrun
  exact ⟨hcomplete, hpre.mono hpost⟩

lemma TypesAt.get {f : State → Check β} (h : TypesAt e pre Q post (f s) s) :
    TypesAt e pre Q post (MonadState.get >>= f) s := ⟨.get h.keeps, h.fills⟩

lemma TypesAt.look {a : α} (hrun : x.run s = (.ok a, s)) (h : TypesAt e pre Q post (f a) s) :
    TypesAt e pre Q post (x >>= f) s := by
  refine ⟨.after hrun (.refl s) h.keeps, fun opened hcomplete hpre b t hb => ?_⟩
  rw [run_bind_ok hrun] at hb
  exact h.fills opened hcomplete hpre b t hb

lemma TypesAt.congr {y : Check α} (hrun : x.run s = y.run s) (h : TypesAt e pre P post y s) : TypesAt e pre P post x s :=
  ⟨.congr hrun h.keeps, fun opened hcomplete hpre a t hx => h.fills opened hcomplete hpre a t (hrun.symm.trans hx)⟩

lemma TypesAt.ofParts {id : Nat} (hid : ¬ e.Closure id) (hhas : s.Has id) (h : TypesAt e (e.node id).parts P post x s) :
    TypesAt e [] P post x s :=
  ⟨h.keeps, fun opened hcomplete _ => h.fills opened hcomplete
    (hcomplete.parts hid fun _ _ hk => List.mem_singleton.mp hk ▸ hhas)⟩

namespace Types

lemma checks (h : Types e pre P post x) : Checks e P x := fun s hs => (h s hs).keeps

lemma mono (h : Types e pre P post x) (hP : ∀ a, P a → P' a) : Types e pre P' post x := fun s hs =>
  ⟨(h s hs).keeps.mono hP, (h s hs).fills⟩

lemma widen (h : Types e pre P mid x) (hpre : pre ⊆ pre') (hpost : post ⊆ mid ++ pre') : Types e pre' P post x :=
  fun s hs => (h s hs).widen hpre hpost

lemma last (h : Types e [] P mid x) (hpost : post ⊆ mid ++ pre) : Types e pre P post x :=
  h.widen (List.nil_subset _) hpost

lemma bindIn (hx : Types e pre P mid x) (hpre : pre ⊆ pre') (hf : ∀ a, P a → Types e (mid ++ pre') Q post (f a)) :
    Types e pre' Q post (x >>= f) := fun s hs => (hx s hs).bindIn hpre hf

lemma bind (hx : Types e [] P mid x) (hf : ∀ a, P a → Types e (mid ++ pre) Q post (f a)) :
    Types e pre Q post (x >>= f) := bindIn hx (List.nil_subset _) hf

lemma skip (hx : Types e [] P mid x) (hf : ∀ a, Types e (mid ++ pre) Q post (f a)) : Types e pre Q post (x >>= f) :=
  hx.bind fun a _ => hf a

lemma pure {a : α} (ha : P a) (hpost : post ⊆ pre) : Types e pre P post (Pure.pure a) := fun _ hs => .pure hs ha hpost

lemma throw {φ : Failure} (h : e.Allowed φ) : Types e pre P post (throw φ) := fun s hs =>
  ⟨Keeps.throw (R := bodies e) h s hs, fun _ _ _ _ _ hrun => by cases hrun⟩

lemma discard (hx : Types e pre P post x) : Types e pre (fun _ => True) post (Functor.discard x) :=
  bindIn hx (List.Subset.refl _) fun _ _ => .pure trivial (List.subset_append_left _ _)

lemma ite {c : Prop} [Decidable c] {y : Check α} (hx : c → Types e pre P post x) (hy : ¬ c → Types e pre P post y) :
    Types e pre P post (if c then x else y) := by
  by_cases h : c
  · rw [if_pos h]
    exact hx h
  · rw [if_neg h]
    exact hy h

lemma get {f : State → Check β} (h : ∀ s, Checking e s → TypesAt e pre Q post (f s) s) :
    Types e pre Q post (MonadState.get >>= f) := fun s hs => (h s hs).get

/-! ### Loops -/

lemma forM {l : List α} {f : α → Check Unit} {p : α → List Nat}
    (h : ∀ a ∈ l, Types e [] (fun _ => True) (p a) (f a)) :
    Types e [] (fun _ => True) (l.flatMap p) (l.forM f) := by
  induction l with
  | nil => exact .pure trivial (by simp)
  | cons a l ih =>
    rw [forM_cons]
    refine (h a (by simp)).skip fun _ => ?_
    exact (ih fun b hb => h b (List.mem_cons_of_mem _ hb)).last (by simp)

lemma mapM {l : List α} {f : α → Check β} {p : α → List Nat} (h : ∀ a ∈ l, Types e [] Q (p a) (f a)) :
    Types e [] (fun bs => ∀ b ∈ bs, Q b) (l.flatMap p) (l.mapM f) := by
  induction l with
  | nil => exact .pure (by simp) (by simp)
  | cons a l ih =>
    rw [List.mapM_cons]
    refine (h a (by simp)).bind fun b hb => ?_
    refine (ih fun c hc => h c (List.mem_cons_of_mem _ hc)).bind fun bs hbs => ?_
    exact .pure (by simpa using ⟨hb, hbs⟩) (by simp)

lemma forIn {l : List α} {body : α → PUnit → Check (ForInStep PUnit)} {p : α → List Nat}
    (h : ∀ a ∈ l, Types e [] (fun r => r = .yield ⟨⟩) (p a) (body a ⟨⟩)) :
    Types e [] (fun _ => True) (l.flatMap p) (forIn l ⟨⟩ body) := by
  induction l with
  | nil => exact .pure trivial (by simp)
  | cons a l ih =>
    rw [List.forIn_cons]
    refine (h a (by simp)).bind fun step hstep => ?_
    subst hstep
    exact (ih fun b hb => h b (List.mem_cons_of_mem _ hb)).last (by simp)

/-! ### Frames -/

lemma enter (h : Types e pre P post x) (hs : Steady e s) (id : Nat) {opened : Nat → Prop} (hcomplete : s.Complete e opened)
    (hpre : s.Filled pre) {a : α} (hrun : (Check.inModule id x).run s = (.ok a, t)) :
    t.Complete e opened ∧ t.Filled post := by
  obtain ⟨u, hx, rfl⟩ := exists_of_run_bracket hrun
  exact (h _ (hs.entered id)).fills opened hcomplete hpre a u hx

lemma inModule (h : Types e pre P post x) (id : Nat) : Types e pre P post (inModule id x) := fun s hs =>
  ⟨(h.checks.inModule id).checks s hs, fun _ hcomplete hpre _ _ hrun => h.enter hs.toSteady id hcomplete hpre hrun⟩

lemma whileTyping (h : Types e pre P post x) (id : Nat) : Types e pre P post (bracket
    (fun s => { s with typing := id :: s.typing }) (fun s => { s with typing := s.typing.erase id }) x) := by
  intro s hs
  refine ⟨h.checks.whileTyping id s hs, fun opened hcomplete hpre a t hrun => ?_⟩
  obtain ⟨u, hx, rfl⟩ := exists_of_run_bracket hrun
  have hentered : Checking e { s with typing := id :: s.typing } :=
    ⟨⟨{ hs.toSane with }, { hs.placed with }, hs.awaited, hs.held⟩, hs.framed⟩
  exact (h _ hentered).fills opened hcomplete hpre a u hx

end Types

/-! ### Single actions -/

lemma Safe.types (h : Safe e P x) : Types e [] P [] x := by
  intro s hs
  refine ⟨h.checks s hs, fun opened hcomplete _ a t hrun => ?_⟩
  exact ⟨hcomplete.quiet ((h s hs.ready).ok a t hrun).2.1, .nil t⟩

lemma report_types (info : Option Syntax.Info) {cause : Diagnostic.Cause} (h : cause.severity = .error) :
    Types e pre (fun _ => True) post (report info cause) := by
  intro s hs
  refine ⟨(report_safe info cause).checks s hs, fun opened hcomplete _ a t hrun => ?_⟩
  cases hrun
  have hfaulty := s.not_clean_reported info h
  exact ⟨fun hclean => absurd hclean hfaulty, fun hclean => absurd hclean hfaulty⟩

lemma has_typed (id : Nat) (r : Ty) (s : State) : (typed id r s).Has id := by
  rw [State.Has, slots_typed_self]
  rfl

lemma setSlot_types {id : Nat} {r : Ty} (hr : e.Closure id → r.isFn = true ∧ e.Unheld id) (hwhole : e.Whole r) :
    Types e (e.node id).parts (fun _ => True) [id] (setSlot id r) := by
  intro s hs
  refine ⟨setSlot_checks hr hwhole s hs, fun opened hcomplete hparts a t hrun => ?_⟩
  cases hrun
  have hfilled : (typed id r s).Filled (e.node id).parts := hparts.calm (calm_typed id r s)
  exact ⟨hcomplete.typed rfl rfl (fun _ hp => hp) (fun _ hk => hk) fun hclean => .inl (hfilled hclean),
    fun _ k hk => List.mem_singleton.mp hk ▸ has_typed id r s⟩

lemma setSlot_again {id : Nat} {r : Ty} (hid : ¬ e.Closure id) (hwhole : e.Whole r) :
    Types e [id] (fun _ => True) [id] (setSlot id r) := by
  intro s hs
  have htypes := setSlot_types (fun hclosure => absurd hclosure hid) hwhole s hs
  exact ⟨htypes.keeps, fun opened hcomplete hhas => htypes.fills opened hcomplete (hcomplete.parts hid hhas)⟩

lemma setSlot_leaf {id : Nat} (hid : e.Leaf id) {t : Ty} (ht : e.Whole t) :
    Types e [] (fun _ => True) [id] (setSlot id t) := by
  have hparts : (e.node id).parts = [] := by rw [hid]
  exact hparts ▸ setSlot_types (fun hclosure => absurd hclosure hid.not_closure) ht

/-! ### Types of expressions -/

structure Given (e : Setting) (x : Expr) (r : Ty) : Prop where
  whole : e.Whole r
  unheld : e.Unheld x.info.id
  own : x.isClosure = true → ∀ id n, r = .closure id n → id = x.info.id

lemma Given.of_isFn {x : Expr} {r : Ty} (hr : r.isFn = true) (hwhole : e.Whole r) (hunheld : e.Unheld x.info.id) :
    Given e x r := by
  refine ⟨hwhole, hunheld, ?_⟩
  rintro - id n rfl
  cases hr

end Check

end TraitCheck
