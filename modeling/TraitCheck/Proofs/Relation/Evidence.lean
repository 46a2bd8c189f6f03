import TraitCheck.Proofs.Relation.Later

/-! Evidence that a value can be seen as a trait keeps the relations on the way by the names of what they provide. If no
name is on the way twice, the relations that were kept lead there. -/

namespace TraitCheck

/-! ### Relations by name -/

namespace Evidence

lemma self_mem_addVia (r : Relation) (via : List (String × Relation)) : (r.name, r) ∈ addVia r via := by
  induction via with
  | nil => exact List.mem_singleton.mpr rfl
  | cons entry via ih =>
    obtain ⟨n, s⟩ := entry
    rw [addVia]
    split_ifs with hsame hbefore
    · rw [hsame]
      exact List.mem_cons_self
    · exact List.mem_cons_self
    · exact List.mem_cons_of_mem _ ih

lemma mem_addVia_of_ne {r : Relation} {via : List (String × Relation)} {entry : String × Relation}
    (h : entry ∈ via) (hne : r.name ≠ entry.1) : entry ∈ addVia r via := by
  induction via with
  | nil => cases h
  | cons first via ih =>
    obtain ⟨n, s⟩ := first
    rw [addVia]
    split_ifs with hsame hbefore
    · obtain rfl | h := List.mem_cons.mp h
      · exact absurd hsame hne
      · exact List.mem_cons_of_mem _ h
    · exact List.mem_cons_of_mem _ h
    · obtain rfl | h := List.mem_cons.mp h
      · exact List.mem_cons_self
      · exact List.mem_cons_of_mem _ (ih h)

lemma mem_foldl_addVia {c : Chain} {via : List (String × Relation)} {entry : String × Relation} (h : entry ∈ via)
    (hne : ∀ r ∈ c, r.name ≠ entry.1) : entry ∈ c.foldl (fun via r => addVia r via) via := by
  induction c generalizing via with
  | nil => exact h
  | cons r c ih =>
    apply ih (mem_addVia_of_ne h (hne r List.mem_cons_self))
    exact fun x hx => hne x (List.mem_cons_of_mem r hx)

lemma mem_viaChain {c : Chain} (h : (c.map Relation.name).Nodup) {r : Relation} (hr : r ∈ c) :
    (r.name, r) ∈ viaChain c := by
  obtain ⟨before, after, rfl⟩ := List.append_of_mem hr
  rw [viaChain, List.foldl_append, List.foldl_cons]
  apply mem_foldl_addVia (self_mem_addVia r _)
  intro x hx hsame
  rw [List.map_append, List.map_cons] at h
  have hlater : r.name ∉ after.map Relation.name := (List.nodup_cons.mp (List.nodup_append.mp h).2.1).1
  exact hlater (List.mem_map.mpr ⟨x, hx, hsame⟩)

end Evidence

/-! ### What is no trait -/

section Avoids

variable {α β : Type} {rels : List Relation} {chains : Path → StateM Memo (List Chain)}

def Avoids (x : EvidenceT (StateM Memo) α) : Prop := ∀ memo t, (x.run memo).1 ≠ .error (.notATrait t)

namespace Avoids

lemma pure (a : α) : Avoids (Pure.pure a) := by
  intro memo t h
  cases h

lemma tooDeep : Avoids (throw .tooDeep : EvidenceT (StateM Memo) α) := by
  intro memo t h
  cases Except.error.inj h

lemma lift (x : StateM Memo α) : Avoids (ExceptT.lift x) := by
  intro memo t
  simp [ExceptT.lift, ExceptT.run, ExceptT.mk, Functor.map, StateT.map, Pure.pure]

lemma bind {x : EvidenceT (StateM Memo) α} {f : α → EvidenceT (StateM Memo) β} (hx : Avoids x)
    (hf : ∀ a, Avoids (f a)) : Avoids (x >>= f) := by
  intro memo t
  have hx := hx memo t
  simp only [ExceptT.run_bind]
  simp only [Bind.bind, StateT.bind]
  match hrun : x.run memo with
  | (.ok a, memo') => exact hf a memo' t
  | (.error err, memo') =>
    rw [hrun] at hx
    exact fun h => hx (congrArg Except.error (Except.error.inj h))

lemma mapM {l : List α} {f : α → EvidenceT (StateM Memo) β} (h : ∀ a, Avoids (f a)) : Avoids (l.mapM f) := by
  induction l with
  | nil => exact .pure _
  | cons a l ih =>
    rw [List.mapM_cons]
    exact (h a).bind fun _ => ih.bind fun _ => .pure _

end Avoids

lemma identityView_avoids {p : Path} (hp : (traitRelation? rels p).isSome) (args : List Ty) :
    Avoids (identityView rels p args : EvidenceT (StateM Memo) Evidence) := by
  obtain ⟨r, hr⟩ := Option.isSome_iff_exists.mp hp
  rw [identityView, hr]
  exact .pure _

lemma viewAs_avoids (fuel : Nat) (t : Ty) {p : Path} (hp : (traitRelation? rels p).isSome) (args : List Ty) :
    Avoids (viewAs rels chains fuel t p args) := by
  induction fuel generalizing t p args with
  | zero => exact .tooDeep
  | succ fuel ih =>
    cases t with
    | named q targs =>
      rw [viewAs]
      split
      · exact .pure _
      · refine (Avoids.lift _).bind fun found => ?_
        split
        · exact .pure _
        · exact .pure _
        · next first rest =>
          refine Avoids.bind (.mapM fun g => .mapM fun bound => ?_) fun _ => .pure _
          rw [boundEvidence.eq_def]
          split
          · next htrait =>
            split
            · next q qargs heq =>
              rw [heq] at htrait
              refine (ih _ htrait qargs).bind fun found => ?_
              cases found with
              | some ev => exact .pure _
              | none => exact identityView_avoids htrait qargs
            · exact .pure _
          · exact .pure _
    | generic g =>
      rw [viewAs]
      induction g.bounds with
      | nil => exact .pure _
      | cons b bs ihb =>
        cases b with
        | named q bargs =>
          rw [viewFromBounds]
          split
          · exact (identityView_avoids hp args).bind fun _ => .pure _
          · refine (ih _ hp args).bind fun found => ?_
            cases found with
            | some ev => exact .pure _
            | none => exact ihb
        | _ => exact ihb
    | _ => exact .pure _

lemma evidenceWith_avoids (fuel : Nat) (source goal : Ty) : Avoids (evidenceWith rels chains fuel source goal) := by
  induction fuel generalizing source goal with
  | zero => exact .tooDeep
  | succ fuel ih =>
    cases goal with
    | named p args =>
      rw [evidenceWith]
      split
      · next htrait => exact viewAs_avoids _ _ htrait args
      · exact .pure _
    | fn gs qs s =>
      cases source with
      | fn hs ps r =>
        rw [evidenceWith]
        have hall : ∀ pairs, Avoids (evidenceAll (evidenceWith rels chains fuel) pairs) := by
          intro pairs
          induction pairs with
          | nil => exact .pure _
          | cons pair pairs ihp => exact (ih _ _).bind fun _ => ihp.bind fun _ => .pure _
        have hfn : Avoids (fnEvidence (evidenceWith rels chains fuel) ps r qs s) := by
          rw [fnEvidence]
          split
          · exact (hall _).bind fun _ => (ih _ _).bind fun _ => .pure _
          · exact .pure _
        refine hfn.bind fun found => ?_
        split <;> exact .pure _
      | _ => exact .pure _
    | _ => exact .pure _

end Avoids

/-! ### The way to a trait -/

namespace Check

variable {s s' : State} {q p : Path} {as args : List Ty} {c : Chain}

def failureOf : EvidenceError → Failure
  | .notATrait t => .notATrait t
  | .tooDeep => .tooDeep

lemma run_viewAs (hs : s.built = true) (t : Ty) (p : Path) (args : List Ty) :
    (viewAs t p args).run s =
      (((TraitCheck.viewAs s.relations (chains s.relations) evidenceFuel t p args).run s.memo).1.mapError failureOf,
        { s with memo := ((TraitCheck.viewAs s.relations (chains s.relations) evidenceFuel t p args).run s.memo).2 }) := by
  have hknows : Knows s.relations (fun _ => True) s := ⟨hs, rfl, trivial⟩
  have hask := run_ask (fun chains => (TraitCheck.viewAs s.relations chains evidenceFuel t p args).run) hknows
  rw [viewAs, run_get_bind, run_bind_ok hask]
  change (evidenceOr ((TraitCheck.viewAs s.relations (chains s.relations) evidenceFuel t p args).run s.memo).1).run _ = _
  rcases ((TraitCheck.viewAs s.relations (chains s.relations) evidenceFuel t p args).run s.memo).1 with (_ | _) | _ <;> rfl

lemma run_viewAs_ok (hs : s.built = true) {t : Ty} {o : Option Evidence} (h : (viewAs t p args).run s = (.ok o, s')) :
    ∃ memo, s' = { s with memo } ∧
      (TraitCheck.viewAs s.relations (chains s.relations) evidenceFuel t p args).run s.memo = (.ok o, memo) := by
  rw [run_viewAs hs] at h
  match hrun : (TraitCheck.viewAs s.relations (chains s.relations) evidenceFuel t p args).run s.memo with
  | (.ok a, memo) =>
    rw [hrun] at h
    cases h
    exact ⟨memo, rfl, rfl⟩
  | (.error φ, memo) =>
    rw [hrun] at h
    cases h

/-- The chain through which a named type is seen as a trait. -/
def wayTo (q : Path) (as : List Ty) (p : Path) (args : List Ty) : Check (Option Chain) :=
  ask fun chains => way chains q as p args

/-- A chain through which a type is seen as a trait, now and whenever somebody asks again. -/
def Leads (s : State) (t : Ty) (p : Path) (args : List Ty) (c : Chain) : Prop :=
  c.EndsAt p ∧ ∀ u, s.Later u → ∃ e, ((instantiate t c).run u).1 = .ok (some e) ∧
    ((isAssignable e.1 (.named p args)).run u).1 = .ok true

lemma leads_of_fits {t : Ty} (h : ∀ u, s.Later u → c.Fits (Says (assignBy u.memo.at maxDepth [])) t p (.named p args))
    (hs : s.built = true) : Leads s t p args c := by
  refine ⟨(h s (.refl hs)).1, fun u hu => ?_⟩
  obtain ⟨hlater, hinstance⟩ := instantiate_answers t c u hu.built
  obtain ⟨-, e, he, -⟩ := (fits_iff_instantiate _).mp (h _ (hu.trans hlater))
  refine ⟨e, (hinstance _ (.refl hlater.built)).trans (congrArg Except.ok he), ?_⟩
  obtain ⟨hlater', hanswer⟩ := isAssignable_answers e.1 (.named p args) u hu.built
  rw [hanswer _ (.refl hlater'.built)]
  -- where a chain leads does not depend on the state
  obtain ⟨hview, -⟩ := (follow_run _).mp ⟨e.2, he⟩
  obtain ⟨-, super, hview', -, hsuper⟩ := h _ (hu.trans hlater')
  obtain rfl : e.1 = super := Option.some.inj (hview.symm.trans hview')
  exact congrArg Except.ok hsuper

lemma exists_of_viewThrough {rels : List Relation} {view : Ty → Path → List Ty → EvidenceT (StateM Memo) (Option Evidence)}
    {t : Ty} {o : Option Chain} {memo memo' : Memo} {e : Evidence}
    (h : (viewThrough rels view t o).run memo = (.ok (some e), memo')) :
    ∃ c generics, o = some c ∧ e = .view (Evidence.viaChain c) generics := by
  rcases o with _ | _ | ⟨first, rest⟩
  · cases h
  · cases h
  · obtain ⟨generics, _, -, hend⟩ := exists_of_run_bind h
    cases hend
    exact ⟨first :: rest, generics, rfl, rfl⟩

lemma exists_way (hs : s.built = true) {e : Evidence} (h : (viewAs (.named q as) p args).run s = (.ok (some e), s')) :
    ∃ c generics, ((wayTo q as p args).run s).1 = .ok (some c) ∧ e = .view (Evidence.viaChain c) generics ∧
      Leads s' (.named q as) p args c := by
  obtain ⟨memo, rfl, hview⟩ := run_viewAs_ok hs h
  have hne : q ≠ p := by
    rintro rfl
    rw [show evidenceFuel = 9999 + 1 from rfl, TraitCheck.viewAs, if_pos rfl] at hview
    cases hview
  rw [show evidenceFuel = 9999 + 1 from rfl, viewAs_named s.relations _ _ hne] at hview
  obtain ⟨o, m₁, hway⟩ : ∃ o m₁, (way (chains s.relations) q as p args).run s.memo = (o, m₁) := ⟨_, _, rfl⟩
  rw [run_bind_ok (run_lift hway)] at hview
  obtain ⟨c, generics, rfl, he⟩ := exists_of_viewThrough hview
  refine ⟨c, generics, ?_, he, leads_of_fits (fun u hu => ?_) hs⟩
  · have hknows : Knows s.relations (fun _ => True) s := ⟨hs, rfl, trivial⟩
    rw [wayTo, run_ask (fun chains => way chains q as p args) hknows, hway]
  · -- what the search has used is still in the memo
    have hgrows : m₁.Grows memo := by
      have hviews := viewAs_runs (Set.mem_univ _) s.relations (chainsAlike_any s.relations u.memo.at) 9999
      have hrest := viewThrough_runs (o := some c) (Set.mem_univ _) s.relations hviews (Ty.within_univ (.named q as))
        (fun c _ r _ => r.within_univ) m₁ trivial
      have hend : ((viewThrough s.relations (TraitCheck.viewAs s.relations (chains s.relations) 9999) (.named q as)
        (some c)).run m₁).2 = memo := by rw [hview]
      exact hend ▸ hrest.2.1
    obtain ⟨-, -, -, hfound⟩ := way_runs (Set.mem_univ _) (chainsAlike_any s.relations u.memo.at)
      (Ty.within_univ (.named q as)) (Ty.within_univ (.named p args)) s.memo trivial
    rw [hway] at hfound
    exact fits_of_firstFit _ (hfound (hgrows.trans hu.memo).agrees_at).symm

theorem kept_relations_lead (hs : s.built = true) {via : List (String × Relation)} {generics : List (List Evidence)}
    (h : (viewAs (.named q as) p args).run s = (.ok (some (.view via generics)), s'))
    (hdistinct : ∀ c, ((wayTo q as p args).run s).1 = .ok (some c) → (c.map Relation.name).Nodup) :
    ∃ c : Chain, (∀ r ∈ c, r ∈ via.map Prod.snd) ∧ Leads s' (.named q as) p args c := by
  obtain ⟨c, generics, hc, he, hleads⟩ := exists_way hs h
  obtain ⟨rfl, rfl⟩ := Evidence.view.inj he
  refine ⟨c, fun r hr => ?_, hleads⟩
  exact List.mem_map.mpr ⟨_, Evidence.mem_viaChain (hdistinct c hc) hr, rfl⟩

lemma not_leads_of_matches {t : Ty} (hs : s.built = true) (h : ∀ r ∈ c, r.matches t = false) :
    ¬ Leads s t p args c := by
  rintro ⟨hend, hleads⟩
  cases c with
  | nil =>
    obtain ⟨r, hr, -⟩ := hend
    cases hr
  | cons r c =>
    obtain ⟨e, he, -⟩ := hleads s (.refl hs)
    obtain ⟨hlater, hanswer⟩ := instantiate_answers t (r :: c) s hs
    have hfirst : r.matches t ≠ true := by simp [h r List.mem_cons_self]
    have hnone (cs : Path → List Chain) : (Chain.instantiate (assignBy cs maxDepth []) t (r :: c)).run = none := by
      rw [Chain.instantiate, Chain.follow, Id.run_bind, step_of_not_met _ fun hm => absurd hm hfirst]
      rfl
    have hnothing := (hanswer _ (.refl hlater.built)).trans (congrArg Except.ok (hnone _))
    cases he.symm.trans hnothing

end Check

/-! `impl Alpha for Item`, `impl Beta for Alpha`, `impl Alpha for Beta` and `impl Gamma for Alpha`, after the traits. -/

namespace Detour

def item : Path := ⟨["Item"]⟩
def alpha : Path := ⟨["Alpha"]⟩
def beta : Path := ⟨["Beta"]⟩
def gamma : Path := ⟨["Gamma"]⟩

def trait (id : Nat) (p : Path) : Relation := ⟨id, .trait, p, [], .named p [], []⟩

def step (id : Nat) (p q : Path) : Relation := ⟨id, .impl, q, [], .named p [], []⟩

def state : State :=
  .of [trait 0 alpha, trait 1 beta, trait 2 gamma, step 3 item alpha, step 4 alpha beta, step 5 beta alpha,
    step 6 alpha gamma]

/-- The state after the item has been seen as a trait. -/
def after (p : Path) : State := ((Check.viewAs (.named item []) p []).run state).2

theorem item_leads_to_beta : state.built = true ∧
    (Check.viewAs (.named item []) beta []).run state =
      (.ok (some (.view [("Alpha", step 3 item alpha), ("Beta", step 4 alpha beta)] [])), after beta) ∧
    (∀ c, ((Check.wayTo item [] beta []).run state).1 = .ok (some c) → (c.map Relation.name).Nodup) ∧
    ∃ c : Chain, (∀ r ∈ c, r ∈ [step 3 item alpha, step 4 alpha beta]) ∧
      Check.Leads (after beta) (.named item []) beta [] c := by
  have hrun : (Check.viewAs (.named item []) beta []).run state =
      (.ok (some (.view [("Alpha", step 3 item alpha), ("Beta", step 4 alpha beta)] [])), after beta) := rfl
  have hdistinct : ∀ c, ((Check.wayTo item [] beta []).run state).1 = .ok (some c) →
      (c.map Relation.name).Nodup := by
    intro c hc
    cases hc
    decide
  exact ⟨rfl, hrun, hdistinct, Check.kept_relations_lead rfl hrun hdistinct⟩

/-- The way to the last trait passes the first one twice, and the impl for the item is not kept. -/
theorem item_impl_lost :
    (Check.viewAs (.named item []) gamma []).run state =
      (.ok (some (.view [("Alpha", step 5 beta alpha), ("Beta", step 4 alpha beta), ("Gamma", step 6 alpha gamma)] [])),
        after gamma) ∧
    ∀ c : Chain, (∀ r ∈ c, r ∈ [step 5 beta alpha, step 4 alpha beta, step 6 alpha gamma]) →
      ¬ Check.Leads (after gamma) (.named item []) gamma [] c := by
  refine ⟨rfl, fun c hc => Check.not_leads_of_matches rfl fun r hr => ?_⟩
  have hkept : ∀ r ∈ [step 5 beta alpha, step 4 alpha beta, step 6 alpha gamma], r.matches (.named item []) = false := by
    decide
  exact hkept r (hc r hr)

end Detour

end TraitCheck
