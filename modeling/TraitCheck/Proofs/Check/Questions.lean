import TraitCheck.Proofs.Check.Types
import TraitCheck.Proofs.Relation.Evidence

/-! Questions about types once the relations are built: none of them fails, what they lead to has no absent part, and the
methods that are found belong to declarations that can be looked at. -/

namespace TraitCheck

open Check.Regime
open Syntax (Stmt)

/-! ### Answers -/

section Answers

variable {α β : Type} {P : α → Prop} {Q : β → Prop} {holds : Ty → Ty → StateM Memo Bool}
  {chains : Path → StateM Memo (List Chain)} {t : Ty} {memo : Memo}

def Yields (P : α → Prop) (x : StateM Memo α) : Prop := ∀ memo, P (x.run memo).1

lemma Yields.pure {a : α} (h : P a) : Yields P (Pure.pure a) := fun _ => h

lemma Yields.bind {x : StateM Memo α} {f : α → StateM Memo β} (hx : Yields P x) (hf : ∀ a, P a → Yields Q (f a)) :
    Yields Q (x >>= f) := fun memo => hf _ (hx memo) _

lemma Yields.skip {x : StateM Memo α} {f : α → StateM Memo β} (hf : ∀ a, Yields Q (f a)) : Yields Q (x >>= f) :=
  Yields.bind (P := fun _ => True) (fun _ => trivial) fun a _ => hf a

def WholeView (r : Option (Ty × Bindings)) : Prop := ∀ x, r = some x → x.1.Whole ∧ x.2.Whole

lemma wholeView_none : WholeView none := fun x hx => by cases hx

lemma step_whole {r : Relation} (hr : r.Whole) (ht : t.Whole) : Yields WholeView (r.step holds t) := by
  rw [Relation.step]
  split
  · refine .skip fun b => ?_
    split
    · refine .pure fun x hx => ?_
      obtain rfl := Option.some.inj hx
      have hunify : (Ty.unify t r.forType).Whole := ht.unify hr.forType
      exact ⟨Ty.Whole.substituteOrHole (.named hr.args) (by simpa using hunify), hunify⟩
    · exact .pure wholeView_none
  · exact .pure wholeView_none

lemma follow_whole {c : Chain} (hc : ∀ r ∈ c, r.Whole) {cur : Ty × Bindings} (hcur : cur.1.Whole ∧ cur.2.Whole) :
    Yields WholeView (c.follow holds cur) := by
  induction c generalizing cur with
  | nil => exact .pure fun x hx => Option.some.inj hx ▸ hcur
  | cons r c ih =>
    rw [Chain.follow]
    refine (step_whole (hc r (by simp)) hcur.1).bind fun next hnext => ?_
    cases next with
    | none => exact .pure wholeView_none
    | some next => exact ih (fun s hs => hc s (List.mem_cons_of_mem _ hs)) (hnext next rfl)

lemma combineWith_eq (a b : Ty) : Yields (fun r => ∀ t, r = some t → t = a ∨ t = b) (combineWith chains a b) := by
  have hfirst : ∀ t, some a = some t → t = a ∨ t = b := fun t ht => .inl (Option.some.inj ht).symm
  have hsecond : ∀ t, some b = some t → t = a ∨ t = b := fun t ht => .inr (Option.some.inj ht).symm
  rw [combineWith]
  split
  · exact .pure hsecond
  · split
    · exact .pure hfirst
    · refine .skip fun r => ?_
      split
      · exact .pure hfirst
      · refine .skip fun r => ?_
        split
        · exact .pure hsecond
        · exact .pure nofun

lemma chains_of {rels : List Relation} (h : memo.Of rels) (p : Path) :
    ∀ c ∈ ((TraitCheck.chains rels p).run memo).1, c.Of rels := by
  have hI := ((kept_of rels).chainsAlike (fun _ => []) p trivial memo h).1
  refine hI p trivial _ ?_
  cases hl : memo.lookup p.render with
  | some l =>
    rw [chains_of_lookup hl]
    exact hl
  | none =>
    rw [chains_of_none hl]
    simp

end Answers

lemma Setting.Proper.relations {e : Setting} (h : e.Proper) (hstrict : e.strict) : ∀ r ∈ e.relations, r.Whole := by
  intro r hr
  obtain ⟨i, hi, rfl⟩ := List.mem_map.mp hr
  exact (h.instances i hi).relation hstrict

namespace Check

variable {α : Type} {e : Setting}

/-! ### Questions -/

lemma ask_safe (he : e.built = true) {P : α → Prop}
    {q : {m : Type → Type} → [Monad m] → (Path → m (List Chain)) → m α}
    (h : e.Proper → ∀ memo : Memo, memo.Of e.relations → Memo.Of ((q (chains e.relations)).run memo).2 e.relations ∧
      P ((q (chains e.relations)).run memo).1) : Safe e P (ask q) := by
  refine .get fun s hs => ?_
  have hrelations : s.relations = e.relations := by rw [State.relations, hs.instances]; rfl
  rw [if_pos (hs.built he), hrelations]
  obtain ⟨hmemo, hanswer⟩ := h hs.proper s.memo hs.memo
  have hset : SafeAt e (fun _ => True)
      (set { s with memo := ((q (chains e.relations)).run s.memo).2 } : Check Unit) s :=
    .of_run rfl ⟨{ hs.toSane with memo := hmemo }, hs.framed⟩ { Quiet.refl s with } trivial
  exact hset.bind fun _ _ _ hs' _ => .pure hs' hanswer

section Questions

variable (e)

lemma chainsAlike : ChainsAlike (·.Of e.relations) (fun _ => []) Set.univ (chains e.relations) :=
  (kept_of e.relations).chainsAlike fun _ => []

end Questions

lemma isAssignable_safe (he : e.built = true) (t target : Ty) : Safe e (fun _ => True) (isAssignable t target) :=
  ask_safe he fun _ memo hmemo => ⟨(assignWith_runs (Set.mem_univ _) (chainsAlike e) maxDepth [] t target t.within_univ
    target.within_univ memo hmemo).1, trivial⟩

lemma combine_safe (he : e.built = true) (a b : Ty) : Safe e (fun r => ∀ t, r = some t → t = a ∨ t = b) (combine a b) :=
  ask_safe he fun _ memo hmemo => ⟨(combineWith_runs (Set.mem_univ _) (chainsAlike e) a.within_univ b.within_univ memo hmemo).1,
    combineWith_eq a b memo⟩

lemma chainsOf_safe (he : e.built = true) (p : Path) : Safe e (fun l => ∀ c ∈ l, c.Of e.relations) (chainsOf p) :=
  ask_safe he fun _ memo hmemo => ⟨(chainsAlike e p trivial memo hmemo).1, chains_of hmemo p⟩

lemma applies_safe (he : e.built = true) (t : Ty) (c : Chain) : Safe e (fun _ => True) (instantiate t c) := by
  refine ask_safe he fun _ memo hmemo => ⟨?_, trivial⟩
  have hholds := assignWith_runs (Set.mem_univ _) (chainsAlike e) maxDepth []
  exact (instantiate_runs (Set.mem_univ _) hholds (fun r _ => r.within_univ) t.within_univ memo hmemo).1

lemma instantiate_safe (he : e.built = true) {t : Ty} (ht : e.Whole t) {c : Chain} (hc : ∀ r ∈ c, r ∈ e.relations) :
    Safe e (fun r => ∀ x, r = some x → e.Whole x.1 ∧ e.WholeMap x.2) (instantiate t c) := by
  refine ask_safe he fun hproper memo hmemo => ⟨?_, fun x hx => ?_⟩
  · have hholds := assignWith_runs (Set.mem_univ _) (chainsAlike e) maxDepth []
    exact (instantiate_runs (Set.mem_univ _) hholds (fun r _ => r.within_univ) t.within_univ memo hmemo).1
  · have hwhole (hstrict : e.strict) : x.1.Whole ∧ x.2.Whole :=
      follow_whole (fun r hr => hproper.relations hstrict r (hc r hr)) ⟨ht hstrict, .empty⟩ memo x hx
    exact ⟨fun hstrict => (hwhole hstrict).1, fun hstrict => (hwhole hstrict).2⟩

lemma evidenceFor_safe (he : e.built = true) (source goal : Ty) :
    Safe e (fun _ => True) (evidenceFor source goal) := by
  refine .get fun s hs => ?_
  have hask : Safe e (fun r => ∀ t, r ≠ .error (.notATrait t))
      (ask fun chains => (evidenceWith s.relations chains s.reserve source goal).run) :=
    ask_safe he fun _ memo hmemo => ⟨(evidenceWith_runs (Set.mem_univ _) s.relations (chainsAlike e) s.reserve source goal
      source.within_univ goal.within_univ memo hmemo).1, evidenceWith_avoids s.reserve source goal memo⟩
  refine Keeps.bind hask (fun r hr => ?_) s hs
  match r with
  | .ok a => exact .pure trivial
  | .error (.notATrait t) => exact absurd rfl (hr t)
  | .error .tooDeep => exact .throw tooDeep_allowed

/-! ### Methods -/

end Check

structure Candidate.Known (e : Setting) (c : Candidate) : Prop where
  provider : c.provider.Proper e
  method : c.method.Known e
  chain : ∀ r ∈ c.chain, r ∈ e.relations

variable {e : Setting}

lemma known_addCandidate {cs : List Candidate} {d : Candidate} (hcs : ∀ c ∈ cs, c.Known e) (hd : d.Known e) :
    ∀ c ∈ addCandidate cs d, c.Known e := by
  rw [addCandidate]
  split
  · exact hcs
  · intro c hc
    obtain hc | hc := List.mem_append.mp hc
    · exact hcs c hc
    · exact List.mem_singleton.mp hc ▸ hd

lemma known_foldl {cs ds : List Candidate} (hcs : ∀ c ∈ cs, c.Known e) (hds : ∀ c ∈ ds, c.Known e) :
    ∀ c ∈ ds.foldl addCandidate cs, c.Known e := by
  induction ds generalizing cs with
  | nil => exact hcs
  | cons d ds ih =>
    exact ih (known_addCandidate hcs (hds d (by simp))) fun c hc => hds c (List.mem_cons_of_mem _ hc)

lemma Instance.Proper.candidate {i : Instance} (h : i.Proper e) {name : String} {m : Method}
    (hm : i.method? name = some m) {c : Chain} (hc : ∀ r ∈ c, r ∈ e.relations) : Candidate.Known e ⟨i, m, c⟩ :=
  ⟨h, h.method? hm, hc⟩

namespace Check

lemma known_directCandidates {s : State} (h : ∀ i ∈ s.instances, i.Proper e) (p : Path) (name : String) :
    ∀ c ∈ directCandidates s p name, c.Known e := by
  intro c hc
  obtain ⟨i, hi, hfound⟩ := List.mem_filterMap.mp hc
  split at hfound
  · obtain ⟨m, hm, rfl⟩ := Option.map_eq_some_iff.mp hfound
    exact (h i hi).candidate hm (by simp)
  · simp at hfound

lemma chainCandidates_safe (he : e.built = true) (recv : Ty) (name : String) {cs : List Chain}
    (hcs : ∀ c ∈ cs, c.Of e.relations) {found : List Candidate} (hfound : ∀ c ∈ found, c.Known e) :
    Safe e (fun cs => ∀ c ∈ cs, c.Known e) (chainCandidates recv name found cs) := by
  induction cs generalizing found with
  | nil => exact .pure hfound
  | cons c cs ih =>
    replace ih {found} := @ih (fun d hd => hcs d (List.mem_cons_of_mem _ hd)) found
    have hc : ∀ r ∈ c, r ∈ e.relations := fun r hr => ((hcs c (by simp)).impls r hr).1
    rw [chainCandidates]
    refine .get fun s hs => ?_
    split
    · exact ih hfound s hs
    · next i hi =>
      obtain ⟨r, -, hi⟩ := Option.bind_eq_some_iff.mp hi
      have hproper := hs.properInstances i (List.mem_of_getElem? hi)
      split
      · exact ih hfound s hs
      · next m hm =>
        refine Keeps.skip (applies_safe he recv c) (fun r => ?_) s hs
        split
        · exact ih (known_addCandidate hfound (hproper.candidate hm hc))
        · exact ih hfound

mutual

lemma candidates_safe (he : e.built = true) (name : String) : (recv : Ty) →
    Safe e (fun cs => ∀ c ∈ cs, c.Known e) (candidates name recv)
  | .named p args => by
    rw [candidates]
    refine .get fun s hs => ?_
    have hnone : ∀ c ∈ ([] : List Candidate), c.Known e := by simp
    have hdirect := known_foldl hnone (known_directCandidates hs.properInstances p name)
    refine Keeps.bind (chainsOf_safe he p) (fun cs hcs => ?_) s hs
    exact chainCandidates_safe he _ name hcs hdirect
  | .generic ⟨_, _, bounds⟩ => by
    rw [candidates]
    exact candidatesOfAll_safe he name bounds (by simp)
  | .fn .. | .unknown | .closure .. | .hole | .absent | .ongoing _ => by
    simp only [candidates]
    exact .pure (by simp)

lemma candidatesOfAll_safe (he : e.built = true) (name : String) : (bounds : List Ty) → {found : List Candidate} →
    (∀ c ∈ found, c.Known e) → Safe e (fun cs => ∀ c ∈ cs, c.Known e) (candidatesOfAll name found bounds)
  | [], _, hfound => by
    rw [candidatesOfAll]
    exact .pure hfound
  | b :: bs, _, hfound => by
    rw [candidatesOfAll]
    exact (candidates_safe he name b).bind fun cs hcs => candidatesOfAll_safe he name bs (known_foldl hfound hcs)

end

lemma resolveMethod_safe (he : e.built = true) (info : Option Syntax.Info) (recv : Ty) (name : String) :
    Safe e (fun r => ∀ c, r = some c → c.Known e) (resolveMethod info recv name) := by
  rw [resolveMethod]
  refine (candidates_safe he name recv).bind fun cs hcs => ?_
  split
  · exact (report_safe _ _).skip fun _ => .pure (by simp)
  · exact .pure (by simpa using hcs)
  · exact (report_safe _ _).skip fun _ => .pure (by simp)

/-! ### Values that flow into a place -/

lemma recordUpcast_safe (node : Syntax.Expr) (source goal : Ty) (ev : Evidence) :
    Safe e (fun _ => True) (recordUpcast node source goal ev) := by
  refine .get fun s hs => ?_
  split
  · exact .pure hs trivial
  · have hnote : ∀ id, Safe e (fun _ => True) (modifyEntry id fun m =>
        addRelImports ev.relations { m with upcasts := m.upcasts ++ [⟨node, source, goal, ev⟩] }) :=
      fun id => Free.safe (modifyEntry_free id (fun _ => rfl) fun _ => rfl)
    refine KeepsAt.bind (SafeAt.set hs rfl) fun _ s' _ hs' _ => ?_
    exact Keeps.skip currentModule_safe hnote s' hs'

lemma seenAs_safe (he : e.built = true) (node : Syntax.Expr) (source goal : Ty) :
    Safe e (fun _ => True) (do
      if source.absorbs then return
      match ← evidenceFor source goal with
      | some ev => recordUpcast node source goal ev
      | none => return) := by
  split
  · exact .pure trivial
  · refine (evidenceFor_safe he source _).skip fun found => ?_
    cases found with
    | none => exact .pure trivial
    | some ev => exact recordUpcast_safe node source _ ev

mutual

lemma upcastTo_safe (he : e.built = true) (node : Syntax.Expr) (source : Ty) : (goal : Ty) →
    Safe e (fun _ => True) (upcastTo node source goal)
  | .generic ⟨_, _, bounds⟩ => by
    rw [upcastTo]
    exact upcastToAll_safe he node source bounds
  | .named .. | .fn .. | .unknown | .closure .. | .hole | .absent | .ongoing _ => by
    simp only [upcastTo]
    exact seenAs_safe he node source _

lemma upcastToAll_safe (he : e.built = true) (node : Syntax.Expr) (source : Ty) : (goals : List Ty) →
    Safe e (fun _ => True) (upcastToAll node source goals)
  | [] => by
    rw [upcastToAll]
    exact .pure trivial
  | g :: gs => by
    rw [upcastToAll]
    exact (upcastTo_safe he node source g).skip fun _ => upcastToAll_safe he node source gs

end

lemma expectAssignable_safe (he : e.built = true) (node : Syntax.Expr) (got want : Ty) :
    Safe e (fun _ => True) (expectAssignable node got want) := by
  rw [expectAssignable]
  refine (isAssignable_safe he got want).skip fun fits => ?_
  split
  · exact upcastTo_safe he node got want
  · exact report_safe _ _

end Check

end TraitCheck
