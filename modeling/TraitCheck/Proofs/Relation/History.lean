import TraitCheck.Check.Instances
import TraitCheck.Proofs.Action
import TraitCheck.Proofs.Relation.Memo

/-! What is known of the memo after any questions have been asked. -/

namespace TraitCheck

/-! ### The memo -/

variable {rels : List Relation}

lemma search_of_lookup {memo : Memo} {p : Path} {l : List Chain}
    (h : memo.lookup p.render = some l) : search rels memo p = l := by
  simp [search, searchWith, h]

lemma chains_of_lookup {memo : Memo} {p : Path} {l : List Chain}
    (h : memo.lookup p.render = some l) : (chains rels p).run memo = (l, memo) := by
  change (search rels memo p, if (memo.lookup p.render).isSome then memo else _) = (l, memo)
  rw [search_of_lookup h, h]
  rfl

lemma chains_of_none {memo : Memo} {p : Path} (h : memo.lookup p.render = none) :
    (chains rels p).run memo = (search rels memo p, (p.render, search rels memo p) :: memo) := by
  change (search rels memo p, if (memo.lookup p.render).isSome then memo else _) = _
  rw [h]
  rfl

structure Kept (rels : List Relation) (names : Set Path) (I : Memo → Prop) : Prop where
  unit : Ty.unitPath ∈ names
  start : I []
  within : ∀ memo, I memo → ∀ k l, memo.lookup k = some l → ∀ c ∈ l, c.Within names
  add : ∀ memo, I memo → ∀ p ∈ names, memo.lookup p.render = none → I ((p.render, search rels memo p) :: memo)

lemma Kept.chainsAlike {names : Set Path} {I : Memo → Prop} (h : Kept rels names I)
    (cs : Path → List Chain) : ChainsAlike I cs names (chains rels) := by
  intro p hp memo hI
  cases hl : memo.lookup p.render with
  | some l =>
    rw [chains_of_lookup hl]
    exact ⟨hI, fun _ _ h => h, h.within memo hI _ l hl, fun hagrees => (hagrees p l hl).symm⟩
  | none =>
    rw [chains_of_none hl]
    have hI' := h.add memo hI p hp hl
    have hfound : List.lookup p.render ((p.render, search rels memo p) :: memo) = some (search rels memo p) := by simp
    refine ⟨hI', fun k l hk => ?_, h.within _ hI' _ _ hfound, fun hagrees => (hagrees p _ hfound).symm⟩
    have hne : k ≠ p.render := by
      rintro rfl
      simp [hl] at hk
    rw [Memo.lookup_cons_ne hne]
    exact hk

/-! ### Questions -/

/-- A question that can be asked once the relations are built. -/
inductive Query where
  | assignable (t target : Ty)
  | combine (a b : Ty)
  | chains (p : Path)
  | candidates (name : String) (recv : Ty)
  | upcast (t : Ty) (p : Path) (args : List Ty)

namespace Query

def ask : Query → Check Unit
  | .assignable t target => do let _ ← Check.isAssignable t target
  | .combine a b => do let _ ← Check.combine a b
  | .chains p => do let _ ← Check.chainsOf p
  | .candidates name recv => do let _ ← Check.candidates name recv
  | .upcast t p args => do let _ ← Check.viewAs t p args

def Within (names : Set Path) : Query → Prop
  | .assignable t u | .combine t u => t.Within names ∧ u.Within names
  | .chains p => p ∈ names
  | .candidates _ recv => recv.Within names
  | .upcast t p args => t.Within names ∧ (Ty.named p args).Within names

end Query

/-- The state after some questions, whatever their answers. -/
def State.after (s : State) (history : List Query) : State := history.foldl (fun s q => (q.ask.run s).2) s

/-- The relations are built and nothing has been asked. -/
structure State.Fresh (s : State) : Prop where
  built : s.built = true
  memo : s.memo = []

namespace Check

variable {α β : Type} {rels : List Relation} {names : Set Path} {I : Memo → Prop}

structure Knows (rels : List Relation) (I : Memo → Prop) (s : State) : Prop where
  built : s.built = true
  relations : s.relations = rels
  memo : I s.memo

lemma run_ask (q : {m : Type → Type} → [Monad m] → (Path → m (List Chain)) → m α) {s : State}
    (h : Knows rels I s) : (ask q).run s =
      (.ok ((q (chains rels)).run s.memo).1, { s with memo := ((q (chains rels)).run s.memo).2 }) := by
  obtain ⟨hb, rfl, -⟩ := h
  rw [ask, run_get_bind, if_pos hb]
  rfl

def Asks (rels : List Relation) (I : Memo → Prop) (Q : α → Prop) (x : Check α) : Prop :=
  ∀ s, Knows rels I s → Knows rels I (x.run s).2 ∧ ∀ a, (x.run s).1 = .ok a → Q a

lemma Asks.pure {Q : α → Prop} {a : α} (h : Q a) : Asks rels I Q (pure a) := by
  refine fun s hs => ⟨hs, fun b hb => ?_⟩
  cases hb
  exact h

lemma Asks.bind {Q : α → Prop} {R : β → Prop} {x : Check α} {f : α → Check β} (hx : Asks rels I Q x)
    (hf : ∀ a, Q a → Asks rels I R (f a)) : Asks rels I R (x >>= f) := by
  intro s hs
  obtain ⟨hs', hQ⟩ := hx s hs
  cases h : x.run s with
  | mk r s' =>
    rw [h] at hs' hQ
    cases r with
    | ok a =>
      rw [run_bind_ok h]
      exact hf a (hQ a rfl) s' hs'
    | error e =>
      rw [run_bind_error h]
      exact ⟨hs', by simp⟩

lemma Asks.get : Asks rels I (fun s => s.relations = rels) (get : Check State) :=
  fun s hs => ⟨hs, fun s' h => by cases h; exact hs.relations⟩

lemma Asks.ask (q : {m : Type → Type} → [Monad m] → (Path → m (List Chain)) → m α) {cs : Path → List Chain}
    {Q : α → Prop} {y : Id α} (h : Runs I cs Q (q (chains rels)) y) : Asks rels I Q (ask q) := by
  intro s hs
  rw [run_ask q hs]
  obtain ⟨hI, -, hQ, -⟩ := h s.memo hs.memo
  refine ⟨⟨hs.built, hs.relations, hI⟩, fun a ha => ?_⟩
  cases ha
  exact hQ

lemma Asks.throw {Q : α → Prop} (e : Failure) : Asks rels I Q (throw e) :=
  fun _ hs => ⟨hs, by rintro a ⟨⟩⟩

abbrev AsksOnly (rels : List Relation) (I : Memo → Prop) (x : Check α) : Prop := Asks rels I (fun _ => True) x

lemma candidatesOfAll_keeps (name : String) {bounds : List Ty}
    (hb : ∀ b ∈ bounds, AsksOnly rels I (candidates name b)) (found : List Candidate) :
    AsksOnly rels I (candidatesOfAll name found bounds) := by
  induction bounds generalizing found with
  | nil => exact .pure trivial
  | cons b bounds ih =>
    unfold candidatesOfAll
    refine (hb b (by simp)).bind fun cs _ => ?_
    exact ih (fun b hmem => hb b (List.mem_cons_of_mem _ hmem)) _

section Ask

variable (h : Kept rels names I)
include h

lemma chainsOf_keeps {p : Path} (hp : p ∈ names) : Asks rels I (fun l => ∀ c ∈ l, c.Within names) (chainsOf p) :=
  .ask (fun chains => chains p) (h.chainsAlike (fun _ => []) p hp)

lemma isAssignable_keeps {t u : Ty} (ht : t.Within names) (hu : u.Within names) :
    AsksOnly rels I (isAssignable t u) :=
  .ask (fun chains => assignWith chains maxDepth [] t u)
    (assignWith_runs h.unit (h.chainsAlike fun _ => []) maxDepth [] t u ht hu)

lemma combine_keeps {a b : Ty} (ha : a.Within names) (hb : b.Within names) : AsksOnly rels I (combine a b) :=
  .ask (fun chains => combineWith chains a b) (combineWith_runs h.unit (h.chainsAlike fun _ => []) ha hb)

lemma instantiate_keeps {t : Ty} (ht : t.Within names) {c : Chain} (hc : c.Within names) :
    AsksOnly rels I (instantiate t c) := by
  have hh := assignWith_runs h.unit (h.chainsAlike fun _ => []) maxDepth []
  exact .ask (fun chains => c.instantiate (assignWith chains maxDepth []) t)
    ((instantiate_runs h.unit hh hc ht).weaken fun _ _ => trivial)

lemma viewAs_keeps {t : Ty} (ht : t.Within names) {p : Path} {args : List Ty} (hp : (Ty.named p args).Within names) :
    AsksOnly rels I (viewAs t p args) := by
  unfold viewAs
  refine Asks.get.bind fun s hs => ?_
  have hv := viewAs_runs h.unit rels (h.chainsAlike fun _ => []) evidenceFuel t p args ht hp
  rw [hs]
  refine (Asks.ask (fun chains => (TraitCheck.viewAs rels chains evidenceFuel t p args).run)
    (hv.weaken fun _ _ => trivial)).bind fun r _ => ?_
  rcases r with ⟨_ | _⟩ | o
  · exact .throw _
  · exact .throw _
  · exact .pure trivial

lemma chainCandidates_keeps {recv : Ty} (ht : recv.Within names) (name : String) (found : List Candidate)
    {l : List Chain} (hl : ∀ c ∈ l, c.Within names) : AsksOnly rels I (chainCandidates recv name found l) := by
  induction l generalizing found with
  | nil => exact .pure trivial
  | cons c l ih =>
    have hrest := fun found => ih found fun c hc => hl c (List.mem_cons_of_mem _ hc)
    unfold chainCandidates
    refine Asks.get.bind fun s _ => ?_
    cases c.getLast?.bind fun r => s.instances[r.id]? with
    | none => exact hrest found
    | some i =>
      dsimp only
      cases i.method? name with
      | none => exact hrest found
      | some m =>
        refine (instantiate_keeps h ht (hl c (by simp))).bind fun r _ => ?_
        split_ifs
        · exact hrest _
        · exact hrest _

lemma candidates_keeps (name : String) {recv : Ty} (ht : recv.Within names) :
    AsksOnly rels I (candidates name recv) := by
  induction ht with
  | named hp hargs =>
    unfold candidates
    refine Asks.get.bind fun s _ => (chainsOf_keeps h hp).bind fun l hl => ?_
    exact chainCandidates_keeps h (.named hp hargs) name _ hl
  | generic hb ih =>
    unfold candidates
    exact candidatesOfAll_keeps name ih []
  | _ => exact .pure trivial

end Ask

lemma Query.ask_keeps (h : Kept rels names I) {q : Query} (hq : q.Within names) : AsksOnly rels I q.ask := by
  cases q with
  | assignable t u => exact (isAssignable_keeps h hq.1 hq.2).bind fun _ _ => .pure trivial
  | combine a b => exact (combine_keeps h hq.1 hq.2).bind fun _ _ => .pure trivial
  | chains p => exact (chainsOf_keeps h hq).bind fun _ _ => .pure trivial
  | candidates name recv => exact (candidates_keeps h name hq).bind fun _ _ => .pure trivial
  | upcast t p args => exact (viewAs_keeps h hq.1 hq.2).bind fun _ _ => .pure trivial

lemma knows_after (h : Kept rels names I) {s : State} (hs : Knows rels I s) {history : List Query}
    (hq : ∀ q ∈ history, q.Within names) : Knows rels I (s.after history) := by
  induction history generalizing s with
  | nil => exact hs
  | cons q history ih =>
    have hstep := (Query.ask_keeps h (hq q (by simp)) s hs).1
    exact ih hstep fun q hmem => hq q (List.mem_cons_of_mem _ hmem)

end Check

lemma State.Fresh.knows {s : State} (h : s.Fresh) {names : Set Path} {I : Memo → Prop}
    (hI : Kept s.relations names I) : Check.Knows s.relations I s :=
  ⟨h.built, rfl, h.memo ▸ hI.start⟩

lemma run_isAssignable_after {s : State} (hs : s.Fresh) {names : Set Path} {I : Memo → Prop}
    (hI : Kept s.relations names I) {history : List Query} (hq : ∀ q ∈ history, q.Within names) {t u : Ty}
    (ht : t.Within names) (hu : u.Within names) :
    ∃ answer memo, I memo ∧ ((Check.isAssignable t u).run (s.after history)).1 = .ok answer ∧
      ∀ cs : Path → List Chain, memo.Agrees cs → answer = (assignBy cs maxDepth [] t u).run := by
  have hknows := Check.knows_after hI (hs.knows hI) hq
  rw [Check.isAssignable, Check.run_ask _ hknows]
  have hrun (cs) := assignWith_runs hI.unit (hI.chainsAlike cs) maxDepth [] t u ht hu _ hknows.memo
  exact ⟨_, _, (hrun fun _ => []).1, rfl, fun cs => (hrun cs).2.2.2⟩

end TraitCheck
