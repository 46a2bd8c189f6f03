import TraitCheck.Proofs.Relation.Sound

/-! An answer stays what it is. It is the one that the chains in the memo give, and these stay there, so that whoever asks
later finds the same chains. -/

namespace TraitCheck

lemma Memo.Grows.refl (memo : Memo) : memo.Grows memo := fun _ _ h => h

lemma Memo.Grows.trans {k l m : Memo} (h : k.Grows l) (h' : l.Grows m) : k.Grows m := fun p c hc => h' p c (h p c hc)

lemma Memo.Grows.agrees_at {k l : Memo} (h : k.Grows l) : k.Agrees l.at := fun p c hc => l.agrees_at p c (h _ c hc)

lemma kept_any (rels : List Relation) : Kept rels Set.univ fun _ => True where
  unit := trivial
  start := trivial
  within _ _ _ _ _ _ _ r _ := r.within_univ
  add _ _ _ _ _ := trivial

lemma chainsAlike_any (rels : List Relation) (cs : Path → List Chain) :
    ChainsAlike (fun _ => True) cs Set.univ (chains rels) := (kept_any rels).chainsAlike cs

/-- Relations that are built stay, and so does what is in the memo. -/
structure State.Later (s t : State) : Prop where
  built : t.built = true
  relations : t.relations = s.relations
  memo : s.memo.Grows t.memo

namespace State.Later

variable {s t u : State}

lemma refl (h : s.built = true) : s.Later s := ⟨h, rfl, .refl _⟩

lemma trans (h : s.Later t) (h' : t.Later u) : s.Later u :=
  ⟨h'.built, h'.relations.trans h.relations, h.memo.trans h'.memo⟩

end State.Later

namespace Check

variable {α : Type}

def Answers (x : Check α) (y : (Path → List Chain) → Except Failure α) : Prop :=
  ∀ s : State, s.built = true → s.Later (x.run s).2 ∧ ∀ t, (x.run s).2.Later t → (x.run s).1 = y t.memo.at

def AboutChains (q : {m : Type → Type} → [Monad m] → (Path → m (List Chain)) → m α) : Prop :=
  ∀ rels cs, RunsAs (fun _ => True) cs (q (chains rels)) (q fun p => (pure (cs p) : Id _))

lemma ask_answers {q : {m : Type → Type} → [Monad m] → (Path → m (List Chain)) → m α} (h : AboutChains q) :
    Answers (ask q) fun cs => .ok (q fun p => (pure (cs p) : Id _)).run := by
  intro s hs
  have hknows : Knows s.relations (fun _ => True) s := ⟨hs, rfl, trivial⟩
  rw [run_ask q hknows]
  obtain ⟨-, hgrows, -, -⟩ := h s.relations (fun _ => []) s.memo trivial
  refine ⟨⟨hs, rfl, hgrows⟩, fun t ht => congrArg Except.ok ?_⟩
  -- the chains that were used are in the memo, and those of `t` are the same
  obtain ⟨-, -, -, hanswer⟩ := h s.relations t.memo.at s.memo trivial
  exact hanswer ht.memo.agrees_at

lemma assign_aboutChains (t u : Ty) : AboutChains fun chains => assignWith chains maxDepth [] t u := fun rels cs =>
  assignWith_runs (Set.mem_univ _) (chainsAlike_any rels cs) maxDepth [] t u t.within_univ u.within_univ

lemma combine_aboutChains (a b : Ty) : AboutChains fun chains => combineWith chains a b := fun rels cs =>
  combineWith_runs (Set.mem_univ _) (chainsAlike_any rels cs) a.within_univ b.within_univ

lemma instantiate_aboutChains (t : Ty) (c : Chain) :
    AboutChains fun chains => c.instantiate (assignWith chains maxDepth []) t := by
  intro rels cs
  have hholds := assignWith_runs (Set.mem_univ _) (chainsAlike_any rels cs) maxDepth []
  exact (instantiate_runs (Set.mem_univ _) hholds (fun r _ => r.within_univ) t.within_univ).weaken fun _ _ => trivial

lemma isAssignable_answers (t u : Ty) :
    Answers (isAssignable t u) fun cs => .ok (assignBy cs maxDepth [] t u).run := ask_answers (assign_aboutChains t u)

lemma combine_answers (a b : Ty) :
    Answers (combine a b) fun cs => .ok (combineWith (fun p => (pure (cs p) : Id _)) a b).run :=
  ask_answers (combine_aboutChains a b)

lemma instantiate_answers (t : Ty) (c : Chain) :
    Answers (instantiate t c) fun cs => .ok (c.instantiate (assignBy cs maxDepth []) t).run :=
  ask_answers (instantiate_aboutChains t c)

end Check

end TraitCheck
