import TraitCheck.Proofs.Relation.Memo
import TraitCheck.Proofs.Relation.Rounds

/-! Questions and searches end. They are written here as they call each other, with no bound on how often a walk is
repeated or how far it goes: a question asks others and starts searches, a search walks until it finds no more, and a walk
asks whether each impl applies. All calls return, and give what the definitions with a bound in each loop give. -/

namespace TraitCheck

/-! ### Calls -/

/-- A computation that may give nothing, which stands for one that needs more calls inside each other than it has. -/
abbrev Attempt := StateT Memo Option

/-- What is open when a call is made: how many questions there are and their texts, and the searches with the chains that
they have found so far. -/
structure Open where
  depth : Nat := 0
  asked : List String := []
  searching : Memo := []

structure Calls where
  answer : Open → Ty → Ty → Attempt Bool
  search : Open → Path → Attempt (List Chain)
  rounds : Open → Path → List Chain → Attempt (List Chain)
  walk : Open → Ty → Chain → Attempt (List Chain)

namespace Calls

variable (c : Calls)

def answerBody (o : Open) (t target : Ty) : Attempt Bool :=
  match t.fits? target with
  | some answer => return answer
  | none =>
    if question t target ∈ o.asked then return false
    else if o.depth < maxDepth then
      let o := { o with depth := o.depth + 1, asked := question t target :: o.asked }
      assignStep (c.answer o) (c.search o) t target
    else return false

/-- The outermost search forgets the questions that led to it, and only its result is kept. -/
def searchBody (o : Open) (p : Path) : Attempt (List Chain) := do
  match (← get).lookup p.render, o.searching.lookup p.render with
  | some chains, _ => return chains
  | none, some chains => return chains
  | none, none =>
    if o.searching.isEmpty then
      let found ← c.rounds {} p []
      modify ((p.render, found) :: ·)
      return found
    else c.rounds o p []

def roundsBody (o : Open) (p : Path) (known : List Chain) : Attempt (List Chain) := do
  let found ← c.walk { o with searching := (p.render, known) :: o.searching } (.named p []) []
  if found.length ≤ known.length then return found else c.rounds o p found

def walkFrom (o : Open) (cur : Ty) (path : Chain) (r : Relation) : Attempt (List Chain) := do
  if r.isImpl && !path.uses r then
    match ← r.step (c.answer o) cur with
    | some (next, _) => return (path ++ [r]) :: (← c.walk o next (path ++ [r]))
    | none => return []
  else return []

def walkBody (rels : List Relation) (o : Open) (cur : Ty) (path : Chain) : Attempt (List Chain) :=
  return (← rels.mapM (c.walkFrom o cur path)).flatten

/-- The calls that return with at most so many of them inside each other. -/
def nested (rels : List Relation) : Nat → Calls
  | 0 => ⟨fun _ _ _ => failure, fun _ _ => failure, fun _ _ _ => failure, fun _ _ _ => failure⟩
  | n + 1 =>
    let c := nested rels n
    ⟨c.answerBody, c.searchBody, c.roundsBody, c.walkBody rels⟩

end Calls

def atMemo (memo : Memo) : Mirrors Attempt Id where
  rel Q x y := x.run memo = some (y.run, memo) ∧ Q y.run
  pure h := ⟨rfl, h⟩
  bind hx hf := by
    refine ⟨?_, (hf _ hx.2).2⟩
    rw [StateT.run_bind, hx.1]
    exact (hf _ hx.2).1

def returning : Mirrors Attempt (StateM Memo) where
  rel Q x y := ∀ memo, x.run memo = some (y.run memo) ∧ Q (y.run memo).1
  pure h memo := ⟨rfl, h⟩
  bind hx hf memo := by
    obtain ⟨hrun, hQ⟩ := hx memo
    refine ⟨?_, (hf _ hQ _).2⟩
    rw [StateT.run_bind, hrun]
    exact (hf _ hQ _).1

/-! ### Walks and rounds -/

section Nested

variable {rels : List Relation} {memo : Memo}

lemma run_mapM {α β : Type} {l : List α} {f : α → Attempt β} {g : α → β}
    (h : ∀ a ∈ l, (f a).run memo = some (g a, memo)) : (l.mapM f).run memo = some (l.map g, memo) := by
  induction l with
  | nil => rfl
  | cons a l ih =>
    rw [List.mapM_cons, StateT.run_bind, h a (by simp)]
    simp only [Option.bind_eq_bind, Option.bind_some, StateT.run_bind]
    rw [ih fun b hb => h b (List.mem_cons_of_mem _ hb)]
    rfl

variable {o : Open} {holds : Ty → Ty → Bool}

lemma walkFrom_returns {k : Nat} (cur : Ty) {path : Chain} {r : Relation} (below : Ty → List Chain)
    (ha : ∀ t u, ((Calls.nested rels k).answer o t u).run memo = some (holds t u, memo))
    (hw : r.isImpl && !path.uses r → ∀ next,
      ((Calls.nested rels k).walk o next (path ++ [r])).run memo = some (below next, memo)) :
    ((Calls.nested rels k).walkFrom o cur path r).run memo =
      some (if r.isImpl && !path.uses r then
        match (r.step (fun t u => (pure (holds t u) : Id Bool)) cur).run with
        | some (next, _) => (path ++ [r]) :: below next
        | none => []
      else [], memo) := by
  unfold Calls.walkFrom
  split_ifs with hnew
  · have hanswer : (atMemo memo).HoldsAlike Set.univ ((Calls.nested rels k).answer o) fun t u => pure (holds t u) :=
      fun t u _ _ => ⟨ha t u, trivial⟩
    obtain ⟨hstep, -⟩ := Mirrors.step (Set.mem_univ _) hanswer r.within_univ cur.within_univ
    rw [StateT.run_bind, hstep]
    cases (r.step (fun t u => (pure (holds t u) : Id Bool)) cur).run with
    | none => rfl
    | some e =>
      simp only [Option.bind_eq_bind, Option.bind_some, StateT.run_bind]
      rw [hw hnew e.1]
      rfl
  · rfl

lemma walk_returns (need : Nat)
    (ha : ∀ t u k, need ≤ k → ((Calls.nested rels k).answer o t u).run memo = some (holds t u, memo))
    {fuel : Nat} {cur : Ty} {path : Chain} (hfuel : (unused rels path).length ≤ fuel) {k : Nat}
    (hk : need + (unused rels path).length < k) :
    ((Calls.nested rels k).walk o cur path).run memo = some (walk rels holds fuel cur path, memo) := by
  induction fuel generalizing cur path k with
  | zero =>
    obtain ⟨k, rfl⟩ : ∃ j, k = j + 1 := ⟨k - 1, by omega⟩
    have hnone : ∀ r ∈ rels, ¬ (r.isImpl && !path.uses r) = true := by
      simpa [unused] using hfuel
    have hall : ∀ r ∈ rels, ((Calls.nested rels k).walkFrom o cur path r).run memo = some ([], memo) := by
      intro r hr
      rw [Calls.walkFrom, if_neg (hnone r hr)]
      rfl
    simp only [Calls.nested, Calls.walkBody, StateT.run_bind, run_mapM hall]
    simp [walk]
  | succ fuel ih =>
    obtain ⟨k, rfl⟩ : ∃ j, k = j + 1 := ⟨k - 1, by omega⟩
    have hbelow : ∀ r ∈ rels, r.isImpl && !path.uses r → ∀ next,
        ((Calls.nested rels k).walk o next (path ++ [r])).run memo =
          some (walk rels holds fuel next (path ++ [r]), memo) := by
      intro r hr hnew next
      have hlt := unused_snoc_lt (List.mem_filter.mpr ⟨hr, hnew⟩)
      exact ih (by omega) (by omega)
    have hall := run_mapM fun r (hr : r ∈ rels) =>
      walkFrom_returns cur (fun next => walk rels holds fuel next (path ++ [r])) (fun t u => ha t u k (by omega))
        (hbelow r hr)
    simp only [Calls.nested, Calls.walkBody, StateT.run_bind, hall]
    simp only [walk, List.flatMap_def]
    rfl

lemma rounds_return (need bound : Nat) {p : Path} {f : List Chain → List Chain} (hf : ∀ l, (f l).length ≤ bound)
    (hw : ∀ known k, need ≤ k → ((Calls.nested rels k).walk { o with searching := (p.render, known) :: o.searching }
      (.named p []) []).run memo = some (f known, memo))
    {fuel : Nat} {known : List Chain} (hknown : known.length ≤ bound) (hfuel : bound < fuel + known.length) {k : Nat}
    (hk : need + fuel ≤ k) :
    ((Calls.nested rels k).rounds o p known).run memo = some (rounds f fuel known, memo) := by
  induction fuel generalizing known k with
  | zero => omega
  | succ fuel ih =>
    obtain ⟨k, rfl⟩ : ∃ j, k = j + 1 := ⟨k - 1, by omega⟩
    simp only [Calls.nested, Calls.roundsBody, StateT.run_bind, hw known k (by omega)]
    simp only [Option.bind_eq_bind, Option.bind_some, rounds]
    split_ifs with hlen
    · rfl
    · exact ih (hf known) (by omega) (by omega)

/-! ### Questions that came up in a search -/

/-- How many calls a search makes inside each other, apart from those for the questions of its walks. -/
def searchNesting (n : Nat) : Nat := sequences n + n + 2

/-- How many calls a question inside a search makes inside each other that may lead to `budget` others. -/
def answerNesting (n budget : Nat) : Nat := 1 + budget * (searchNesting n + 2)

lemma rounds_return_from {budget : Nat} {asked : List String} {depth : Nat}
    (ha : ∀ searching t u k, searching ≠ [] → answerNesting rels.length budget ≤ k →
      ((Calls.nested rels k).answer ⟨depth, asked, searching⟩ t u).run memo =
        some (assignIn rels memo budget searching asked t u, memo))
    (searching : Memo) (p : Path) {k : Nat} (hk : answerNesting rels.length budget + searchNesting rels.length ≤ k) :
    ((Calls.nested rels k).rounds ⟨depth, asked, searching⟩ p []).run memo =
      some (rounds (searchRound rels (fun searching t u => assignIn rels memo budget searching asked t u) searching p)
        (sequences rels.length + 1) [], memo) := by
  have hunused : (unused rels []).length ≤ rels.length := List.length_filter_le _ _
  refine rounds_return (answerNesting rels.length budget + rels.length + 1) (sequences rels.length)
    (fun l => ?_) (fun known j hj => ?_) (by simp) (by simp) (by rw [searchNesting] at hk; omega)
  · exact Nat.le_trans (length_walk_le _ _ _) (sequences_mono hunused)
  · exact walk_returns (answerNesting rels.length budget) (fun t u i hi => ha _ t u i (by simp) hi) hunused (by omega)

lemma search_returns {budget : Nat} {asked : List String} {depth : Nat}
    (ha : ∀ searching t u k, searching ≠ [] → answerNesting rels.length budget ≤ k →
      ((Calls.nested rels k).answer ⟨depth, asked, searching⟩ t u).run memo =
        some (assignIn rels memo budget searching asked t u, memo))
    {searching : Memo} (hs : searching ≠ []) (p : Path) {k : Nat}
    (hk : answerNesting rels.length budget + searchNesting rels.length < k) :
    ((Calls.nested rels k).search ⟨depth, asked, searching⟩ p).run memo =
      some (searchWith rels memo (fun searching t u => assignIn rels memo budget searching asked t u) searching p,
        memo) := by
  obtain ⟨k, rfl⟩ : ∃ j, k = j + 1 := ⟨k - 1, by omega⟩
  have hempty : searching.isEmpty = false := by simpa using hs
  simp only [Calls.nested, Calls.searchBody, StateT.run_bind, StateT.run_get, Option.bind_eq_bind, Option.pure_def,
    Option.bind_some]
  cases hm : memo.lookup p.render with
  | some l => simp [searchWith, hm]
  | none =>
    cases hl : searching.lookup p.render with
    | some l => simp [searchWith, hm, hl]
    | none =>
      rw [searchWith_rounds rels _ hm hl]
      simpa [hempty] using rounds_return_from ha searching p (by omega)

lemma answer_returns {budget : Nat} {o : Open} (hd : o.depth + budget = maxDepth) (hs : o.searching ≠ []) (t u : Ty)
    {k : Nat} (hk : answerNesting rels.length budget ≤ k) :
    ((Calls.nested rels k).answer o t u).run memo =
      some (assignIn rels memo budget o.searching o.asked t u, memo) := by
  induction budget generalizing o t u k with
  | zero =>
    obtain ⟨k, rfl⟩ : ∃ j, k = j + 1 := ⟨k - 1, by rw [answerNesting] at hk; omega⟩
    unfold assignIn
    simp only [Calls.nested, Calls.answerBody]
    cases t.fits? u with
    | some answer => rfl
    | none =>
      dsimp only
      split_ifs
      · rfl
      · omega
      · rfl
  | succ budget ih =>
    have hneed : answerNesting rels.length budget + searchNesting rels.length + 2 ≤ k := by
      rw [answerNesting, Nat.succ_mul] at hk
      rw [answerNesting]
      omega
    obtain ⟨k, rfl⟩ : ∃ j, k = j + 1 := ⟨k - 1, by omega⟩
    unfold assignIn
    simp only [Calls.nested, Calls.answerBody]
    cases t.fits? u with
    | some answer => rfl
    | none =>
      dsimp only
      split_ifs with hq hlt
      · rfl
      · have ha : ∀ searching t' u' k, searching ≠ [] → answerNesting rels.length budget ≤ k →
            ((Calls.nested rels k).answer ⟨o.depth + 1, question t u :: o.asked, searching⟩ t' u').run memo =
              some (assignIn rels memo budget searching (question t u :: o.asked) t' u', memo) :=
          fun searching t' u' k hne hk => ih (by simp only; omega) hne t' u' hk
        refine (?_ : (atMemo memo).Alike _ _).1
        refine Mirrors.assignStep (Set.mem_univ _) (fun t' u' _ _ => ?_) (fun p _ => ?_) t.within_univ u.within_univ
        · exact ⟨ha _ t' u' k hs (by omega), trivial⟩
        · exact ⟨search_returns ha hs p (by omega), fun _ _ r _ => r.within_univ⟩
      · omega

end Nested

/-! ### Questions and searches -/

/-- How many calls a question makes inside each other at most. -/
def nesting (n : Nat) : Nat := answerNesting n maxDepth + searchNesting n + maxDepth + 2

variable {rels : List Relation}

lemma outermost_returns {depth : Nat} {asked : List String} (p : Path) {k : Nat}
    (hk : answerNesting rels.length maxDepth + searchNesting rels.length < k) :
    ∀ memo, ((Calls.nested rels k).search ⟨depth, asked, []⟩ p).run memo = some ((chains rels p).run memo) := by
  intro memo
  obtain ⟨k, rfl⟩ : ∃ j, k = j + 1 := ⟨k - 1, by omega⟩
  simp only [Calls.nested, Calls.searchBody, StateT.run_bind, StateT.run_get, Option.bind_eq_bind, Option.pure_def,
    Option.bind_some]
  cases hm : memo.lookup p.render with
  | some l =>
    have hchains : (chains rels p).run memo = (l, memo) := by simp [chains, search, searchWith, hm, StateT.run]
    rw [hchains]
    rfl
  | none =>
    have hsearch : search rels memo p = _ := searchWith_rounds rels _ hm rfl
    have hchains : (chains rels p).run memo = (search rels memo p, (p.render, search rels memo p) :: memo) := by
      simp [chains, hm, StateT.run]
    have hrounds : ((Calls.nested rels k).rounds {} p []).run memo = some (search rels memo p, memo) := by
      rw [hsearch]
      refine rounds_return_from (fun searching t u j hs hj => ?_) [] p (by omega)
      exact answer_returns (o := ⟨0, [], searching⟩) (by simp) hs t u hj
    rw [hchains]
    simp only [List.lookup_nil, List.isEmpty_nil, if_true, StateT.run_bind, hrounds]
    rfl

lemma question_returns {budget depth : Nat} (hd : depth + budget = maxDepth) (asked : List String) (t u : Ty) {k : Nat}
    (hk : answerNesting rels.length maxDepth + searchNesting rels.length + budget + 1 < k) :
    ∀ memo, ((Calls.nested rels k).answer ⟨depth, asked, []⟩ t u).run memo =
      some ((assignWith (chains rels) budget asked t u).run memo) := by
  induction budget generalizing depth asked t u k with
  | zero =>
    obtain ⟨k, rfl⟩ : ∃ j, k = j + 1 := ⟨k - 1, by omega⟩
    unfold assignWith
    simp only [Calls.nested, Calls.answerBody]
    cases t.fits? u with
    | some answer => exact fun _ => rfl
    | none =>
      dsimp only
      split_ifs
      · exact fun _ => rfl
      · omega
      · exact fun _ => rfl
  | succ budget ih =>
    obtain ⟨k, rfl⟩ : ∃ j, k = j + 1 := ⟨k - 1, by omega⟩
    unfold assignWith
    simp only [Calls.nested, Calls.answerBody]
    cases t.fits? u with
    | some answer => exact fun _ => rfl
    | none =>
      dsimp only
      split_ifs
      · exact fun _ => rfl
      · refine fun memo => ((?_ : returning.Alike _ _) memo).1
        refine Mirrors.assignStep (Set.mem_univ _) (fun t' u' _ _ => ?_) (fun p _ => ?_) t.within_univ u.within_univ
        · exact fun memo => ⟨ih (by omega) _ t' u' (by omega) memo, trivial⟩
        · exact fun memo => ⟨outermost_returns p (by omega) memo, fun _ _ r _ => r.within_univ⟩
      · omega

/-- Every question is answered and every search ends, whatever the relations are and whatever has been searched before.
How many calls there are inside each other depends on the number of relations only. -/
theorem questions_and_searches_return (rels : List Relation) (more : Nat) (memo : Memo) :
    (∀ t target, ((Calls.nested rels (nesting rels.length + more)).answer {} t target).run memo =
      some ((isAssignable rels t target).run memo)) ∧
    ∀ p, ((Calls.nested rels (nesting rels.length + more)).search {} p).run memo = some ((chains rels p).run memo) := by
  constructor
  · intro t target
    exact question_returns (Nat.zero_add maxDepth) [] t target (by rw [nesting]; omega) memo
  · intro p
    exact outermost_returns p (by rw [nesting]; omega) memo

end TraitCheck
