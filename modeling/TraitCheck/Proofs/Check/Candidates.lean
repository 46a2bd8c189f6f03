import TraitCheck.Proofs.Check.Matching
import TraitCheck.Proofs.Check.Numbered
import TraitCheck.Proofs.Check.Questions

/-! The relations through which a receiver has a method, and the bounds of their generics. What a chain leads to is a
candidate only if all bounds on the way hold. A relation for the type itself is a candidate without any question. -/

namespace TraitCheck

/-! ### The bindings of the last step -/

lemma demands_of_follow {holds : Ty → Ty → Id Bool} {c : Chain} {t super : Ty} {b₀ b : Bindings} {r : Relation}
    (hfollow : (c.follow holds (t, b₀)).run = some (super, b)) (hlast : c.getLast? = some r) :
    r.demands b ⊆ c.demands t := by
  induction c generalizing t b₀ with
  | nil => cases hlast
  | cons q c ih =>
    rw [Chain.follow, Id.run_bind] at hfollow
    cases hstep : (q.step holds t).run with
    | none =>
      rw [hstep] at hfollow
      cases hfollow
    | some next =>
      rw [hstep] at hfollow
      obtain ⟨hmatches, hnext, hb⟩ := eq_of_step hstep
      intro d hd
      rw [Chain.demands, if_pos hmatches]
      cases c with
      | nil =>
        obtain rfl : q = r := Option.some.inj hlast
        obtain rfl : next = (super, b) := Option.some.inj hfollow
        have hb : b = Ty.unify t q.forType := hb
        rw [hb] at hd
        exact List.mem_append_left _ hd
      | cons q' c =>
        rw [← hnext]
        exact List.mem_append_right _ (ih hfollow hlast hd)

/-! ### Answers that stay -/

/-- The questions that are answered with yes, now and later. -/
def State.Meets (s : State) (ds : List (Ty × Ty)) : Prop := ∀ u, s.Later u → Met (fun t bound => u.Accepts bound t) ds

namespace Check

variable {s : State}

lemma run_instantiate (hs : s.built = true) (t : Ty) (c : Chain) :
    ∃ o u, (instantiate t c).run s = (.ok o, u) ∧ s.Later u ∧ u.instances = s.instances ∧
      ∀ super b, o = some (super, b) → u.Meets (c.demands t) ∧
        (∀ w, u.Later w → ((instantiate t c).run w).1 = .ok (some (super, b))) ∧
        ∀ r, c.getLast? = some r → r.demands b ⊆ c.demands t := by
  obtain ⟨hlater, hanswer⟩ := instantiate_answers t c s hs
  have hinstances := ((instantiate_moves t c).updates hs rfl).instances
  refine ⟨_, _, Prod.ext (hanswer _ (.refl hlater.built)) rfl, hlater, hinstances, fun super b ho => ?_⟩
  -- later memos agree with the one that was used
  have hrun (w : State) (hw : ((instantiate t c).run s).2.Later w) :
      (c.instantiate (assignBy w.memo.at maxDepth []) t).run = some (super, b) := by
    rw [← ho]
    exact Except.ok.inj ((hanswer w hw).symm.trans (hanswer _ (.refl hlater.built)))
  refine ⟨fun w hw d hd => ?_, fun w hw => ?_, fun r hr => demands_of_follow (hrun _ (.refl hlater.built)) hr⟩
  · obtain ⟨hlater', hanswer'⟩ := isAssignable_answers d.1 d.2 w hw.built
    obtain ⟨-, hmet⟩ := (follow_run _).mp ⟨b, hrun _ (hw.trans hlater')⟩
    rw [State.Accepts, hanswer' _ (.refl hlater'.built)]
    exact congrArg Except.ok (hmet d hd)
  · obtain ⟨hlater', hanswer'⟩ := instantiate_answers t c w hw.built
    rw [hanswer' _ (.refl hlater'.built)]
    exact congrArg Except.ok (hrun _ (hw.trans hlater'))

end Check

/-! ### Two kinds of candidates -/

namespace Candidate

/-- A relation for the type itself: the declaration of a trait or an impl of the methods of a type. -/
structure Direct (s : State) (p : Path) (name : String) (c : Candidate) : Prop where
  chain : c.chain = []
  provider : c.provider ∈ s.instances
  kind : c.provider.relation.isImpl = false
  path : c.provider.relation.forPath = p
  method : c.provider.method? name = some c.method

/-- The end of a chain of impls whose bounds hold. The generics of the impl itself have values that satisfy its bounds. -/
structure Reached (s : State) (recv : Ty) (name : String) (c : Candidate) : Prop where
  chain : c.chain.Of s.relations
  provider : c.provider ∈ s.instances
  last : c.chain.getLast? = some c.provider.relation
  method : c.provider.method? name = some c.method
  bounds : s.Meets (c.chain.demands recv)
  values : ∃ super b, (∀ w, s.Later w → ((Check.instantiate recv c.chain).run w).1 = .ok (some (super, b))) ∧
    s.Meets (c.provider.relation.demands b)

end Candidate

lemma State.Meets.later {s t : State} {ds : List (Ty × Ty)} (h : s.Meets ds) (ht : s.Later t) : t.Meets ds := fun u hu =>
  h u (ht.trans hu)

lemma Candidate.Reached.later {s t : State} {recv : Ty} {name : String} {c : Candidate} (h : c.Reached s recv name)
    (ht : s.Later t) (hinstances : t.instances = s.instances) : c.Reached t recv name := by
  obtain ⟨super, b, hrun, hb⟩ := h.values
  refine ⟨ht.relations ▸ h.chain, hinstances ▸ h.provider, h.last, h.method, h.bounds.later ht, super, b, ?_, hb.later ht⟩
  exact fun w hw => hrun w (ht.trans hw)

lemma State.Numbered.instance_eq {s : State} (h : s.Numbered) {i j : Instance} (hj : j ∈ s.instances)
    (hi : s.instances[j.relation.id]? = some i) : i = j := by
  obtain ⟨n, hn⟩ := List.mem_iff_getElem?.mp hj
  rw [h n j hn, hn] at hi
  exact (Option.some.inj hi).symm

/-! ### Collecting them -/

lemma mem_addCandidate {found : List Candidate} {c d : Candidate} (h : d ∈ addCandidate found c) : d ∈ found ∨ d = c := by
  rw [addCandidate] at h
  split_ifs at h
  · exact .inl h
  · simpa using h

lemma subset_addCandidate (found : List Candidate) (c : Candidate) : found ⊆ addCandidate found c := by
  rw [addCandidate]
  split_ifs
  · exact List.Subset.refl found
  · exact List.subset_append_left found [c]

lemma mem_foldl_addCandidate {l found : List Candidate} {d : Candidate} (h : d ∈ l.foldl addCandidate found) :
    d ∈ found ∨ d ∈ l := by
  induction l generalizing found with
  | nil => exact .inl h
  | cons c l ih =>
    obtain h | h := ih h
    · exact (mem_addCandidate h).imp_right fun h => by simp [h]
    · exact .inr (List.mem_cons_of_mem _ h)

lemma subset_foldl_addCandidate (l found : List Candidate) : found ⊆ l.foldl addCandidate found := by
  induction l generalizing found with
  | nil => exact List.Subset.refl found
  | cons c l ih => exact List.Subset.trans (subset_addCandidate found c) (ih _)

lemma exists_of_mem_foldl {l : List Candidate} (found : List Candidate) {c : Candidate} (hc : c ∈ l) :
    ∃ d ∈ l.foldl addCandidate found, d.provider.relation.id = c.provider.relation.id := by
  induction l generalizing found with
  | nil => cases hc
  | cons e l ih =>
    obtain rfl | hc := List.mem_cons.mp hc
    · have hadded : ∃ d ∈ addCandidate found c, d.provider.relation.id = c.provider.relation.id := by
        rw [addCandidate]
        split_ifs with hany
        · simpa using hany
        · exact ⟨c, by simp, rfl⟩
      obtain ⟨d, hd, hid⟩ := hadded
      exact ⟨d, subset_foldl_addCandidate l _ hd, hid⟩
    · exact ih _ hc

namespace Check

variable {s : State} {name : String} {p : Path}

lemma mem_directCandidates {c : Candidate} : c ∈ directCandidates s p name ↔ c.Direct s p name := by
  rw [directCandidates, List.mem_filterMap]
  constructor
  · rintro ⟨i, hi, hfound⟩
    split_ifs at hfound with hdirect
    · obtain ⟨m, hm, rfl⟩ := Option.map_eq_some_iff.mp hfound
      simp only [Bool.and_eq_true, Bool.not_eq_true', decide_eq_true_eq] at hdirect
      exact ⟨rfl, hi, hdirect.1, hdirect.2, hm⟩
  · rintro ⟨hchain, hi, hkind, hpath, hmethod⟩
    refine ⟨c.provider, hi, ?_⟩
    rw [if_pos (by simp [hkind, hpath]), hmethod, Option.map_some, ← hchain]

lemma reached_of_meets (hn : s.Numbered) {recv super : Ty} {b : Bindings} {c : Chain} (hc : c.Of s.relations) {i : Instance}
    {m : Method} (hi : (c.getLast?.bind fun r => s.instances[r.id]?) = some i) (hm : i.method? name = some m)
    (hmeets : s.Meets (c.demands recv))
    (hrun : ∀ w, s.Later w → ((instantiate recv c).run w).1 = .ok (some (super, b)))
    (hlast : ∀ r, c.getLast? = some r → r.demands b ⊆ c.demands recv) : Candidate.Reached s recv name ⟨i, m, c⟩ := by
  obtain ⟨r, hr, hi⟩ := Option.bind_eq_some_iff.mp hi
  obtain ⟨j, hj, rfl⟩ := List.mem_map.mp (hc.impls r (List.mem_of_getLast? hr)).1
  obtain rfl := hn.instance_eq hj hi
  refine ⟨hc, hj, hr, hm, hmeets, super, b, hrun, fun w hw d hd => ?_⟩
  exact hmeets w hw d (hlast _ hr hd)

lemma run_chainCandidates (hs : s.built = true) (hn : s.Numbered) (recv : Ty) (found : List Candidate) {l : List Chain}
    (hl : ∀ c ∈ l, c.Of s.relations) :
    ∃ cs u, (chainCandidates recv name found l).run s = (.ok cs, u) ∧ s.Later u ∧ u.instances = s.instances ∧
      found ⊆ cs ∧ ∀ c ∈ cs, c ∈ found ∨ c.Reached u recv name := by
  induction l generalizing s found with
  | nil => exact ⟨found, s, rfl, .refl hs, rfl, List.Subset.refl found, fun c hc => .inl hc⟩
  | cons c l ih =>
    obtain ⟨hc, hl⟩ := List.forall_mem_cons.mp hl
    rw [chainCandidates, run_get_bind]
    split
    · exact ih hs hn found hl
    · next i hi =>
      split
      · exact ih hs hn found hl
      · next m hm =>
        obtain ⟨o, u, hrun, hlater, hinstances, hmeets⟩ := run_instantiate hs recv c
        have hnumbered : u.Numbered := by rwa [State.Numbered, hinstances]
        have hrest := hlater.relations ▸ hl
        rw [run_bind_ok hrun]
        cases o with
        | none =>
          obtain ⟨cs, v, hrun', hlater', hinstances', hfound, hcs⟩ := ih hlater.built hnumbered found hrest
          exact ⟨cs, v, hrun', hlater.trans hlater', hinstances'.trans hinstances, hfound, hcs⟩
        | some e =>
          obtain ⟨cs, v, hrun', hlater', hinstances', hfound, hcs⟩ :=
            ih hlater.built hnumbered (addCandidate found ⟨i, m, c⟩) hrest
          refine ⟨cs, v, hrun', hlater.trans hlater', hinstances'.trans hinstances,
            List.Subset.trans (subset_addCandidate _ _) hfound, fun d hd => ?_⟩
          obtain hd | hd := hcs d hd
          · obtain hd | rfl := mem_addCandidate hd
            · exact .inl hd
            · obtain ⟨hbounds, hvalues, hlast⟩ := hmeets e.1 e.2 rfl
              have hreached := reached_of_meets hnumbered (hlater.relations ▸ hc) (hinstances ▸ hi) hm hbounds hvalues hlast
              exact .inr (hreached.later hlater' hinstances')
          · exact .inr hd

lemma exists_run_chainsOf (hs : s.built = true) (hmemo : s.memo.Of s.relations) (p : Path) :
    ∃ l u, (chainsOf p).run s = (.ok l, u) ∧ s.Later u ∧ u.instances = s.instances ∧ ∀ c ∈ l, c.Of s.relations := by
  have hknows : Knows s.relations (·.Of s.relations) s := ⟨hs, rfl, hmemo⟩
  have hrun := run_ask (fun chains => chains p) hknows
  have hgrows := ((chainsOf_moves p).updates hs hrun).grows
  exact ⟨_, _, hrun, ⟨hs, rfl, hgrows⟩, rfl, chains_of hmemo p⟩

lemma mem_foldl_of_direct (hn : s.Numbered) {c : Candidate} (hc : c.Direct s p name) :
    c ∈ (directCandidates s p name).foldl addCandidate [] := by
  obtain ⟨d, hd, hid⟩ := exists_of_mem_foldl [] (mem_directCandidates.mpr hc)
  have hdirect : d.Direct s p name := by simpa [mem_directCandidates] using mem_foldl_addCandidate hd
  obtain ⟨n, hprovider⟩ := List.mem_iff_getElem?.mp hc.provider
  rw [← hn n _ hprovider, ← hid] at hprovider
  have hprovider := hn.instance_eq hdirect.provider hprovider
  have hmethod := hc.method
  rw [hprovider, hdirect.method] at hmethod
  obtain ⟨provider, method, chain⟩ := c
  obtain ⟨provider', method', chain'⟩ := d
  obtain rfl : provider = provider' := hprovider
  obtain rfl : method' = method := Option.some.inj hmethod
  obtain rfl : chain = chain' := hc.chain.trans hdirect.chain.symm
  exact hd

lemma run_candidates (hs : s.built = true) (hn : s.Numbered) (hmemo : s.memo.Of s.relations) (name : String) (p : Path)
    (args : List Ty) :
    ∃ cs u, (candidates name (.named p args)).run s = (.ok cs, u) ∧ s.Later u ∧ u.instances = s.instances ∧
      (∀ c, c.Direct s p name → c ∈ cs) ∧ ∀ c ∈ cs, c.Direct s p name ∨ c.Reached u (.named p args) name := by
  obtain ⟨l, u, hrun, hlater, hinstances, hl⟩ := exists_run_chainsOf hs hmemo p
  have hnumbered : u.Numbered := by rwa [State.Numbered, hinstances]
  obtain ⟨cs, v, hrun', hlater', hinstances', hfound, hcs⟩ :=
    run_chainCandidates hlater.built hnumbered (.named p args) ((directCandidates s p name).foldl addCandidate [])
      (hlater.relations ▸ hl)
  refine ⟨cs, v, ?_, hlater.trans hlater', hinstances'.trans hinstances, fun c hc => ?_, fun c hc => ?_⟩
  · rw [candidates, run_get_bind, run_bind_ok hrun]
    exact hrun'
  · exact hfound (mem_foldl_of_direct hn hc)
  · refine (hcs c hc).imp_left fun hc => ?_
    simpa [mem_directCandidates] using mem_foldl_addCandidate hc

end Check

/-! ### Bounds that nobody asks about -/

/-- The bounds that a receiver has to satisfy for a candidate, of its relation or of all relations that lead there. -/
def Candidate.demands (recv : Ty) (c : Candidate) : List (Ty × Ty) :=
  match c.chain with
  | [] => c.provider.relation.demands (Ty.unify recv c.provider.relation.forType)
  | r :: rest => Chain.demands recv (r :: rest)

/-- Some argument of the type that a relation is for is a generic with a trait or a type as its bound. -/
def Relation.Guarded (r : Relation) (p : Path) (args : List Ty) : Prop :=
  r.forType = .named p args ∧ ∃ g ∈ r.generics, (∃ h, .generic h ∈ args ∧ h.name = g.name) ∧ ∃ q bs, .named q bs ∈ g.bounds

lemma exists_unmet {r : Relation} {p : Path} {params : List Ty} (h : r.Guarded p params) :
    ∃ args : List Ty, args.length = params.length ∧
      ∃ d ∈ r.demands (Ty.unify (.named p args) r.forType), d.1.Strange d.2 := by
  obtain ⟨hfor, g, hg, ⟨h, hmem, hname⟩, q, bs, hbound⟩ := h
  obtain ⟨before, after, rfl⟩ := List.append_of_mem hmem
  let args := Ty.holes before.length ++ .fn [] [] .unit :: Ty.holes after.length
  have hvalue : (Ty.unify (.named p args) r.forType).get? g.name = some (.fn [] [] .unit) := by
    rw [hfor, Ty.unify, Ty.unifyInto, Ty.unifyAllInto_skip, Ty.unifyAllInto, Ty.unifyAllInto_holes, Ty.unifyInto,
      if_neg (by simp [Ty.absorbs]), ← hname]
    exact Bindings.get?_insertIfNew_of_none (Bindings.get?_empty h.name) _
  let m := Ty.unify (.named p args) r.forType
  refine ⟨args, by simp [args, Ty.holes], (.fn [] [] .unit, (Ty.named q bs).substitute [m]), ?_, rfl, rfl, .inl rfl⟩
  refine List.mem_flatMap.mpr ⟨g, hg, ?_⟩
  rw [hvalue]
  exact List.mem_map.mpr ⟨_, hbound, rfl⟩

lemma Ty.Strange.not_accepts {t u : Ty} (h : t.Strange u) {s : State} (hs : s.built = true) : ¬ s.Accepts u t := by
  obtain ⟨w, -, hiff⟩ := State.exists_accepts_iff hs t u
  rw [hiff]
  exact h.not_says _ _ _

lemma Relation.demands_eq_nil {r : Relation} (h : ∀ g ∈ r.generics, g.bounds = []) (b : Bindings) : r.demands b = [] := by
  refine List.flatMap_eq_nil_iff.mpr fun g hg => ?_
  rw [h g hg]
  split <;> rfl

namespace Candidate

variable {s t : State} {p : Path} {name : String} {recv : Ty} {c : Candidate}

lemma Direct.congr (h : t.instances = s.instances) : c.Direct t p name ↔ c.Direct s p name := by
  constructor
  · rintro ⟨hchain, hprovider, hkind, hpath, hmethod⟩
    exact ⟨hchain, h ▸ hprovider, hkind, hpath, hmethod⟩
  · rintro ⟨hchain, hprovider, hkind, hpath, hmethod⟩
    exact ⟨hchain, h ▸ hprovider, hkind, hpath, hmethod⟩

lemma Direct.demands (h : c.Direct s p name) :
    c.demands recv = c.provider.relation.demands (Ty.unify recv c.provider.relation.forType) := by
  rw [Candidate.demands, h.chain]

lemma Reached.demands (h : c.Reached s recv name) : c.demands recv = c.chain.demands recv := by
  obtain ⟨r, rest, hc⟩ := List.exists_cons_of_ne_nil h.chain.ne_nil
  rw [Candidate.demands, hc]

lemma meets_demands (h : c.Direct s p name ∨ c.Reached t recv name)
    (hdirect : c.chain = [] → ∀ g ∈ c.provider.relation.generics, g.bounds = []) : t.Meets (c.demands recv) := by
  obtain h | h := h
  · rw [h.demands, Relation.demands_eq_nil (hdirect h.chain)]
    exact fun _ _ => met_nil _
  · rw [h.demands]
    exact h.bounds

end Candidate

/-! ### Any history -/

namespace Check

lemma viewAs_moves (t : Ty) (p : Path) (args : List Ty) : Moves true (viewAs t p args) := by
  refine .get fun s => .bind (ask_moves fun rels cs => ?_) fun r => evidenceOr_moves r
  have hruns := viewAs_runs (Set.mem_univ _) s.relations (chainsAlike_any rels cs) evidenceFuel
  exact Runs.weaken (hruns t p args t.within_univ (Ty.named p args).within_univ) fun _ _ => trivial

lemma query_moves (q : Query) : Moves true q.ask := by
  cases q with
  | assignable t u => exact (isAssignable_moves t u).bind fun _ => .pure _
  | combine a b => exact (combine_moves a b).bind fun _ => .pure _
  | chains p => exact (chainsOf_moves p).bind fun _ => .pure _
  | candidates name recv => exact (candidates_moves name recv).bind fun _ => .pure _
  | upcast t p args => exact (viewAs_moves t p args).bind fun _ => .pure _

end Check

namespace State

variable {s t : State}

lemma updates_after (hs : s.built = true) (history : List Query) : s.Updates (s.after history) := by
  induction history generalizing s with
  | nil => exact .refl s
  | cons q history ih =>
    have hfirst := (Check.query_moves q).updates hs rfl
    exact hfirst.trans (ih (hfirst.built.trans hs))

structure Prepared (s : State) : Prop where
  built : s.built = true
  numbered : s.Numbered
  memo : s.memo.Of s.relations

lemma prepared_after (hs : s.Unasked) (hbuild : Check.buildRelations.run s = (.ok (), t)) (history : List Query) :
    (t.after history).Prepared ∧ (t.after history).instances = t.instances := by
  obtain ⟨hfresh, hnumbered⟩ := Check.numbered_of_buildRelations hs hbuild
  have hknows := hfresh.knows_after (kept_of t.relations) history
  have hinstances := (updates_after hfresh.built history).instances
  refine ⟨⟨hknows.built, ?_, hknows.relations ▸ hknows.memo⟩, hinstances⟩
  rwa [Numbered, hinstances]

end State

lemma Check.eq_of_resolveMethod {s u v : State} {at? : Option Syntax.Info} {recv : Ty} {name : String} {cs : List Candidate}
    {c : Candidate} (hrun : (candidates name recv).run s = (.ok cs, u))
    (h : (resolveMethod at? recv name).run s = (.ok (some c), v)) : cs = [c] ∧ v = u := by
  rw [resolveMethod, run_bind_ok hrun] at h
  rcases cs with _ | ⟨d, _ | ⟨_, _⟩⟩
  · cases h
  · cases h
    exact ⟨rfl, rfl⟩
  · cases h

/-- The candidates of a receiver, once relations are built and whatever has been asked before. At the end of a chain the
receiver satisfies all bounds on the way. A relation for the type itself is always a candidate: if one of its arguments is
a generic with a bound, then there are receivers that do not satisfy this. -/
theorem bounds_of_candidates {s t : State} (hs : s.Unasked) (hbuild : Check.buildRelations.run s = (.ok (), t))
    (history : List Query) (p : Path) (name : String) :
    (∀ args, ∃ cs u, (Check.candidates name (.named p args)).run (t.after history) = (.ok cs, u) ∧
      (∀ c, c.Direct t p name → c ∈ cs) ∧
      (∀ c ∈ cs, c.Direct t p name ∨ c.Reached u (.named p args) name) ∧
      (∀ c ∈ cs, (c.chain = [] → ∀ g ∈ c.provider.relation.generics, g.bounds = []) → u.Meets (c.demands (.named p args))) ∧
      ∀ at? c v, (Check.resolveMethod at? (.named p args) name).run (t.after history) = (.ok (some c), v) →
        cs = [c] ∧ v = u) ∧
    ∀ c params, c.Direct t p name → c.provider.relation.Guarded p params → ∃ args : List Ty, args.length = params.length ∧
      ∃ cs u, (Check.candidates name (.named p args)).run (t.after history) = (.ok cs, u) ∧ c ∈ cs ∧
        ∃ d ∈ c.demands (.named p args), ∀ w, u.Later w → ¬ w.Accepts d.2 d.1 := by
  obtain ⟨⟨hbuilt, hnumbered, hmemo⟩, hinstances⟩ := State.prepared_after hs hbuild history
  have hdirect (c : Candidate) : c.Direct (t.after history) p name ↔ c.Direct t p name := Candidate.Direct.congr hinstances
  constructor
  · intro args
    obtain ⟨cs, u, hrun, -, -, hall, hcs⟩ := Check.run_candidates hbuilt hnumbered hmemo name p args
    simp only [hdirect] at hall hcs
    refine ⟨cs, u, hrun, hall, hcs, fun c hc => Candidate.meets_demands (hcs c hc), fun at? c v h => ?_⟩
    exact Check.eq_of_resolveMethod hrun h
  · intro c params hc hguarded
    obtain ⟨args, hlength, d, hd, hstrange⟩ := exists_unmet hguarded
    obtain ⟨cs, u, hrun, -, -, hall, -⟩ := Check.run_candidates hbuilt hnumbered hmemo name p args
    refine ⟨args, hlength, cs, u, hrun, hall c ((hdirect c).mpr hc), d, ?_, fun w hw => hstrange.not_accepts hw.built⟩
    rw [hc.demands]
    exact hd

namespace Vaults

/-- A vault of what is counted, which is `Vault<T>` with a bound for `T`. -/
def counted : Syntax.GenericDecl := Standard.gen "T" [Standard.ref "Counted"]

def vaultRef : Syntax.TypeExpr := Standard.ref "Vault" [Standard.elemRef]

def itself (name : String) : Syntax.Fn := Standard.fnOf name [Standard.receiver] vaultRef (Standard.ident "self")

/-- A vault of coins, which are counted, can be locked. -/
def locking : List Syntax.Stmt :=
  [Standard.type "Coin", Standard.impl [] (some (Standard.ref "Counted")) (Standard.ref "Coin") [],
    Standard.trait "Locked" [Standard.unaryMethod "lock" Standard.selfRef],
    Standard.impl [counted] (some (Standard.ref "Locked")) vaultRef [itself "lock"]]

/-- Vaults have a method of their own, and it is called for a vault of keys, which are not counted. -/
def opening : List Syntax.Stmt :=
  let keys := Standard.ref "Vault" [Standard.ref "Key"]
  [Standard.type "Key", Standard.impl [counted] none vaultRef [itself "open"],
    .fn (Standard.fnOf "steal" [Standard.param "keys" keys] keys (.method {} (Standard.ident "keys") "open" [] []))]

def packages (statements : List Syntax.Stmt) : List (String × List (String × Syntax.Module)) :=
  [("app", [("app::a", Standard.module
    ([Standard.type "Vault" [] [Standard.gen "T"], Standard.trait "Counted" []] ++ statements))])]

def vault : Path := ⟨["app", "a", "Vault"]⟩
def coin : Ty := .named ⟨["app", "a", "Coin"]⟩ []
def key : Ty := .named ⟨["app", "a", "Key"]⟩ []

def state : State := .glanced Standard.prelude 64 (packages locking)

def bounds? (s : State) (name : String) (recv : Ty) : Option (List (Nat × List (String × String))) :=
  match Check.buildRelations.run s with
  | (.ok _, t) =>
    match (Check.candidates name recv).run (t.after [.chains vault]) with
    | (.ok cs, _) => some (cs.map fun c => (c.chain.length, (c.demands recv).map fun d => (d.1.render, d.2.render)))
    | (.error _, _) => none
  | (.error _, _) => none

lemma exists_of_bounds? {s : State} {name : String} {recv : Ty} {n : Nat} {l : List (String × String)}
    (h : bounds? s name recv = some [(n, l)]) : ∃ t, Check.buildRelations.run s = (.ok (), t) ∧
      ∃ c u, (Check.candidates name recv).run (t.after [.chains vault]) = (.ok [c], u) ∧ c.chain.length = n ∧
        (c.demands recv).map (fun d => (d.1.render, d.2.render)) = l := by
  unfold bounds? at h
  split at h
  · next t hbuild =>
    split at h
    · next cs u hrun =>
      obtain ⟨c, rfl, hc⟩ := List.map_eq_singleton_iff.mp (Option.some.inj h)
      obtain ⟨hlength, hbounds⟩ := Prod.mk.inj hc
      exact ⟨t, hbuild, c, u, hrun, hlength, hbounds⟩
    · cases h
  · cases h

lemma bounds_lock : bounds? state "lock" (.named vault [coin]) = some [(1, [("app::a::Coin", "app::a::Counted")])] := by
  decide +kernel

theorem locked_if_counted : state.Unasked ∧ ∃ t, Check.buildRelations.run state = (.ok (), t) ∧
    ∃ c u, (Check.candidates "lock" (.named vault [coin])).run (t.after [.chains vault]) = (.ok [c], u) ∧
      (c.demands (.named vault [coin])).map (fun d => (d.1.render, d.2.render)) = [("app::a::Coin", "app::a::Counted")] ∧
      u.Meets (c.demands (.named vault [coin])) := by
  have hstate : state.Unasked := State.glanced_unasked _ _ _
  obtain ⟨t, hbuild, c, u, hrun, hlength, hdemands⟩ := exists_of_bounds? bounds_lock
  obtain ⟨cs, v, hrun', -, -, hmeets, -⟩ := (bounds_of_candidates hstate hbuild [.chains vault] vault "lock").1 [coin]
  cases hrun.symm.trans hrun'
  refine ⟨hstate, t, hbuild, c, u, hrun, hdemands, hmeets c (List.mem_singleton_self c) fun hchain => ?_⟩
  rw [hchain] at hlength
  cases hlength

/-- Whether the method that is called is one of the type itself, and the answers about its bounds, if a check ends well and
reports nothing. -/
def answers? (s : State) (recv : Ty) (name : String) : Option (Bool × List (Option Bool)) :=
  match s.check with
  | (none, t) =>
    match t.diagnostics, (Check.resolveMethod none recv name).run t with
    | [], (.ok (some c), u) =>
      some (c.provider.relation.kind = .inherent, (c.demands recv).map fun d =>
        ((Check.isAssignable d.1 d.2).run u).1.toOption)
    | _, _ => none
  | (some _, _) => none

lemma exists_of_answers? {s : State} {recv : Ty} {name : String} (h : answers? s recv name = some (true, [some false])) :
    ∃ t, s.check = (none, t) ∧ t.diagnostics = [] ∧
      ∃ c u, (Check.resolveMethod none recv name).run t = (.ok (some c), u) ∧ c.provider.relation.kind = .inherent ∧
        ∃ d ∈ c.demands recv, ((Check.isAssignable d.1 d.2).run u).1 = .ok false := by
  unfold answers? at h
  split at h
  · next t hcheck =>
    split at h
    · next c u hdiagnostics hrun =>
      obtain ⟨hkind, hbounds⟩ := Prod.mk.inj (Option.some.inj h)
      obtain ⟨d, hd, hanswer⟩ := List.map_eq_singleton_iff.mp hbounds
      refine ⟨t, hcheck, hdiagnostics, c, u, hrun, of_decide_eq_true hkind, d, by simp [hd], ?_⟩
      match hend : ((Check.isAssignable d.1 d.2).run u).1 with
      | .ok answer =>
        rw [hend] at hanswer
        exact congrArg Except.ok (Option.some.inj hanswer)
      | .error φ =>
        rw [hend] at hanswer
        cases hanswer
    · cases h
  · cases h

lemma answers_open : answers? (State.ofPackages Standard.prelude 64 (packages opening)) (.named vault [key]) "open" =
    some (true, [some false]) := by
  decide +kernel

theorem keys_stolen : ∃ t, (State.ofPackages Standard.prelude 64 (packages opening)).check = (none, t) ∧ t.diagnostics = [] ∧
    ∃ c u, (Check.resolveMethod none (.named vault [key]) "open").run t = (.ok (some c), u) ∧
      c.provider.relation.kind = .inherent ∧
      ∃ d ∈ c.demands (.named vault [key]), ((Check.isAssignable d.1 d.2).run u).1 = .ok false :=
  exists_of_answers? answers_open

end Vaults

end TraitCheck
