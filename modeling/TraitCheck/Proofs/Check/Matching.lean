import TraitCheck.Proofs.Check.Joined
import TraitCheck.Proofs.Ty.Unify

/-! Which relations are used only for the types that they are for. A step looks at the path of a type and lays its
arguments over those of the for-type, but it does not compare them. -/

namespace TraitCheck

/-! ### For-types that leave nothing to compare -/

namespace Ty

/-- An argument in whose place anything may stand. -/
def Loose : Ty → Prop
  | .generic _ | .unknown | .hole | .absent => True
  | _ => False

/-- A for-type is open if, below its path, it has nothing but generics, each of them once. The type without values is
always open, since it fits everything. -/
def Open : Ty → Prop
  | .named p args => p = neverPath ∨ (∀ a ∈ args, a.Loose) ∧ (mentionsAll args).Nodup
  | _ => True

/-- A declared type has as many arguments as its declaration has parameters. -/
def Regular (arity : Path → Option Nat) : Ty → Prop
  | .named p args => arity p = some args.length
  | _ => True

lemma loose_iff {t : Ty} : t.Loose ↔ (∃ g, t = .generic g) ∨ t.absorbs = true := by cases t <;> simp [Loose, absorbs]

lemma substituteOrHole_generic (m : Bindings) (g : Generic Ty) :
    substituteOrHole [m] (.generic g) = (m.get? g.name).getD .hole := by
  simp [substituteOrHole, replace, Bindings.lookupIn]

lemma substituteOrHole_named (maps : List Bindings) (p : Path) (args : List Ty) :
    substituteOrHole maps (.named p args) = .named p (args.map (substituteOrHole maps)) := by
  rw [substituteOrHole, replace, replaceAll_eq_map]
  rfl

lemma substituteOrHole_of_absorbs {t : Ty} (h : t.absorbs = true) (maps : List Bindings) :
    substituteOrHole maps t = t := by
  cases t <;> first | rfl | cases h

lemma fits?_of_absorbs_right {u : Ty} (h : u.absorbs = true) (t : Ty) : t.fits? u = some true := by simp [fits?, h]

lemma fits?_generic {acc m : Bindings} {g : Generic Ty} (a : Ty) (hnew : acc.get? g.name = none)
    (hm : m.Extends (unifyInto acc (.generic g) a)) : a.fits? (substituteOrHole [m] (.generic g)) = some true := by
  rw [unifyInto] at hm
  split_ifs at hm with habsorbs
  · exact Neutral.fits? (.inr habsorbs) _
  · rw [substituteOrHole_generic, hm g.name a (Bindings.get?_insertIfNew_of_none hnew a)]
    exact a.fits?_self

lemma fits?_unifyAllInto {ps as : List Ty} {acc : Bindings} (hloose : ∀ p ∈ ps, p.Loose) (hnodup : (mentionsAll ps).Nodup)
    (hnew : ∀ name ∈ mentionsAll ps, acc.get? name = none) :
    ∀ d ∈ as.zip ps, d.1.fits? (substituteOrHole [unifyAllInto acc ps as] d.2) = some true := by
  induction ps generalizing as acc with
  | nil => simp
  | cons p ps ih =>
    cases as with
    | nil => simp
    | cons a as =>
      obtain ⟨hfirst, hloose⟩ := List.forall_mem_cons.mp hloose
      rw [List.zip_cons_cons, List.forall_mem_cons, unifyAllInto]
      constructor
      · obtain ⟨g, rfl⟩ | habsorbs := loose_iff.mp hfirst
        · exact fits?_generic a (hnew g.name (by simp [mentionsAll, mentions])) (unifyAllInto_extends _ ps as)
        · rw [substituteOrHole_of_absorbs habsorbs]
          exact fits?_of_absorbs_right habsorbs a
      · exact ih hloose (List.nodup_append.mp hnodup).2.1 (get?_unifyInto_rest hnodup hnew a)

end Ty

/-! ### Types with the same path -/

section Named

variable {s : State} {p : Path} {as bs : List Ty}

lemma Ty.named_fits? (p : Path) (as : List Ty) (u : Ty) :
    (Ty.named p as).fits? u = some true ∨ (Ty.named p as).fits? u = none := by
  unfold Ty.fits?
  split_ifs <;> simp

lemma State.accepts_named (hs : s.built = true) (hlen : as.length = bs.length)
    (h : ∀ d ∈ as.zip bs, d.1.fits? d.2 = some true) : s.Accepts (.named p bs) (.named p as) := by
  obtain ⟨w, -, hiff⟩ := State.exists_accepts_iff hs (.named p as) (.named p bs)
  refine hiff.mpr (assignBy_succ.mpr ?_)
  obtain hfits | hnone := Ty.named_fits? p as (.named p bs)
  · exact .inl hfits
  · have hquestions : as.zip bs ∈ questions (.named p as) (.named p bs) := by simp [questions, partQuestions, hlen]
    exact .inr ⟨hnone, by simp, .parts hquestions fun d hd => assignBy_succ.mpr (.inl (h d hd))⟩

structure Ty.Strange (t u : Ty) : Prop where
  fits : t.fits? u = none
  questions : questions t u = []
  path : t.path? = none ∨ u.path? = none

lemma Ty.Strange.not_says {t u : Ty} (h : t.Strange u) (cs : Path → List Chain) (budget : Nat) (asked : List String) :
    ¬ Says (assignBy cs budget asked) t u := by
  intro hsays
  cases budget with
  | zero =>
    have hfits := assignBy_zero.mp hsays
    rw [h.fits] at hfits
    cases hfits
  | succ budget =>
    obtain hfits | ⟨-, -, hstep⟩ := assignBy_succ.mp hsays
    · rw [h.fits] at hfits
      cases hfits
    · cases hstep with
      | parts hds _ =>
        rw [h.questions] at hds
        cases hds
      | chain => simpa [Ty.path?] using h.path

lemma Ty.Strange.not_equal {t u : Ty} (h : t.Strange u) : t.equal u = false := by
  have hfits := h.fits
  unfold Ty.fits? at hfits
  split_ifs at hfits with habsorbs hequal
  · split at hfits <;> cases hfits
  · simp only [Bool.or_eq_true, not_or, Bool.not_eq_true] at hequal
    exact hequal.2

lemma State.not_accepts_named (hs : s.built = true) (hp : p ≠ Ty.neverPath) {t u : Ty} (hmem : (t, u) ∈ as.zip bs)
    (h : t.Strange u) : ¬ s.Accepts (.named p bs) (.named p as) := by
  obtain ⟨w, -, hiff⟩ := State.exists_accepts_iff hs (.named p as) (.named p bs)
  rw [hiff]
  intro hsays
  obtain hfits | ⟨-, -, hstep⟩ := assignBy_succ.mp hsays
  · have hequal : Ty.equalAll as bs = true := by simpa [Ty.fits?, Ty.absorbs, Ty.isNever, hp, Ty.equal] using hfits
    have hargs := Ty.equal_of_mem_zip hequal _ hmem
    rw [h.not_equal] at hargs
    cases hargs
  · cases hstep with
    | parts hds hd =>
      simp only [questions, partQuestions] at hds
      split_ifs at hds
      · obtain rfl := List.mem_singleton.mp hds
        exact h.not_says _ _ _ (hd _ hmem)
      · cases hds
    | chain hne => exact hne rfl

end Named

/-! ### For-types that are not open -/

namespace Ty

def stranger : Ty → Ty
  | .named _ _ => .fn [] [] unit
  | _ => int

lemma strange_stranger {u : Ty} (hu : ¬ u.Loose) (maps : List Bindings) :
    u.stranger.Strange (u.substituteOrHole maps) := by
  cases u with
  | named p args => exact ⟨rfl, rfl, .inl rfl⟩
  | fn gs ps r => exact ⟨rfl, rfl, .inr rfl⟩
  | closure i n => exact ⟨rfl, rfl, .inr rfl⟩
  | ongoing i => exact ⟨rfl, rfl, .inr rfl⟩
  | _ => exact absurd trivial hu

lemma unifyInto_stranger {u : Ty} (hu : ¬ u.Loose) (acc : Bindings) : unifyInto acc u u.stranger = acc := by
  cases u <;> first | rfl | exact absurd trivial hu

lemma unifyAllInto_skip (acc : Bindings) (l ps as : List Ty) :
    unifyAllInto acc (l ++ ps) (holes l.length ++ as) = unifyAllInto acc ps as := by
  induction l with
  | nil => rfl
  | cons p l ih =>
    rw [List.length_cons, holes, List.replicate_succ, List.cons_append, List.cons_append, unifyAllInto, unifyInto_hole]
    exact ih

lemma mem_zip_holes (f : Ty → Ty) (l r ts : List Ty) (t u : Ty) :
    (t, f u) ∈ (holes l.length ++ t :: ts).zip ((l ++ u :: r).map f) := by
  rw [List.map_append, List.map_cons, List.zip_append (by simp [holes])]
  simp

lemma Loose.eq_generic {t : Ty} (h : t.Loose) {name : String} (hname : name ∈ t.mentions) :
    ∃ g, t = .generic g ∧ g.name = name := by
  cases t with
  | generic g => exact ⟨g, rfl, (List.mem_singleton.mp hname).symm⟩
  | unknown | hole | absent => cases hname
  | _ => cases h

lemma exists_of_not_nodup {ps : List Ty} (hloose : ∀ p ∈ ps, p.Loose) (hrepeats : ¬ (mentionsAll ps).Nodup) :
    ∃ l g mid h r, ps = l ++ .generic g :: (mid ++ .generic h :: r) ∧ g.name = h.name := by
  induction ps with
  | nil => exact absurd .nil hrepeats
  | cons p ps ih =>
    obtain ⟨hp, hrest⟩ := List.forall_mem_cons.mp hloose
    by_cases hps : (mentionsAll ps).Nodup
    · have hagain : ∃ name ∈ p.mentions, name ∈ mentionsAll ps := by
        by_contra! hall
        have hnodup : p.mentions.Nodup := by cases p <;> first | exact List.nodup_nil | exact List.nodup_singleton _ | cases hp
        exact hrepeats (List.nodup_append.mpr ⟨hnodup, hps, fun a ha b hb hab => hall a ha (hab ▸ hb)⟩)
      obtain ⟨name, hname, hagain⟩ := hagain
      obtain ⟨q, hq, hname'⟩ := exists_of_mem_mentionsAll hagain
      obtain ⟨g, rfl, hg⟩ := hp.eq_generic hname
      obtain ⟨h, rfl, hh⟩ := (hrest q hq).eq_generic hname'
      obtain ⟨mid, r, rfl⟩ := List.append_of_mem hq
      exact ⟨[], g, mid, h, r, rfl, hg.trans hh.symm⟩
    · obtain ⟨l, g, mid, h, r, rfl, hname⟩ := ih hrest hps
      exact ⟨p :: l, g, mid, h, r, rfl, hname⟩

/-- Arguments of which one does not fit its parameter, and which bind generics to nothing but the type that satisfies all
bounds. -/
structure Mismatch (ps as : List Ty) : Prop where
  length : as.length = ps.length
  bound : ∀ name v, (unifyAllInto .empty ps as).get? name = some v → v = never
  strange : ∃ t u, (t, u) ∈ as.zip (ps.map (substituteOrHole [unifyAllInto .empty ps as])) ∧ t.Strange u

lemma mismatch_solid {u : Ty} (hu : ¬ u.Loose) (l r : List Ty) :
    Mismatch (l ++ u :: r) (holes l.length ++ u.stranger :: holes r.length) := by
  have hm : unifyAllInto .empty (l ++ u :: r) (holes l.length ++ u.stranger :: holes r.length) = .empty := by
    rw [unifyAllInto_skip, unifyAllInto, unifyInto_stranger hu, unifyAllInto_holes]
  refine ⟨by simp [holes], by simp [hm], u.stranger, u.substituteOrHole [.empty], ?_, strange_stranger hu _⟩
  rw [hm]
  exact mem_zip_holes _ l r _ _ u

lemma mismatch_repeated {g h : Generic Ty} (hname : g.name = h.name) (l mid r : List Ty) :
    Mismatch (l ++ .generic g :: (mid ++ .generic h :: r))
      (holes l.length ++ never :: (holes mid.length ++ .fn [] [] unit :: holes r.length)) := by
  have hbound := Bindings.get?_insertIfNew_of_none (Bindings.get?_empty g.name) never
  have hm : unifyAllInto .empty (l ++ .generic g :: (mid ++ .generic h :: r))
      (holes l.length ++ never :: (holes mid.length ++ .fn [] [] unit :: holes r.length)) =
      Bindings.empty.insertIfNew g.name never := by
    rw [unifyAllInto_skip, unifyAllInto, unifyAllInto_skip, unifyAllInto, unifyAllInto_holes, unifyInto, unifyInto,
      if_neg (by simp [absorbs]), if_neg (by simp [absorbs, never]), ← hname, Bindings.insertIfNew, hbound,
      if_pos Option.isSome_some]
  refine ⟨by simp [holes], fun name v hv => ?_, .fn [] [] unit, never, ?_, rfl, rfl, .inl rfl⟩
  · rw [hm] at hv
    by_cases hother : name = g.name
    · subst hother
      exact Option.some.inj (hv.symm.trans hbound)
    · rw [Bindings.get?_insertIfNew_of_ne _ hother] at hv
      cases hv
  · have hvalue : substituteOrHole [Bindings.empty.insertIfNew g.name never] (.generic h) = never := by
      rw [substituteOrHole_generic, ← hname, hbound, Option.getD_some]
    have hmem := mem_zip_holes (substituteOrHole [Bindings.empty.insertIfNew g.name never]) mid r (holes r.length)
      (.fn [] [] unit) (.generic h)
    rw [hvalue] at hmem
    rw [hm, List.map_append, List.map_cons, List.zip_append (by simp [holes])]
    exact List.mem_append_right _ (List.mem_cons_of_mem _ hmem)

lemma exists_mismatch {p : Path} {ps : List Ty} (h : ¬ (Ty.named p ps).Open) : p ≠ neverPath ∧ ∃ as, Mismatch ps as := by
  simp only [Open, not_or] at h
  refine ⟨h.1, ?_⟩
  by_cases hloose : ∀ a ∈ ps, a.Loose
  · obtain ⟨l, g, mid, h, r, rfl, hname⟩ := exists_of_not_nodup hloose fun hnodup => h.2 ⟨hloose, hnodup⟩
    exact ⟨_, mismatch_repeated hname l mid r⟩
  · simp only [not_forall] at hloose
    obtain ⟨u, hu, hsolid⟩ := hloose
    obtain ⟨l, r, rfl⟩ := List.append_of_mem hu
    exact ⟨_, mismatch_solid hsolid l r⟩

end Ty

/-! ### Steps and chains -/

/-- A question that needs no other one is answered with yes if it can be. -/
def Grants (holds : Ty → Ty → Id Bool) : Prop := ∀ ⦃t u⦄, t.fits? u = some true → Says holds t u

lemma grants_assignBy (cs : Path → List Chain) : Grants (assignBy cs maxDepth []) := fun _ _ h =>
  assignBy_succ.mpr (.inl h)

/-- What a relation is for, and what it leads to, have their arguments. -/
structure Relation.Regular (arity : Path → Option Nat) (r : Relation) : Prop where
  forType : r.forType.Regular arity
  target : r.target.Regular arity

/-- At each step of a chain, what is seen there can be used as what the step is for. -/
def Chain.Matched (s : State) : Ty → Chain → Prop
  | _, [] => True
  | t, r :: c => s.Accepts (r.forType.substituteOrHole [Ty.unify t r.forType]) t ∧ Matched s (r.view t) c

section Steps

variable {s : State} {arity : Path → Option Nat} {r : Relation} {cur : Ty} {holds : Ty → Ty → Id Bool}

lemma eq_of_step {next : Ty} {m : Bindings} (h : (r.step holds cur).run = some (next, m)) :
    r.matches cur = true ∧ next = r.view cur ∧ m = Ty.unify cur r.forType := by
  by_cases hmet : r.matches cur = true ∧ Met (Says holds) (r.demands (Ty.unify cur r.forType))
  · rw [step_of_met holds hmet.1 hmet.2] at h
    cases h
    exact ⟨hmet.1, rfl, rfl⟩
  · rw [step_of_not_met holds fun hm hd => hmet ⟨hm, hd⟩] at h
    cases h

lemma Relation.Regular.view (h : r.Regular arity) (t : Ty) : (r.view t).Regular arity := by
  have htarget : arity r.path = some r.args.length := h.target
  rw [Relation.view, Relation.target, Ty.substituteOrHole_named]
  simpa [Ty.Regular] using htarget

lemma Relation.exists_of_matches (hblanket : r.isBlanket = false) (hmatches : r.matches cur = true) :
    ∃ as, cur = .named r.forPath as := by
  unfold Relation.matches at hmatches
  rw [hblanket, Bool.false_or] at hmatches
  cases cur with
  | named p as =>
    obtain rfl : p = r.forPath := of_decide_eq_true hmatches
    exact ⟨as, rfl⟩
  | _ => cases hmatches

lemma accepts_of_open (hs : s.built = true) (hempty : arity .empty = none) (hcur : cur.Regular arity)
    (hr : r.forType.Regular arity) (hopen : r.forType.Open) (hmatches : r.matches cur = true) :
    s.Accepts (r.forType.substituteOrHole [Ty.unify cur r.forType]) cur := by
  cases hfor : r.forType with
  | generic g => exact State.accepts_of_fits hs (Ty.fits?_generic cur (Bindings.get?_empty g.name) (.refl _))
  | named p ps =>
    rw [hfor] at hr hopen
    obtain ⟨as, rfl⟩ := r.exists_of_matches (by simp [Relation.isBlanket, hfor]) hmatches
    obtain rfl : r.forPath = p := by simp [Relation.forPath, hfor, Ty.path?]
    have hlen : as.length = ps.length := Option.some.inj (hcur.symm.trans hr)
    rw [Ty.substituteOrHole_named]
    obtain hnever | ⟨hloose, hnodup⟩ := hopen
    · exact State.accepts_neutral hs (.inl (by simp [Ty.isNever, hnever])) _
    · refine State.accepts_named hs (by simpa using hlen) fun d hd => ?_
      obtain ⟨⟨a, q⟩, hd', rfl⟩ : ∃ e ∈ as.zip ps, Prod.map id (Ty.substituteOrHole _) e = d := by
        rwa [List.zip_map_right, List.mem_map] at hd
      exact Ty.fits?_unifyAllInto hloose hnodup (fun name _ => Bindings.get?_empty name) _ hd'
  | _ =>
    -- such a relation has no path, and no declared type has none
    obtain ⟨as, rfl⟩ := r.exists_of_matches (by simp [Relation.isBlanket, hfor]) hmatches
    have hnone : arity r.forPath = none := by simp [Relation.forPath, hfor, Ty.path?, hempty]
    exact absurd (hnone.symm.trans hcur) (by simp)

lemma exists_of_not_open (hs : s.built = true) (hr : r.forType.Regular arity) (hopen : ¬ r.forType.Open) :
    ∃ cur, cur.Regular arity ∧ ¬ s.Accepts (r.forType.substituteOrHole [Ty.unify cur r.forType]) cur ∧
      ∀ holds, Grants holds → (r.step holds cur).run = some (r.view cur, Ty.unify cur r.forType) := by
  cases hfor : r.forType with
  | named p ps =>
    rw [hfor] at hr hopen
    obtain ⟨hp, as, hlength, hbound, t, u, hmem, hstrange⟩ := Ty.exists_mismatch hopen
    refine ⟨.named p as, ?_, ?_, fun holds hholds => ?_⟩
    · rw [Ty.Regular, hlength]
      exact hr
    · rw [Ty.substituteOrHole_named]
      exact State.not_accepts_named hs hp hmem hstrange
    · rw [← hfor]
      refine step_of_met holds (by simp [Relation.matches, Relation.forPath, hfor, Ty.path?]) fun d hd => hholds ?_
      -- nothing is asked but whether the type without values satisfies a bound
      obtain ⟨g, -, hd⟩ := List.mem_flatMap.mp hd
      split at hd
      · next value hvalue =>
        rw [hfor] at hvalue
        obtain ⟨bound, -, rfl⟩ := List.mem_map.mp hd
        obtain rfl := hbound g.name value hvalue
        exact Ty.Neutral.fits? (.inl rfl) _
      · cases hd
  | _ => exact absurd (by rw [hfor]; trivial) hopen

lemma open_iff_step (hs : s.built = true) (hempty : arity .empty = none)
    (hholds : Grants holds) (hr : r.forType.Regular arity) :
    r.forType.Open ↔ ∀ cur next m, cur.Regular arity → (r.step holds cur).run = some (next, m) →
      s.Accepts (r.forType.substituteOrHole [m]) cur := by
  constructor
  · intro hopen cur next m hcur hstep
    obtain ⟨hmatches, -, rfl⟩ := eq_of_step hstep
    exact accepts_of_open hs hempty hcur hr hopen hmatches
  · intro hall
    by_contra hopen
    obtain ⟨cur, hcur, haccepts, hstep⟩ := exists_of_not_open hs hr hopen
    exact haccepts (hall cur _ _ hcur (hstep holds hholds))

lemma Chain.matched_of_open (hs : s.built = true) (hempty : arity .empty = none) {c : Chain}
    (hc : ∀ r ∈ c, r.Regular arity ∧ r.forType.Open) {t : Ty} (ht : t.Regular arity) (hview : (c.view t).isSome = true) :
    c.Matched s t := by
  induction c generalizing t with
  | nil => trivial
  | cons r c ih =>
    obtain ⟨⟨hr, hopen⟩, hc⟩ := List.forall_mem_cons.mp hc
    rw [Chain.view] at hview
    split_ifs at hview with hmatches
    · exact ⟨accepts_of_open hs hempty ht hr.forType hopen hmatches, ih hc (hr.view t) hview⟩
    · cases hview

end Steps

lemma exists_instantiate (s : State) (hs : s.built = true) (t : Ty) (c : Chain) :
    ∃ cs, ((Check.instantiate t c).run s).1 = .ok (c.instantiate (assignBy cs maxDepth []) t).run := by
  obtain ⟨hlater, hanswer⟩ := Check.instantiate_answers t c s hs
  exact ⟨_, hanswer _ (.refl hlater.built)⟩

theorem matched_iff_open {s : State} (hs : s.built = true) {arity : Path → Option Nat} (hempty : arity .empty = none) :
    (∀ holds : Ty → Ty → Id Bool, Grants holds → ∀ r : Relation, r.Regular arity →
      (r.forType.Open ↔ ∀ cur next m, cur.Regular arity → (r.step holds cur).run = some (next, m) →
        s.Accepts (r.forType.substituteOrHole [m]) cur)) ∧
    ∀ rels : List Relation, (∀ r ∈ rels, r.Regular arity) →
      ((∀ r ∈ rels, r.forType.Open) ↔ ∀ (t : Ty) (c : Chain) (e : Ty × Bindings), t.Regular arity → c ⊆ rels →
        ((Check.instantiate t c).run s).1 = .ok (some e) → c.Matched s t) := by
  refine ⟨fun holds hholds r hr => open_iff_step hs hempty hholds hr.forType, fun rels hrels => ⟨?_, ?_⟩⟩
  · intro hopen t c e ht hc hrun
    obtain ⟨cs, hcs⟩ := exists_instantiate s hs t c
    have hfollow := Except.ok.inj (hcs.symm.trans hrun)
    obtain ⟨hview, -⟩ := (follow_run _).mp ⟨e.2, hfollow⟩
    exact Chain.matched_of_open hs hempty (fun r hr => ⟨hrels r (hc hr), hopen r (hc hr)⟩) ht (by simp [hview])
  · intro hall r hr
    by_contra hopen
    obtain ⟨cur, hcur, haccepts, hstep⟩ := exists_of_not_open hs (hrels r hr).forType hopen
    obtain ⟨cs, hcs⟩ := exists_instantiate s hs cur [r]
    rw [Chain.instantiate, Chain.follow, Id.run_bind, hstep _ (grants_assignBy cs)] at hcs
    exact haccepts (hall cur [r] _ hcur (by simpa using hr) hcs).1

/-! Crates of fruit: those of ripe fruit are sold, and those of apples are pressed. -/

namespace Crates

def apple : Path := ⟨["Apple"]⟩
def pear : Path := ⟨["Pear"]⟩
def crate : Path := ⟨["Crate"]⟩
def ripe : Path := ⟨["Ripe"]⟩
def sold : Path := ⟨["Sold"]⟩
def pressed : Path := ⟨["Pressed"]⟩

def crateOf (p : Path) : Ty := .named crate [.named p []]

def fruit : Generic Ty := ⟨"T", "Crate.T", [.named ripe []]⟩

def ripening : Relation := ⟨0, .impl, ripe, [], .named pear [], []⟩
def selling : Relation := ⟨1, .impl, sold, [], .named crate [.generic fruit], [fruit]⟩
def pressing : Relation := ⟨2, .impl, pressed, [], crateOf apple, []⟩

def arity (p : Path) : Option Nat :=
  if p = crate then some 1 else if p ∈ [apple, pear, ripe, sold, pressed] then some 0 else none

def state : State := .of [ripening, selling, pressing]

theorem sold_if_ripe : state.built = true ∧ arity .empty = none ∧
    (∀ r ∈ [ripening, selling], r.Regular arity ∧ r.forType.Open) ∧
    (∃ e, ((Check.instantiate (crateOf pear) [selling]).run state).1 = .ok (some e)) ∧
    Chain.Matched state (crateOf pear) [selling] ∧ pressing.Regular arity ∧ ¬ pressing.forType.Open := by
  have hempty : arity .empty = none := by decide
  have hregular : ∀ r ∈ [ripening, selling], r.Regular arity := by
    simpa using ⟨⟨rfl, rfl⟩, ⟨rfl, rfl⟩⟩
  have hopen : ∀ r ∈ [ripening, selling], r.forType.Open := by
    simp [ripening, selling, Ty.Open, Ty.Loose, Ty.mentionsAll, Ty.mentions]
  have hrun : ∃ e, ((Check.instantiate (crateOf pear) [selling]).run state).1 = .ok (some e) := ⟨_, rfl⟩
  refine ⟨rfl, hempty, fun r hr => ⟨hregular r hr, hopen r hr⟩, hrun, ?_, ⟨rfl, rfl⟩, ?_⟩
  · obtain ⟨e, he⟩ := hrun
    exact ((matched_iff_open rfl hempty).2 _ hregular).mp hopen (crateOf pear) [selling] e rfl (by simp) he
  · simp [pressing, crateOf, Ty.Open, Ty.Loose, crate, Ty.neverPath]

theorem pears_pressed :
    ((Check.instantiate (crateOf pear) [pressing]).run state).1 = .ok (some (.named pressed [], .empty)) ∧
    pressing.forType.substituteOrHole [.empty] = crateOf apple ∧ ¬ state.Accepts (crateOf apple) (crateOf pear) := by
  refine ⟨rfl, rfl, ?_⟩
  have hanswer : ((Check.isAssignable (crateOf pear) (crateOf apple)).run state).1 = .ok false := rfl
  rw [State.Accepts, hanswer]
  simp

end Crates

end TraitCheck
