import TraitCheck.Proofs.Coverage.Tree

/-! Clauses that leave nothing uncovered agree with every value along each of its branches. That one pattern agrees
along all of them follows where patterns look into one field of a variant only. -/

namespace TraitCheck.Coverage

variable {sig : Signature}

/-! ### All clauses -/

variable {t : Ty} {v : Value}

lemma Adds.refl {tree : Tree} (h : tree.Fits sig t) : Adds sig t (fun _ _ => False) tree tree :=
  ⟨h, fun _ _ => by simp⟩

lemma Adds.trans {A B : List String → Value → Prop} {t₀ t₁ t₂ : Tree} (h₁ : Adds sig t A t₀ t₁)
    (h₂ : Adds sig t B t₁ t₂) : Adds sig t (fun path v => A path v ∨ B path v) t₀ t₂ :=
  ⟨h₂.fits, fun hv hb => by rw [h₂.covers hv hb, h₁.covers hv hb, or_assoc]⟩

lemma Adds.congr {A B : List String → Value → Prop} {t₀ t₁ : Tree} (h : Adds sig t A t₀ t₁)
    (hab : ∀ path v, A path v ↔ B path v) : Adds sig t B t₀ t₁ :=
  ⟨h.fits, fun hv hb => by rw [h.covers hv hb, hab]⟩

def Clause.adds (c : Clause) (path : List String) (v : Value) : Prop := ∃ p ∈ c.patterns, p.adds (!c.guarded) path v

lemma foldl_cover_adds (exhaust : Bool) (ps : List Shape) (hps : ∀ p ∈ ps, p.Typed sig t) {tree : Tree}
    (ht : tree.Fits sig t) : Adds sig t (fun path v => ∃ p ∈ ps, p.adds exhaust path v) tree
      (ps.foldl (fun tree p => (p.cover exhaust tree).1) tree) := by
  induction ps generalizing tree with
  | nil => exact (Adds.refl ht).congr (by simp)
  | cons p ps ih =>
    have hp := cover_adds exhaust p (hps p (by simp)) ht
    have hrest := ih (fun q hq => hps q (List.mem_cons_of_mem _ hq)) hp.fits
    exact (hp.trans hrest).congr (by simp)

lemma Clause.run_fst (c : Clause) (tree : Tree) :
    (c.run tree).1 = c.patterns.foldl (fun tree p => (p.cover (!c.guarded) tree).1) tree := by
  rw [Clause.run]
  generalize c.patterns.isEmpty = b
  induction c.patterns generalizing tree b with
  | nil => rfl
  | cons p ps ih => exact ih _ _

lemma run_adds (clauses : List Clause) (hc : ∀ c ∈ clauses, ∀ p ∈ c.patterns, p.Typed sig t) {tree : Tree}
    (ht : tree.Fits sig t) : Adds sig t (fun path v => ∃ c ∈ clauses, c.adds path v) tree (run clauses tree).2 := by
  induction clauses generalizing tree with
  | nil => exact (Adds.refl ht).congr (by simp)
  | cons c cs ih =>
    have hfirst : Adds sig t c.adds tree (c.run tree).1 := by
      rw [Clause.run_fst]
      exact foldl_cover_adds _ c.patterns (hc c (by simp)) ht
    have hrest := ih (fun c' h' => hc c' (List.mem_cons_of_mem _ h')) hfirst.fits
    exact (hfirst.trans hrest).congr (by simp)

def Agree (clauses : List Clause) (path : List String) (v : Value) : Prop :=
  ∃ c ∈ clauses, c.guarded = false ∧ ∃ p ∈ c.patterns, p.Agrees path v

lemma covers_run {clauses : List Clause} (hc : ∀ c ∈ clauses, ∀ p ∈ c.patterns, p.Typed sig t)
    {path : List String} (hv : v.HasType sig t) (hb : Branch v path) :
    (run clauses .unmatched).2.Covers path v ↔ Agree clauses path v := by
  rw [(run_adds clauses hc (.unmatched t)).covers hv hb]
  simp [Clause.adds, Shape.adds, Agree, and_left_comm]

lemma agree_of_exhaustive {clauses : List Clause} (hc : ∀ c ∈ clauses, ∀ p ∈ c.patterns, p.Typed sig t)
    (he : (check clauses).exhaustive = true) {path : List String} (hv : v.HasType sig t)
    (hb : Branch v path) : Agree clauses path v := by
  rw [← covers_run hc hv hb]
  exact (run_adds clauses hc (.unmatched t)).fits.covers_of_isExhaustive he hv hb

/-! ### Values that nothing covers -/

lemma sizeOf_lt_of_lookup {f : String} {vs : List (String × Value)} (h : vs.lookup f = some v)
    (name : String) : sizeOf v < sizeOf (Value.variant name vs) := by
  obtain ⟨l₁, l₂, rfl, -⟩ := List.lookup_eq_some_iff.mp h
  have hm := List.sizeOf_lt_of_mem (show (f, v) ∈ l₁ ++ (f, v) :: l₂ by simp)
  simp only [Prod.mk.sizeOf_spec, Value.variant.sizeOf_spec] at hm ⊢
  omega

@[elab_as_elim] lemma Value.induct {motive : Value → Prop} (atom : ∀ i, motive (.atom i))
    (variant : ∀ name vs, (∀ f v, vs.lookup f = some v → motive v) → motive (.variant name vs)) : (v : Value) → motive v
  | .atom i => atom i
  | .variant name vs => variant name vs fun _ v _ => Value.induct atom variant v
termination_by v => sizeOf v
decreasing_by exact sizeOf_lt_of_lookup (by assumption) name

lemma exists_branch (v : Value) : ∃ path, Branch v path := by
  induction v using Value.induct with
  | atom i => exact ⟨[], .atom i⟩
  | variant name vs ih =>
    cases vs with
    | nil => exact ⟨[], .constant name⟩
    | cons e vs =>
      obtain ⟨f, v⟩ := e
      have hv : List.lookup f ((f, v) :: vs) = some v := by simp
      obtain ⟨path, hp⟩ := ih f v hv
      exact ⟨f :: path, .field hv hp⟩

def Inhabited (sig : Signature) : Prop := ∀ t, ∃ v : Value, v.HasType sig t

lemma exists_fields (hi : Inhabited sig) (types : List (String × Ty)) : ∃ vs, HaveTypes sig vs types := by
  induction types with
  | nil => exact ⟨[], trivial⟩
  | cons e types ih =>
    obtain ⟨vs, hvs⟩ := ih
    obtain ⟨v, hv⟩ := hi e.2
    exact ⟨(e.1, v) :: vs, rfl, hv, hvs⟩

lemma exists_fields_with (hi : Inhabited sig) {types : List (String × Ty)} {f : String} {u : Ty}
    (hu : types.lookup f = some u) (hv : v.HasType sig u) : ∃ vs, HaveTypes sig vs types ∧ vs.lookup f = some v := by
  induction types with
  | nil => simp at hu
  | cons e types ih =>
    obtain ⟨n, t⟩ := e
    rw [List.lookup_cons] at hu
    cases hn : f == n with
    | true =>
      simp only [hn, Option.some.injEq] at hu
      obtain ⟨vs, hvs⟩ := exists_fields hi types
      exact ⟨(n, v) :: vs, ⟨rfl, hu ▸ hv, hvs⟩, by simp [List.lookup_cons, hn]⟩
    | false =>
      simp only [hn] at hu
      obtain ⟨vs, hvs, hf⟩ := ih hu
      obtain ⟨w, hw⟩ := hi t
      exact ⟨(n, w) :: vs, ⟨rfl, hw, hvs⟩, by simp [List.lookup_cons, hn, hf]⟩

lemma not_exhaustive_get {ts : List (String × Tree)} (hn : (ts.map (·.1)).Nodup)
    (h : allExhaustive ts = false) : ∃ n ∈ ts.map (·.1), (get n ts).isExhaustive = false := by
  by_contra hall
  have : allExhaustive ts = true := by
    rw [allExhaustive_iff]
    rintro ⟨n, t⟩ he
    by_contra hne
    refine hall ⟨n, List.mem_map.mpr ⟨_, he, rfl⟩, ?_⟩
    simpa [get_of_mem hn he] using hne
  simp [this] at h

lemma Tree.Fits.exists_uncovered {tree : Tree} (h : tree.Fits sig t) (hi : Inhabited sig)
    (he : tree.isExhaustive = false) : ∃ v path, v.HasType sig t ∧ Branch v path ∧ ¬ tree.Covers path v := by
  induction h with
  | unmatched t =>
    obtain ⟨v, hv⟩ := hi t
    obtain ⟨path, hb⟩ := exists_branch v
    exact ⟨v, path, hv, hb, not_covers_unmatched path v⟩
  | exhaustive => simp [Tree.isExhaustive] at he
  | @type t d ts hd hsome hnames hchild hfields ih =>
    rw [Tree.isExhaustive] at he
    obtain ⟨n, hn, hne⟩ := not_exhaustive_get hnames.1 he
    have hvariant : n ∈ d.shape.variants := (hnames.2 n).mp hn
    rcases hchild n with hc | hc | ⟨us, hc, -, hus⟩
    · obtain ⟨vs, hvs⟩ := exists_fields hi (d.fields n)
      obtain ⟨path, hb⟩ := exists_branch (.variant n vs)
      exact ⟨_, path, .mk hd hvariant hvs, hb, not_covers_of_child_unmatched _ vs hc path⟩
    · simp [hc, Tree.isExhaustive] at hne
    · rw [hc, Tree.isExhaustive] at hne
      obtain ⟨f, hf, hfe⟩ := not_exhaustive_get hus.1 hne
      obtain ⟨u, hu⟩ : ∃ u, (d.fields n).lookup f = some u := by
        have := (hus.2 f).mp hf
        rw [← Option.isSome_iff_exists, List.lookup_isSome_iff]
        simpa using this
      obtain ⟨w, path, hw, hb, hnot⟩ := ih n us f u hc hu hfe
      obtain ⟨vs, hvs, hlookup⟩ := exists_fields_with hi hu hw
      refine ⟨.variant n vs, f :: path, .mk hd hvariant hvs, .field hlookup hb, ?_⟩
      rw [covers_child_variant _ vs hc f path]
      rintro ⟨w', hw', hcov⟩
      obtain rfl : w = w' := Option.some.inj (hlookup.symm.trans hw')
      exact hnot hcov

lemma exhaustive_of_agree {clauses : List Clause} (hi : Inhabited sig)
    (hc : ∀ c ∈ clauses, ∀ p ∈ c.patterns, p.Typed sig t)
    (h : ∀ v path, v.HasType sig t → Branch v path → Agree clauses path v) : (check clauses).exhaustive = true := by
  by_contra he
  obtain ⟨v, path, hv, hb, hnot⟩ :=
    (run_adds clauses hc (.unmatched t)).fits.exists_uncovered hi (by simpa [check] using he)
  exact hnot ((covers_run hc hv hb).mpr (h v path hv hb))

/-! ### One pattern for all branches -/

lemma Shape.Typed.declared {s : TypeShape} {name : String} {ps : List (String × Shape)} {d : Declaration}
    (h : (Shape.variant s name ps).Typed sig t) (hd : sig t = some d) :
    s = d.shape ∧ (∀ f p, (f, p) ∈ ps → ps.lookup f = some p) ∧
      ∀ f p u, (f, p) ∈ ps → (d.fields name).lookup f = some u → p.Typed sig u := by
  cases h with
  | variant hd' _ _ hone hps =>
    obtain rfl := Option.some.inj (hd.symm.trans hd')
    exact ⟨rfl, hone, hps⟩

inductive Shape.Matches : Shape → Value → Prop
  | any (v : Value) : Matches .any v
  | variant {s : TypeShape} {name : String} {ps : List (String × Shape)} {vs : List (String × Value)}
      (h : ∀ f p v, (f, p) ∈ ps → vs.lookup f = some v → Matches p v) :
      Matches (.variant s name ps) (.variant name vs)

/-- The variants and fields that lead to a place inside a value, the last one first. -/
abbrev Place := List (String × String)

inductive Shape.Focused (focus : Place → String → String) : Place → Shape → Prop
  | any (pos : Place) : Focused focus pos .any
  | literal (pos : Place) : Focused focus pos .literal
  | variant {pos : Place} {s : TypeShape} {name : String} {ps : List (String × Shape)}
      (hany : ∀ f p, (f, p) ∈ ps → f ≠ focus pos name → p = .any)
      (hps : ∀ f p, (f, p) ∈ ps → Focused focus ((name, f) :: pos) p) : Focused focus pos (.variant s name ps)

lemma Shape.Agrees.cases {p : Shape} {path : List String} (h : p.Agrees path v) :
    p = .any ∨ ∃ s name ps vs, p = .variant s name ps ∧ v = .variant name vs := by
  cases p with
  | any => exact Or.inl rfl
  | literal => cases path <;> simp [Shape.Agrees] at h
  | unresolved => cases path <;> simp [Shape.Agrees] at h
  | variant s name ps =>
    cases v with
    | atom i => cases path <;> simp [Shape.Agrees] at h
    | variant n vs =>
      by_cases hn : n = name
      · exact Or.inr ⟨s, name, ps, vs, rfl, by rw [hn]⟩
      · exact absurd h (not_agrees_other hn ps path vs)

/-- Patterns that look into one field each and together agree along all branches have one among them that matches. The
argument goes down the value through the fields looked into; `P` is what is left of the patterns there. -/
lemma exists_matches {focus : Place → String → String} {pos : Place} {P : Shape → Prop}
    (hv : v.HasType sig t) (hP : ∀ p, P p → p.Typed sig t ∧ p.Focused focus pos)
    (h : ∀ path, Branch v path → ∃ p, P p ∧ p.Agrees path v) : ∃ p, P p ∧ p.Matches v := by
  induction v using Value.induct generalizing t P pos with
  | atom i =>
    obtain ⟨p, hp, ha⟩ := h [] (.atom i)
    rcases ha.cases with rfl | ⟨_, _, _, _, _, hne⟩
    · exact ⟨.any, hp, .any _⟩
    · cases hne
  | variant name vs ih =>
    by_cases hany : P .any
    · exact ⟨.any, hany, .any _⟩
    obtain ⟨d, hd, hname, hvs⟩ := hv
    -- every pattern that agrees with the value is one for its variant
    have hshape : ∀ p path, P p → p.Agrees path (.variant name vs) → ∃ ps, p = .variant d.shape name ps := by
      intro p path hp ha
      rcases ha.cases with rfl | ⟨s, n, ps, _, rfl, he⟩
      · exact absurd hp hany
      · cases he
        exact ⟨ps, by rw [((hP _ hp).1.declared hd).1]⟩
    have hwild : ∀ ps f q, P (.variant d.shape name ps) → (f, q) ∈ ps → f ≠ focus pos name → q = .any := by
      intro ps f q hp hq hf
      cases (hP _ hp).2 with
      | variant hall _ => exact hall f q hq hf
    cases hw : vs.lookup (focus pos name) with
    | none =>
      obtain ⟨path, hb⟩ := exists_branch (.variant name vs)
      obtain ⟨p, hp, ha⟩ := h path hb
      obtain ⟨ps, rfl⟩ := hshape p path hp ha
      refine ⟨_, hp, .variant fun f q w hq hlookup => ?_⟩
      have hf : f ≠ focus pos name := by
        rintro rfl
        simp [hw] at hlookup
      rw [hwild ps f q hp hq hf]
      exact .any w
    | some w =>
      obtain ⟨u, hu, hwu⟩ := hvs.lookup hw
      let below (q : Shape) : Prop := ∃ ps, P (.variant d.shape name ps) ∧ (focus pos name, q) ∈ ps
      have hbelow : ∀ q, below q → q.Typed sig u ∧ q.Focused focus ((name, focus pos name) :: pos) := by
        rintro q ⟨ps, hp, hq⟩
        obtain ⟨htyped, hfocused⟩ := hP _ hp
        refine ⟨(htyped.declared hd).2.2 _ q u hq hu, ?_⟩
        cases hfocused with
        | variant _ hps => exact hps _ q hq
      have hagree : ∀ path, Branch w path → ∃ q, below q ∧ q.Agrees path w := by
        intro path hb
        obtain ⟨p, hp, ha⟩ := h _ (.field hw hb)
        obtain ⟨ps, rfl⟩ := hshape p _ hp ha
        rw [agrees_field] at ha
        obtain ⟨q, w', hq, hw', hqa⟩ := ha
        obtain rfl : w = w' := Option.some.inj (hw.symm.trans hw')
        obtain ⟨l₁, l₂, rfl, -⟩ := List.lookup_eq_some_iff.mp hq
        exact ⟨q, ⟨_, hp, by simp⟩, hqa⟩
      obtain ⟨q, ⟨ps, hp, hq⟩, hqw⟩ := ih _ w hw hwu hbelow hagree
      refine ⟨_, hp, .variant fun f q' v' hq' hlookup => ?_⟩
      by_cases hf : f = focus pos name
      · subst hf
        obtain rfl : w = v' := Option.some.inj (hw.symm.trans hlookup)
        obtain ⟨-, hone, -⟩ := (hP _ hp).1.declared hd
        obtain rfl : q = q' := Option.some.inj ((hone _ _ hq).symm.trans (hone _ _ hq'))
        exact hqw
      · rw [hwild ps f q' hp hq' hf]
        exact .any v'

end TraitCheck.Coverage
