import Mathlib.Data.List.Basic
import Mathlib.Tactic.Common
import TraitCheck.Coverage
import TraitCheck.Ty.Basic

/-! A coverage tree says of each value, branch by branch, whether the patterns seen so far agree with it. -/

namespace TraitCheck.Coverage

/-- What coverage knows about a type: its variants, and the fields of each with their types. -/
structure Declaration where
  shape : TypeShape
  fields : String → List (String × Ty)

/-- The declarations of types. A type without one has only values that no constructor makes. -/
abbrev Signature := Ty → Option Declaration

inductive Value where
  | atom (id : Nat)
  | variant (name : String) (fields : List (String × Value))

variable (sig : Signature)

mutual

/-- The values of a type. A type without variants has values that no constructor makes. -/
def Value.HasType : Value → Ty → Prop
  | .atom _, t => ∀ d, sig t = some d → d.shape.variants = []
  | .variant name fields, t =>
    ∃ d, sig t = some d ∧ name ∈ d.shape.variants ∧ HaveTypes fields (d.fields name)

def HaveTypes : List (String × Value) → List (String × Ty) → Prop
  | [], [] => True
  | (n, v) :: vs, (m, t) :: ts => n = m ∧ v.HasType t ∧ HaveTypes vs ts
  | _, _ => False

end

/-- A way from a value down to one without fields, by the names of the fields. -/
inductive Branch : Value → List String → Prop
  | atom (i : Nat) : Branch (.atom i) []
  | constant (name : String) : Branch (.variant name []) []
  | field {name f : String} {fields : List (String × Value)} {v : Value} {path : List String} :
      fields.lookup f = some v → Branch v path → Branch (.variant name fields) (f :: path)

/-- Whether a pattern agrees with a value along a branch. A literal is not known to. -/
def Shape.Agrees : List String → Shape → Value → Prop
  | _, .any, _ => True
  | [], .variant _ n _, .variant m _ => n = m
  | f :: path, .variant _ n ps, .variant m vs =>
    n = m ∧ ∃ p v, ps.lookup f = some p ∧ vs.lookup f = some v ∧ Agrees path p v
  | _, _, _ => False

/-- Whether a tree has a value covered along a branch. -/
def Tree.Covers : List String → Tree → Value → Prop
  | _, .exhaustive, _ => True
  | path, .type _ ts, .variant n vs =>
    match get n ts, path with
    | .exhaustive, _ => True
    | .variant us, f :: path => ∃ v, vs.lookup f = some v ∧ Covers path (get f us) v
    | _, _ => False
  | _, _, _ => False

inductive Shape.Typed : Shape → Ty → Prop
  | any (t : Ty) : Typed .any t
  | literal (t : Ty) : Typed .literal t
  | variant {t : Ty} {d : Declaration} {name : String} {ps : List (String × Shape)} (hd : sig t = some d)
      (hname : name ∈ d.shape.variants) (hnames : ps.map (·.1) = (d.fields name).map (·.1))
      (hone : ∀ f p, (f, p) ∈ ps → ps.lookup f = some p)
      (hps : ∀ f p u, (f, p) ∈ ps → (d.fields name).lookup f = some u → Typed p u) :
      Typed (.variant d.shape name ps) t

def Lists (ts : List (String × Tree)) (names : List String) : Prop :=
  (ts.map (·.1)).Nodup ∧ ∀ n, n ∈ ts.map (·.1) ↔ n ∈ names

def Tree.IsChild (child : Tree) (fields : List (String × Ty)) : Prop :=
  child = .unmatched ∨ child = .exhaustive ∨
    ∃ us, child = .variant us ∧ fields ≠ [] ∧ Lists us (fields.map (·.1))

inductive Tree.Fits : Tree → Ty → Prop
  | unmatched (t : Ty) : Fits .unmatched t
  | exhaustive (t : Ty) : Fits .exhaustive t
  | type {t : Ty} {d : Declaration} {ts : List (String × Tree)} (hd : sig t = some d)
      (hsome : d.shape.variants ≠ []) (hnames : Lists ts d.shape.variants)
      (hchild : ∀ n, (get n ts).IsChild (d.fields n))
      (hfields : ∀ n us f u, get n ts = .variant us → (d.fields n).lookup f = some u → Fits (get f us) u) :
      Fits (.type d.shape.id ts) t

/-! ### Named subtrees -/

@[simp] lemma get_set_self (name : String) (t : Tree) (ts : List (String × Tree)) : get name (set name t ts) = t := by
  induction ts with
  | nil => simp [set, get]
  | cons e ts ih =>
    obtain ⟨n, u⟩ := e
    by_cases h : n = name
    · simp [set, get, h]
    · have hne : (name == n) = false := by simpa using Ne.symm h
      simpa [set, get, h, List.lookup_cons, hne] using ih

variable {name : String} {t : Ty} {d : Declaration} {tree : Tree}

lemma get_set_ne {other : String} (h : other ≠ name) (t : Tree) (ts : List (String × Tree)) :
    get other (set name t ts) = get other ts := by
  induction ts with
  | nil =>
    have hne : (other == name) = false := by simpa using h
    simp [set, get, List.lookup_cons, hne]
  | cons e ts ih =>
    obtain ⟨n, u⟩ := e
    by_cases hn : n = name
    · subst hn
      have hne : (other == n) = false := by simpa using h
      simp [set, get, List.lookup_cons, hne]
    · simp only [set, hn, if_false, get, List.lookup_cons] at ih ⊢
      cases other == n <;> simp [ih]

lemma names_set {ts : List (String × Tree)} (h : name ∈ ts.map (·.1)) (t : Tree) :
    (set name t ts).map (·.1) = ts.map (·.1) := by
  induction ts with
  | nil => simp at h
  | cons e ts ih =>
    obtain ⟨n, u⟩ := e
    by_cases hn : n = name
    · simp [set, hn]
    · have hm : name ∈ ts.map (·.1) := by simpa [Ne.symm hn] using h
      simpa [set, hn] using ih hm

lemma Lists.set {ts : List (String × Tree)} {names : List String} (h : Lists ts names)
    (hn : name ∈ names) (t : Tree) : Lists (set name t ts) names := by
  have hm : name ∈ ts.map (·.1) := (h.2 name).mpr hn
  simpa only [Lists, names_set hm t] using h

lemma nodup_eraseDups : (l : List String) → l.eraseDups.Nodup
  | [] => by simp
  | a :: as => by
    rw [List.eraseDups_cons, List.nodup_cons]
    exact ⟨by simp [List.mem_eraseDups], nodup_eraseDups _⟩
termination_by l => l.length
decreasing_by
  have := List.length_filter_le (fun b => !b == a) as
  simp only [List.length_cons]
  omega

lemma lists_fresh (names : List String) : Lists (fresh names) names := by
  have hmap : (fresh names).map (·.1) = names.eraseDups := by simp [fresh, Function.comp_def]
  exact ⟨hmap ▸ nodup_eraseDups names, fun n => by rw [hmap, List.mem_eraseDups]⟩

@[simp] lemma get_fresh (name : String) (names : List String) : get name (fresh names) = .unmatched := by
  simp only [get, fresh]
  induction names.eraseDups with
  | nil => rfl
  | cons n ns ih =>
    rw [List.map_cons, List.lookup_cons]
    cases name == n
    · exact ih
    · rfl

lemma mem_of_get {ts : List (String × Tree)} (h : name ∈ ts.map (·.1)) : (name, get name ts) ∈ ts := by
  induction ts with
  | nil => simp at h
  | cons e ts ih =>
    obtain ⟨n, u⟩ := e
    by_cases hn : name = n
    · simp [get, hn]
    · have hm : name ∈ ts.map (·.1) := by simpa [hn] using h
      have hne : (name == n) = false := by simpa using hn
      simpa [get, List.lookup_cons, hne, hn] using ih hm

lemma get_of_mem {t : Tree} {ts : List (String × Tree)} (hn : (ts.map (·.1)).Nodup)
    (h : (name, t) ∈ ts) : get name ts = t := by
  induction ts with
  | nil => simp at h
  | cons e ts ih =>
    obtain ⟨n, u⟩ := e
    simp only [List.map_cons, List.nodup_cons] at hn
    rcases List.mem_cons.mp h with he | hm
    · cases he
      simp [get]
    · have hne : (name == n) = false := by
        have : name ∈ ts.map (·.1) := List.mem_map.mpr ⟨_, hm, rfl⟩
        simpa using fun he : name = n => hn.1 (he ▸ this)
      simpa [get, List.lookup_cons, hne] using ih hn.2 hm

/-! ### What trees cover -/

@[simp] lemma covers_exhaustive (path : List String) (v : Value) : Tree.exhaustive.Covers path v := by
  cases path <;> simp [Tree.Covers]

@[simp] lemma not_covers_unmatched (path : List String) (v : Value) : ¬ Tree.unmatched.Covers path v := by
  cases path <;> simp [Tree.Covers]

section Child

variable {n : String} {ts : List (String × Tree)} (id : Nat) (vs : List (String × Value))

lemma covers_of_child_exhaustive (h : get n ts = .exhaustive) (path : List String) :
    (Tree.type id ts).Covers path (.variant n vs) := by
  cases path <;> simp [Tree.Covers, h]

lemma not_covers_of_child_unmatched (h : get n ts = .unmatched) (path : List String) :
    ¬ (Tree.type id ts).Covers path (.variant n vs) := by
  cases path <;> simp [Tree.Covers, h]

lemma covers_child_variant {us : List (String × Tree)} (h : get n ts = .variant us) (f : String)
    (path : List String) :
    (Tree.type id ts).Covers (f :: path) (.variant n vs) ↔ ∃ v, vs.lookup f = some v ∧ (get f us).Covers path v := by
  simp [Tree.Covers, h]

lemma covers_congr_child {us : List (String × Tree)} (h : get n ts = get n us) (path : List String) :
    (Tree.type id ts).Covers path (.variant n vs) ↔ (Tree.type id us).Covers path (.variant n vs) := by
  unfold Tree.Covers
  simp only [h]

end Child

/-! ### Values -/

variable {sig}

lemma mem_names_of_lookup {α : Type} {l : List (String × α)} {f : String} {a : α} (h : l.lookup f = some a) :
    f ∈ l.map (·.1) := by
  obtain ⟨l₁, l₂, rfl, -⟩ := List.lookup_eq_some_iff.mp h
  simp

lemma HaveTypes.names {vs : List (String × Value)} {ts : List (String × Ty)} (h : HaveTypes sig vs ts) :
    vs.map (·.1) = ts.map (·.1) := by
  induction vs generalizing ts with
  | nil => cases ts <;> simp_all [HaveTypes]
  | cons e vs ih =>
    cases ts with
    | nil => simp [HaveTypes] at h
    | cons e' ts =>
      obtain ⟨hn, _, hr⟩ := h
      simp [hn, ih hr]

lemma HaveTypes.lookup {vs : List (String × Value)} {ts : List (String × Ty)} (h : HaveTypes sig vs ts)
    {f : String} {v : Value} (hf : vs.lookup f = some v) : ∃ t, ts.lookup f = some t ∧ v.HasType sig t := by
  induction vs generalizing ts with
  | nil => simp at hf
  | cons e vs ih =>
    cases ts with
    | nil => simp [HaveTypes] at h
    | cons e' ts =>
      obtain ⟨n, w⟩ := e
      obtain ⟨m, t⟩ := e'
      obtain ⟨rfl, hw, hr⟩ := h
      rw [List.lookup_cons] at hf ⊢
      cases hn : f == n with
      | true =>
        simp only [hn, Option.some.injEq] at hf ⊢
        exact ⟨t, rfl, hf ▸ hw⟩
      | false =>
        simp only [hn] at hf ⊢
        exact ih hr hf

lemma Value.HasType.mk {vs : List (String × Value)} (hd : sig t = some d)
    (hname : name ∈ d.shape.variants) (hvs : HaveTypes sig vs (d.fields name)) :
    (Value.variant name vs).HasType sig t :=
  ⟨d, hd, hname, hvs⟩

lemma Value.HasType.declared {vs : List (String × Value)}
    (h : (Value.variant name vs).HasType sig t) (hd : sig t = some d) :
    name ∈ d.shape.variants ∧ HaveTypes sig vs (d.fields name) := by
  obtain ⟨d', hd', hname, hvs⟩ := h
  obtain rfl : d = d' := Option.some.inj (hd.symm.trans hd')
  exact ⟨hname, hvs⟩

/-! ### Exhaustive trees -/

lemma allExhaustive_iff (ts : List (String × Tree)) :
    allExhaustive ts = true ↔ ∀ e ∈ ts, e.2.isExhaustive = true := by
  induction ts with
  | nil => simp [allExhaustive]
  | cons e ts ih =>
    obtain ⟨n, t⟩ := e
    simp [allExhaustive, ih]

lemma isExhaustive_get {ts : List (String × Tree)} (h : allExhaustive ts = true)
    (hn : name ∈ ts.map (·.1)) : (get name ts).isExhaustive = true :=
  (allExhaustive_iff ts).mp h _ (mem_of_get hn)

lemma Tree.Fits.covers_of_isExhaustive (h : tree.Fits sig t)
    (he : tree.isExhaustive = true) {v : Value} {path : List String} (hv : v.HasType sig t)
    (hb : Branch v path) : tree.Covers path v := by
  induction h generalizing v path with
  | unmatched => simp [Tree.isExhaustive] at he
  | exhaustive => exact covers_exhaustive path v
  | @type t d ts hd hsome hnames hchild hfields ih =>
    rw [Tree.isExhaustive] at he
    cases v with
    | atom i => exact absurd (hv d hd) hsome
    | variant n vs =>
      obtain ⟨hn, hvs⟩ := hv.declared hd
      have hg := isExhaustive_get he ((hnames.2 n).mpr hn)
      rcases hchild n with hc | hc | ⟨us, hc, hne, hus⟩
      · simp [hc, Tree.isExhaustive] at hg
      · exact covers_of_child_exhaustive _ vs hc path
      · cases hb with
        | constant => exact absurd (List.map_eq_nil_iff.mp hvs.names.symm) hne
        | @field _ f _ w path hw hb =>
          obtain ⟨u, hu, hwu⟩ := hvs.lookup hw
          have hf : f ∈ us.map (·.1) := (hus.2 f).mpr (mem_names_of_lookup hu)
          rw [hc, Tree.isExhaustive] at hg
          exact (covers_child_variant _ vs hc f path).mpr ⟨w, hw, ih n us f u hc hu (isExhaustive_get hg hf) hwu hb⟩

/-! ### One pattern -/

structure Adds (sig : Signature) (t : Ty) (A : List String → Value → Prop) (before after : Tree) : Prop where
  fits : after.Fits sig t
  covers : ∀ {v path}, v.HasType sig t → Branch v path → (after.Covers path v ↔ before.Covers path v ∨ A path v)

lemma Tree.Fits.opened (h : tree.Fits sig t) (hd : sig t = some d)
    (hsome : d.shape.variants ≠ []) (hc : tree.isCovered = false) :
    (Tree.type d.shape.id (tree.variantsOf d.shape)).Fits sig t ∧
      ∀ path v, (Tree.type d.shape.id (tree.variantsOf d.shape)).Covers path v ↔ tree.Covers path v := by
  cases h with
  | unmatched =>
    refine ⟨.type hd hsome (lists_fresh _) (fun n => Or.inl (get_fresh n _)) ?_, ?_⟩
    · intro n us f u hu
      simp [Tree.variantsOf] at hu
    · intro path v
      cases v with
      | atom i => cases path <;> simp [Tree.Covers]
      | variant n vs =>
        simpa [Tree.variantsOf] using not_covers_of_child_unmatched d.shape.id vs (get_fresh n d.shape.variants) path
  | exhaustive => simp [Tree.isCovered] at hc
  | @type _ d' ts hd' hsome' hnames hchild hfields =>
    obtain rfl : d = d' := Option.some.inj (hd.symm.trans hd')
    have hv : Tree.variantsOf d.shape (.type d.shape.id ts) = ts := by simp [Tree.variantsOf]
    rw [hv]
    exact ⟨.type hd hsome hnames hchild hfields, fun path v => Iff.rfl⟩

lemma Tree.Fits.declared {id : Nat} {ts : List (String × Tree)}
    (h : (Tree.type id ts).Fits sig t) (hd : sig t = some d) :
    Lists ts d.shape.variants ∧ (∀ n, (get n ts).IsChild (d.fields n)) ∧
      ∀ n us f u, get n ts = .variant us → (d.fields n).lookup f = some u → (get f us).Fits sig u := by
  cases h with
  | type hd' hsome hnames hchild hfields =>
    obtain rfl := Option.some.inj (hd.symm.trans hd')
    exact ⟨hnames, hchild, hfields⟩

lemma adds_set_child {ts : List (String × Tree)} {child : Tree}
    {A : List String → Value → Prop} (hd : sig t = some d) (hname : name ∈ d.shape.variants)
    (ht : (Tree.type d.shape.id ts).Fits sig t) (hchild : child.IsChild (d.fields name))
    (hfields : ∀ us f u, child = .variant us → (d.fields name).lookup f = some u → (get f us).Fits sig u)
    (hother : ∀ path n vs, n ≠ name → ¬ A path (.variant n vs))
    (hcovers : ∀ path vs, HaveTypes sig vs (d.fields name) → Branch (.variant name vs) path →
      ((Tree.type d.shape.id (set name child ts)).Covers path (.variant name vs) ↔
        (Tree.type d.shape.id ts).Covers path (.variant name vs) ∨ A path (.variant name vs))) :
    Adds sig t A (.type d.shape.id ts)
      (if allExhaustive (set name child ts) then .exhaustive else .type d.shape.id (set name child ts)) := by
  obtain ⟨hl, hc, hf⟩ := ht.declared hd
  have hsome : d.shape.variants ≠ [] := List.ne_nil_of_mem hname
  have hfits : (Tree.type d.shape.id (set name child ts)).Fits sig t := by
    refine .type hd hsome (hl.set hname child) ?_ ?_
    · intro n
      by_cases h : n = name
      · simpa [h] using hchild
      · simpa only [get_set_ne h] using hc n
    · intro n us f u hu
      by_cases h : n = name
      · subst h
        exact hfields us f u (by simpa using hu)
      · exact hf n us f u (by simpa only [get_set_ne h] using hu)
  have hcov : ∀ {v path}, v.HasType sig t → Branch v path →
      ((Tree.type d.shape.id (set name child ts)).Covers path v ↔
        (Tree.type d.shape.id ts).Covers path v ∨ A path v) := by
    intro v path hv hb
    cases v with
    | atom i => exact absurd (hv d hd) hsome
    | variant n vs =>
      by_cases h : n = name
      · subst h
        exact hcovers path vs (hv.declared hd).2 hb
      · rw [covers_congr_child d.shape.id vs (get_set_ne h child ts)]
        simp [hother path n vs h]
  by_cases he : allExhaustive (set name child ts) = true
  · rw [if_pos he]
    refine ⟨.exhaustive t, fun hv hb => ?_⟩
    rw [← hcov hv hb]
    exact iff_of_true (covers_exhaustive _ _) (hfits.covers_of_isExhaustive (by rwa [Tree.isExhaustive]) hv hb)
  · rw [if_neg he]
    exact ⟨hfits, hcov⟩

def Shape.adds (exhaust : Bool) (p : Shape) (path : List String) (v : Value) : Prop :=
  exhaust = true ∧ p.Agrees path v

lemma coverFields_adds (exhaust : Bool) {types : List (String × Ty)} (ps : List (String × Shape))
    (us : List (String × Tree))
    (hps : ∀ f p u tree, (f, p) ∈ ps → types.lookup f = some u → tree.Fits sig u →
      Adds sig u (p.adds exhaust) tree (p.cover exhaust tree).1)
    (hn : ∀ f p, (f, p) ∈ ps → f ∈ types.map (·.1)) (hus : Lists us (types.map (·.1)))
    (hf : ∀ f u, types.lookup f = some u → (get f us).Fits sig u) :
    Lists (coverFields exhaust ps us).1 (types.map (·.1)) ∧
      ∀ f u, types.lookup f = some u →
        Adds sig u (fun path v => ∃ p, (f, p) ∈ ps ∧ p.adds exhaust path v) (get f us)
          (get f (coverFields exhaust ps us).1) := by
  induction ps generalizing us with
  | nil =>
    refine ⟨hus, fun f u hu => ⟨hf f u hu, fun _ _ => ?_⟩⟩
    simp [coverFields]
  | cons e ps ih =>
    obtain ⟨name, p⟩ := e
    have hname : name ∈ types.map (·.1) := hn name p (by simp)
    have hp : ∀ u, types.lookup name = some u →
        Adds sig u (p.adds exhaust) (get name us) (p.cover exhaust (get name us)).1 :=
      fun u hu => hps name p u _ (by simp) hu (hf name u hu)
    have hf' : ∀ f u, types.lookup f = some u →
        (get f (set name (p.cover exhaust (get name us)).1 us)).Fits sig u := by
      intro f u hu
      by_cases h : f = name
      · subst h
        simpa using (hp u hu).fits
      · simpa only [get_set_ne h] using hf f u hu
    obtain ⟨hl, ha⟩ := ih (set name (p.cover exhaust (get name us)).1 us)
      (fun f q u tree hq => hps f q u tree (List.mem_cons_of_mem _ hq))
      (fun f q hq => hn f q (List.mem_cons_of_mem _ hq)) (hus.set hname _) hf'
    refine ⟨hl, fun f u hu => ⟨(ha f u hu).fits, fun {v path} hv hb => ?_⟩⟩
    have hlater := (ha f u hu).covers hv hb
    by_cases h : f = name
    · subst h
      have hhere := (hp u hu).covers hv hb
      rw [get_set_self] at hlater
      simp only [coverFields, List.mem_cons, Prod.mk.injEq, true_and]
      rw [hlater, hhere, or_assoc]
      refine or_congr Iff.rfl ⟨?_, ?_⟩
      · rintro (hq | ⟨q, hq, hqa⟩)
        · exact ⟨p, Or.inl rfl, hq⟩
        · exact ⟨q, Or.inr hq, hqa⟩
      · rintro ⟨q, rfl | hq, hqa⟩
        · exact Or.inl hqa
        · exact Or.inr ⟨q, hq, hqa⟩
    · rw [get_set_ne h] at hlater
      simp only [coverFields, List.mem_cons, Prod.mk.injEq, h, false_and, false_or]
      exact hlater

@[simp] lemma agrees_any (path : List String) (v : Value) : Shape.any.Agrees path v := by
  cases path <;> simp [Shape.Agrees]

lemma agrees_field (s : TypeShape) (name f : String) (ps : List (String × Shape)) (path : List String)
    (vs : List (String × Value)) :
    (Shape.variant s name ps).Agrees (f :: path) (.variant name vs) ↔
      ∃ p v, ps.lookup f = some p ∧ vs.lookup f = some v ∧ p.Agrees path v := by
  simp [Shape.Agrees]

lemma not_agrees_other {s : TypeShape} {n : String} (h : n ≠ name) (ps : List (String × Shape))
    (path : List String) (vs : List (String × Value)) : ¬ (Shape.variant s name ps).Agrees path (.variant n vs) := by
  cases path <;> simp [Shape.Agrees, Ne.symm h]

lemma adds_constant (exhaust : Bool) {ts : List (String × Tree)}
    (hd : sig t = some d) (hname : name ∈ d.shape.variants) (hfields : d.fields name = [])
    (ht : (Tree.type d.shape.id ts).Fits sig t) (hc : (get name ts).isCovered = false) :
    Adds sig t ((Shape.variant d.shape name []).adds exhaust) (.type d.shape.id ts)
      (if allExhaustive (set name (if exhaust then .exhaustive else get name ts) ts) then .exhaustive
        else .type d.shape.id (set name (if exhaust then .exhaustive else get name ts) ts)) := by
  have hu : get name ts = .unmatched := by
    rcases (ht.declared hd).2.1 name with h | h | ⟨us, _, hne, _⟩
    · exact h
    · simp [h, Tree.isCovered] at hc
    · exact absurd hfields hne
  refine adds_set_child hd hname ht ?_ ?_ ?_ ?_
  · cases exhaust
    · exact Or.inl hu
    · exact Or.inr (Or.inl rfl)
  · intro us f u _ hlookup
    simp [hfields] at hlookup
  · intro path n vs h ha
    exact not_agrees_other h _ _ _ ha.2
  · intro path vs hvs hb
    obtain rfl : vs = [] := by simpa [hfields] using hvs.names
    cases hb with
    | constant =>
      have hn := not_covers_of_child_unmatched d.shape.id ([] : List (String × Value)) hu []
      cases exhaust with
      | false => simp [covers_congr_child d.shape.id [] ((get_set_self name _ ts).trans rfl), Shape.adds, hn]
      | true =>
        refine iff_of_true (covers_of_child_exhaustive _ _ (get_set_self name _ ts) _) (Or.inr ⟨rfl, ?_⟩)
        simp [Shape.Agrees]
    | field hw => simp at hw

lemma Tree.Fits.fields_opened {ts : List (String × Tree)}
    (ht : (Tree.type d.shape.id ts).Fits sig t) (hd : sig t = some d) (hc : (get name ts).isCovered = false) :
    let us := (get name ts).fieldsOf ((d.fields name).map (·.1))
    Lists us ((d.fields name).map (·.1)) ∧ (∀ f u, (d.fields name).lookup f = some u → (get f us).Fits sig u) ∧
      ∀ f path vs, (Tree.type d.shape.id ts).Covers (f :: path) (.variant name vs) ↔
        ∃ v, vs.lookup f = some v ∧ (get f us).Covers path v := by
  obtain ⟨-, hchild, hfields⟩ := ht.declared hd
  rcases hchild name with h | h | ⟨us, h, -, hl⟩
  · simp only [h, Tree.fieldsOf, get_fresh]
    refine ⟨lists_fresh _, fun f u _ => .unmatched u, fun f path vs => iff_of_false ?_ ?_⟩
    · exact not_covers_of_child_unmatched _ vs h _
    · rintro ⟨v, -, hv⟩
      exact not_covers_unmatched _ _ hv
  · simp [h, Tree.isCovered] at hc
  · simp only [h, Tree.fieldsOf]
    exact ⟨hl, fun f u hu => hfields name us f u h hu, fun f path vs => covers_child_variant _ vs h f path⟩

lemma adds_fields (exhaust : Bool) {ts : List (String × Tree)}
    {ps : List (String × Shape)} {covered : List (String × Tree)} (hd : sig t = some d)
    (hname : name ∈ d.shape.variants) (hnames : ps.map (·.1) = (d.fields name).map (·.1)) (hne : ps ≠ [])
    (hone : ∀ f p, (f, p) ∈ ps → ps.lookup f = some p)
    (hps : ∀ f p u tree, (f, p) ∈ ps → (d.fields name).lookup f = some u → tree.Fits sig u →
      Adds sig u (p.adds exhaust) tree (p.cover exhaust tree).1)
    (ht : (Tree.type d.shape.id ts).Fits sig t) (hc : (get name ts).isCovered = false)
    (hcovered : (coverFields exhaust ps ((get name ts).fieldsOf (ps.map (·.1)))).1 = covered) :
    Adds sig t ((Shape.variant d.shape name ps).adds exhaust) (.type d.shape.id ts)
      (if allExhaustive (set name (if allExhaustive covered then .exhaustive else .variant covered) ts) then .exhaustive
        else .type d.shape.id (set name (if allExhaustive covered then .exhaustive else .variant covered) ts)) := by
  have hfne : d.fields name ≠ [] := fun h => hne (by simpa [h] using hnames)
  obtain ⟨hl, hf, hcov⟩ := ht.fields_opened hd hc
  rw [hnames] at hcovered
  have hn : ∀ f p, (f, p) ∈ ps → f ∈ (d.fields name).map (·.1) := by
    intro f p h
    rw [← hnames]
    exact List.mem_map.mpr ⟨_, h, rfl⟩
  obtain ⟨hl', ha⟩ := coverFields_adds exhaust ps _ hps hn hl hf
  rw [hcovered] at hl' ha
  refine adds_set_child hd hname ht ?_ ?_ ?_ ?_
  · split
    · exact Or.inr (Or.inl rfl)
    · exact Or.inr (Or.inr ⟨covered, rfl, hfne, hl'⟩)
  · intro us f u hu hlookup
    split at hu
    · cases hu
    · cases hu
      exact (ha f u hlookup).fits
  · intro path n vs h hag
    exact not_agrees_other h _ _ _ hag.2
  · intro path vs hvs hb
    cases hb with
    | constant => exact absurd (List.map_eq_nil_iff.mp hvs.names.symm) hfne
    | @field _ f _ w path hw hb =>
      obtain ⟨u, hu, hwu⟩ := hvs.lookup hw
      have hhere := (ha f u hu).covers hwu hb
      -- a pattern for a field agrees below if the pattern of the variant agrees here
      have hag : (∃ p, (f, p) ∈ ps ∧ p.adds exhaust path w) ↔
          (Shape.variant d.shape name ps).adds exhaust (f :: path) (.variant name vs) := by
        simp only [Shape.adds, agrees_field, hw, Option.some.injEq]
        constructor
        · rintro ⟨p, hp, he, hpa⟩
          exact ⟨he, p, w, hone f p hp, rfl, hpa⟩
        · rintro ⟨he, p, _, hp, rfl, hpa⟩
          obtain ⟨l₁, l₂, rfl, -⟩ := List.lookup_eq_some_iff.mp hp
          exact ⟨p, by simp, he, hpa⟩
      have hbefore : (Tree.type d.shape.id ts).Covers (f :: path) (.variant name vs) ↔
          (get f ((get name ts).fieldsOf ((d.fields name).map (·.1)))).Covers path w := by
        rw [hcov f path vs]
        simp [hw]
      rw [hbefore, ← hag, ← hhere]
      by_cases he : allExhaustive covered = true
      · have hgf : f ∈ covered.map (·.1) := (hl'.2 f).mpr (mem_names_of_lookup hu)
        refine iff_of_true (covers_of_child_exhaustive _ _ (by simp [he]) _) ?_
        exact (ha f u hu).fits.covers_of_isExhaustive (isExhaustive_get he hgf) hwu hb
      · have hg : get name (set name (if allExhaustive covered then .exhaustive else .variant covered) ts) =
            .variant covered := by simp [he]
        rw [covers_child_variant _ vs hg f path]
        simp [hw]

lemma cover_of_covered (h : tree.isCovered = true) (exhaust : Bool) (p : Shape) :
    (p.cover exhaust tree).1 = tree := by
  rw [Shape.cover.eq_def]
  simp [h]

lemma cover_variant_of_covered (h : tree.isCovered = false) (exhaust : Bool) {s : TypeShape}
    (hc : (get name (tree.variantsOf s)).isCovered = true) (ps : List (String × Shape)) :
    ((Shape.variant s name ps).cover exhaust tree).1 = .type s.id (tree.variantsOf s) := by
  rw [Shape.cover.eq_def]
  simp [h, hc]

lemma cover_constant {tree : Tree} (h : tree.isCovered = false) (exhaust : Bool) {s : TypeShape}
    {name : String} (hc : (get name (tree.variantsOf s)).isCovered = false) :
    ((Shape.variant s name []).cover exhaust tree).1 =
      let ts := tree.variantsOf s
      let child := if exhaust then .exhaustive else get name ts
      if allExhaustive (set name child ts) then .exhaustive else .type s.id (set name child ts) := by
  rw [Shape.cover.eq_def]
  simp [h, hc]

lemma cover_fields (h : tree.isCovered = false) (exhaust : Bool) {s : TypeShape}
    (hc : (get name (tree.variantsOf s)).isCovered = false) {ps : List (String × Shape)} (hne : ps ≠ []) :
    ((Shape.variant s name ps).cover exhaust tree).1 = let ts := tree.variantsOf s
      let covered := (coverFields exhaust ps ((get name ts).fieldsOf (ps.map (·.1)))).1
      let child := if allExhaustive covered then .exhaustive else .variant covered
      if allExhaustive (set name child ts) then .exhaustive else .type s.id (set name child ts) := by
  rw [Shape.cover.eq_def]
  simp [h, hc, hne]

lemma cover_adds (exhaust : Bool) (p : Shape) (hp : p.Typed sig t) (ht : tree.Fits sig t) :
    Adds sig t (p.adds exhaust) tree (p.cover exhaust tree).1 := by
  induction hp generalizing tree with
  | any t =>
    cases hc : tree.isCovered with
    | true =>
      obtain rfl : tree = .exhaustive := by cases tree <;> simp_all [Tree.isCovered]
      rw [cover_of_covered hc]
      exact ⟨ht, fun _ _ => by simp⟩
    | false =>
      simp only [Shape.cover, hc]
      cases exhaust
      · exact ⟨ht, fun _ _ => by simp [Shape.adds]⟩
      · exact ⟨.exhaustive t, fun _ _ => by simp [Shape.adds]⟩
  | literal t =>
    have hsame : (Shape.literal.cover exhaust tree).1 = tree := by
      cases hc : tree.isCovered <;> simp [Shape.cover, hc]
    rw [hsame]
    exact ⟨ht, fun {v path} _ _ => by cases path <;> simp [Shape.adds, Shape.Agrees]⟩
  | @variant t d name ps hd hname hnames hone hps ih =>
    cases hc : tree.isCovered with
    | true =>
      obtain rfl : tree = .exhaustive := by cases tree <;> simp_all [Tree.isCovered]
      rw [cover_of_covered hc]
      exact ⟨ht, fun _ _ => by simp⟩
    | false =>
      obtain ⟨hopen, hsame⟩ := ht.opened hd (List.ne_nil_of_mem hname) hc
      suffices h : Adds sig t ((Shape.variant d.shape name ps).adds exhaust)
          (.type d.shape.id (tree.variantsOf d.shape)) ((Shape.variant d.shape name ps).cover exhaust tree).1 from
        ⟨h.fits, fun hv hb => by rw [h.covers hv hb, hsame]⟩
      cases hch : (get name (tree.variantsOf d.shape)).isCovered with
      | true =>
        rw [cover_variant_of_covered hc exhaust hch]
        refine ⟨hopen, fun {v path} _ _ => ⟨Or.inl, ?_⟩⟩
        rintro (h | ⟨_, ha⟩)
        · exact h
        · cases v with
          | atom i => cases path <;> simp [Shape.Agrees] at ha
          | variant n vs =>
            by_cases hn : n = name
            · have he : get n (tree.variantsOf d.shape) = .exhaustive := by
                rw [hn]
                revert hch
                cases get name (tree.variantsOf d.shape) <;> simp [Tree.isCovered]
              exact covers_of_child_exhaustive _ vs he path
            · exact absurd ha (not_agrees_other hn _ _ _)
      | false =>
        cases ps with
        | nil =>
          rw [cover_constant hc exhaust hch]
          exact adds_constant exhaust hd hname (by simpa using hnames.symm) hopen hch
        | cons e ps =>
          rw [cover_fields hc exhaust hch (by simp)]
          exact adds_fields exhaust hd hname hnames (by simp) hone
            (fun f p u tree hp hu htree => ih f p u hp hu htree) hopen hch rfl

end TraitCheck.Coverage
