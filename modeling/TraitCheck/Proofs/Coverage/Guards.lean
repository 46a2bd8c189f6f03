import TraitCheck.Proofs.Coverage.Reachable

/-! A clause with a guard covers nothing: without it, the clauses that have none leave the same values uncovered, and the
same of them are unreachable. All that is asked of the patterns is that there is one type for each place of a value. -/

namespace TraitCheck.Coverage

structure Layout where
  type : Place → TypeShape
  fields : Place → String → List String

inductive Shape.LaidOut (L : Layout) : Place → Shape → Prop
  | any (pos : Place) : LaidOut L pos .any
  | literal (pos : Place) : LaidOut L pos .literal
  | unresolved (pos : Place) : LaidOut L pos .unresolved
  | variant {pos : Place} {name : String} {ps : List (String × Shape)} (hname : name ∈ (L.type pos).variants)
      (hfields : ps.map (·.1) = L.fields pos name) (hps : ∀ f p, (f, p) ∈ ps → LaidOut L ((name, f) :: pos) p) :
      LaidOut L pos (.variant (L.type pos) name ps)

mutual

inductive Tree.LaidOut (L : Layout) : Place → Tree → Prop
  | unmatched (pos : Place) : Tree.LaidOut L pos .unmatched
  | exhaustive (pos : Place) : Tree.LaidOut L pos .exhaustive
  | type {pos : Place} {ts : List (String × Tree)} (hnames : Lists ts (L.type pos).variants)
      (hopen : allExhaustive ts = false) (hparts : ∀ n, Tree.PartOf L pos n (get n ts)) :
      Tree.LaidOut L pos (.type (L.type pos).id ts)

inductive Tree.PartOf (L : Layout) : Place → String → Tree → Prop
  | unmatched (pos : Place) (name : String) : Tree.PartOf L pos name .unmatched
  | exhaustive (pos : Place) (name : String) : Tree.PartOf L pos name .exhaustive
  | variant {pos : Place} {name : String} {us : List (String × Tree)} (hnames : Lists us (L.fields pos name))
      (hopen : allExhaustive us = false) (hfields : ∀ f, Tree.LaidOut L ((name, f) :: pos) (get f us)) :
      Tree.PartOf L pos name (.variant us)

end

/-- Whether a place is covered. The names on the way to it are those of variants and of their fields in turn. -/
def Tree.coversAt : List String → Tree → Bool
  | _, .exhaustive => true
  | n :: path, .type _ ts => coversAt path (get n ts)
  | f :: path, .variant us => coversAt path (get f us)
  | _, _ => false

def Tree.Alike (t u : Tree) : Prop := ∀ path, t.coversAt path = u.coversAt path

section Trees

variable {t u w : Tree}

@[simp] lemma coversAt_unmatched (path : List String) : Tree.unmatched.coversAt path = false := by
  cases path <;> rfl

@[simp] lemma coversAt_nil (t : Tree) : t.coversAt [] = t.isCovered := by cases t <;> rfl

lemma eq_exhaustive (h : t.isCovered = true) : t = .exhaustive := by
  cases t with
  | exhaustive => rfl
  | _ => cases h

lemma Tree.Alike.refl (t : Tree) : t.Alike t := fun _ => rfl

lemma Tree.Alike.symm (h : t.Alike u) : u.Alike t := fun path => (h path).symm

lemma Tree.Alike.trans (h : t.Alike u) (h' : u.Alike w) : t.Alike w := fun path => (h path).trans (h' path)

lemma Tree.Alike.isCovered (h : t.Alike u) : t.isCovered = u.isCovered := by simpa using h []

variable {L : Layout} {pos : Place} {name : String}

lemma Tree.LaidOut.isExhaustive (h : t.LaidOut L pos) : t.isExhaustive = t.isCovered := by
  cases h with
  | unmatched => rfl
  | exhaustive => rfl
  | type _ hopen => rwa [Tree.isExhaustive]

lemma Tree.PartOf.isExhaustive (h : t.PartOf L pos name) : t.isExhaustive = t.isCovered := by
  cases h with
  | unmatched => rfl
  | exhaustive => rfl
  | variant _ hopen => rwa [Tree.isExhaustive]

end Trees

/-! ### Named subtrees -/

section Subtrees

variable {ts us : List (String × Tree)} {names : List String}

lemma Lists.allExhaustive_iff (h : Lists ts names) :
    allExhaustive ts = true ↔ ∀ n ∈ names, (get n ts).isExhaustive = true := by
  constructor
  · intro he n hn
    exact isExhaustive_get he ((h.2 n).mpr hn)
  · intro he
    rw [Coverage.allExhaustive_iff]
    rintro ⟨n, t⟩ hmem
    rw [← get_of_mem h.1 hmem]
    exact he n ((h.2 n).mp (List.mem_map.mpr ⟨_, hmem, rfl⟩))

lemma Lists.allExhaustive_congr (hts : Lists ts names) (hus : Lists us names)
    (h : ∀ n, (get n ts).isExhaustive = (get n us).isExhaustive) : allExhaustive ts = allExhaustive us := by
  rw [Bool.eq_iff_iff, hts.allExhaustive_iff, hus.allExhaustive_iff]
  simp only [h]

lemma allExhaustive_fresh {n : String} (hn : n ∈ names) : allExhaustive (fresh names) = false := by
  rw [Bool.eq_false_iff]
  intro h
  simpa [Tree.isExhaustive] using (lists_fresh names).allExhaustive_iff.mp h n hn

lemma alike_set {name : String} {child child' : Tree} (h : ∀ n, (get n ts).Alike (get n us))
    (hchild : child.Alike child') (n : String) : (get n (set name child ts)).Alike (get n (set name child' us)) := by
  by_cases hne : n = name
  · subst hne
    simpa using hchild
  · simpa only [get_set_ne hne] using h n

variable {L : Layout} {pos : Place} {name : String}

structure Variants (L : Layout) (pos : Place) (ts : List (String × Tree)) : Prop where
  names : Lists ts (L.type pos).variants
  parts : ∀ n, (get n ts).PartOf L pos n

structure Fields (L : Layout) (pos : Place) (name : String) (us : List (String × Tree)) : Prop where
  names : Lists us (L.fields pos name)
  fields : ∀ f, (get f us).LaidOut L ((name, f) :: pos)

lemma Variants.set (h : Variants L pos ts) (hname : name ∈ (L.type pos).variants) {child : Tree}
    (hchild : child.PartOf L pos name) : Variants L pos (set name child ts) := by
  refine ⟨h.names.set hname child, fun n => ?_⟩
  by_cases hne : n = name
  · subst hne
    simpa using hchild
  · simpa only [get_set_ne hne] using h.parts n

lemma Fields.set (h : Fields L pos name us) {f : String} (hf : f ∈ L.fields pos name) {t : Tree}
    (ht : t.LaidOut L ((name, f) :: pos)) : Fields L pos name (set f t us) := by
  refine ⟨h.names.set hf t, fun g => ?_⟩
  by_cases hne : g = f
  · subst hne
    simpa using ht
  · simpa only [get_set_ne hne] using h.fields g

def Tree.ofVariants (id : Nat) (ts : List (String × Tree)) : Tree :=
  if allExhaustive ts then .exhaustive else .type id ts

def Tree.ofFields (us : List (String × Tree)) : Tree := if allExhaustive us then .exhaustive else .variant us

lemma Variants.close (h : Variants L pos ts) : (Tree.ofVariants (L.type pos).id ts).LaidOut L pos := by
  rw [Tree.ofVariants]
  cases hopen : allExhaustive ts with
  | true => exact .exhaustive pos
  | false => exact .type h.names hopen h.parts

lemma Fields.close (h : Fields L pos name us) : (Tree.ofFields us).PartOf L pos name := by
  rw [Tree.ofFields]
  cases hopen : allExhaustive us with
  | true => exact .exhaustive pos name
  | false => exact .variant h.names hopen h.fields

lemma Variants.alike (hts : Variants L pos ts) (hus : Variants L pos us) (h : ∀ n, (get n ts).Alike (get n us)) :
    (Tree.ofVariants (L.type pos).id ts).Alike (.ofVariants (L.type pos).id us) := by
  have hsame : allExhaustive ts = allExhaustive us := hts.names.allExhaustive_congr hus.names fun n => by
    rw [(hts.parts n).isExhaustive, (hus.parts n).isExhaustive, (h n).isCovered]
  intro path
  rw [Tree.ofVariants, Tree.ofVariants, hsame]
  split
  · rfl
  · cases path with
    | nil => rfl
    | cons n path => exact h n path

lemma Fields.alike (hts : Fields L pos name ts) (hus : Fields L pos name us) (h : ∀ f, (get f ts).Alike (get f us)) :
    (Tree.ofFields ts).Alike (.ofFields us) := by
  have hsame : allExhaustive ts = allExhaustive us := hts.names.allExhaustive_congr hus.names fun f => by
    rw [(hts.fields f).isExhaustive, (hus.fields f).isExhaustive, (h f).isCovered]
  intro path
  rw [Tree.ofFields, Tree.ofFields, hsame]
  split
  · rfl
  · cases path with
    | nil => rfl
    | cons f path => exact h f path

/-! ### Opening a place -/

variable {t u : Tree}

lemma Tree.LaidOut.variantsOf (h : t.LaidOut L pos) : Variants L pos (t.variantsOf (L.type pos)) := by
  have hfresh : Variants L pos (fresh (L.type pos).variants) := by
    refine ⟨lists_fresh _, fun n => ?_⟩
    rw [get_fresh]
    exact .unmatched pos n
  cases h with
  | type hnames hopen hparts =>
    rw [Tree.variantsOf, if_pos rfl]
    exact ⟨hnames, hparts⟩
  | _ => exact hfresh

lemma Tree.PartOf.fieldsOf (h : t.PartOf L pos name) : Fields L pos name (t.fieldsOf (L.fields pos name)) := by
  have hfresh : Fields L pos name (fresh (L.fields pos name)) := by
    refine ⟨lists_fresh _, fun f => ?_⟩
    rw [get_fresh]
    exact .unmatched _
  cases h with
  | variant hnames hopen hfields => exact ⟨hnames, hfields⟩
  | _ => exact hfresh

lemma Tree.LaidOut.alike_open (h : t.LaidOut L pos) (hc : t.isCovered = false)
    (hname : name ∈ (L.type pos).variants) :
    (Tree.ofVariants (L.type pos).id (t.variantsOf (L.type pos))).Alike t := by
  cases h with
  | unmatched =>
    have hopen : allExhaustive (Tree.unmatched.variantsOf (L.type pos)) = false := allExhaustive_fresh hname
    intro path
    rw [Tree.ofVariants, hopen]
    cases path <;> simp [Tree.coversAt, Tree.variantsOf, Tree.isCovered]
  | exhaustive => cases hc
  | type hnames hopen =>
    rw [Tree.variantsOf, if_pos rfl, Tree.ofVariants, hopen]
    exact .refl _

lemma Tree.PartOf.alike_open (h : t.PartOf L pos name) (hc : t.isCovered = false) {f : String}
    (hf : f ∈ L.fields pos name) : (Tree.ofFields (t.fieldsOf (L.fields pos name))).Alike t := by
  cases h with
  | unmatched =>
    have hopen : allExhaustive (Tree.unmatched.fieldsOf (L.fields pos name)) = false := allExhaustive_fresh hf
    intro path
    rw [Tree.ofFields, hopen]
    cases path <;> simp [Tree.coversAt, Tree.fieldsOf, Tree.isCovered]
  | exhaustive => cases hc
  | variant hnames hopen =>
    rw [Tree.fieldsOf, Tree.ofFields, hopen]
    exact .refl _

lemma Tree.LaidOut.coversAt_variantsOf (h : t.LaidOut L pos) (hc : t.isCovered = false) (n : String)
    (path : List String) : (get n (t.variantsOf (L.type pos))).coversAt path = t.coversAt (n :: path) := by
  cases h with
  | unmatched => simp [Tree.variantsOf]
  | exhaustive => cases hc
  | type =>
    rw [Tree.variantsOf, if_pos rfl]
    rfl

lemma Tree.PartOf.coversAt_fieldsOf (h : t.PartOf L pos name) (hc : t.isCovered = false) (f : String)
    (path : List String) : (get f (t.fieldsOf (L.fields pos name))).coversAt path = t.coversAt (f :: path) := by
  cases h with
  | unmatched => simp [Tree.fieldsOf]
  | exhaustive => cases hc
  | variant => rfl

lemma Tree.LaidOut.alike_variantsOf (ht : t.LaidOut L pos) (hu : u.LaidOut L pos) (h : t.Alike u)
    (hc : t.isCovered = false) (n : String) :
    (get n (t.variantsOf (L.type pos))).Alike (get n (u.variantsOf (L.type pos))) := fun path => by
  rw [ht.coversAt_variantsOf hc, hu.coversAt_variantsOf (h.isCovered ▸ hc), h]

lemma Tree.PartOf.alike_fieldsOf (ht : t.PartOf L pos name) (hu : u.PartOf L pos name) (h : t.Alike u)
    (hc : t.isCovered = false) (f : String) :
    (get f (t.fieldsOf (L.fields pos name))).Alike (get f (u.fieldsOf (L.fields pos name))) := fun path => by
  rw [ht.coversAt_fieldsOf hc, hu.coversAt_fieldsOf (h.isCovered ▸ hc), h]

lemma Tree.LaidOut.opened (h : t.LaidOut L pos) (hch : (get name (t.variantsOf (L.type pos))).isCovered = true) :
    Tree.type (L.type pos).id (t.variantsOf (L.type pos)) = t := by
  cases h with
  | type => rw [Tree.variantsOf, if_pos rfl]
  | _ => simp [Tree.variantsOf, Tree.isCovered] at hch

end Subtrees

/-! ### One pattern -/

section Cover

variable {L : Layout} {pos : Place} {name : String} {ps : List (String × Shape)} {exhaust : Bool} {t u : Tree}

def coverChild (exhaust : Bool) (ps : List (String × Shape)) (child : Tree) : Tree :=
  if ps.isEmpty then (if exhaust then .exhaustive else child)
  else .ofFields (coverFields exhaust ps (child.fieldsOf (ps.map (·.1)))).1

lemma cover_open {s : TypeShape} (exhaust : Bool) (hc : t.isCovered = false)
    (hch : (get name (t.variantsOf s)).isCovered = false) (ps : List (String × Shape)) :
    (Shape.variant s name ps).cover exhaust t =
      (.ofVariants s.id (set name (coverChild exhaust ps (get name (t.variantsOf s))) (t.variantsOf s)),
        ps.isEmpty || (coverFields exhaust ps ((get name (t.variantsOf s)).fieldsOf (ps.map (·.1)))).2) := by
  rw [Shape.cover.eq_def]
  simp [hc, hch, coverChild, Tree.ofVariants, Tree.ofFields]

lemma cover_opened (exhaust : Bool) (ht : t.LaidOut L pos) (hc : t.isCovered = false)
    (hch : (get name (t.variantsOf (L.type pos))).isCovered = true) (ps : List (String × Shape)) :
    (Shape.variant (L.type pos) name ps).cover exhaust t = (t, false) := by
  rw [Shape.cover.eq_def]
  simp [hc, hch, ht.opened hch]

/-- What a pattern does to trees at its place: trees that cover the same places still do, and without `exhaust` the
place covers what it did. -/
structure Shape.Steady (L : Layout) (pos : Place) (exhaust : Bool) (p : Shape) : Prop where
  laidOut : ∀ {t : Tree}, t.LaidOut L pos → (p.cover exhaust t).1.LaidOut L pos
  alike : ∀ {t u : Tree}, t.LaidOut L pos → u.LaidOut L pos → t.Alike u →
    (p.cover exhaust t).1.Alike (p.cover exhaust u).1 ∧ (p.cover exhaust t).2 = (p.cover exhaust u).2
  guarded : exhaust = false → ∀ {t : Tree}, t.LaidOut L pos → (p.cover exhaust t).1.Alike t

variable {us us' : List (String × Tree)}

lemma Fields.cover (hmem : ∀ f p, (f, p) ∈ ps → f ∈ L.fields pos name)
    (hps : ∀ f p, (f, p) ∈ ps → p.Steady L ((name, f) :: pos) exhaust) (hus : Fields L pos name us) :
    Fields L pos name (coverFields exhaust ps us).1 := by
  induction ps generalizing us with
  | nil => exact hus
  | cons e ps ih =>
    obtain ⟨f, p⟩ := e
    apply ih (fun g q hq => hmem g q (List.mem_cons_of_mem _ hq)) (fun g q hq => hps g q (List.mem_cons_of_mem _ hq))
    exact hus.set (hmem f p (by simp)) ((hps f p (by simp)).laidOut (hus.fields f))

lemma coverFields_alike (hmem : ∀ f p, (f, p) ∈ ps → f ∈ L.fields pos name)
    (hps : ∀ f p, (f, p) ∈ ps → p.Steady L ((name, f) :: pos) exhaust) (hus : Fields L pos name us)
    (hus' : Fields L pos name us') (h : ∀ f, (get f us).Alike (get f us')) :
    (∀ f, (get f (coverFields exhaust ps us).1).Alike (get f (coverFields exhaust ps us').1)) ∧
      (coverFields exhaust ps us).2 = (coverFields exhaust ps us').2 := by
  induction ps generalizing us us' with
  | nil => exact ⟨h, rfl⟩
  | cons e ps ih =>
    obtain ⟨f, p⟩ := e
    have hp := hps f p (by simp)
    have hf := hmem f p (by simp)
    obtain ⟨hhere, hflag⟩ := hp.alike (hus.fields f) (hus'.fields f) (h f)
    obtain ⟨hlater, hflags⟩ := ih (fun g q hq => hmem g q (List.mem_cons_of_mem _ hq))
      (fun g q hq => hps g q (List.mem_cons_of_mem _ hq)) (hus.set hf (hp.laidOut (hus.fields f)))
      (hus'.set hf (hp.laidOut (hus'.fields f))) (alike_set h hhere)
    exact ⟨hlater, by simp only [coverFields, hflag, hflags]⟩

lemma coverFields_guarded (hmem : ∀ f p, (f, p) ∈ ps → f ∈ L.fields pos name)
    (hps : ∀ f p, (f, p) ∈ ps → p.Steady L ((name, f) :: pos) false) (hus : Fields L pos name us) (f : String) :
    (get f (coverFields false ps us).1).Alike (get f us) := by
  induction ps generalizing us with
  | nil => exact .refl _
  | cons e ps ih =>
    obtain ⟨g, p⟩ := e
    have hp := hps g p (by simp)
    have hg := hus.fields g
    refine (ih (fun g q hq => hmem g q (List.mem_cons_of_mem _ hq)) (fun g q hq => hps g q (List.mem_cons_of_mem _ hq))
      (hus.set (hmem g p (by simp)) (hp.laidOut hg))).trans ?_
    by_cases hne : f = g
    · subst hne
      rw [get_set_self]
      exact hp.guarded rfl hg
    · rw [get_set_ne hne]
      exact .refl _

section Child

variable (hfields : ps.map (·.1) = L.fields pos name)
  (hps : ∀ f p, (f, p) ∈ ps → p.Steady L ((name, f) :: pos) exhaust)

include hfields

lemma mem_fields (f : String) (p : Shape) (h : (f, p) ∈ ps) : f ∈ L.fields pos name :=
  hfields ▸ List.mem_map.mpr ⟨_, h, rfl⟩

include hps

lemma coverChild_partOf (ht : t.PartOf L pos name) : (coverChild exhaust ps t).PartOf L pos name := by
  rw [coverChild, hfields]
  split
  · cases exhaust
    · exact ht
    · exact .exhaustive pos name
  · exact (ht.fieldsOf.cover (mem_fields hfields) hps).close

lemma coverChild_alike (ht : t.PartOf L pos name) (hu : u.PartOf L pos name) (h : t.Alike u)
    (hc : t.isCovered = false) : (coverChild exhaust ps t).Alike (coverChild exhaust ps u) := by
  rw [coverChild, coverChild, hfields]
  split
  · cases exhaust
    · exact h
    · exact .refl _
  · refine (ht.fieldsOf.cover (mem_fields hfields) hps).alike (hu.fieldsOf.cover (mem_fields hfields) hps) ?_
    exact (coverFields_alike (mem_fields hfields) hps ht.fieldsOf hu.fieldsOf (ht.alike_fieldsOf hu h hc)).1

lemma coverChild_guarded (hguard : exhaust = false) (ht : t.PartOf L pos name) (hc : t.isCovered = false) :
    (coverChild exhaust ps t).Alike t := by
  subst hguard
  rw [coverChild, hfields]
  split
  · exact .refl _
  · next hne =>
    obtain ⟨⟨f, p⟩, rest, rfl⟩ := List.exists_cons_of_ne_nil (by simpa using hne)
    have hopen := ht.alike_open hc (mem_fields hfields f p (by simp))
    refine Tree.Alike.trans ?_ hopen
    exact (ht.fieldsOf.cover (mem_fields hfields) hps).alike ht.fieldsOf
      (coverFields_guarded (mem_fields hfields) hps ht.fieldsOf)

variable (hname : name ∈ (L.type pos).variants)

include hname

lemma cover_variant_laidOut (ht : t.LaidOut L pos) :
    ((Shape.variant (L.type pos) name ps).cover exhaust t).1.LaidOut L pos := by
  cases hc : t.isCovered with
  | true => rwa [cover_of_covered hc]
  | false =>
    cases hch : (get name (t.variantsOf (L.type pos))).isCovered with
    | true => rwa [cover_opened exhaust ht hc hch]
    | false =>
      rw [cover_open exhaust hc hch]
      exact (ht.variantsOf.set hname (coverChild_partOf hfields hps (ht.variantsOf.parts name))).close

lemma cover_variant_alike (ht : t.LaidOut L pos) (hu : u.LaidOut L pos) (h : t.Alike u) :
    ((Shape.variant (L.type pos) name ps).cover exhaust t).1.Alike
        ((Shape.variant (L.type pos) name ps).cover exhaust u).1 ∧
      ((Shape.variant (L.type pos) name ps).cover exhaust t).2 =
        ((Shape.variant (L.type pos) name ps).cover exhaust u).2 := by
  cases hc : t.isCovered with
  | true =>
    obtain rfl := eq_exhaustive hc
    obtain rfl := eq_exhaustive (h.isCovered ▸ hc)
    exact ⟨.refl _, rfl⟩
  | false =>
    have hc' : u.isCovered = false := h.isCovered ▸ hc
    have hvariants := ht.alike_variantsOf hu h hc
    have hsame := (hvariants name).isCovered
    cases hch : (get name (t.variantsOf (L.type pos))).isCovered with
    | true =>
      rw [cover_opened exhaust ht hc hch, cover_opened exhaust hu hc' (hsame ▸ hch)]
      exact ⟨h, rfl⟩
    | false =>
      have hpt := ht.variantsOf.parts name
      have hpu := hu.variantsOf.parts name
      have hflag := (coverFields_alike (mem_fields hfields) hps hpt.fieldsOf hpu.fieldsOf
        (hpt.alike_fieldsOf hpu (hvariants name) hch)).2
      rw [cover_open exhaust hc hch, cover_open exhaust hc' (hsame ▸ hch), hfields, hflag]
      refine ⟨?_, rfl⟩
      exact (ht.variantsOf.set hname (coverChild_partOf hfields hps hpt)).alike
        (hu.variantsOf.set hname (coverChild_partOf hfields hps hpu))
        (alike_set hvariants (coverChild_alike hfields hps hpt hpu (hvariants name) hch))

lemma cover_variant_guarded (hguard : exhaust = false) (ht : t.LaidOut L pos) :
    ((Shape.variant (L.type pos) name ps).cover exhaust t).1.Alike t := by
  cases hc : t.isCovered with
  | true =>
    rw [cover_of_covered hc]
    exact .refl t
  | false =>
    cases hch : (get name (t.variantsOf (L.type pos))).isCovered with
    | true =>
      rw [cover_opened exhaust ht hc hch]
      exact .refl t
    | false =>
      have hpt := ht.variantsOf.parts name
      rw [cover_open exhaust hc hch]
      refine Tree.Alike.trans ?_ (ht.alike_open hc hname)
      refine (ht.variantsOf.set hname (coverChild_partOf hfields hps hpt)).alike ht.variantsOf fun n => ?_
      by_cases hne : n = name
      · subst hne
        rw [get_set_self]
        exact coverChild_guarded hfields hps hguard hpt hch
      · rw [get_set_ne hne]
        exact .refl _

end Child

lemma Shape.Steady.of_still {p : Shape} (h : ∀ t, p.cover exhaust t = (t, !t.isCovered)) (pos : Place) :
    p.Steady L pos exhaust := by
  refine ⟨fun {t} ht => ?_, fun {t u} _ _ halike => ?_, fun _ t _ => ?_⟩
  · rwa [h]
  · rw [h, h]
    exact ⟨halike, by rw [halike.isCovered]⟩
  · rw [h]
    exact .refl t

lemma Shape.LaidOut.steady {p : Shape} (hp : p.LaidOut L pos) (exhaust : Bool) : p.Steady L pos exhaust := by
  induction hp with
  | any pos =>
    refine ⟨fun {t} ht => ?_, fun {t u} _ _ h => ?_, fun hguard t _ => ?_⟩
    · cases hc : t.isCovered <;> cases exhaust <;> simp [Shape.cover, hc, ht, Tree.LaidOut.exhaustive]
    · have hsame := h.isCovered
      cases hc : u.isCovered <;> cases exhaust <;> simp [Shape.cover, hc, hsame, h, Tree.Alike.refl]
    · subst hguard
      cases hc : t.isCovered <;> simp [Shape.cover, hc, Tree.Alike.refl]
  | literal pos => exact .of_still (fun t => by cases hc : t.isCovered <;> simp [Shape.cover, hc]) pos
  | unresolved pos => exact .of_still (fun t => by cases hc : t.isCovered <;> simp [Shape.cover, hc]) pos
  | variant hname hfields hps ih =>
    exact ⟨cover_variant_laidOut hfields ih hname, cover_variant_alike hfields ih hname,
      fun hguard _ => cover_variant_guarded hfields ih hname hguard⟩

end Cover

/-! ### Clauses -/

section Clauses

variable {L : Layout} {t u : Tree}

def Clause.LaidOut (L : Layout) (c : Clause) : Prop := ∀ p ∈ c.patterns, p.LaidOut L []

lemma Clause.run_laidOut {c : Clause} (hc : c.LaidOut L) (ht : t.LaidOut L []) : (c.run t).1.LaidOut L [] := by
  unfold Clause.LaidOut at hc
  rw [Clause.run_fst]
  generalize c.patterns = ps at hc ⊢
  induction ps generalizing t with
  | nil => exact ht
  | cons p ps ih =>
    exact ih (((hc p (by simp)).steady _).laidOut ht) fun q hq => hc q (List.mem_cons_of_mem _ hq)

lemma Clause.run_alike {c : Clause} (hc : c.LaidOut L) (ht : t.LaidOut L []) (hu : u.LaidOut L []) (h : t.Alike u) :
    (c.run t).1.Alike (c.run u).1 ∧ (c.run t).2 = (c.run u).2 := by
  unfold Clause.LaidOut at hc
  rw [Clause.run, Clause.run]
  generalize c.patterns.isEmpty = flag
  generalize c.patterns = ps at hc ⊢
  induction ps generalizing t u flag with
  | nil => exact ⟨h, rfl⟩
  | cons p ps ih =>
    have hp := (hc p (by simp)).steady (!c.guarded)
    obtain ⟨halike, hflag⟩ := hp.alike ht hu h
    simp only [List.foldl_cons, hflag]
    exact ih (hp.laidOut ht) (hp.laidOut hu) halike _ fun q hq => hc q (List.mem_cons_of_mem _ hq)

lemma Clause.run_guarded {c : Clause} (hc : c.LaidOut L) (hguard : c.guarded = true) (ht : t.LaidOut L []) :
    (c.run t).1.Alike t := by
  unfold Clause.LaidOut at hc
  rw [Clause.run_fst, hguard]
  generalize c.patterns = ps at hc ⊢
  induction ps generalizing t with
  | nil => exact .refl t
  | cons p ps ih =>
    have hp := (hc p (by simp)).steady false
    exact (ih (hp.laidOut ht) fun q hq => hc q (List.mem_cons_of_mem _ hq)).trans (hp.guarded rfl ht)

lemma run_laidOut {clauses : List Clause} (h : ∀ c ∈ clauses, c.LaidOut L) (ht : t.LaidOut L []) :
    (run clauses t).2.LaidOut L [] := by
  induction clauses generalizing t with
  | nil => exact ht
  | cons c cs ih => exact ih (fun b hb => h b (List.mem_cons_of_mem _ hb)) (c.run_laidOut (h c (by simp)) ht)

end Clauses

end TraitCheck.Coverage

namespace TraitCheck.Check

open Syntax (Pattern FieldPattern)
open Coverage (Place Layout Tree)

/-- Patterns whose constructors make values of the types at their places. Those that are not resolved do not count. -/
inductive Placed (variant? : Nat → Option (TypeDecl × Syntax.Variant)) (typeAt : Place → TypeDecl) :
    Place → Pattern → Prop
  | bind (pos : Place) (info : Syntax.Info) (name : String) : Placed variant? typeAt pos (.bind info name)
  | hole (pos : Place) (info : Syntax.Info) : Placed variant? typeAt pos (.hole info)
  | literal (pos : Place) (info : Syntax.Info) (l : Syntax.Literal) : Placed variant? typeAt pos (.literal info l)
  | unresolved (pos : Place) {info : Syntax.Info} (ident : Syntax.Ident) (fields : List (FieldPattern Pattern))
      (hv : variant? info.id = none) : Placed variant? typeAt pos (.variant info ident fields)
  | variant {pos : Place} {info : Syntax.Info} {ident : Syntax.Ident} {fields : List (FieldPattern Pattern)}
      {v : Syntax.Variant} (hv : variant? info.id = some (typeAt pos, v))
      (hmember : (typeAt pos).variant? v.name = some v)
      (hps : ∀ fp p, fp ∈ fields → fp.pattern = some p → Placed variant? typeAt ((v.name, fp.name) :: pos) p) :
      Placed variant? typeAt pos (.variant info ident fields)

def layout (typeAt : Place → TypeDecl) : Layout where
  type pos := ⟨(typeAt pos).node.info.id, (typeAt pos).node.variants.map (·.name)⟩
  fields pos name := (((typeAt pos).variant? name).map (·.fields.map (·.name))).getD []

section Patterns

variable {variant? : Nat → Option (TypeDecl × Syntax.Variant)} {typeAt : Place → TypeDecl} {pos : Place}

lemma mem_variants {d : TypeDecl} {v : Syntax.Variant} (h : d.variant? v.name = some v) :
    v.name ∈ d.node.variants.map (·.name) :=
  List.mem_map.mpr ⟨v, List.mem_reverse.mp (List.mem_of_find?_eq_some h), rfl⟩

lemma Placed.laidOut {p : Pattern} (h : Placed variant? typeAt pos p) :
    (shapeOf variant? p).LaidOut (layout typeAt) pos := by
  induction h with
  | bind => simpa only [shapeOf] using .any _
  | hole => simpa only [shapeOf] using .any _
  | literal => simpa only [shapeOf] using .literal _
  | unresolved pos ident fields hv => simpa only [shapeOf, hv] using .unresolved _
  | @variant pos info ident fields v hv hmember hps ih =>
    rw [shapeOf_variant hv]
    refine .variant (mem_variants hmember) (by simp [layout, hmember]) fun f q hq => ?_
    obtain ⟨g, -, he⟩ := List.mem_map.mp hq
    cases he
    rcases seen_mem variant? fields g.name with ⟨fp, p, hfp, hname, hp, hseen⟩ | hseen
    · rw [hseen, ← hname]
      exact ih fp p hfp hp
    · rw [hseen]
      exact .any _

end Patterns

/-! ### Reports -/

/-- The clauses, and whether each of them is reached. -/
def marked (s : State) (clauses : List Syntax.Arm) : List (Syntax.Arm × Bool) :=
  clauses.zip (Coverage.check (coverageClauses s clauses)).reachable

lemma map_fst_marked (s : State) (clauses : List Syntax.Arm) : (marked s clauses).map (·.1) = clauses := by
  have hlength : (Coverage.run (coverageClauses s clauses) .unmatched).1.length = clauses.length := by
    rw [Coverage.length_reachable, coverageClauses, List.length_map]
  exact List.map_fst_zip (Nat.le_of_eq hlength.symm)

lemma reports_marked (info : Syntax.Info) (clauses : List Syntax.Arm) (s : State) :
    unreachableOnly (reports (checkCoverage info clauses) s) =
      ((marked s clauses).filter (!·.2)).map fun a => unreachableAt s a.1 :=
  unreachableOnly_reports info clauses s

section Match

variable {s : State} {typeAt : Place → TypeDecl} {kept clauses : List Syntax.Arm}

lemma coverageClauses_laidOut (h : ∀ c ∈ clauses, ∀ p ∈ c.patterns, Placed (s.variants[·]?) typeAt [] p) :
    ∀ c ∈ coverageClauses s clauses, c.LaidOut (layout typeAt) := by
  intro c hc q hq
  obtain ⟨arm, harm, rfl⟩ := List.mem_map.mp hc
  obtain ⟨p, hp, rfl⟩ := List.mem_map.mp hq
  exact (h arm harm p hp).laidOut

lemma guarded_of_left_out {c : Syntax.Arm} (hsub : kept.Sublist clauses)
    (h : kept.filter (·.guard.isNone) = (c :: clauses).filter (·.guard.isNone)) : c.guard.isSome = true := by
  by_contra hguard
  have hlength := (hsub.filter (·.guard.isNone)).length_le
  rw [h, List.filter_cons_of_pos (by simpa using hguard), List.length_cons] at hlength
  omega

lemma run_kept (hplaced : ∀ c ∈ clauses, ∀ p ∈ c.patterns, Placed (s.variants[·]?) typeAt [] p)
    (hsub : kept.Sublist clauses) (hkept : kept.filter (·.guard.isNone) = clauses.filter (·.guard.isNone)) {t u : Tree}
    (ht : t.LaidOut (layout typeAt) []) (hu : u.LaidOut (layout typeAt) []) (h : t.Alike u) :
    (Coverage.run (coverageClauses s kept) t).2.Alike (Coverage.run (coverageClauses s clauses) u).2 ∧
      (kept.zip (Coverage.run (coverageClauses s kept) t).1).filter (·.1.guard.isNone) =
        (clauses.zip (Coverage.run (coverageClauses s clauses) u).1).filter (·.1.guard.isNone) := by
  induction hsub generalizing t u with
  | slnil => exact ⟨h, rfl⟩
  | @cons kept clauses c hsub ih =>
    have hguard := guarded_of_left_out hsub hkept
    have hc := coverageClauses_laidOut hplaced _ List.mem_cons_self
    rw [List.filter_cons_of_neg (by simp [Option.isSome_iff_ne_none.mp hguard])] at hkept
    obtain ⟨halike, hmarked⟩ := ih (fun b hb => hplaced b (List.mem_cons_of_mem _ hb)) hkept ht
      (Coverage.Clause.run_laidOut hc hu) (h.trans (Coverage.Clause.run_guarded hc hguard hu).symm)
    refine ⟨halike, hmarked.trans ?_⟩
    simp only [coverageClauses, List.map_cons, Coverage.run, List.zip_cons_cons]
    rw [List.filter_cons_of_neg (by simp [Option.isSome_iff_ne_none.mp hguard])]
  | @cons_cons kept clauses c hsub ih =>
    have hc := coverageClauses_laidOut hplaced _ List.mem_cons_self
    have hkept' : kept.filter (·.guard.isNone) = clauses.filter (·.guard.isNone) := by
      simp only [List.filter_cons] at hkept
      split at hkept
      · exact (List.cons.inj hkept).2
      · exact hkept
    obtain ⟨hfirst, hflag⟩ := Coverage.Clause.run_alike hc ht hu h
    obtain ⟨halike, hmarked⟩ := ih (fun b hb => hplaced b (List.mem_cons_of_mem _ hb)) hkept'
      (Coverage.Clause.run_laidOut hc ht) (Coverage.Clause.run_laidOut hc hu) hfirst
    refine ⟨halike, ?_⟩
    simp only [coverageClauses] at hmarked hflag ⊢
    simp only [List.map_cons, Coverage.run, List.zip_cons_cons, List.filter_cons, hmarked, hflag]

/-- Clauses with guards cover nothing. Where all constructors at a place are of one type, a `match` without some of its
clauses that have guards is called not exhaustive if the whole `match` is, and of the clauses without guards the same
are reported as unreachable. -/
theorem guarded_cover_nothing (hplaced : ∀ c ∈ clauses, ∀ p ∈ c.patterns, Placed (s.variants[·]?) typeAt [] p)
    (hsub : kept.Sublist clauses) (hkept : kept.filter (·.guard.isNone) = clauses.filter (·.guard.isNone))
    (info : Syntax.Info) :
    ((∃ d ∈ reports (checkCoverage info kept) s, d.cause = .nonExhaustiveMatch) ↔
      ∃ d ∈ reports (checkCoverage info clauses) s, d.cause = .nonExhaustiveMatch) ∧
    (marked s kept).filter (·.1.guard.isNone) = (marked s clauses).filter (·.1.guard.isNone) ∧
    ∀ cs, (marked s cs).map (·.1) = cs ∧ unreachableOnly (reports (checkCoverage info cs) s) =
      ((marked s cs).filter (!·.2)).map fun a => unreachableAt s a.1 := by
  have hplaced' : ∀ c ∈ kept, ∀ p ∈ c.patterns, Placed (s.variants[·]?) typeAt [] p := fun c hc =>
    hplaced c (hsub.subset hc)
  obtain ⟨halike, hmarked⟩ := run_kept hplaced hsub hkept (.unmatched []) (.unmatched []) (.refl _)
  have hlaid := Coverage.run_laidOut (coverageClauses_laidOut hplaced) (.unmatched [])
  have hlaid' := Coverage.run_laidOut (coverageClauses_laidOut hplaced') (.unmatched [])
  refine ⟨?_, hmarked, fun cs => ⟨map_fst_marked s cs, reports_marked info cs s⟩⟩
  rw [nonExhaustive_iff, nonExhaustive_iff]
  simp only [Coverage.check]
  rw [hlaid.isExhaustive, hlaid'.isExhaustive, halike.isCovered]

end Match

namespace FlagPair

def typeAt : Place → TypeDecl
  | [] => pairDecl
  | _ => flagDecl

/-- `Pair(a: True)` with a guard, and then `Pair(a: True)` and `Pair(a: False)`. -/
def guardedFirst : List Syntax.Arm :=
  ⟨{}, [node 1 [flagField "a" 2]], some (.literal ⟨{}, .bool, "true"⟩), ⟨{}, []⟩⟩ :: halves

lemma half_placed {id below : Nat} {name : String} (h : resolved.variants[id]? = some (pairDecl, pairVariant))
    (hb : resolved.variants[below]? = some (flagDecl, ⟨{}, name, []⟩)) (hn : name ∈ ["True", "False"]) :
    Placed (resolved.variants[·]?) typeAt [] (node id [flagField "a" below]) := by
  refine .variant h rfl fun fp p hfp hp => ?_
  obtain rfl := List.mem_singleton.mp hfp
  cases hp
  refine .variant hb ?_ (by simp)
  rcases List.mem_pair.mp hn with rfl | rfl <;> rfl

theorem guardedFirst_like_halves :
    ((∃ d ∈ reports (checkCoverage {} halves) resolved, d.cause = .nonExhaustiveMatch) ↔
      ∃ d ∈ reports (checkCoverage {} guardedFirst) resolved, d.cause = .nonExhaustiveMatch) ∧
    (marked resolved halves).filter (·.1.guard.isNone) = (marked resolved guardedFirst).filter (·.1.guard.isNone) := by
  obtain ⟨h₁, h₄⟩ := resolved_pair
  obtain ⟨h₂, -, h₅, -⟩ := resolved_flag
  have hplaced : ∀ c ∈ guardedFirst, ∀ p ∈ c.patterns, Placed (resolved.variants[·]?) typeAt [] p := by
    simpa [guardedFirst, halves, clause] using ⟨half_placed h₁ h₂ (by simp), half_placed h₄ h₅ (by simp)⟩
  obtain ⟨halarm, hmarked, -⟩ := guarded_cover_nothing hplaced (List.sublist_cons_self _ _) rfl {}
  exact ⟨halarm, hmarked⟩

end FlagPair

end TraitCheck.Check
