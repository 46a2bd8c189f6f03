import TraitCheck.Proofs.Coverage.Exhaustive

/-! What is reported about a `match` says something about values: no pattern matches some value of a `match` called not
exhaustive, and every clause to which the clauses before it leave nothing is reported. Patterns have no literals here. -/

namespace TraitCheck.Coverage

variable {sig : Signature}

/-! ### Places covered everywhere -/

inductive Tree.Marked : Tree → Prop
  | unmatched : Marked .unmatched
  | exhaustive : Marked .exhaustive
  | type (id : Nat) {ts : List (String × Tree)} (hopen : allExhaustive ts = false) (hts : ∀ n, Marked (get n ts)) :
      Marked (.type id ts)
  | variant {us : List (String × Tree)} (hopen : allExhaustive us = false) (hus : ∀ f, Marked (get f us)) :
      Marked (.variant us)

variable {tree : Tree} {t : Ty}

lemma Tree.Marked.not_exhaustive (h : tree.Marked) (hc : tree.isCovered = false) : tree.isExhaustive = false := by
  cases h with
  | unmatched => rfl
  | exhaustive => simp [Tree.isCovered] at hc
  | type id hopen _ => rwa [Tree.isExhaustive]
  | variant hopen _ => rwa [Tree.isExhaustive]

lemma marked_fresh (names : List String) (n : String) : (get n (fresh names)).Marked := by
  rw [get_fresh]
  exact .unmatched

lemma Tree.Marked.variantsOf (h : tree.Marked) (type : TypeShape) (n : String) :
    (get n (tree.variantsOf type)).Marked := by
  cases h with
  | type id _ hts =>
    rw [Tree.variantsOf]
    split
    · exact hts n
    · exact marked_fresh _ n
  | _ => exact marked_fresh _ n

lemma Tree.Marked.fieldsOf (h : tree.Marked) (names : List String) (f : String) :
    (get f (tree.fieldsOf names)).Marked := by
  cases h with
  | variant _ hus => exact hus f
  | _ => exact marked_fresh _ f

lemma marked_set {ts : List (String × Tree)} (hts : ∀ n, (get n ts).Marked) (name : String) {child : Tree}
    (hchild : child.Marked) (n : String) : (get n (set name child ts)).Marked := by
  by_cases h : n = name
  · subst h
    simpa using hchild
  · simpa only [get_set_ne h] using hts n

lemma marked_type {ts : List (String × Tree)} (hts : ∀ n, (get n ts).Marked) (id : Nat) :
    (if allExhaustive ts then .exhaustive else .type id ts : Tree).Marked := by
  cases h : allExhaustive ts with
  | true => exact .exhaustive
  | false => exact .type id h hts

lemma marked_variant {us : List (String × Tree)} (hus : ∀ f, (get f us).Marked) :
    (if allExhaustive us then .exhaustive else .variant us : Tree).Marked := by
  cases h : allExhaustive us with
  | true => exact .exhaustive
  | false => exact .variant h hus

lemma coverFields_marked {exhaust : Bool} (ps : List (String × Shape)) {us : List (String × Tree)}
    (hps : ∀ f p tree, (f, p) ∈ ps → tree.Marked → (p.cover exhaust tree).1.Marked) (hus : ∀ f, (get f us).Marked)
    (f : String) : (get f (coverFields exhaust ps us).1).Marked := by
  induction ps generalizing us with
  | nil => exact hus f
  | cons e ps ih =>
    obtain ⟨name, p⟩ := e
    apply ih
    · intro g q tree hq
      exact hps g q tree (List.mem_cons_of_mem _ hq)
    · apply marked_set hus
      exact hps name p _ (by simp) (hus name)

lemma exists_lookup {α β : Type} {ps : List (String × α)} {types : List (String × β)}
    (hnames : ps.map (·.1) = types.map (·.1)) {f : String} {p : α} (hp : (f, p) ∈ ps) :
    ∃ u, types.lookup f = some u := by
  have hf : f ∈ types.map (·.1) := hnames ▸ List.mem_map.mpr ⟨_, hp, rfl⟩
  rw [← Option.isSome_iff_exists, List.lookup_isSome_iff]
  simpa using hf

lemma cover_marked (exhaust : Bool) {p : Shape} (hp : p.Typed sig t) (hm : tree.Marked) :
    (p.cover exhaust tree).1.Marked := by
  induction hp generalizing tree with
  | any t => cases hc : tree.isCovered <;> cases exhaust <;> simp [Shape.cover, hc, hm, Tree.Marked.exhaustive]
  | literal t => cases hc : tree.isCovered <;> simp [Shape.cover, hc, hm]
  | @variant t d name ps hd hname hnames hone hps ih =>
    cases hc : tree.isCovered with
    | true => rwa [cover_of_covered hc]
    | false =>
      have hts := hm.variantsOf d.shape
      cases hch : (get name (tree.variantsOf d.shape)).isCovered with
      | true =>
        -- a variant that is covered has been seen before, so the tree is of this type already
        rw [cover_variant_of_covered hc exhaust hch]
        cases hm with
        | @type id ts hopen hall =>
          rw [Tree.variantsOf] at hch ⊢
          split at hch
          · rw [if_pos ‹_›]
            exact .type _ hopen hall
          · simp [Tree.isCovered] at hch
        | _ => simp [Tree.variantsOf, Tree.isCovered] at hch
      | false =>
        cases ps with
        | nil =>
          rw [cover_constant hc exhaust hch]
          apply marked_type
          apply marked_set hts
          cases exhaust
          · exact hts name
          · exact .exhaustive
        | cons e ps =>
          rw [cover_fields hc exhaust hch (by simp)]
          apply marked_type
          apply marked_set hts
          apply marked_variant
          apply coverFields_marked
          · intro f q tree hq htree
            obtain ⟨u, hu⟩ := exists_lookup hnames hq
            exact ih f q u hq hu htree
          · exact (hts name).fieldsOf _

/-! ### Patterns without literals -/

inductive Shape.LiteralFree : Shape → Prop
  | any : LiteralFree .any
  | variant {s : TypeShape} {name : String} {ps : List (String × Shape)} (hps : ∀ f p, (f, p) ∈ ps → LiteralFree p) :
      LiteralFree (.variant s name ps)

lemma Shape.LiteralFree.field {s : TypeShape} {name f : String} {ps : List (String × Shape)} {p : Shape}
    (h : (Shape.variant s name ps).LiteralFree) (hp : (f, p) ∈ ps) : p.LiteralFree := by
  cases h with
  | variant hps => exact hps f p hp

lemma exists_fields_such (hi : Inhabited sig) {P : String → Value → Prop} {types : List (String × Ty)}
    (h : ∀ f u, types.lookup f = some u → ∃ v, v.HasType sig u ∧ P f v) :
    ∃ vs, HaveTypes sig vs types ∧ ∀ f v, vs.lookup f = some v → P f v := by
  induction types generalizing P with
  | nil => exact ⟨[], trivial, by simp⟩
  | cons e types ih =>
    obtain ⟨n, t⟩ := e
    obtain ⟨v, hv, hP⟩ := h n t (by simp)
    -- a later field of the same name is never looked up
    have hrest : ∀ f u, types.lookup f = some u → ∃ w, w.HasType sig u ∧ (f ≠ n → P f w) := by
      intro f u hu
      by_cases hf : f = n
      · obtain ⟨w, hw⟩ := hi u
        exact ⟨w, hw, fun hne => absurd hf hne⟩
      · have hne : (f == n) = false := by simpa using hf
        obtain ⟨w, hw, hPw⟩ := h f u (by simpa [List.lookup_cons, hne] using hu)
        exact ⟨w, hw, fun _ => hPw⟩
    obtain ⟨vs, hvs, hall⟩ := ih hrest
    refine ⟨(n, v) :: vs, ⟨rfl, hv, hvs⟩, fun f w hw => ?_⟩
    by_cases hf : f = n
    · subst hf
      obtain rfl : v = w := by simpa using hw
      exact hP
    · have hne : (f == n) = false := by simpa using hf
      exact hall f w (by simpa [List.lookup_cons, hne] using hw) hf

lemma exists_fields_matched (hi : Inhabited sig) {types : List (String × Ty)} {ps : List (String × Shape)}
    (hnames : ps.map (·.1) = types.map (·.1)) (hone : ∀ f p, (f, p) ∈ ps → ps.lookup f = some p)
    {P : String → Value → Prop}
    (h : ∀ f p u, (f, p) ∈ ps → types.lookup f = some u → ∃ v, v.HasType sig u ∧ p.Matches v ∧ P f v) :
    ∃ vs, HaveTypes sig vs types ∧ (∀ f p v, (f, p) ∈ ps → vs.lookup f = some v → p.Matches v) ∧
      ∀ f v, vs.lookup f = some v → P f v := by
  have hboth : ∀ f u, types.lookup f = some u →
      ∃ v, v.HasType sig u ∧ (∀ p, (f, p) ∈ ps → p.Matches v) ∧ P f v := by
    intro f u hu
    obtain ⟨⟨_, q⟩, hq, rfl⟩ := List.mem_map.mp (hnames ▸ mem_names_of_lookup hu)
    obtain ⟨v, hv, hm, hP⟩ := h _ q u hq hu
    refine ⟨v, hv, fun p hp => ?_, hP⟩
    obtain rfl : p = q := Option.some.inj ((hone _ p hp).symm.trans (hone _ q hq))
    exact hm
  obtain ⟨vs, hvs, hall⟩ := exists_fields_such hi hboth
  exact ⟨vs, hvs, fun f p v hp hv => (hall f v hv).1 p hp, fun f v hv => (hall f v hv).2⟩

lemma exists_matched (hi : Inhabited sig) {p : Shape} (hp : p.Typed sig t) (hl : p.LiteralFree) :
    ∃ v, v.HasType sig t ∧ p.Matches v := by
  induction hp with
  | any t =>
    obtain ⟨v, hv⟩ := hi t
    exact ⟨v, hv, .any v⟩
  | literal => cases hl
  | @variant t d name ps hd hname hnames hone hps ih =>
    have hfields : ∀ f p u, (f, p) ∈ ps → (d.fields name).lookup f = some u →
        ∃ v, v.HasType sig u ∧ p.Matches v ∧ True := by
      intro f p u hp hu
      obtain ⟨v, hv, hm⟩ := ih f p u hp hu (hl.field hp)
      exact ⟨v, hv, hm, trivial⟩
    obtain ⟨vs, hvs, hm, -⟩ := exists_fields_matched hi hnames hone hfields
    exact ⟨.variant name vs, .mk hd hname hvs, .variant hm⟩

/-! ### What a pattern finds uncovered -/

def Tree.Below (sig : Signature) (t : Ty) (before after : Tree) : Prop :=
  ∀ v path, v.HasType sig t → Branch v path → before.Covers path v → after.Covers path v

lemma Adds.below {A : List String → Value → Prop} {before after : Tree} (h : Adds sig t A before after) :
    before.Below sig t after :=
  fun _ _ hv hb hcov => (h.covers hv hb).mpr (Or.inl hcov)

lemma Tree.Below.refl (t : Ty) (tree : Tree) : tree.Below sig t tree := fun _ _ _ _ h => h

lemma Tree.Below.trans {t₀ t₁ t₂ : Tree} (h₁ : t₀.Below sig t t₁) (h₂ : t₁.Below sig t t₂) : t₀.Below sig t t₂ :=
  fun v path hv hb h => h₂ v path hv hb (h₁ v path hv hb h)

lemma coverFields_affected (exhaust : Bool) {types : List (String × Ty)} (ps : List (String × Shape))
    {us : List (String × Tree)} (hnames : ∀ f p, (f, p) ∈ ps → ∃ u, types.lookup f = some u)
    (hps : ∀ f p u, (f, p) ∈ ps → types.lookup f = some u → p.Typed sig u)
    (hfits : ∀ f u, types.lookup f = some u → (get f us).Fits sig u) (hmarked : ∀ f, (get f us).Marked)
    (ha : (coverFields exhaust ps us).2 = true) :
    ∃ f p u tree, (f, p) ∈ ps ∧ types.lookup f = some u ∧ tree.Fits sig u ∧ tree.Marked ∧
      (p.cover exhaust tree).2 = true ∧ (get f us).Below sig u tree := by
  induction ps generalizing us with
  | nil => simp [coverFields] at ha
  | cons e ps ih =>
    obtain ⟨name, p⟩ := e
    obtain ⟨u, hu⟩ := hnames name p (by simp)
    have hp : p.Typed sig u := hps name p u (by simp) hu
    cases hhere : (p.cover exhaust (get name us)).2 with
    | true => exact ⟨name, p, u, get name us, by simp, hu, hfits name u hu, hmarked name, hhere, .refl u _⟩
    | false =>
      have hadds := cover_adds exhaust p hp (hfits name u hu)
      have hfits' : ∀ f w, types.lookup f = some w →
          (get f (set name (p.cover exhaust (get name us)).1 us)).Fits sig w := by
        intro f w hw
        by_cases h : f = name
        · subst h
          obtain rfl : u = w := Option.some.inj (hu.symm.trans hw)
          simpa using hadds.fits
        · simpa only [get_set_ne h] using hfits f w hw
      have hlater : (coverFields exhaust ps (set name (p.cover exhaust (get name us)).1 us)).2 = true := by
        simpa [coverFields, hhere] using ha
      obtain ⟨f, q, w, tree, hq, hw, hft, hmt, hqa, hbelow⟩ := ih
        (fun f q hq => hnames f q (List.mem_cons_of_mem _ hq))
        (fun f q w hq => hps f q w (List.mem_cons_of_mem _ hq)) hfits'
        (marked_set hmarked name (cover_marked exhaust hp (hmarked name))) hlater
      refine ⟨f, q, w, tree, List.mem_cons_of_mem _ hq, hw, hft, hmt, hqa, ?_⟩
      by_cases h : f = name
      · subst h
        obtain rfl : u = w := Option.some.inj (hu.symm.trans hw)
        rw [get_set_self] at hbelow
        exact hadds.below.trans hbelow
      · rwa [get_set_ne h] at hbelow

lemma not_covered_of_affected {exhaust : Bool} {p : Shape} (ha : (p.cover exhaust tree).2 = true) :
    tree.isCovered = false := by
  by_contra h
  rw [Shape.cover.eq_def] at ha
  simp_all

lemma exists_new (hi : Inhabited sig) (exhaust : Bool) {p : Shape} (hp : p.Typed sig t)
    (hl : p.LiteralFree) (ht : tree.Fits sig t) (hm : tree.Marked) (ha : (p.cover exhaust tree).2 = true) :
    ∃ v path, v.HasType sig t ∧ Branch v path ∧ p.Matches v ∧ ¬ tree.Covers path v := by
  induction hp generalizing tree with
  | any t =>
    have hc := not_covered_of_affected ha
    obtain ⟨v, path, hv, hb, hnot⟩ := ht.exists_uncovered hi (hm.not_exhaustive hc)
    exact ⟨v, path, hv, hb, .any v, hnot⟩
  | literal => cases hl
  | @variant t d name ps hd hname hnames hone hps ih =>
    have hc := not_covered_of_affected ha
    obtain ⟨hopen, hsame⟩ := ht.opened hd (List.ne_nil_of_mem hname) hc
    have hch : (get name (tree.variantsOf d.shape)).isCovered = false := by
      by_contra h
      rw [Shape.cover.eq_def] at ha
      simp_all
    simp only [← hsame]
    cases ps with
    | nil =>
      have hfields : d.fields name = [] := by simpa using hnames.symm
      have hnone : get name (tree.variantsOf d.shape) = .unmatched := by
        rcases (hopen.declared hd).2.1 name with h | h | ⟨us, _, hne, _⟩
        · exact h
        · simp [h, Tree.isCovered] at hch
        · exact absurd hfields hne
      refine ⟨.variant name [], [], .mk hd hname (by simp [hfields, HaveTypes]), .constant name, .variant (by simp), ?_⟩
      exact not_covers_of_child_unmatched _ _ hnone _
    | cons e ps =>
      obtain ⟨-, hfits, hcov⟩ := hopen.fields_opened hd hch
      rw [← hnames] at hfits hcov
      have haffected : (coverFields exhaust (e :: ps)
          ((get name (tree.variantsOf d.shape)).fieldsOf ((e :: ps).map (·.1)))).2 = true := by
        rw [Shape.cover.eq_def] at ha
        simpa [hc, hch] using ha
      obtain ⟨f, q, u, sub, hq, hu, hft, hmt, hqa, hbelow⟩ := coverFields_affected exhaust (e :: ps)
        (fun f q hq => exists_lookup hnames hq) hps hfits ((hm.variantsOf d.shape name).fieldsOf _) haffected
      obtain ⟨w, path, hw, hb, hmw, hnot⟩ := ih f q u hq hu (hl.field hq) hft hmt hqa
      -- the value found for this field, and matched values for the others
      have hfields : ∀ g r x, (g, r) ∈ e :: ps → (d.fields name).lookup g = some x →
          ∃ v, v.HasType sig x ∧ r.Matches v ∧ (g = f → v = w) := by
        intro g r x hr hx
        by_cases hg : g = f
        · subst hg
          obtain rfl : u = x := Option.some.inj (hu.symm.trans hx)
          obtain rfl : q = r := Option.some.inj ((hone g q hq).symm.trans (hone g r hr))
          exact ⟨w, hw, hmw, fun _ => rfl⟩
        · obtain ⟨v, hv, hmv⟩ := exists_matched hi (hps g r x hr hx) (hl.field hr)
          exact ⟨v, hv, hmv, fun h => absurd h hg⟩
      obtain ⟨vs, hvs, hmatch, hchosen⟩ := exists_fields_matched hi hnames hone hfields
      obtain ⟨w', hw'⟩ : ∃ w', vs.lookup f = some w' := exists_lookup (hnames.trans hvs.names.symm) hq
      obtain rfl : w' = w := hchosen f w' hw' rfl
      refine ⟨.variant name vs, f :: path, .mk hd hname hvs, .field hw' hb, .variant hmatch, ?_⟩
      rw [hcov f path vs]
      rintro ⟨v, hv, hcovers⟩
      obtain rfl : w' = v := Option.some.inj (hw'.symm.trans hv)
      exact hnot (hbelow w' path hw hb hcovers)

/-! ### Clauses -/

lemma foldl_cover_marked (exhaust : Bool) (ps : List Shape) (hps : ∀ p ∈ ps, p.Typed sig t)
    (hm : tree.Marked) : (ps.foldl (fun tree p => (p.cover exhaust tree).1) tree).Marked := by
  induction ps generalizing tree with
  | nil => exact hm
  | cons p ps ih =>
    apply ih (fun q hq => hps q (List.mem_cons_of_mem _ hq))
    exact cover_marked exhaust (hps p (by simp)) hm

lemma run_marked (clauses : List Clause) (hc : ∀ c ∈ clauses, ∀ p ∈ c.patterns, p.Typed sig t)
    (hm : tree.Marked) : (run clauses tree).2.Marked := by
  induction clauses generalizing tree with
  | nil => exact hm
  | cons c cs ih =>
    have hfirst : (c.run tree).1.Marked := by
      rw [Clause.run_fst]
      exact foldl_cover_marked _ c.patterns (hc c (by simp)) hm
    exact ih (fun c' h' => hc c' (List.mem_cons_of_mem _ h')) hfirst

lemma Clause.exists_new (hi : Inhabited sig) {c : Clause} (hne : c.patterns ≠ [])
    (hc : ∀ p ∈ c.patterns, p.Typed sig t ∧ p.LiteralFree) (ht : tree.Fits sig t) (hm : tree.Marked)
    (hr : (c.run tree).2 = true) :
    ∃ p ∈ c.patterns, ∃ v path, v.HasType sig t ∧ Branch v path ∧ p.Matches v ∧ ¬ tree.Covers path v := by
  have hempty : c.patterns.isEmpty = false := by simpa using hne
  rw [Clause.run, hempty] at hr
  clear hempty hne
  generalize c.patterns = ps at hc hr ⊢
  induction ps generalizing tree with
  | nil => simp at hr
  | cons p ps ih =>
    obtain ⟨hp, hl⟩ := hc p (by simp)
    cases ha : (p.cover (!c.guarded) tree).2 with
    | true =>
      obtain ⟨v, path, hv⟩ := Coverage.exists_new hi _ hp hl ht hm ha
      exact ⟨p, by simp, v, path, hv⟩
    | false =>
      have hadds := cover_adds (!c.guarded) p hp ht
      obtain ⟨q, hq, v, path, hv, hb, hmv, hnot⟩ := ih hadds.fits (cover_marked _ hp hm)
        (fun q hq => hc q (List.mem_cons_of_mem _ hq)) (by simpa [ha] using hr)
      exact ⟨q, List.mem_cons_of_mem _ hq, v, path, hv, hb, hmv, fun h => hnot (hadds.below v path hv hb h)⟩

lemma run_append (before after : List Clause) (tree : Tree) :
    run (before ++ after) tree =
      ((run before tree).1 ++ (run after (run before tree).2).1, (run after (run before tree).2).2) := by
  induction before generalizing tree with
  | nil => simp [run]
  | cons c cs ih => simp [run, ih]

lemma length_reachable (clauses : List Clause) (tree : Tree) : (run clauses tree).1.length = clauses.length := by
  induction clauses generalizing tree with
  | nil => rfl
  | cons c cs ih => simp [run, ih]

lemma unreachable_of_agree (hi : Inhabited sig) {before : List Clause} {c : Clause}
    (hbefore : ∀ b ∈ before, ∀ p ∈ b.patterns, p.Typed sig t) (hne : c.patterns ≠ [])
    (hc : ∀ p ∈ c.patterns, p.Typed sig t ∧ p.LiteralFree)
    (h : ∀ p ∈ c.patterns, ∀ v path, v.HasType sig t → Branch v path → p.Matches v → Agree before path v) :
    (c.run (run before .unmatched).2).2 = false := by
  by_contra hr
  have hfits := (run_adds before hbefore (.unmatched t)).fits
  obtain ⟨p, hp, v, path, hv, hb, hmv, hnot⟩ :=
    c.exists_new hi hne hc hfits (run_marked before hbefore .unmatched) (by simpa using hr)
  exact hnot ((covers_run hbefore hv hb).mpr (h p hp v path hv hb hmv))

end TraitCheck.Coverage

namespace TraitCheck.Check

open Syntax (Pattern FieldPattern)
open Coverage (Signature Value Branch Shape)

/-! ### Patterns -/

section Patterns

variable {variant? : Nat → Option (TypeDecl × Syntax.Variant)} {sig : Signature} {t : Ty} {p : Pattern}

inductive LiteralFree : Pattern → Prop
  | bind (info : Syntax.Info) (name : String) : LiteralFree (.bind info name)
  | hole (info : Syntax.Info) : LiteralFree (.hole info)
  | variant {info : Syntax.Info} {ident : Syntax.Ident} {fields : List (FieldPattern Pattern)}
      (hps : ∀ fp p, fp ∈ fields → fp.pattern = some p → LiteralFree p) : LiteralFree (.variant info ident fields)

lemma literalFree_shapeOf (h : WellTyped variant? sig p t) (hl : LiteralFree p) : (shapeOf variant? p).LiteralFree := by
  induction h with
  | bind => simpa [shapeOf] using Shape.LiteralFree.any
  | hole => simpa [shapeOf] using Shape.LiteralFree.any
  | literal => cases hl
  | @variant info ident fields t d v decl hv hd hshape hname hfields honce hps ih =>
    rw [shapeOf_variant hv]
    refine .variant fun f q hq => ?_
    obtain ⟨g, hg, he⟩ := List.mem_map.mp hq
    cases he
    rcases seen_cases variant? honce g.name with ⟨fp, p, hfp, hf, hp, hseen, -⟩ | ⟨-, hseen⟩
    · have hnames : (v.fields.map fun g => (g.name, g)).map (·.1) = (decl.fields v.name).map (·.1) := by
        simp [hfields, Function.comp_def]
      obtain ⟨u, hu⟩ := Coverage.exists_lookup hnames (List.mem_map.mpr ⟨g, hg, rfl⟩)
      cases hl with
      | variant hall =>
        rw [hseen]
        exact ih fp p u hfp hp (hf ▸ hu) (hall fp p hfp hp)
    · rw [hseen]
      exact .any

lemma Matches.agrees {literal : Syntax.Literal → Value → Prop} {w : Value} (hl : LiteralFree p)
    (hm : Matches variant? literal p w) {path : List String} (hb : Branch w path) : Agrees variant? path p w := by
  induction hm generalizing path with
  | bind info name w => exact .bind info name path w
  | hole info w => exact .hole info path w
  | literal => cases hl
  | @variant info ident fields d v ws hv hps ih =>
    cases hb with
    | constant => exact .constant hv
    | @field _ f _ w path hf hb =>
      refine .field hv hf fun fp p hfp hname hp => ?_
      cases hl with
      | variant hall => exact ih fp p w hfp hp (hname ▸ hf) (hall fp p hfp hp) hb

end Patterns

/-! ### Reports -/

def unreachableAt (s : State) (c : Syntax.Arm) : Diagnostic :=
  diagnosticAt s (c.patterns.head?.map (·.info)) .unreachablePattern

lemma run_unreachable (marked : List (Syntax.Arm × Bool)) (s : State) :
    (forIn marked ⟨⟩ fun a _ =>
      if a.2 = true then pure (.yield ⟨⟩)
      else do
        report (a.1.patterns.head?.map (·.info)) .unreachablePattern
        pure (.yield ⟨⟩) : Check PUnit).run s =
      (.ok ⟨⟩, { s with
        diagnostics := s.diagnostics ++ (marked.filter (!·.2)).map fun a => unreachableAt s a.1 }) := by
  induction marked generalizing s with
  | nil => simp; rfl
  | cons a marked ih =>
    obtain ⟨c, reachable⟩ := a
    cases reachable with
    | true => simpa using ih s
    | false =>
      simp only [List.forIn_cons, Bool.false_eq_true, if_false, bind_assoc, pure_bind]
      rw [run_bind_ok (run_report _ _ s), ih]
      simp [unreachableAt, diagnosticAt]

def unreachableReports (s : State) (clauses : List Syntax.Arm) : List Diagnostic :=
  ((clauses.zip (Coverage.check (coverageClauses s clauses)).reachable).filter (!·.2)).map fun a => unreachableAt s a.1

lemma reports_checkCoverage (info : Syntax.Info) (clauses : List Syntax.Arm) (s : State) :
    reports (checkCoverage info clauses) s = unreachableReports s clauses ++
      if (Coverage.check (coverageClauses s clauses)).exhaustive then []
      else [diagnosticAt s (some info) .nonExhaustiveMatch] := by
  have hcheck : (checkCoverage info clauses).run s =
      (if (Coverage.check (coverageClauses s clauses)).exhaustive then pure ()
        else report (some info) .nonExhaustiveMatch : Check Unit).run
        { s with diagnostics := s.diagnostics ++ unreachableReports s clauses } := by
    rw [checkCoverage, run_get_bind]
    exact run_bind_ok (run_unreachable _ s) _
  rw [reports, hcheck]
  cases (Coverage.check (coverageClauses s clauses)).exhaustive with
  | true =>
    rw [if_pos rfl, if_pos rfl, List.append_nil]
    exact List.drop_left
  | false =>
    rw [if_neg (by simp), if_neg (by simp), run_report]
    simp [diagnosticAt]

lemma unreachableReports_append {s : State} {before : List Syntax.Arm} {c : Syntax.Arm} (after : List Syntax.Arm)
    (h : (Coverage.Clause.run ⟨c.guard.isSome, c.patterns.map (shapeOf (s.variants[·]?))⟩
      (Coverage.run (coverageClauses s before) .unmatched).2).2 = false) :
    ∃ rest, unreachableReports s (before ++ c :: after) =
      unreachableReports s before ++ unreachableAt s c :: rest := by
  have hlength : before.length = (Coverage.run (coverageClauses s before) .unmatched).1.length := by
    rw [Coverage.length_reachable, coverageClauses, List.length_map]
  have hcheck : (Coverage.check (coverageClauses s (before ++ c :: after))).reachable =
      (Coverage.run (coverageClauses s before) .unmatched).1 ++ false ::
        (Coverage.run (coverageClauses s after) (Coverage.Clause.run
          ⟨c.guard.isSome, c.patterns.map (shapeOf (s.variants[·]?))⟩
          (Coverage.run (coverageClauses s before) .unmatched).2).1).1 := by
    rw [← h]
    simp only [Coverage.check, coverageClauses, List.map_append, List.map_cons, Coverage.run_append, Coverage.run]
  rw [unreachableReports, hcheck, List.zip_append hlength, List.zip_cons_cons, List.filter_append, List.map_append,
    List.filter_cons_of_pos (by rfl), List.map_cons]
  exact ⟨_, rfl⟩

def unreachableOnly (ds : List Diagnostic) : List Diagnostic := ds.filter (·.cause matches .unreachablePattern)

lemma unreachableOnly_reports (info : Syntax.Info) (clauses : List Syntax.Arm) (s : State) :
    unreachableOnly (reports (checkCoverage info clauses) s) = unreachableReports s clauses := by
  have hall : ∀ d ∈ unreachableReports s clauses, (d.cause matches .unreachablePattern) = true := by
    intro d hd
    obtain ⟨a, -, rfl⟩ := List.mem_map.mp hd
    rfl
  rw [reports_checkCoverage, unreachableOnly, List.filter_append, List.filter_eq_self.mpr hall]
  split <;> simp [diagnosticAt]

section Match

variable {sig : Signature} {t : Ty} {s : State} {clauses : List Syntax.Arm}

lemma nonExhaustive_iff (info : Syntax.Info) :
    (∃ d ∈ reports (checkCoverage info clauses) s, d.cause = .nonExhaustiveMatch) ↔
      (Coverage.check (coverageClauses s clauses)).exhaustive = false := by
  have h := not_congr (accepts_iff info clauses s)
  simpa [Accepts] using h

/-- A `match` called not exhaustive leaves a value that no pattern without a guard matches. A clause that matches only
what patterns without a guard match before it is reported, right after the clauses before it that are. -/
theorem reports_true_and_complete (hi : Coverage.Inhabited sig)
    (ht : ∀ c ∈ clauses, ∀ p ∈ c.patterns, WellTyped (s.variants[·]?) sig p t)
    (hl : ∀ c ∈ clauses, ∀ p ∈ c.patterns, LiteralFree p) (literal : Syntax.Literal → Value → Prop)
    (info : Syntax.Info) :
    ((∃ d ∈ reports (checkCoverage info clauses) s, d.cause = .nonExhaustiveMatch) →
      ∃ w, w.HasType sig t ∧ ¬ SomePattern clauses (Matches (s.variants[·]?) literal · w)) ∧
    ∀ before c after, clauses = before ++ c :: after → c.patterns ≠ [] →
      (∀ w, w.HasType sig t → (∃ p ∈ c.patterns, Matches (s.variants[·]?) literal p w) →
        SomePattern before (Matches (s.variants[·]?) literal · w)) →
      ∃ d rest, reports (checkCoverage info clauses) s =
          unreachableOnly (reports (checkCoverage info before) s) ++ d :: rest ∧
        d.cause = .unreachablePattern ∧ d.range = c.patterns.head?.map (·.info.range) := by
  have hagree : ∀ cs : List Syntax.Arm, (∀ c ∈ cs, c ∈ clauses) → ∀ w path, w.HasType sig t → Branch w path →
      SomePattern cs (Matches (s.variants[·]?) literal · w) → Coverage.Agree (coverageClauses s cs) path w := by
    rintro cs hcs w path hw hb ⟨c, hc, hguard, p, hp, hm⟩
    rw [agree_coverageClauses (fun c hc => ht c (hcs c hc)) hw hb]
    exact ⟨c, hc, hguard, p, hp, hm.agrees (hl c (hcs c hc) p hp) hb⟩
  constructor
  · rw [nonExhaustive_iff]
    intro hne
    obtain ⟨w, path, hw, hb, hnot⟩ :=
      (Coverage.run_adds _ (coverageClauses_typed ht) (.unmatched t)).fits.exists_uncovered hi hne
    refine ⟨w, hw, fun hsome => hnot ?_⟩
    rw [Coverage.covers_run (coverageClauses_typed ht) hw hb]
    exact hagree clauses (fun _ h => h) w path hw hb hsome
  · rintro before c after rfl hne hdead
    have hc : c ∈ before ++ c :: after := by simp
    have hbefore : ∀ b ∈ before, b ∈ before ++ c :: after := fun b hb => List.mem_append_left _ hb
    have hrun := Coverage.unreachable_of_agree (c := ⟨c.guard.isSome, c.patterns.map (shapeOf (s.variants[·]?))⟩) hi
      (coverageClauses_typed fun b hb => ht b (hbefore b hb)) (by simpa using hne)
      (by
        intro q hq
        obtain ⟨p, hp, rfl⟩ := List.mem_map.mp hq
        exact ⟨shapeOf_typed (ht c hc p hp), literalFree_shapeOf (ht c hc p hp) (hl c hc p hp)⟩)
      (by
        intro q hq w path hw hb hm
        obtain ⟨p, hp, rfl⟩ := List.mem_map.mp hq
        exact hagree before hbefore w path hw hb
          (hdead w hw ⟨p, hp, matches_of_shapeOf (ht c hc p hp) literal hw hm⟩))
    obtain ⟨rest, hreports⟩ := unreachableReports_append after hrun
    rw [unreachableOnly_reports, reports_checkCoverage, hreports, List.append_assoc, List.cons_append]
    exact ⟨unreachableAt s c, _, rfl, rfl, by simp [unreachableAt, diagnosticAt, Function.comp_def]⟩

end Match

namespace FlagPair

lemma inhabited : Coverage.Inhabited sig := by
  intro t
  by_cases hflag : ∃ args, t = .named flagDecl.path args
  · obtain ⟨args, rfl⟩ := hflag
    exact ⟨.variant "True" [], .mk rfl (by simp) trivial⟩
  by_cases hpair : ∃ args, t = .named pairDecl.path args
  · obtain ⟨args, rfl⟩ := hpair
    exact ⟨pairValue "True" "True",
      .mk rfl (by simp) ⟨rfl, .mk rfl (by simp) trivial, rfl, .mk rfl (by simp) trivial, trivial⟩⟩
  · refine ⟨.atom 0, fun d hd => ?_⟩
    have hnone : sig t = none := by
      cases t with
      | named p args =>
        have h₁ : p ≠ flagDecl.path := fun h => hflag ⟨args, by rw [h]⟩
        have h₂ : p ≠ pairDecl.path := fun h => hpair ⟨args, by rw [h]⟩
        simp [sig, h₁, h₂]
      | _ => rfl
    simp [hnone] at hd

/-- `Pair(a: True)` and `Pair(a: True, b: False)`. -/
def narrowed : List Syntax.Arm :=
  [clause (node 1 [flagField "a" 2]), clause (node 4 [flagField "a" 6, flagField "b" 5])]

lemma narrowed_typed : ∀ c ∈ narrowed, ∀ p ∈ c.patterns, WellTyped (resolved.variants[·]?) sig p pair := by
  obtain ⟨h₁, h₄⟩ := resolved_pair
  obtain ⟨h₂, -, h₅, h₆⟩ := resolved_flag
  simpa [narrowed, clause] using
    ⟨pair_typed h₁ (by simp) (by simpa [flagField] using flagField_typed h₂ (by simp)),
      pair_typed h₄ (by simp [flagField])
        (by simpa [flagField] using ⟨flagField_typed h₆ (by simp), flagField_typed h₅ (by simp)⟩)⟩

lemma node_literalFree (id : Nat) {fields : List (FieldPattern Pattern)}
    (h : ∀ fp p, fp ∈ fields → fp.pattern = some p → LiteralFree p) : LiteralFree (node id fields) :=
  .variant h

lemma narrowed_literalFree : ∀ c ∈ narrowed, ∀ p ∈ c.patterns, LiteralFree p := by
  have hleaf : ∀ id, LiteralFree (node id []) := fun id => node_literalFree id (by simp)
  have hfields : ∀ fields : List (FieldPattern Pattern), (∀ fp ∈ fields, ∃ f id, fp = flagField f id) →
      ∀ fp p, fp ∈ fields → fp.pattern = some p → LiteralFree p := by
    intro fields h fp p hfp hp
    obtain ⟨f, id, rfl⟩ := h fp hfp
    cases hp
    exact hleaf id
  simpa [narrowed, clause] using
    ⟨node_literalFree 1 (hfields _ (by simp)), node_literalFree 4 (hfields _ (by simp))⟩

lemma narrowed_not_exhaustive :
    ∃ d ∈ reports (checkCoverage {} narrowed) resolved, d.cause = .nonExhaustiveMatch := by
  obtain ⟨h₁, h₄⟩ := resolved_pair
  obtain ⟨h₂, -, h₅, h₆⟩ := resolved_flag
  rw [nonExhaustive_iff]
  simp only [coverageClauses, narrowed, clause, node, flagField, List.map_cons, List.map_nil, shapeOf, fieldShapes,
    h₁, h₂, h₄, h₅, h₆]
  decide +kernel

lemma narrowed_dead {literal : Syntax.Literal → Value → Prop} {w : Value}
    (h : ∃ p ∈ (clause (node 4 [flagField "a" 6, flagField "b" 5])).patterns,
      Matches (resolved.variants[·]?) literal p w) :
    SomePattern [clause (node 1 [flagField "a" 2])] (Matches (resolved.variants[·]?) literal · w) := by
  obtain ⟨h₁, h₄⟩ := resolved_pair
  obtain ⟨h₂, -, -, h₆⟩ := resolved_flag
  obtain ⟨p, hp, hm⟩ := h
  obtain rfl := List.mem_singleton.mp hp
  cases hm with
  | @variant _ _ _ d v ws hv hps =>
    obtain ⟨rfl, rfl⟩ : pairDecl = d ∧ pairVariant = v := by simpa using h₄.symm.trans hv
    refine ⟨_, List.mem_singleton_self _, rfl, _, List.mem_singleton_self _, .variant h₁ fun fp p w hfp hp hw => ?_⟩
    obtain rfl := List.mem_singleton.mp hfp
    cases hp
    have hm := hps (flagField "a" 6) (node 6 []) w (by simp) rfl hw
    cases hm with
    | @variant _ _ _ _ v' ws' hv' _ =>
      have hname : v'.name = "True" := congrArg (·.2.name) (Option.some.inj (hv'.symm.trans h₆))
      rw [hname]
      exact .variant (v := ⟨{}, "True", []⟩) h₂ (by simp)

theorem narrowed_reported :
    (∃ w, w.HasType sig pair ∧
      ¬ SomePattern narrowed (Matches (resolved.variants[·]?) (fun _ _ => False) · w)) ∧
    ∃ d rest, reports (checkCoverage {} narrowed) resolved =
        unreachableOnly (reports (checkCoverage {} [clause (node 1 [flagField "a" 2])]) resolved) ++ d :: rest ∧
      d.cause = .unreachablePattern ∧ d.range = some (node 4 []).info.range := by
  obtain ⟨halarm, hdead⟩ :=
    reports_true_and_complete inhabited narrowed_typed narrowed_literalFree (fun _ _ => False) {}
  refine ⟨halarm narrowed_not_exhaustive, ?_⟩
  exact hdead [clause (node 1 [flagField "a" 2])] _ [] rfl (by simp [clause]) fun w _ h => narrowed_dead h

end FlagPair

end TraitCheck.Check
