import TraitCheck.Proofs.Coverage.Guards

/-! What a clause that is reported as unreachable matches was matched before, if variants have one field at most. Of two
patterns for one field coverage sees only the last, so the clauses before must not name a field twice. -/

namespace TraitCheck.Coverage

variable {sig : Signature}

lemma coverFields_unaffected {exhaust : Bool} {ps : List (String × Shape)} {us : List (String × Tree)}
    (h : (coverFields exhaust ps us).2 = false) {f : String} {p : Shape} (hp : ps.lookup f = some p) :
    (p.cover exhaust (get f us)).2 = false := by
  induction ps generalizing us with
  | nil => simp at hp
  | cons e ps ih =>
    obtain ⟨n, q⟩ := e
    obtain ⟨hhere, hlater⟩ : (q.cover exhaust (get n us)).2 = false ∧
        (coverFields exhaust ps (set n (q.cover exhaust (get n us)).1 us)).2 = false := by
      simpa [coverFields] using h
    rw [List.lookup_cons] at hp
    cases hn : f == n with
    | true =>
      simp only [hn, Option.some.injEq] at hp
      rwa [beq_iff_eq.mp hn, ← hp]
    | false =>
      simp only [hn] at hp
      have hrest := ih hlater hp
      rwa [get_set_ne (by simpa using hn)] at hrest

lemma covers_of_unaffected (exhaust : Bool) {p : Shape} {t : Ty} {tree : Tree} (hp : p.Typed sig t)
    (ht : tree.Fits sig t) (ha : (p.cover exhaust tree).2 = false) {v : Value} {path : List String}
    (hv : v.HasType sig t) (hb : Branch v path) (hagrees : p.Agrees path v) : tree.Covers path v := by
  induction hp generalizing tree v path with
  | any t =>
    cases hc : tree.isCovered with
    | true =>
      obtain rfl := eq_exhaustive hc
      exact covers_exhaustive path v
    | false => simp [Shape.cover, hc] at ha
  | literal t => cases path <;> simp [Shape.Agrees] at hagrees
  | @variant t d name ps hd hname hnames hone hps ih =>
    cases hc : tree.isCovered with
    | true =>
      obtain rfl := eq_exhaustive hc
      exact covers_exhaustive path v
    | false =>
      obtain ⟨hopen, hsame⟩ := ht.opened hd (List.ne_nil_of_mem hname) hc
      rw [← hsame]
      cases v with
      | atom i => cases path <;> simp [Shape.Agrees] at hagrees
      | variant n vs =>
        obtain rfl : n = name := by
          by_contra hne
          exact not_agrees_other hne _ _ _ hagrees
        cases hch : (get n (tree.variantsOf d.shape)).isCovered with
        | true => exact covers_of_child_exhaustive _ _ (eq_exhaustive hch) _
        | false =>
          rw [cover_open exhaust hc hch] at ha
          obtain ⟨hne, hfields⟩ := Bool.or_eq_false_iff.mp ha
          obtain ⟨-, hvs⟩ := hv.declared hd
          cases hb with
          | constant =>
            have hnone : ps.map (·.1) = [] := hnames.trans hvs.names.symm
            simp [List.map_eq_nil_iff.mp hnone] at hne
          | @field _ f _ w path hw hb =>
            obtain ⟨p, w', hp, hw', hagrees⟩ := (agrees_field _ _ _ _ _ _).mp hagrees
            obtain rfl : w = w' := Option.some.inj (hw.symm.trans hw')
            obtain ⟨u, hu, hwu⟩ := hvs.lookup hw
            have hmem : (f, p) ∈ ps := by
              obtain ⟨l₁, l₂, rfl, -⟩ := List.lookup_eq_some_iff.mp hp
              simp
            obtain ⟨-, hfits, hcov⟩ := hopen.fields_opened hd hch
            rw [← hnames] at hfits hcov
            rw [hcov]
            exact ⟨w, hw, ih f p u hmem hu (hfits f u hu) (coverFields_unaffected hfields hp) hwu hb hagrees⟩

lemma affected_foldl (exhaust : Bool) (ps : List Shape) (tree : Tree) :
    (ps.foldl (fun acc p => ((p.cover exhaust acc.1).1, acc.2 || (p.cover exhaust acc.1).2)) (tree, true)).2 = true := by
  induction ps generalizing tree with
  | nil => rfl
  | cons p ps ih => exact ih _

lemma Clause.covers_of_unreachable {t : Ty} {c : Clause} (hc : ∀ p ∈ c.patterns, p.Typed sig t) {tree : Tree}
    (ht : tree.Fits sig t) (hr : (c.run tree).2 = false) {p : Shape} (hp : p ∈ c.patterns) {v : Value}
    {path : List String} (hv : v.HasType sig t) (hb : Branch v path) (hagrees : p.Agrees path v) :
    tree.Covers path v := by
  rw [Clause.run, List.isEmpty_eq_false_iff.mpr (List.ne_nil_of_mem hp)] at hr
  generalize c.patterns = ps at hc hp hr
  induction ps generalizing tree with
  | nil => cases hp
  | cons q ps ih =>
    have hq := hc q (by simp)
    rw [List.foldl_cons] at hr
    cases ha : (q.cover (!c.guarded) tree).2 with
    | true =>
      simp only [ha, Bool.false_or] at hr
      exact absurd hr (by simp [affected_foldl])
    | false =>
      rcases List.mem_cons.mp hp with rfl | hp
      · exact covers_of_unaffected _ hq ht ha hv hb hagrees
      · have hadds := cover_adds (!c.guarded) q hq ht
        have hlater := ih hadds.fits (fun r hr => hc r (List.mem_cons_of_mem _ hr)) hp (by simpa [ha] using hr)
        -- what the first pattern adds was covered before
        rcases (hadds.covers hv hb).mp hlater with hbefore | ⟨-, hfirst⟩
        · exact hbefore
        · exact covers_of_unaffected _ hq ht ha hv hb hfirst

def OneField (sig : Signature) : Prop := ∀ u d, sig u = some d → ∀ n ∈ d.shape.variants, (d.fields n).length ≤ 1

lemma lookup_unique {α : Type} {l : List (String × α)} (hl : l.length ≤ 1) {f g : String} {a b : α}
    (ha : l.lookup f = some a) (hb : l.lookup g = some b) : g = f ∧ b = a := by
  have hmem : ∀ {h : String} {c : α}, l.lookup h = some c → l = [(h, c)] := by
    intro h c hc
    obtain ⟨l₁, l₂, rfl, -⟩ := List.lookup_eq_some_iff.mp hc
    obtain ⟨rfl, rfl⟩ : l₁ = [] ∧ l₂ = [] := by
      simp only [List.length_append, List.length_cons] at hl
      exact ⟨List.length_eq_zero_iff.mp (by omega), List.length_eq_zero_iff.mp (by omega)⟩
    rfl
  have heq := (hmem hb).symm.trans (hmem ha)
  simpa using heq

lemma matches_of_agrees (hsingle : OneField sig) {p : Shape} {t : Ty} (hp : p.Typed sig t) {v : Value}
    {path : List String} (hv : v.HasType sig t) (hb : Branch v path) (hagrees : p.Agrees path v) : p.Matches v := by
  induction hp generalizing v path with
  | any t => exact .any v
  | literal t => cases path <;> simp [Shape.Agrees] at hagrees
  | @variant t d name ps hd hname hnames hone hps ih =>
    cases v with
    | atom i => cases path <;> simp [Shape.Agrees] at hagrees
    | variant n vs =>
      obtain rfl : n = name := by
        by_contra hne
        exact not_agrees_other hne _ _ _ hagrees
      obtain ⟨-, hvs⟩ := hv.declared hd
      refine .variant fun g q x hq hx => ?_
      cases hb with
      | constant => cases hx
      | @field _ f _ w path hw hb =>
        obtain ⟨p, w', hp, hw', hagrees⟩ := (agrees_field _ _ _ _ _ _).mp hagrees
        obtain rfl : w = w' := Option.some.inj (hw.symm.trans hw')
        have hlength : vs.length ≤ 1 := by
          have hsame := congrArg List.length hvs.names
          simp only [List.length_map] at hsame
          exact hsame ▸ hsingle t d hd n hname
        obtain ⟨rfl, rfl⟩ := lookup_unique hlength hw hx
        obtain ⟨u, hu, hwu⟩ := hvs.lookup hw
        obtain rfl : p = q := Option.some.inj (hp.symm.trans (hone g q hq))
        exact ih g p u hq hu hwu hb hagrees

end TraitCheck.Coverage

namespace TraitCheck.Check

open Syntax (Pattern FieldPattern)
open Coverage (Signature Declaration Value Branch Shape OneField)

/-! ### Patterns -/

section Patterns

variable (variant? : Nat → Option (TypeDecl × Syntax.Variant))

/-- Patterns that name no field twice. -/
inductive NamesOnce : Pattern → Prop
  | bind (info : Syntax.Info) (name : String) : NamesOnce (.bind info name)
  | hole (info : Syntax.Info) : NamesOnce (.hole info)
  | literal (info : Syntax.Info) (l : Syntax.Literal) : NamesOnce (.literal info l)
  | variant {info : Syntax.Info} {ident : Syntax.Ident} {fields : List (FieldPattern Pattern)}
      (honce : (fields.map (·.name)).Nodup) (hps : ∀ fp p, fp ∈ fields → fp.pattern = some p → NamesOnce p) :
      NamesOnce (.variant info ident fields)

variable {variant?} {sig : Signature} {p : Pattern} {t : Ty}

lemma FitsType.wellTyped (h : FitsType variant? sig p t) (honce : NamesOnce p) : WellTyped variant? sig p t := by
  induction h with
  | bind info name t => exact .bind info name t
  | hole info t => exact .hole info t
  | literal info l t => exact .literal info l t
  | variant hv hd hshape hname hfields hps ih =>
    cases honce with
    | variant hnodup hall =>
      exact .variant hv hd hshape hname hfields hnodup fun fp p u hfp hp hu => ih fp p u hfp hp hu (hall fp p hfp hp)

lemma FitsType.agrees_of_matches (h : FitsType variant? sig p t) (hl : LiteralFree p)
    {literal : Syntax.Literal → Value → Prop} {w : Value} (hw : w.HasType sig t) (hm : Matches variant? literal p w)
    {path : List String} (hb : Branch w path) : (shapeOf variant? p).Agrees path w := by
  induction h generalizing w path with
  | bind => simp [shapeOf]
  | hole => simp [shapeOf]
  | literal => cases hl
  | @variant info ident fields t d v decl hv hd hshape hname hfields hps ih =>
    rw [shapeOf_variant hv]
    cases hm with
    | @variant _ _ _ d' v' ws hv' hall =>
      obtain ⟨rfl, rfl⟩ : d = d' ∧ v = v' := by simpa using hv.symm.trans hv'
      obtain ⟨-, hws⟩ := hw.declared hd
      cases hb with
      | constant => simp [Shape.Agrees]
      | @field _ f _ w path hf hb =>
        obtain ⟨u, hu, hwu⟩ := hws.lookup hf
        have hdeclared : f ∈ v.fields.map (·.name) := hfields ▸ Coverage.mem_names_of_lookup hu
        rw [Coverage.agrees_field]
        refine ⟨_, w, lookup_seen hdeclared fields, hf, ?_⟩
        rcases seen_mem variant? fields f with ⟨fp, p, hfp, rfl, hp, hseen⟩ | hseen
        · rw [hseen]
          cases hl with
          | variant hfree => exact ih fp p u hfp hp hu (hfree fp p hfp hp) hwu (hall fp p w hfp hp hf) hb
        · rw [hseen]
          exact Coverage.agrees_any path w

end Patterns

/-! ### Reports -/

section Match

variable {sig : Signature} {t : Ty} {s : State} {clauses : List Syntax.Arm}

lemma unreachable_of_marked {before after : List (Syntax.Arm × Bool)} {c : Syntax.Arm}
    (h : marked s clauses = before ++ (c, false) :: after) :
    (Coverage.Clause.run ⟨c.guard.isSome, c.patterns.map (shapeOf (s.variants[·]?))⟩
      (Coverage.run (coverageClauses s (before.map (·.1))) .unmatched).2).2 = false := by
  have hclauses : clauses = before.map (·.1) ++ c :: after.map (·.1) := by
    rw [← map_fst_marked s clauses, h]
    simp
  have hlength : (before.map (·.1)).length = (Coverage.run (coverageClauses s (before.map (·.1))) .unmatched).1.length := by
    simp [Coverage.length_reachable, coverageClauses]
  subst hclauses
  simp only [marked, Coverage.check, coverageClauses, List.map_append, List.map_cons, Coverage.run_append,
    Coverage.run] at h hlength ⊢
  rw [List.zip_append hlength, List.zip_cons_cons] at h
  have hrest := (List.append_inj h (by rw [List.length_zip, ← hlength, Nat.min_self, List.length_map])).2
  obtain ⟨hmark, -⟩ := List.cons.inj hrest
  exact (Prod.mk.inj hmark).2

/-- Where variants have one field at most, what a clause reported as unreachable matches is matched before it by a
pattern without a guard, if no such pattern names a field twice. -/
theorem unreachable_matched_before (hsingle : OneField sig)
    (ht : ∀ c ∈ clauses, ∀ p ∈ c.patterns, FitsType (s.variants[·]?) sig p t)
    (hl : ∀ c ∈ clauses, ∀ p ∈ c.patterns, LiteralFree p) (literal : Syntax.Literal → Value → Prop)
    (info : Syntax.Info) :
    unreachableOnly (reports (checkCoverage info clauses) s) =
      ((marked s clauses).filter (!·.2)).map (fun a => unreachableAt s a.1) ∧
    ∀ before c after, marked s clauses = before ++ (c, false) :: after →
      (∀ b ∈ before.map (·.1), b.guard = none → ∀ p ∈ b.patterns, NamesOnce p) →
      ∀ w, w.HasType sig t → (∃ p ∈ c.patterns, Matches (s.variants[·]?) literal p w) →
        SomePattern (before.map (·.1)) (Matches (s.variants[·]?) literal · w) := by
  refine ⟨reports_marked info clauses s, fun before c after hmarked honce w hw ⟨p, hp, hm⟩ => ?_⟩
  have hclauses : before.map (·.1) ++ c :: after.map (·.1) = clauses := by
    rw [← map_fst_marked s clauses, hmarked]
    simp
  have hc : c ∈ clauses := hclauses ▸ by simp
  have hbefore : ∀ b ∈ before.map (·.1), b ∈ clauses := fun b hb => hclauses ▸ List.mem_append_left _ hb
  have htyped : ∀ b ∈ coverageClauses s (before.map (·.1)), ∀ q ∈ b.patterns, q.Typed sig t := by
    intro b hb q hq
    obtain ⟨arm, harm, rfl⟩ := List.mem_map.mp hb
    obtain ⟨p, hp, rfl⟩ := List.mem_map.mp hq
    exact (ht arm (hbefore arm harm) p hp).typed
  have htypedc : ∀ q ∈ c.patterns.map (shapeOf (s.variants[·]?)), q.Typed sig t := by
    intro q hq
    obtain ⟨p, hp, rfl⟩ := List.mem_map.mp hq
    exact (ht c hc p hp).typed
  -- a value has a single branch, and what covers it matches it
  obtain ⟨path, hb⟩ := Coverage.exists_branch w
  have hcovers := Coverage.Clause.covers_of_unreachable htypedc (Coverage.run_adds _ htyped (.unmatched t)).fits
    (unreachable_of_marked hmarked) (List.mem_map_of_mem hp) hw hb
    ((ht c hc p hp).agrees_of_matches (hl c hc p hp) hw hm hb)
  obtain ⟨_, hmem, hguard, _, hshape, hagrees⟩ := (Coverage.covers_run htyped hw hb).mp hcovers
  obtain ⟨b, hbmem, rfl⟩ := List.mem_map.mp hmem
  obtain ⟨q, hq, rfl⟩ := List.mem_map.mp hshape
  have hguard : b.guard = none := by simpa using hguard
  have hfits := ht b (hbefore b hbmem) q hq
  exact ⟨b, hbmem, hguard, q, hq, matches_of_shapeOf (hfits.wellTyped (honce b hbmem hguard q hq)) literal hw
    (Coverage.matches_of_agrees hsingle hfits.typed hw hb hagrees)⟩

end Match

/-! ### A flag in a box -/

namespace FlagBox

open FlagPair (flagDecl flag node flagField clause)

def boxVariant : Syntax.Variant := ⟨{}, "Box", [⟨{}, true, "a", none⟩]⟩

def boxDecl : TypeDecl := ⟨⟨{ id := 3 }, true, "Box", [], [boxVariant]⟩, ⟨["Box"]⟩, 0⟩

def box : Ty := .named boxDecl.path []

def sig : Signature
  | .named p _ =>
    if p = flagDecl.path then some ⟨⟨1, ["True", "False"]⟩, fun _ => []⟩
    else if p = boxDecl.path then some ⟨⟨3, ["Box"]⟩, fun _ => [("a", flag)]⟩
    else none
  | _ => none

def boxValue (a : String) : Value := .variant "Box" [("a", .variant a [])]

def resolved : State :=
  { variants := .ofList
      [(1, boxDecl, boxVariant), (2, flagDecl, ⟨{}, "True", []⟩), (3, flagDecl, ⟨{}, "False", []⟩),
        (4, boxDecl, boxVariant), (5, flagDecl, ⟨{}, "False", []⟩), (6, boxDecl, boxVariant)] }

/-- `Box(a: True, a: False)` and then `Box(a: False)`. -/
def twice : List Syntax.Arm :=
  [clause (node 1 [flagField "a" 2, flagField "a" 3]), clause (node 4 [flagField "a" 5])]

/-- `Box(a: True)`, `Box(a: False)` and then `Box`. -/
def halves : List Syntax.Arm :=
  [clause (node 1 [flagField "a" 2]), clause (node 4 [flagField "a" 5]), clause (node 6 [])]

lemma resolved_box : resolved.variants[1]? = some (boxDecl, boxVariant) ∧
    resolved.variants[4]? = some (boxDecl, boxVariant) ∧ resolved.variants[6]? = some (boxDecl, boxVariant) :=
  ⟨rfl, rfl, rfl⟩

lemma resolved_flag : resolved.variants[2]? = some (flagDecl, ⟨{}, "True", []⟩) ∧
    resolved.variants[3]? = some (flagDecl, ⟨{}, "False", []⟩) ∧
    resolved.variants[5]? = some (flagDecl, ⟨{}, "False", []⟩) :=
  ⟨rfl, rfl, rfl⟩

lemma oneField : OneField sig := by
  intro u d hd n hn
  cases u with
  | named p args =>
    simp only [sig] at hd
    split at hd
    · obtain rfl := Option.some.inj hd
      simp
    · split at hd
      · obtain rfl := Option.some.inj hd
        simp
      · cases hd
  | _ => cases hd

lemma flag_fits {id : Nat} {name : String} (h : resolved.variants[id]? = some (flagDecl, ⟨{}, name, []⟩))
    (hn : name ∈ ["True", "False"]) : FitsType (resolved.variants[·]?) sig (node id []) flag :=
  .variant h rfl rfl hn rfl (by simp)

lemma box_fits {id : Nat} {fields : List (FieldPattern Pattern)}
    (h : resolved.variants[id]? = some (boxDecl, boxVariant))
    (hps : ∀ fp ∈ fields, ∀ p, fp.pattern = some p → FitsType (resolved.variants[·]?) sig p flag) :
    FitsType (resolved.variants[·]?) sig (node id fields) box := by
  refine .variant h rfl rfl (by simp [boxVariant]) rfl fun fp p u hfp hp hu => ?_
  obtain rfl : flag = u := by
    simp only [List.lookup_cons, List.lookup_nil] at hu
    split at hu
    · exact Option.some.inj hu
    · cases hu
  exact hps fp hfp p hp

lemma literalFree_flags {id : Nat} {fields : List (FieldPattern Pattern)}
    (h : ∀ fp ∈ fields, ∃ f id, fp = flagField f id) : LiteralFree (node id fields) := by
  refine .variant fun fp p hfp hp => ?_
  obtain ⟨f, id, rfl⟩ := h fp hfp
  cases hp
  exact .variant (by simp)

lemma boxValue_typed {a : String} (ha : a ∈ ["True", "False"]) : (boxValue a).HasType sig box :=
  .mk rfl (by simp) ⟨rfl, .mk rfl ha trivial, trivial⟩

lemma matches_flag {id : Nat} {name : String} {literal : Syntax.Literal → Value → Prop}
    (h : resolved.variants[id]? = some (flagDecl, ⟨{}, name, []⟩)) :
    Matches (resolved.variants[·]?) literal (node id []) (.variant name []) :=
  .variant (v := ⟨{}, name, []⟩) h (by simp)

lemma matches_box {id : Nat} {fields : List (FieldPattern Pattern)} {a : String}
    {literal : Syntax.Literal → Value → Prop} (h : resolved.variants[id]? = some (boxDecl, boxVariant))
    (hps : ∀ fp ∈ fields, ∀ p, fp.pattern = some p → Matches (resolved.variants[·]?) literal p (.variant a [])) :
    Matches (resolved.variants[·]?) literal (node id fields) (boxValue a) := by
  refine .variant (v := boxVariant) h fun fp p w hfp hp hw => ?_
  obtain rfl : Value.variant a [] = w := by
    simp only [List.lookup_cons, List.lookup_nil] at hw
    split at hw
    · exact Option.some.inj hw
    · cases hw
  exact hps fp hfp p hp

lemma twice_reachable : (Coverage.check (coverageClauses resolved twice)).reachable = [true, false] := by
  obtain ⟨h₁, h₄, -⟩ := resolved_box
  obtain ⟨h₂, h₃, h₅⟩ := resolved_flag
  simp only [coverageClauses, twice, clause, node, flagField, List.map_cons, List.map_nil, shapeOf, fieldShapes,
    h₁, h₂, h₃, h₄, h₅]
  decide +kernel

lemma halves_reachable : (Coverage.check (coverageClauses resolved halves)).reachable = [true, true, false] := by
  obtain ⟨h₁, h₄, h₆⟩ := resolved_box
  obtain ⟨h₂, -, h₅⟩ := resolved_flag
  simp only [coverageClauses, halves, clause, node, flagField, List.map_cons, List.map_nil, shapeOf, fieldShapes,
    h₁, h₂, h₄, h₅, h₆]
  decide +kernel

theorem halves_matched_before :
    SomePattern (halves.take 2) (Matches (resolved.variants[·]?) (fun _ _ => False) · (boxValue "False")) := by
  obtain ⟨h₁, h₄, h₆⟩ := resolved_box
  obtain ⟨h₂, -, h₅⟩ := resolved_flag
  have hfits : ∀ c ∈ halves, ∀ p ∈ c.patterns, FitsType (resolved.variants[·]?) sig p box := by
    simpa [halves, clause] using
      ⟨box_fits h₁ (by simpa [flagField] using flag_fits h₂ (by simp)),
        box_fits h₄ (by simpa [flagField] using flag_fits h₅ (by simp)), box_fits h₆ (by simp)⟩
  have hfree : ∀ c ∈ halves, ∀ p ∈ c.patterns, LiteralFree p := by
    simpa [halves, clause] using
      ⟨literalFree_flags (by simp), literalFree_flags (by simp), literalFree_flags (by simp)⟩
  have hmarked : marked resolved halves =
      [(clause (node 1 [flagField "a" 2]), true), (clause (node 4 [flagField "a" 5]), true)] ++
        (clause (node 6 []), false) :: [] := by
    rw [marked, halves_reachable]
    rfl
  have honce : ∀ id below, NamesOnce (node id [flagField "a" below]) := by
    refine fun id below => .variant (by simp) fun fp p hfp hp => ?_
    obtain rfl := List.mem_singleton.mp hfp
    cases hp
    exact .variant (by simp) (by simp)
  refine (unreachable_matched_before oneField hfits hfree (fun _ _ => False) {}).2 _ _ _ hmarked ?_ _
    (boxValue_typed (by simp)) ⟨node 6 [], by simp [clause], matches_box h₆ (by simp)⟩
  simpa [clause] using ⟨honce 1 2, honce 4 5⟩

/-- The first clause matches nothing, since the flag would have to be true and false, but only its second pattern for
the flag is seen, and so the second clause is reported. -/
theorem twice_unmatched_before :
    OneField sig ∧ (∀ c ∈ twice, ∀ p ∈ c.patterns, FitsType (resolved.variants[·]?) sig p box) ∧
    (∀ c ∈ twice, ∀ p ∈ c.patterns, LiteralFree p) ∧
    unreachableOnly (reports (checkCoverage {} twice) resolved) =
      [unreachableAt resolved (clause (node 4 [flagField "a" 5]))] ∧
    (boxValue "False").HasType sig box ∧
    ∀ literal, Matches (resolved.variants[·]?) literal (node 4 [flagField "a" 5]) (boxValue "False") ∧
      ∀ c ∈ twice.take 1, ∀ p ∈ c.patterns, ∀ w, w.HasType sig box → ¬ Matches (resolved.variants[·]?) literal p w := by
  obtain ⟨h₁, h₄, -⟩ := resolved_box
  obtain ⟨h₂, h₃, h₅⟩ := resolved_flag
  refine ⟨oneField, ?_, ?_, ?_, boxValue_typed (by simp), fun literal => ⟨?_, ?_⟩⟩
  · simpa [twice, clause] using
      ⟨box_fits h₁ (by simpa [flagField] using ⟨flag_fits h₂ (by simp), flag_fits h₃ (by simp)⟩),
        box_fits h₄ (by simpa [flagField] using flag_fits h₅ (by simp))⟩
  · simpa [twice, clause] using ⟨literalFree_flags (by simp), literalFree_flags (by simp)⟩
  · rw [reports_marked, marked, twice_reachable]
    rfl
  · exact matches_box h₄ (by simpa [flagField] using matches_flag h₅)
  · rintro c hc p hp w hw hm
    obtain rfl := List.mem_singleton.mp hc
    obtain rfl := List.mem_singleton.mp hp
    cases w with
    | atom i => cases hm
    | variant n ws =>
      have hws : Coverage.HaveTypes sig ws [("a", flag)] := (hw.declared rfl).2
      obtain ⟨x, hx⟩ := Coverage.exists_lookup hws.names.symm (List.mem_singleton_self ("a", flag))
      have htrue := hm.at_field List.mem_cons_self rfl hx
      have hfalse := hm.at_field (List.mem_cons_of_mem _ (List.mem_singleton_self _)) rfl hx
      cases x with
      | atom i => cases htrue
      | variant m vs => exact absurd ((htrue.name_eq h₂).symm.trans (hfalse.name_eq h₃)) (by simp)

end FlagBox

end TraitCheck.Check
