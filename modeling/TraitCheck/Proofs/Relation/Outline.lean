import TraitCheck.Proofs.Relation.Later
import TraitCheck.Proofs.Relation.Search
import TraitCheck.Proofs.Ty.Unify

/-! What a search knows of a type. It starts at a path without arguments, and what it does not know is a hole. If bounds
ask only for what can be answered in this way, then a search finds all chains that apply to the type. -/

namespace TraitCheck

/-! ### Outlines -/

def Ty.isLeaf : Ty → Bool
  | .named .. | .fn .. => false
  | _ => true

/-- A type with holes in the places of some parts, and without the arguments of `p`. -/
inductive Ty.Outline (p : Path) : Ty → Ty → Prop
  | leaf {t : Ty} (h : t.isLeaf = true) : Outline p t t
  | hole (t : Ty) : Outline p .hole t
  | bare (args : List Ty) : Outline p (.named p []) (.named p args)
  | named {q : Path} {as bs : List Ty} (hlen : as.length = bs.length) (h : ∀ d ∈ as.zip bs, Outline p d.1 d.2) :
      Outline p (.named q as) (.named q bs)
  | fn {gs : List (Generic Ty)} {as bs : List Ty} {r s : Ty} (hlen : as.length = bs.length)
      (h : ∀ d ∈ as.zip bs, Outline p d.1 d.2) (hr : Outline p r s) : Outline p (.fn gs as r) (.fn gs bs s)

def Bindings.Outline (p : Path) (b c : Bindings) : Prop :=
  ∀ name a, b.get? name = some a → ∃ t, c.get? name = some t ∧ a.Outline p t

variable {p q : Path} {a t : Ty} {as bs : List Ty} {b c d : Bindings}

lemma outline_zip_self {as : List Ty} (h : ∀ a ∈ as, a.Outline p a) : ∀ d ∈ as.zip as, d.1.Outline p d.2 := by
  intro d hd
  rw [List.zip_eq_zipWith, List.zipWith_self] at hd
  obtain ⟨a, ha, rfl⟩ := List.mem_map.mp hd
  exact h a ha

namespace Ty.Outline

lemma refl (p : Path) : (t : Ty) → t.Outline p t
  | .named _ args => .named rfl (outline_zip_self fun a _ => refl p a)
  | .fn _ ps r => .fn rfl (outline_zip_self fun a _ => refl p a) (refl p r)
  | .generic _ | .unknown | .closure _ _ | .hole | .absent | .ongoing _ => .leaf rfl

lemma absorbs (h : a.Outline p t) (ht : t.absorbs = true) : a.absorbs = true := by
  cases h with
  | leaf => exact ht
  | hole => rfl
  | _ => cases ht

lemma resultOf (h : a.Outline p t) : a.resultOf.Outline p t.resultOf := by
  cases h with
  | leaf => exact .refl p _
  | hole => exact .hole _
  | bare args => exact .bare args
  | named hlen h => exact .named hlen h
  | fn hlen h hr => exact .fn hlen h hr

lemma cases_named (h : a.Outline p (.named q bs)) : a = .hole ∨ ∃ as, a = .named q as := by
  cases h with
  | leaf h => cases h
  | hole => exact .inl rfl
  | bare | named => exact .inr ⟨_, rfl⟩

end Ty.Outline

lemma Bindings.Outline.extends (h : b.Outline p c) (hd : d.Extends c) : b.Outline p d := by
  intro name a ha
  obtain ⟨t, ht, hat⟩ := h name a ha
  exact ⟨t, hd name t ht, hat⟩

/-! ### Reading bindings off an outline -/

lemma Bindings.Outline.insertIfNew (h : b.Outline p c) (hat : a.Outline p t) {name : String} (hnew : c.get? name = none) :
    (b.insertIfNew name a).Outline p (c.insertIfNew name t) := by
  have hnew' : b.get? name = none := by
    cases hb : b.get? name with
    | none => rfl
    | some a =>
      obtain ⟨t, ht, -⟩ := h name a hb
      rw [hnew] at ht
      cases ht
  intro other u hu
  by_cases hother : other = name
  · subst hother
    rw [Bindings.get?_insertIfNew_of_none hnew'] at hu
    obtain rfl := Option.some.inj hu
    exact ⟨t, Bindings.get?_insertIfNew_of_none hnew t, hat⟩
  · rw [Bindings.get?_insertIfNew_of_ne _ hother] at hu
    rw [Bindings.get?_insertIfNew_of_ne _ hother]
    exact h other u hu

mutual

lemma unifyInto_outline {p : Path} {b c : Bindings} {a t : Ty} (param : Ty) (hparam : param.mentions.Nodup)
    (hnew : ∀ name ∈ param.mentions, c.get? name = none) (hbc : b.Outline p c) (hat : a.Outline p t) :
    (Ty.unifyInto b param a).Outline p (Ty.unifyInto c param t) := by
  cases param with
  | generic g =>
    rw [Ty.unifyInto, Ty.unifyInto]
    split_ifs with ha ht ht
    · exact hbc
    · exact hbc.extends (c.insertIfNew_extends g.name t)
    · exact absurd (hat.absorbs ht) ha
    · exact hbc.insertIfNew hat (hnew g.name (by simp [Ty.mentions]))
  | named _ params =>
    cases hat with
    | leaf h => cases a <;> first | exact hbc | cases h
    | hole => exact hbc.extends (Ty.unifyInto_extends c _ t)
    | bare args =>
      rw [Ty.unifyInto, Ty.unifyInto, Ty.unifyAllInto_nil]
      exact hbc.extends (Ty.unifyAllInto_extends c params args)
    | named hlen h => exact unifyAllInto_outline params hparam hnew hbc hlen h
    | fn => exact hbc
  | fn _ params r =>
    cases hat with
    | leaf h => cases a <;> first | exact hbc | cases h
    | hole => exact hbc.extends (Ty.unifyInto_extends c _ t)
    | fn hlen h hr =>
      obtain ⟨hparams, hresult, hdisjoint⟩ := List.nodup_append.mp hparam
      have hbc' := unifyAllInto_outline params hparams (fun name hname => hnew name (List.mem_append_left _ hname)) hbc hlen h
      rw [Ty.unifyInto, Ty.unifyInto]
      split_ifs with hpending
      · exact hbc'
      · rw [Ty.mentions, if_neg hpending] at hnew
        rw [if_neg hpending] at hresult hdisjoint
        refine unifyInto_outline r hresult (fun name hname => ?_) hbc' hr.resultOf
        rw [Ty.get?_unifyAllInto _ params _ fun hmem => hdisjoint name hmem name hname rfl]
        exact hnew name (List.mem_append_right _ hname)
    | _ => exact hbc
  | _ => exact hbc

lemma unifyAllInto_outline {p : Path} {b c : Bindings} {as bs : List Ty} (params : List Ty)
    (hparams : (Ty.mentionsAll params).Nodup) (hnew : ∀ name ∈ Ty.mentionsAll params, c.get? name = none)
    (hbc : b.Outline p c) (hlen : as.length = bs.length) (h : ∀ d ∈ as.zip bs, d.1.Outline p d.2) :
    (Ty.unifyAllInto b params as).Outline p (Ty.unifyAllInto c params bs) := by
  match params, as, bs with
  | param :: params, a :: as, t :: bs =>
    obtain ⟨hparam, hrest, -⟩ := List.nodup_append.mp hparams
    obtain ⟨hfirst, h⟩ := List.forall_mem_cons.mp h
    have hbc' := unifyInto_outline param hparam (fun name hname => hnew name (List.mem_append_left _ hname)) hbc hfirst
    exact unifyAllInto_outline params hrest (Ty.get?_unifyInto_rest hparams hnew t) hbc' (by simpa using hlen) h
  | [], _, _ => exact hbc
  | _ :: _, [], [] => exact hbc

end

/-! ### Replacing generics -/

mutual

lemma replace_outline {p : Path} {f g : Generic Ty → Ty} (hfg : ∀ x, (f x).Outline p (g x)) (own : List String) (t : Ty) :
    (t.replace f own).Outline p (t.replace g own) := by
  cases t with
  | generic x =>
    rw [Ty.replace, Ty.replace]
    split_ifs
    · exact .refl p _
    · exact hfg x
  | named q args =>
    rw [Ty.replace, Ty.replace]
    exact .named (by simp [replaceAll_eq_map]) (replaceAll_outline hfg own args)
  | fn gs ps r =>
    rw [Ty.replace, Ty.replace]
    refine .fn (by simp [replaceAll_eq_map]) (replaceAll_outline hfg _ ps) ?_
    split_ifs
    · exact .refl p _
    · exact replace_outline hfg _ r
  | _ => exact .refl p _

lemma replaceAll_outline {p : Path} {f g : Generic Ty → Ty} (hfg : ∀ x, (f x).Outline p (g x)) (own : List String)
    (ts : List Ty) : ∀ d ∈ (Ty.replaceAll f own ts).zip (Ty.replaceAll g own ts), d.1.Outline p d.2 := by
  match ts with
  | [] => simp [Ty.replaceAll]
  | t :: ts =>
    rw [Ty.replaceAll, Ty.replaceAll, List.zip_cons_cons, List.forall_mem_cons]
    exact ⟨replace_outline hfg own t, replaceAll_outline hfg own ts⟩

end

lemma Bindings.Outline.substituteOrHole (h : b.Outline p c) (t : Ty) :
    (t.substituteOrHole [b]).Outline p (t.substituteOrHole [c]) := by
  refine replace_outline (fun x => ?_) [] t
  cases hx : b.get? x.name with
  | none => simpa [Bindings.lookupIn, hx] using .hole _
  | some a =>
    obtain ⟨t, ht, hat⟩ := h x.name a hx
    simpa [Bindings.lookupIn, hx, ht] using hat

/-! ### Bounds that an outline answers -/

/-- Types without generics and functions in which `p` has no arguments. -/
inductive Ty.Sparing (p : Path) : Ty → Prop
  | named {q : Path} {args : List Ty} (hp : q = p → args = []) (h : ∀ a ∈ args, Sparing p a) : Sparing p (.named q args)
  | absorbs {t : Ty} (h : t.absorbs = true) : Sparing p t

/-- A relation whose for-type has each generic once, and whose bounds do not depend on the arguments of `p` or on other
generics. -/
structure Relation.Uniform (p : Path) (r : Relation) : Prop where
  linear : r.forType.mentions.Nodup
  bounds : ∀ g ∈ r.generics, ∀ u ∈ g.bounds, u.Sparing p

lemma Ty.Sparing.replace {u : Ty} (h : u.Sparing p) (f : Generic Ty → Ty) : u.replace f [] = u := by
  induction h with
  | @named q args _ _ ih =>
    rw [Ty.replace, replaceAll_eq_map, List.map_congr_left ih, List.map_id']
  | @absorbs u h => cases u <;> first | rfl | cases h

def Milder (p : Path) (d e : Ty × Ty) : Prop := d.1.Outline p e.1 ∧ d.2 = e.2 ∧ d.2.Sparing p

lemma demands_outline {r : Relation} (hr : r.Uniform p) (h : b.Outline p c) :
    ∀ d ∈ r.demands b, ∃ e ∈ r.demands c, Milder p d e := by
  intro d hd
  obtain ⟨g, hg, hd⟩ := List.mem_flatMap.mp hd
  cases hvalue : b.get? g.name with
  | none => simp [hvalue] at hd
  | some a =>
    rw [hvalue] at hd
    obtain ⟨u, hu, rfl⟩ := List.mem_map.mp hd
    obtain ⟨t, ht, hat⟩ := h g.name a hvalue
    have hsparing := hr.bounds g hg u hu
    have hsame (m : Bindings) : u.substitute [m] = u := hsparing.replace _
    refine ⟨(t, u.substitute [c]), List.mem_flatMap.mpr ⟨g, hg, ?_⟩, hat, ?_, ?_⟩
    · rw [ht]
      exact List.mem_map.mpr ⟨u, hu, rfl⟩
    · simp only [hsame]
    · simpa only [hsame] using hsparing

lemma Relation.Uniform.unify {r : Relation} (hr : r.Uniform p) (h : a.Outline p t) :
    (Ty.unify a r.forType).Outline p (Ty.unify t r.forType) :=
  unifyInto_outline r.forType hr.linear (fun _ _ => rfl) (fun _ _ h => by cases h) h

lemma Chain.outline {c : Chain} (hc : ∀ r ∈ c, r.Uniform p) (h : (Ty.named q as).Outline p (.named q bs)) :
    (∀ super, c.view (.named q bs) = some super → ∃ sketch, c.view (.named q as) = some sketch ∧ sketch.Outline p super) ∧
      ∀ d ∈ c.demands (.named q as), ∃ e ∈ c.demands (.named q bs), Milder p d e := by
  induction c generalizing q as bs with
  | nil =>
    refine ⟨fun super hsuper => ⟨_, rfl, ?_⟩, by simp [Chain.demands]⟩
    obtain rfl := Option.some.inj hsuper
    exact h
  | cons r c ih =>
    obtain ⟨hr, hc⟩ := List.forall_mem_cons.mp hc
    have hunify := hr.unify h
    obtain ⟨hviews, hdemands⟩ := ih hc (hunify.substituteOrHole r.target)
    have hmatches : r.matches (.named q as) = r.matches (.named q bs) := rfl
    rw [Chain.view, Chain.view, Chain.demands, Chain.demands, hmatches]
    split_ifs
    · refine ⟨hviews, fun d hd => ?_⟩
      obtain hd | hd := List.mem_append.mp hd
      · obtain ⟨e, he, hde⟩ := demands_outline hr hunify d hd
        exact ⟨e, List.mem_append_left _ he, hde⟩
      · obtain ⟨e, he, hde⟩ := hdemands d hd
        exact ⟨e, List.mem_append_right _ he, hde⟩
    · simp

/-! ### Answers -/

section Answers

variable {rels : List Relation} {u : Ty}

lemma holds_of_absorbs (h : a.absorbs = true) : Holds rels a u := .fits (by simp [Ty.fits?, h])

lemma holds_named (hlen : as.length = bs.length) (h : ∀ d ∈ as.zip bs, Holds rels d.1 d.2) :
    Holds rels (.named q as) (.named q bs) :=
  .parts (by simp [questions, partQuestions, hlen]) h

lemma exists_between {ts us : List Ty} (hlen : as.length = ts.length) :
    ∀ d ∈ as.zip us, ∃ t, (d.1, t) ∈ as.zip ts ∧ (t, d.2) ∈ ts.zip us := by
  induction as generalizing ts us with
  | nil => simp
  | cons a as ih =>
    match ts, us with
    | t :: ts, u :: us =>
      rw [List.zip_cons_cons, List.forall_mem_cons]
      refine ⟨⟨t, by simp, by simp⟩, fun d hd => ?_⟩
      obtain ⟨x, hx, hx'⟩ := ih (by simpa using hlen) d hd
      exact ⟨x, List.mem_cons_of_mem _ hx, List.mem_cons_of_mem _ hx'⟩
    | _ :: _, [] => simp

lemma holds_of_outline_named {ts : List Ty} (hp : q = p → bs = []) (hat : a.Outline p (.named q ts))
    (hlen : ts.length = bs.length) (h : ∀ d ∈ ts.zip bs, ∀ x, x.Outline p d.1 → Holds rels x d.2) :
    Holds rels a (.named q bs) := by
  cases hat with
  | leaf h => cases h
  | hole => exact holds_of_absorbs rfl
  | bare =>
    obtain rfl := hp rfl
    exact holds_named rfl (by simp)
  | named hlen' h' =>
    refine holds_named (hlen'.trans hlen) fun d hd => ?_
    obtain ⟨t, ht, ht'⟩ := exists_between hlen' d hd
    exact h _ ht' d.1 (h' _ ht)

lemma holds_of_equal (hu : u.Sparing p) (hequal : t.equal u = true) (hat : a.Outline p t) : Holds rels a u := by
  induction hu generalizing t a with
  | absorbs h => exact .fits (by simp [Ty.fits?, h])
  | @named q args hp _ ih =>
    cases t with
    | named q' ts =>
      rw [Ty.equal, Bool.and_eq_true, decide_eq_true_eq] at hequal
      obtain ⟨rfl, hequal⟩ := hequal
      refine holds_of_outline_named hp hat (Ty.equalAll_length hequal) fun d hd x hx => ?_
      exact ih d.2 (List.of_mem_zip hd).2 (Ty.equal_of_mem_zip hequal d hd) hx
    | _ => cases hequal

lemma cases_of_fits (ht : t.isLeaf = false) (hfits : t.fits? u = some true) :
    u.absorbs = true ∨ t.isNever = true ∨ t.equal u = true := by
  have hanswer : (u.absorbs || (t.isNever || t.equal u)) = true := by
    cases t with
    | named | fn =>
      unfold Ty.fits? at hfits
      split_ifs at hfits with habsorbs hequal
      · rw [show u.absorbs = true from habsorbs, Bool.true_or]
      · rw [hequal, Bool.or_true]
    | _ => cases ht
  simpa using hanswer

lemma Ty.Outline.isNever (h : a.Outline p t) (ht : t.isNever = true) : a.isNever = true ∨ a.absorbs = true := by
  cases h with
  | leaf => exact .inl ht
  | hole => exact .inr rfl
  | bare | named => exact .inl ht
  | fn => cases ht

lemma holds_of_fits (hu : u.Sparing p) (hfits : t.fits? u = some true) (hat : a.Outline p t) : Holds rels a u := by
  cases hleaf : t.isLeaf with
  | true =>
    cases hat with
    | leaf => exact .fits hfits
    | hole => exact holds_of_absorbs rfl
    | _ => cases hleaf
  | false =>
    obtain habsorbs | hnever | hequal := cases_of_fits hleaf hfits
    · exact .fits (by simp [Ty.fits?, habsorbs])
    · obtain hnever | habsorbs := hat.isNever hnever
      · cases a with
        | named => exact .fits (by simp [Ty.fits?, hnever])
        | _ => cases hnever
      · exact holds_of_absorbs habsorbs
    · exact holds_of_equal hu hequal hat

lemma Holds.outline (hrels : ∀ r ∈ rels, r.isImpl = true → r.Uniform p) (h : Holds rels t u) (hu : u.Sparing p)
    (hat : a.Outline p t) : Holds rels a u := by
  induction h generalizing a with
  | fits h => exact holds_of_fits hu h hat
  | @parts t u ds hds hd ih =>
    cases hu with
    | absorbs h => exact .fits (by simp [Ty.fits?, h])
    | @named q args hp hargs =>
      cases t with
      | named q' ts =>
        simp only [questions, partQuestions] at hds
        split_ifs at hds with hq
        · obtain rfl := List.mem_singleton.mp hds
          obtain ⟨rfl, hlen⟩ := hq
          exact holds_of_outline_named hp hat hlen fun d hd x hx => ih d hd (hargs _ (List.of_mem_zip hd).2) hx
        · cases hds
      | generic g =>
        cases hat with
        | leaf => exact .parts hds hd
        | hole => exact holds_of_absorbs rfl
      | _ => cases hds
  | @chain q q' ts us super c hne hc hwalk hw hend hview hd hs ihw ihd ihs =>
    obtain rfl | ⟨as, rfl⟩ := hat.cases_named
    · exact holds_of_absorbs rfl
    · have hviews := Chain.outline (fun r hr => hrels r (hc.impls r hr).1 (hc.impls r hr).2) hat
      obtain ⟨sketch, hsketch, hsuper⟩ := hviews.1 super hview
      refine .chain hne hc hwalk hw hend hsketch (fun d hd => ?_) (ihs hu hsuper)
      obtain ⟨e, he, hde, hbound, hsparing⟩ := hviews.2 d hd
      rw [hbound] at hsparing ⊢
      exact ihd e he hsparing hde

end Answers

/-! ### The chains of a path -/

section Run

variable {s : State} {names : Set Path} {history : List Query} {args : List Ty}

lemma walked_of_view {rels : List Relation} (hrels : args = [] ∨ ∀ r ∈ rels, r.isImpl = true → r.Uniform p) {c : Chain}
    (hc : c.Of rels) {super : Ty} (hview : c.view (.named p args) = some super)
    (hd : Met (Holds rels) (c.demands (.named p args))) : c.Walked rels (Holds rels) p := by
  obtain rfl | hrels := hrels
  · exact ⟨hc, by simp [hview], hd⟩
  · obtain ⟨hviews, hdemands⟩ := Chain.outline (fun r hr => hrels r (hc.impls r hr).1 (hc.impls r hr).2) (.bare args)
    obtain ⟨sketch, hsketch, -⟩ := hviews super hview
    refine ⟨hc, by simp [hsketch], fun d hd' => ?_⟩
    obtain ⟨e, he, hde, hbound, hsparing⟩ := hdemands d hd'
    rw [hbound] at hsparing ⊢
    exact (hd e he).outline hrels hsparing hde

lemma view_of_instantiate (hs : s.Fresh) (hn : Faithful names s.relations) (hsh : Shallow s.relations names)
    (hq : ∀ q ∈ history, q.Within names) (ht : t.Within names) {c : Chain} (hc : c.Of s.relations) {e : Ty × Bindings}
    (h : ((Check.instantiate t c).run (s.after history)).1 = .ok (some e)) :
    c.view t = some e.1 ∧ Met (Holds s.relations) (c.demands t) := by
  have hkept := kept_settled hn hsh
  have hwithin := hc.within hn.relations
  have hknows := Check.knows_after hkept (hs.knows hkept) hq
  obtain ⟨hmemo, -⟩ := Check.instantiate_keeps hkept ht hwithin _ hknows
  obtain ⟨hlater, hanswer⟩ := Check.instantiate_answers t c _ hknows.built
  have hrun := Except.ok.inj ((hanswer _ (.refl hlater.built)).symm.trans h)
  obtain ⟨hview, hmet⟩ := (follow_run _).mp ⟨e.2, hrun⟩
  refine ⟨hview, fun d hd => ?_⟩
  obtain ⟨hvalue, hbound⟩ := hwithin.demands hn.unit ht d hd
  exact (closed_holds hn).assignBy_sound (fun p hp => (hmemo.memo.usable hn).of_at hp) hvalue hbound (hmet d hd)

/-- The chains that are kept for a path are all chains that apply to a type with that path, whatever has been asked before.
If the type has arguments, then bounds must not depend on them or on other generics, and for-types must have each generic
once. -/
theorem mem_chains_of_instantiate (hs : s.Fresh) (hn : Faithful names s.relations) (hsh : Shallow s.relations names)
    (hq : ∀ q ∈ history, q.Within names) (ht : (Ty.named p args).Within names)
    (hrels : args = [] ∨ ∀ r ∈ s.relations, r.isImpl = true → r.Uniform p) :
    ∃ l, ((Check.chainsOf p).run (s.after history)).1 = .ok l ∧
      ∀ (c : Chain) (e : Ty × Bindings), c.Of s.relations →
        ((Check.instantiate (.named p args) c).run (s.after history)).1 = .ok (some e) → c ∈ l := by
  have hp : p ∈ names := by
    cases ht with
    | named hp _ => exact hp
  refine ⟨_, run_chainsOf hs hn hsh hq hp, fun c e hc h => mem_ideal.mpr ?_⟩
  obtain ⟨hview, hd⟩ := view_of_instantiate hs hn hsh hq ht hc h
  exact walked_of_view hrels hc hview hd

end Run

/-! ### Nothing to ask -/

structure Relation.Lifting (r : Relation) : Prop where
  forType : ∃ q params, r.forType = .named q params
  args : ∀ a ∈ r.args, ∃ g, a = .generic g

lemma Relation.demands_empty (r : Relation) : r.demands .empty = [] := by
  simp [Relation.demands]

lemma Relation.Lifting.unify {r : Relation} (hr : r.Lifting) (q : Path) (n : Nat) :
    Ty.unify (.named q (Ty.holes n)) r.forType = .empty := by
  obtain ⟨q', params, hfor⟩ := hr.forType
  rw [hfor, Ty.unify, Ty.unifyInto, Ty.unifyAllInto_holes]

lemma Relation.Lifting.view {r : Relation} (hr : r.Lifting) (q : Path) (n : Nat) :
    r.view (.named q (Ty.holes n)) = .named r.path (Ty.holes r.args.length) := by
  have hargs : ∀ a ∈ r.args, Ty.replace (fun g => (Bindings.lookupIn [.empty] g.name).getD .hole) [] a = .hole := by
    intro a ha
    obtain ⟨g, rfl⟩ := hr.args a ha
    simp [Ty.replace, Bindings.lookupIn]
  rw [Relation.view, hr.unify, Relation.target, Ty.substituteOrHole, Ty.replace, replaceAll_eq_map,
    List.map_congr_left hargs, List.map_const', Ty.holes]

lemma demands_eq_nil {c : Chain} (hc : ∀ r ∈ c, r.Lifting) (q : Path) (n : Nat) : c.demands (.named q (Ty.holes n)) = [] := by
  induction c generalizing q n with
  | nil => rfl
  | cons r c ih =>
    obtain ⟨hr, hc⟩ := List.forall_mem_cons.mp hc
    rw [Chain.demands, hr.unify, hr.view, r.demands_empty, ih hc]
    split_ifs <;> rfl

lemma shallow_of_lifting {rels : List Relation} (h : ∀ r ∈ rels, r.isImpl = true → r.Lifting) (names : Set Path) :
    Shallow rels names := by
  intro p _ c hc d hd
  rw [show Ty.named p [] = .named p (Ty.holes 0) from rfl,
    demands_eq_nil (fun r hr => h r (hc.impls r hr).1 (hc.impls r hr).2)] at hd
  cases hd

/-! Cups are washed. A tray of what is washed is a stack, and stacks are sold. -/

namespace Trays

def cup : Path := ⟨["Cup"]⟩
def tray : Path := ⟨["Tray"]⟩
def washed : Path := ⟨["Washed"]⟩
def stack : Path := ⟨["Stack"]⟩
def sold : Path := ⟨["Sold"]⟩

def trayOf (p : Path) : Ty := .named tray [.named p []]

def item (bounds : List Ty) : Generic Ty := ⟨"T", "T", bounds⟩

def washing : Relation := ⟨0, .impl, washed, [], .named cup [], []⟩
def stacking : Relation :=
  let g := item [.named washed []]
  ⟨1, .impl, stack, [.generic g], .named tray [.generic g], [g]⟩
def selling : Relation := ⟨2, .impl, sold, [], .named stack [.generic (item [])], [item []]⟩

def state : State := .of [washing, stacking, selling]

def names : Set Path := { p | p ∈ [Ty.unitPath, cup, tray, washed, stack, sold] }

lemma forall_relations {P : Relation → Prop} : (∀ r ∈ state.relations, P r) ↔ P washing ∧ P stacking ∧ P selling := by
  rw [show state.relations = [washing, stacking, selling] from rfl]
  simp

lemma within_names {p : Path} (h : p ∈ names) : (Ty.named p []).Within names := .named h (by simp)

lemma item_within (bounds : List Ty) (h : ∀ b ∈ bounds, b.Within names) : (Ty.generic (item bounds)).Within names := .generic h

lemma faithful : Faithful names state.relations where
  injOn p hp q hq h := List.inj_on_of_nodup_map (f := Path.render) (by decide) hp hq h
  unit := by simp [names]
  relations := by
    have hwashed : (Ty.named washed []).Within names := within_names (by simp [names])
    have hitem := item_within [.named washed []] (by simpa using hwashed)
    refine forall_relations.mpr ⟨?_, ?_, ?_⟩
    · exact ⟨by simp [names, washing], by simp [washing], within_names (by simp [names]), by simp [washing]⟩
    · refine ⟨by simp [names, stacking], by simpa [stacking] using hitem, .named (by simp [names]) ?_, ?_⟩
      · simpa using hitem
      · simpa [stacking, item] using hwashed
    · refine ⟨by simp [names, selling], by simp [selling], .named (by simp [names]) ?_, by simp [selling, item]⟩
      simpa using item_within [] (by simp)

lemma lifting : ∀ r ∈ state.relations, r.isImpl = true → r.Lifting := by
  refine forall_relations.mpr ⟨fun _ => ⟨⟨_, _, rfl⟩, ?_⟩, fun _ => ⟨⟨_, _, rfl⟩, ?_⟩, fun _ => ⟨⟨_, _, rfl⟩, ?_⟩⟩
  · simp [washing]
  · simp [stacking]
  · simp [selling]

lemma uniform : ∀ r ∈ state.relations, r.isImpl = true → r.Uniform tray := by
  have hwashed : (Ty.named washed []).Sparing tray := .named (fun _ => rfl) (by simp)
  refine forall_relations.mpr ⟨fun _ => ⟨by decide, ?_⟩, fun _ => ⟨by decide, ?_⟩, fun _ => ⟨by decide, ?_⟩⟩
  · simp [washing]
  · simpa [stacking, item] using hwashed
  · simp [selling, item]

theorem stacks_of_trays : state.Fresh ∧ Faithful names state.relations ∧ Shallow state.relations names ∧
    (trayOf cup).Within names ∧ (∀ r ∈ state.relations, r.isImpl = true → r.Uniform tray) ∧
    ∃ l, ((Check.chainsOf tray).run (state.after [.chains stack])).1 = .ok l ∧ [stacking, selling] ∈ l := by
  have hfresh : state.Fresh := ⟨rfl, rfl⟩
  have hshallow := shallow_of_lifting lifting names
  have hcup : (trayOf cup).Within names := .named (by simp [names]) (by simpa using within_names (by simp [names]))
  have hhistory : ∀ q ∈ [Query.chains stack], q.Within names := by simp [Query.Within, names]
  obtain ⟨l, hl, hall⟩ := mem_chains_of_instantiate hfresh faithful hshallow hhistory hcup (.inr uniform)
  refine ⟨hfresh, faithful, hshallow, hcup, uniform, l, hl, hall [stacking, selling] (.named sold [], _) ?_ rfl⟩
  exact ⟨by simp, by simp [state, State.of, State.relations, stacking, selling, Relation.isImpl], by decide⟩

/-- An impl for what is a tray of cups, and the only one. -/
def serving : Relation :=
  let g := item [trayOf cup]
  ⟨0, .impl, sold, [], .generic g, [g]⟩

theorem serving_not_found : Chain.Of (State.of [serving]).relations [serving] ∧
    ((Check.instantiate (trayOf cup) [serving]).run (.of [serving])).1 =
      .ok (some (.named sold [], ⟨[("T", trayOf cup)]⟩)) ∧
    ((Check.chainsOf tray).run (.of [serving])).1 = .ok [] :=
  ⟨⟨by simp, by simp [State.of, State.relations, serving, Relation.isImpl], by decide⟩, rfl, rfl⟩

end Trays

end TraitCheck
