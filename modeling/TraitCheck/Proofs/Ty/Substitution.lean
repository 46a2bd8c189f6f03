import TraitCheck.Proofs.Ty.Leaves
import TraitCheck.Proofs.Ty.Parts

/-! Laws of substitution. Two substitutions are one; a unification finds again what a substitution has put in; and equal
types stay equal just where no generic is declared around its place in one of them only. -/

namespace TraitCheck

namespace Bindings

/-- One substitution and then another: the values of the first are substituted into, and the second counts where the first
binds nothing. -/
def andThen (b c : Bindings) : Bindings := underlay ⟨b.entries.map fun e => (e.1, e.2.substitute [c])⟩ c

lemma get?_andThen (b c : Bindings) (name : String) :
    (b.andThen c).get? name = ((b.get? name).map (·.substitute [c])).or (c.get? name) := by
  obtain ⟨entries⟩ := b
  rw [andThen, get?_underlay]
  refine congrArg (Option.or · _) ?_
  change (entries.map fun e => (e.1, e.2.substitute [c])).lookup name = (entries.lookup name).map _
  induction entries with
  | nil => rfl
  | cons e entries ih =>
    rw [List.map_cons, List.lookup_cons, List.lookup_cons, ih]
    split <;> rfl

/-- A generic is left as it is: it is bound to nothing, or to itself. -/
def Keeps (maps : List Bindings) (g : Generic Ty) : Prop := ∀ t, lookupIn maps g.name = some t → t.equal (.generic g) = true

end Bindings

namespace Ty

variable {f f' : Generic Ty → Ty} {own own' : List String} {a b t : Ty}

lemma mem_declaredAll {name : String} {ts : List Ty} : name ∈ declaredAll ts ↔ ∃ t ∈ ts, name ∈ t.declared := by
  induction ts with
  | nil => simp [declaredAll]
  | cons t ts ih => simp [declaredAll, ih]

lemma mem_declared_named {name : String} {p : Path} {args : List Ty} :
    name ∈ (named p args).declared ↔ ∃ a ∈ args, name ∈ a.declared := mem_declaredAll

lemma mem_declared_fn {name : String} {gs : List (Generic Ty)} {ps : List Ty} {r : Ty} :
    name ∈ (fn gs ps r).declared ↔
      name ∈ gs.map (·.name) ∨ (∃ p ∈ ps, name ∈ p.declared) ∨ name ∈ r.resultOf.declared := by
  have hr : r.resultOf.declared = r.declared := by cases r <;> rfl
  rw [declared, hr, List.append_assoc, List.mem_append, List.mem_append, mem_declaredAll]

lemma equal_replace (h : ∀ g ∈ t.occurrencesIn own, (f g).equal (f' g) = true) :
    (t.replace f own).equal (t.replace f' own) = true := by
  induction t using byParts generalizing own with
  | named p args ih =>
    rw [occurrencesIn_named] at h
    rw [replace_named, replace_named, equal_named]
    exact ⟨rfl, equalAll_map fun a ha => ih a ha fun g hg => h g (List.mem_flatMap_of_mem ha hg)⟩
  | fn gs ps r ihps ihr =>
    rw [occurrencesIn_fn] at h
    rw [replace_fn, replace_fn, equal_fn]
    refine ⟨equalAll_map fun p hp => ihps p hp fun g hg => ?_, equal_resultOf (ihr fun g hg => ?_)⟩
    · exact h g (List.mem_append_left _ (List.mem_flatMap_of_mem hp hg))
    · exact h g (List.mem_append_right _ hg)
  | generic g =>
    rw [occurrencesIn] at h
    rw [replace, replace]
    split
    · exact equal_self _
    · next hown => exact h g (by simp [hown])
  | _ => exact equal_self _

/-! ### One substitution after another -/

lemma name_not_mem_of_occurrencesIn {g : Generic Ty} (h : g ∈ t.occurrencesIn own) : g.name ∉ own := by
  induction t using byParts generalizing own with
  | named p args ih =>
    rw [occurrencesIn_named, List.mem_flatMap] at h
    obtain ⟨a, ha, hg⟩ := h
    exact ih a ha hg
  | fn gs ps r ihps ihr =>
    rw [occurrencesIn_fn, List.mem_append, List.mem_flatMap] at h
    obtain ⟨p, hp, hg⟩ | hg := h
    · exact fun hown => ihps p hp hg (List.mem_append_right _ hown)
    · exact fun hown => ihr hg (List.mem_append_right _ hown)
  | generic =>
    rw [occurrencesIn] at h
    split at h
    · cases h
    · next hown => rwa [List.mem_singleton.mp h]
  | _ => cases h

lemma replace_of_subset (hsub : own ⊆ own') (h : ∀ g ∈ t.occurrencesIn own, g.name ∉ own') :
    t.replace f own' = t.replace f own := by
  induction t using byParts generalizing own own' with
  | named p args ih =>
    rw [occurrencesIn_named] at h
    rw [replace_named, replace_named]
    exact congrArg _ (List.map_congr_left fun a ha => ih a ha hsub fun g hg => h g (List.mem_flatMap_of_mem ha hg))
  | fn gs ps r ihps ihr =>
    rw [occurrencesIn_fn] at h
    have hsub' : gs.map (·.name) ++ own ⊆ gs.map (·.name) ++ own' := List.append_subset.mpr
      ⟨List.subset_append_left _ _, List.subset_append_of_subset_right _ hsub⟩
    have hnew {u : Ty} {g : Generic Ty} (hg : g ∈ u.occurrencesIn (gs.map (·.name) ++ own)) (hg' : g.name ∉ own') :
        g.name ∉ gs.map (·.name) ++ own' := by
      have hout := name_not_mem_of_occurrencesIn hg
      rw [List.mem_append, not_or] at hout ⊢
      exact ⟨hout.1, hg'⟩
    rw [replace_fn, replace_fn, ihr hsub' fun g hg => hnew hg (h g (List.mem_append_right _ hg)),
      List.map_congr_left fun p hp => ihps p hp hsub' fun g hg =>
        hnew hg (h g (List.mem_append_left _ (List.mem_flatMap_of_mem hp hg)))]
  | generic g =>
    rw [occurrencesIn] at h
    rw [replace, replace]
    by_cases hown : g.name ∈ own
    · rw [if_pos hown, if_pos (hsub hown)]
    · rw [if_neg hown, if_neg (h g (by simp [hown]))]
  | _ => rfl

lemma resultOf_replace_resultOf (t : Ty) : (t.resultOf.replace f own).resultOf = (t.replace f own).resultOf := by
  cases t <;> rfl

lemma equal_replace_replace (h : ∀ g, f g = .generic g ∨ ∀ i ∈ (f g).occurrences, i.name ∉ own ∧ i.name ∉ t.declared) :
    ((t.replace f own).replace f' own).equal (t.replace (fun g => (f g).replace f' []) own) = true := by
  induction t using byParts generalizing own with
  | named p args ih =>
    rw [replace_named, replace_named, replace_named, List.map_map, equal_named]
    refine ⟨rfl, equalAll_map fun a ha => ih a ha fun g => (h g).imp_right fun hg i hi => ?_⟩
    exact ⟨(hg i hi).1, fun hmem => (hg i hi).2 (mem_declared_named.mpr ⟨a, ha, hmem⟩)⟩
  | fn gs ps r ihps ihr =>
    have hpart {u : Ty} (hu : ∀ name ∈ u.declared, name ∈ (Ty.fn gs ps r).declared) (g : Generic Ty) :
        f g = .generic g ∨ ∀ i ∈ (f g).occurrences, i.name ∉ gs.map (·.name) ++ own ∧ i.name ∉ u.declared := by
      refine (h g).imp_right fun hg i hi => ?_
      obtain ⟨hown, hout⟩ := hg i hi
      refine ⟨fun hmem => ?_, fun hmem => hout (hu _ hmem)⟩
      exact (List.mem_append.mp hmem).elim (fun hmem => hout (mem_declared_fn.mpr (.inl hmem))) hown
    rw [replace_fn, replace_fn, replace_fn, List.map_map, equal_fn, resultOf_replace_resultOf]
    refine ⟨equalAll_map fun p hp => ihps p hp (hpart ?_), equal_resultOf (ihr (hpart ?_))⟩
    · exact fun name hname => mem_declared_fn.mpr (.inr (.inl ⟨p, hp, hname⟩))
    · exact fun name hname => mem_declared_fn.mpr (.inr (.inr hname))
  | generic g =>
    rw [replace, replace]
    split
    · next hown =>
      rw [replace, if_pos hown]
      exact equal_self _
    · next hown =>
      obtain hg | hg := h g
      · rw [hg, replace, replace, if_neg hown, if_neg (by simp)]
        exact equal_self _
      · -- nothing in what was put in is declared around it, so that the names around make no difference
        rw [replace_of_subset (List.nil_subset own) fun i hi => (hg i hi).1]
        exact equal_self _
  | _ => exact equal_self _

/-- Two substitutions are one, in which the second is applied to what the first puts in: no generic in that may have a name
that a function type around it declares. -/
theorem equal_substitute_substitute {t : Ty} {b c m : Bindings}
    (hfree : ∀ name v, b.get? name = some v → ∀ g ∈ v.occurrences, g.name ∉ t.declared)
    (hm : ∀ name, m.get? name = ((b.get? name).map (·.substitute [c])).or (c.get? name)) :
    ((t.substitute [b]).substitute [c]).equal (t.substitute [m]) = true := by
  have hboth : t.substitute [m] = t.replace (fun g => ((b.get? g.name).getD (.generic g)).substitute [c]) [] := by
    refine replace_congr t fun g _ => ?_
    rw [Bindings.lookupIn_singleton, hm]
    cases hget : b.get? g.name with
    | none => simp [substitute, replace, Bindings.lookupIn_singleton]
    | some v => simp
  rw [hboth]
  simp only [substitute, Bindings.lookupIn_singleton]
  refine equal_replace_replace fun g => ?_
  cases hget : b.get? g.name with
  | none => exact .inl rfl
  | some v => exact .inr fun i hi => ⟨List.not_mem_nil, hfree g.name v hget i hi⟩

namespace Mapping

def item : Generic Ty := ⟨"T", "map::T", []⟩

def image : Generic Ty := ⟨"U", "map::U", []⟩

/-- `fn<U>(List<T>, fn(T): U): List<U>` -/
def signature : Ty :=
  .fn [image] [list (.generic item), .fn [] [.generic item] (.generic image)] (list (.generic image))

/-- `T` is a list of `V`. -/
def nested : Bindings := .ofList [("T", list (.generic ⟨"V", "V", []⟩))]

/-- `V` is known; the bindings of `T` and `U` are for other generics of these names. -/
def known : Bindings := .ofList [("T", bool), ("U", string), ("V", int)]

lemma get?_nested {name : String} {v : Ty} (h : nested.get? name = some v) : v = list (.generic ⟨"V", "V", []⟩) := by
  obtain ⟨front, back, hentries, -⟩ := List.lookup_eq_some_iff.mp h
  have hmem : (name, v) ∈ nested.entries := by simp [hentries]
  exact (Prod.mk.inj (List.mem_singleton.mp hmem)).2

theorem signature_nested_known :
    (∀ name v, nested.get? name = some v → ∀ g ∈ v.occurrences, g.name ∉ signature.declared) ∧
      ((signature.substitute [nested]).substitute [known]).equal (signature.substitute [nested.andThen known]) = true := by
  have hfree : ∀ name v, nested.get? name = some v → ∀ g ∈ v.occurrences, g.name ∉ signature.declared := by
    intro name v hv
    rw [get?_nested hv]
    simp [occurrences, list, occurrencesIn, occurrencesInAll, signature, declared, declaredAll, image]
  exact ⟨hfree, equal_substitute_substitute hfree (nested.get?_andThen known)⟩

end Mapping

/-! ### Unification after substitution -/

section

variable {name : String} {acc : Bindings}

lemma get?_unifyAllInto_replaced {ps : List Ty}
    (ih : ∀ p ∈ ps, ∀ acc : Bindings, (unifyInto acc p (p.replace f own)).get? name =
      (acc.get? name).or (((p.occurrencesIn own).find? (·.name = name)).map f)) :
    (unifyAllInto acc ps (ps.map (replace f own))).get? name =
      (acc.get? name).or (((ps.flatMap (occurrencesIn own)).find? (·.name = name)).map f) := by
  induction ps generalizing acc with
  | nil => simp [unifyAllInto]
  | cons p ps ihps =>
    obtain ⟨hp, hps⟩ := List.forall_mem_cons.mp ih
    rw [List.map_cons, unifyAllInto, ihps hps, hp, List.flatMap_cons, List.find?_append, Option.map_or, Option.or_assoc]

lemma isPending_replace (ht : t.isPending = false) (hf : ∀ g ∈ t.occurrencesIn own, (f g).isPending = false) :
    (t.replace f own).isPending = false := by
  cases t with
  | generic g =>
    rw [occurrencesIn] at hf
    rw [replace]
    split
    · rfl
    · next hmem => exact hf g (by simp [hmem])
  | absent => cases ht
  | ongoing => cases ht
  | _ => rfl

lemma get?_unifyInto_replaced (hown : name ∉ own) (hname : name ∉ t.declared)
    (hf : ∀ g ∈ t.occurrencesIn own, (f g).absorbs = false ∧ (f g).isPending = false) :
    (unifyInto acc t (t.replace f own)).get? name =
      (acc.get? name).or (((t.occurrencesIn own).find? (·.name = name)).map f) := by
  induction t using byParts generalizing own acc with
  | named p args ih =>
    rw [occurrencesIn_named] at hf ⊢
    rw [replace_named, unifyInto]
    refine get?_unifyAllInto_replaced fun a ha acc => ih a ha hown ?_ fun g hg => hf g (List.mem_flatMap_of_mem ha hg)
    exact fun hmem => hname (mem_declared_named.mpr ⟨a, ha, hmem⟩)
  | fn gs ps r ihps ihr =>
    rw [mem_declared_fn, not_or, not_or] at hname
    obtain ⟨hgs, hps, hr⟩ := hname
    have hown' : name ∉ gs.map (·.name) ++ own := by
      rw [List.mem_append]
      exact fun hmem => hmem.elim hgs hown
    rw [occurrencesIn_fn] at hf ⊢
    have hresult := fun g hg => hf g (List.mem_append_right _ hg)
    have hpresent := isPending_replace r.isPending_resultOf fun g hg => (hresult g hg).2
    rw [replace_fn, unifyInto_fn, resultOf_eq_self hpresent, ihr hown' hr hresult,
      get?_unifyAllInto_replaced fun p hp acc => ihps p hp hown' (fun hmem => hps ⟨p, hp, hmem⟩) fun g hg =>
        hf g (List.mem_append_left _ (List.mem_flatMap_of_mem hp hg)),
      List.find?_append, Option.map_or, Option.or_assoc]
  | generic g =>
    rw [occurrencesIn] at hf ⊢
    rw [replace]
    split
    · next hmem =>
      have hne : name ≠ g.name := fun heq => hown (heq ▸ hmem)
      rw [unifyInto, if_neg (by simp [absorbs]), Bindings.get?_insertIfNew, if_neg hne]
      rfl
    · next hmem =>
      rw [if_neg hmem] at hf
      rw [unifyInto, (hf g (by simp)).1, if_neg (by simp), Bindings.get?_insertIfNew]
      simp [List.find?_singleton, eq_comm]
  | _ => simp [occurrencesIn, unifyInto]

end

/-- Unification undoes substitution: laid over a type, what a substitution makes of it gives bindings that make the same of it. -/
theorem equal_substitute_unify {param : Ty} {s : Bindings}
    (hsame : ∀ g ∈ param.occurrences, ∀ h ∈ param.occurrences, g.name = h.name → (generic g).equal (generic h) = true)
    (hfree : ∀ g ∈ param.occurrences, g.name ∉ param.declared)
    (hs : ∀ name v, s.get? name = some v → v.absorbs = false ∧ v.isPending = false) :
    (param.substitute [unify (param.substitute [s]) param]).equal (param.substitute [s]) = true := by
  refine equal_replace fun g hg => ?_
  simp only [Bindings.lookupIn_singleton]
  obtain ⟨h, hfirst⟩ := Option.isSome_iff_exists.mp
    (List.find?_isSome (p := (·.name = g.name)).mpr ⟨g, hg, decide_eq_true rfl⟩)
  have hname : h.name = g.name := by simpa using List.find?_some hfirst
  have hbound : (unify (param.substitute [s]) param).get? g.name = some ((s.get? h.name).getD (.generic h)) := by
    refine (get?_unifyInto_replaced List.not_mem_nil (hfree g hg) fun i _ => ?_).trans ?_
    · rw [Bindings.lookupIn_singleton]
      cases hget : s.get? i.name with
      | none => exact ⟨rfl, rfl⟩
      | some v => exact hs i.name v hget
    · rw [Bindings.get?_empty, Option.none_or, hfirst, Option.map_some, Bindings.lookupIn_singleton]
  rw [hbound, hname, Option.getD_some]
  cases s.get? g.name with
  | none => exact hsame h (List.mem_of_find?_eq_some hfirst) g hg hname
  | some v => exact equal_self v

namespace Mapping

theorem signature_nested_again :
    (signature.substitute [unify (signature.substitute [nested]) signature]).equal (signature.substitute [nested]) = true := by
  have hoccurrences : signature.occurrences = [item, item] := rfl
  refine equal_substitute_unify ?_ ?_ fun name v hv => ?_
  · simp [hoccurrences, equal_self]
  · rw [hoccurrences]
    simp [item, image, signature, list, declared, declaredAll]
  · rw [get?_nested hv]
    exact ⟨rfl, rfl⟩

end Mapping

/-! ### Equal types under a substitution -/

mutual

/-- The generics of a type that, of it and another one like it, only one has a function type around that declares them. -/
def oneSidedIn (own own' : List String) : Ty → Ty → List (Generic Ty)
  | .generic g, .generic _ => if g.name ∈ own ↔ g.name ∈ own' then [] else [g]
  | .named _ as, .named _ bs => oneSidedInAll own own' as bs
  | .fn gs ps r, .fn hs qs s =>
    oneSidedInAll (gs.map (·.name) ++ own) (hs.map (·.name) ++ own') ps qs ++
      oneSidedIn (gs.map (·.name) ++ own) (hs.map (·.name) ++ own') r s
  | _, _ => []

def oneSidedInAll (own own' : List String) : List Ty → List Ty → List (Generic Ty)
  | a :: as, b :: bs => oneSidedIn own own' a b ++ oneSidedInAll own own' as bs
  | _, _ => []

end

def oneSided (a b : Ty) : List (Generic Ty) := oneSidedIn [] [] a b

lemma oneSidedIn_resultOf (own own' : List String) (r s : Ty) :
    oneSidedIn own own' r.resultOf s.resultOf = oneSidedIn own own' r s := by
  cases r with
  | named _ as => cases s <;> cases as <;> rfl
  | _ => cases s with
    | named _ bs => cases bs <;> rfl
    | _ => rfl

variable {maps : List Bindings}

lemma equal_congr_right {a b c : Ty} (h : b.equal c = true) : a.equal b = true ↔ a.equal c = true :=
  ⟨fun hab => equal_trans hab h, fun hac => equal_trans hac (equal_symm h)⟩

lemma equal_iff_keeps {g h : Generic Ty} (hgh : (generic g).equal (generic h) = true) :
    ((Bindings.lookupIn maps g.name).getD (.generic h)).equal (.generic g) = true ↔ Bindings.Keeps maps g := by
  cases hget : Bindings.lookupIn maps g.name with
  | none => simp [Bindings.Keeps, hget, equal_symm hgh]
  | some v => simp [Bindings.Keeps, hget]

lemma equal_put (hf : ∀ g, f g = (Bindings.lookupIn maps g.name).getD (.generic g)) {g h : Generic Ty}
    (hgh : (generic g).equal (generic h) = true) : (f g).equal (f h) = true := by
  rw [hf g, hf h, ((equal_generic g h).mp hgh).1]
  cases Bindings.lookupIn maps h.name with
  | none => exact hgh
  | some v => exact equal_self v

lemma equal_replace_generic (hf : ∀ g, f g = (Bindings.lookupIn maps g.name).getD (.generic g)) {g h : Generic Ty}
    (hgh : (generic g).equal (generic h) = true) :
    ((generic g).replace f own).equal ((generic h).replace f own') = true ↔
      ∀ i ∈ oneSidedIn own own' (.generic g) (.generic h), Bindings.Keeps maps i := by
  have hname : g.name = h.name := ((equal_generic g h).mp hgh).1
  rw [replace, replace, oneSidedIn, ← hname]
  -- where only one side is replaced, the generic itself is left on the other
  by_cases hg : g.name ∈ own <;> by_cases hh : g.name ∈ own'
  · simpa [hg, hh] using hgh
  · simpa [hg, hh, hf h, ← hname, equal_comm (generic g)] using equal_iff_keeps hgh
  · simpa [hg, hh, hf g, ← equal_congr_right hgh] using equal_iff_keeps (equal_self _)
  · simpa [hg, hh] using equal_put hf hgh

lemma equalAll_replace_iff {as bs : List Ty} (hall : equalAll as bs = true)
    (ih : ∀ a ∈ as, ∀ b, a.equal b = true → ((a.replace f own).equal (b.replace f own') = true ↔
      ∀ g ∈ oneSidedIn own own' a b, Bindings.Keeps maps g)) :
    equalAll (as.map (replace f own)) (bs.map (replace f own')) = true ↔
      ∀ g ∈ oneSidedInAll own own' as bs, Bindings.Keeps maps g := by
  induction as generalizing bs with
  | nil =>
    cases bs with
    | nil => simp [equalAll, oneSidedInAll]
    | cons => cases hall
  | cons a as ihas =>
    cases bs with
    | nil => cases hall
    | cons b bs =>
      rw [equalAll, Bool.and_eq_true] at hall
      obtain ⟨ha, has⟩ := List.forall_mem_cons.mp ih
      rw [List.map_cons, List.map_cons, equalAll, Bool.and_eq_true, ha b hall.1, ihas hall.2 has, oneSidedInAll]
      exact List.forall_mem_append.symm

lemma generic_equal_resultOf (g : Generic Ty) (t : Ty) : (generic g).equal t.resultOf = (generic g).equal t := by
  cases t <;> rfl

lemma equal_resultOf_replace (hf : ∀ g, f g = (Bindings.lookupIn maps g.name).getD (.generic g))
    (ha : a.isPending = false) (h : a.equal b = true) :
    (a.replace f own).resultOf.equal (b.replace f own').resultOf = true ↔
      (a.replace f own).equal (b.replace f own') = true := by
  cases a with
  | generic g =>
    cases b with
    | generic i =>
      rw [replace, replace]
      split <;> split
      · rfl
      · rw [← generic_equal_resultOf g (f i)]
        rfl
      · rw [equal_comm (f g), ← generic_equal_resultOf i (f g), equal_comm]
        rfl
      · have hput := equal_put hf h
        exact iff_of_true (equal_resultOf hput) hput
    | _ => cases h
  | absent => cases ha
  | ongoing => cases ha
  | _ =>
    cases b with
    | generic => cases h
    | absent => cases h
    | ongoing => cases h
    | _ => rfl

lemma equal_replace_iff (hf : ∀ g, f g = (Bindings.lookupIn maps g.name).getD (.generic g)) (hab : a.equal b = true) :
    (a.replace f own).equal (b.replace f own') = true ↔ ∀ g ∈ oneSidedIn own own' a b, Bindings.Keeps maps g := by
  induction a using byParts generalizing b own own' with
  | named p as ih =>
    cases b with
    | named q bs =>
      rw [equal_named] at hab
      rw [replace_named, replace_named, equal_named, oneSidedIn,
        equalAll_replace_iff hab.2 fun a ha b hab => ih a ha hab]
      simp [hab.1]
    | _ => cases hab
  | fn gs ps r ihps ihr =>
    cases b with
    | fn hs qs s =>
      rw [equal_fn] at hab
      rw [replace_fn, replace_fn, equal_fn, equalAll_replace_iff hab.1 fun a ha b hab => ihps a ha hab,
        equal_resultOf_replace hf r.isPending_resultOf hab.2, ihr hab.2, oneSidedIn_resultOf, oneSidedIn]
      exact List.forall_mem_append.symm
    | _ => cases hab
  | generic g =>
    cases b with
    | generic h => exact equal_replace_generic hf hab
    | _ => cases hab
  | _ => cases b <;> simp_all [equal, replace, oneSidedIn]

/-- Equal types stay equal under a substitution just if it keeps every generic that only one of them has declared around
the place where both have it. -/
theorem equal_substitute_iff {a b : Ty} (hab : a.equal b = true) (maps : List Bindings) :
    (a.substitute maps).equal (b.substitute maps) = true ↔ ∀ g ∈ oneSided a b, Bindings.Keeps maps g :=
  equal_replace_iff (fun _ => rfl) hab

namespace Mapping

/-- The same signature as another function declares it. -/
def other : Ty :=
  .fn [⟨"U", "other::U", []⟩] [list (.generic item), .fn [] [.generic item] (.generic ⟨"U", "other::U", []⟩)]
    (list (.generic ⟨"U", "other::U", []⟩))

theorem signature_like_other : signature.equal other = true ∧
    (signature.substitute [known]).equal (other.substitute [known]) = true :=
  ⟨rfl, (equal_substitute_iff rfl [known]).mpr (by simp [show oneSided signature other = [] from rfl])⟩

/-- `fn<T>(T)`, for every `T` -/
def consumer : Ty := .fn [item] [.generic item] .absent

/-- `fn(T)`, for a `T` from outside -/
def consumerOfItem : Ty := .fn [] [.generic item] .absent

/-- A function type that declares a generic is equal to one that does not, but a substitution tells them apart. -/
theorem consumers_told_apart : consumer.equal consumerOfItem = true ∧
    (consumer.substitute [known]).equal (consumerOfItem.substitute [known]) = false := ⟨rfl, rfl⟩

end Mapping

end Ty

end TraitCheck
