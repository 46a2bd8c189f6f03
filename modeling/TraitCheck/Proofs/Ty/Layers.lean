import TraitCheck.Proofs.Ty.Unify

/-! Bindings in layers. Only what the layers say together matters to a substitution, however they are put together, and
only what they say of the names that occur. Looking a name up in layers, the first of which decides, is looking it up in
the map that they are merged into from the last one on. -/

namespace TraitCheck

namespace Bindings

lemma get?_insertIfNew (b : Bindings) (name other : String) (t : Ty) :
    (b.insertIfNew name t).get? other = (b.get? other).or (if other = name then some t else none) := by
  by_cases hother : other = name
  · subst hother
    rw [insertIfNew, if_pos rfl]
    cases hget : b.get? other with
    | none => exact lookup_insertEntry_self other t b.entries
    | some u => simpa using hget
  · rw [get?_insertIfNew_of_ne b hother, if_neg hother, Option.or_none]

lemma get?_underlay (b c : Bindings) (name : String) : (b.underlay c).get? name = (b.get? name).or (c.get? name) := by
  obtain ⟨entries⟩ := c
  change (entries.foldl (fun acc e => acc.insertIfNew e.1 e.2) b).get? name = (b.get? name).or (entries.lookup name)
  induction entries generalizing b with
  | nil => simp
  | cons e entries ih =>
    rw [List.foldl_cons, ih, get?_insertIfNew, Option.or_assoc, List.lookup_cons]
    by_cases hname : name = e.1
    · simp [hname]
    · have hne : (name == e.1) = false := by simpa using hname
      simp [hname, hne]

lemma lookupIn_append (maps maps' : List Bindings) (name : String) :
    lookupIn (maps ++ maps') name = (lookupIn maps name).or (lookupIn maps' name) := by
  induction maps with
  | nil => simp [lookupIn]
  | cons b maps ih => rw [List.cons_append, lookupIn, lookupIn, ih, Option.or_assoc]

lemma lookupIn_singleton (b : Bindings) (name : String) : lookupIn [b] name = b.get? name := by simp [lookupIn]

/-! ### Maps in order -/

def names (b : Bindings) : List String := b.entries.map (·.1)

/-- Each name once, in the order of names. -/
def Ordered (b : Bindings) : Prop := b.names.Pairwise (· < ·)

lemma mem_names {b : Bindings} {name : String} : name ∈ b.names ↔ (b.get? name).isSome = true := by
  rw [get?, List.lookup_isSome_iff, names, List.mem_map]
  simp only [beq_iff_eq, @eq_comm _ name]

lemma get?_eq_none {b : Bindings} {name : String} : b.get? name = none ↔ name ∉ b.names := by
  rw [mem_names, Option.not_isSome_iff_eq_none]

lemma mem_names_insert {b : Bindings} {name other : String} {t : Ty} (h : other ∈ (b.insert name t).names) :
    other = name ∨ other ∈ b.names := by
  by_cases hother : other = name
  · exact .inl hother
  · right
    rw [mem_names, insert, get?, lookup_insertEntry_of_ne hother] at h
    exact mem_names.mpr h

lemma ordered_empty : empty.Ordered := .nil

lemma Ordered.insert {b : Bindings} (h : b.Ordered) (name : String) (t : Ty) : (b.insert name t).Ordered := by
  obtain ⟨entries⟩ := b
  induction entries with
  | nil => exact List.pairwise_singleton ..
  | cons e entries ih =>
    obtain ⟨n, u⟩ := e
    obtain ⟨hfirst, hrest⟩ := List.pairwise_cons.mp h
    rw [Bindings.insert, insertEntry]
    split_ifs with hname hlt
    · exact h
    · refine List.pairwise_cons.mpr ⟨List.forall_mem_cons.mpr ⟨hlt, fun other hother => ?_⟩, h⟩
      exact String.lt_trans hlt (hfirst other hother)
    · refine List.pairwise_cons.mpr ⟨fun other hother => ?_, ih hrest⟩
      obtain rfl | hmem := mem_names_insert (b := ⟨entries⟩) hother
      · exact Std.lt_of_le_of_ne (String.not_lt.mp hlt) (Ne.symm hname)
      · exact hfirst other hmem

lemma Ordered.foldl_insert {b : Bindings} (h : b.Ordered) (entries : List (String × Ty)) :
    (entries.foldl (fun acc e => acc.insert e.1 e.2) b).Ordered := by
  induction entries generalizing b with
  | nil => exact h
  | cons e entries ih => exact ih (h.insert e.1 e.2)

lemma Ordered.merge {base : Bindings} (h : base.Ordered) (higher : List Bindings) : (merge base higher).Ordered := by
  induction higher generalizing base with
  | nil => exact h
  | cons c higher ih => exact ih (h.foldl_insert c.entries)

lemma insertEntry_of_last {name : String} {t : Ty} {entries : List (String × Ty)} (h : ∀ e ∈ entries, e.1 < name) :
    insertEntry name t entries = entries ++ [(name, t)] := by
  induction entries with
  | nil => rfl
  | cons e entries ih =>
    obtain ⟨hfirst, hrest⟩ := List.forall_mem_cons.mp h
    rw [insertEntry, if_neg (fun heq => String.lt_irrefl _ (heq ▸ hfirst)), if_neg (fun hlt => ?_), ih hrest]
    · rfl
    · exact String.lt_irrefl _ (String.lt_trans hfirst hlt)

lemma foldl_insert_of_ordered {done entries : List (String × Ty)} (h : Ordered ⟨done ++ entries⟩) :
    entries.foldl (fun acc e => acc.insert e.1 e.2) ⟨done⟩ = (⟨done ++ entries⟩ : Bindings) := by
  induction entries generalizing done with
  | nil => simp
  | cons e entries ih =>
    have hbefore : ∀ d ∈ done, d.1 < e.1 := by
      intro d hd
      rw [Ordered, names, List.map_append, List.pairwise_append] at h
      exact h.2.2 d.1 (List.mem_map_of_mem hd) e.1 (by simp)
    rw [List.foldl_cons, Bindings.insert, insertEntry_of_last hbefore, ih (by simpa using h)]
    simp

lemma ordered_iff_ofList (b : Bindings) : b.Ordered ↔ ∃ entries, b = ofList entries := by
  constructor
  · intro h
    exact ⟨b.entries, (@foldl_insert_of_ordered [] b.entries h).symm⟩
  · rintro ⟨entries, rfl⟩
    exact ordered_empty.foldl_insert entries

/-! ### Merged maps -/

lemma get?_overlay (b : Bindings) {c : Bindings} (h : c.Ordered) (name : String) :
    (b.overlay c).get? name = (c.get? name).or (b.get? name) := by
  obtain ⟨entries⟩ := c
  change (entries.foldl (fun acc e => acc.insert e.1 e.2) b).get? name = (entries.lookup name).or (b.get? name)
  induction entries generalizing b with
  | nil => simp
  | cons e entries ih =>
    obtain ⟨hfirst, hrest⟩ := List.pairwise_cons.mp h
    rw [List.foldl_cons, ih _ hrest, List.lookup_cons]
    by_cases hname : name = e.1
    · -- what is bound here is not bound again by an entry further on
      have hlater : entries.lookup name = none := by
        rw [hname]
        exact get?_eq_none.mpr fun hmem => String.lt_irrefl _ (hfirst e.1 hmem)
      have hbound : (b.insert e.1 e.2).get? name = some e.2 := by
        rw [hname]
        exact lookup_insertEntry_self e.1 e.2 b.entries
      have heq : (name == e.1) = true := by simpa using hname
      rw [hlater, hbound, heq]
      rfl
    · have hne : (name == e.1) = false := by simpa using hname
      rw [hne, Bindings.insert, get?, lookup_insertEntry_of_ne hname]
      rfl

lemma get?_merge (base : Bindings) {higher : List Bindings} (h : ∀ c ∈ higher, c.Ordered) (name : String) :
    (merge base higher).get? name = lookupIn (higher.reverse ++ [base]) name := by
  induction higher generalizing base with
  | nil => exact (lookupIn_singleton base name).symm
  | cons c higher ih =>
    obtain ⟨hc, hhigher⟩ := List.forall_mem_cons.mp h
    calc (merge (base.overlay c) higher).get? name
        = (lookupIn higher.reverse name).or ((base.overlay c).get? name) := by
          rw [ih _ hhigher, lookupIn_append, lookupIn_singleton]
      _ = (lookupIn higher.reverse name).or ((c.get? name).or (base.get? name)) := by rw [get?_overlay base hc]
      _ = lookupIn ((c :: higher).reverse ++ [base]) name := by
          simp only [List.reverse_cons, lookupIn_append, lookupIn_singleton, Option.or_assoc]

lemma isSome_lookupIn {maps : List Bindings} {name : String} :
    (lookupIn maps name).isSome = true ↔ ∃ b ∈ maps, name ∈ b.names := by
  induction maps with
  | nil => simp [lookupIn]
  | cons b maps ih => simp [lookupIn, Option.isSome_or, ih, mem_names]

lemma lookupIn_eq_some {maps : List Bindings} {name : String} {t : Ty} : lookupIn maps name = some t ↔
    ∃ front b back, maps = front ++ b :: back ∧ b.get? name = some t ∧ ∀ c ∈ front, name ∉ c.names := by
  constructor
  · intro h
    induction maps with
    | nil => cases h
    | cons b maps ih =>
      rw [lookupIn] at h
      cases hb : b.get? name with
      | some u =>
        rw [hb, Option.some_or] at h
        exact ⟨[], b, maps, rfl, hb.trans h, by simp⟩
      | none =>
        rw [hb, Option.none_or] at h
        obtain ⟨front, c, back, rfl, hc, hfront⟩ := ih h
        exact ⟨b :: front, c, back, rfl, hc, List.forall_mem_cons.mpr ⟨get?_eq_none.mp hb, hfront⟩⟩
  · rintro ⟨front, b, back, rfl, hb, hfront⟩
    have hnone : lookupIn front name = none := by
      rw [← Option.not_isSome_iff_eq_none, isSome_lookupIn]
      rintro ⟨c, hc, hmem⟩
      exact hfront c hc hmem
    rw [lookupIn_append, hnone, Option.none_or, lookupIn, hb, Option.some_or]

lemma get?_merge_eq_some {base : Bindings} {higher : List Bindings} (h : ∀ c ∈ higher, c.Ordered) {name : String} {t : Ty} :
    (merge base higher).get? name = some t ↔
      ∃ front b back, base :: higher = front ++ b :: back ∧ b.get? name = some t ∧ ∀ c ∈ back, name ∉ c.names := by
  rw [get?_merge base h, ← List.reverse_cons, lookupIn_eq_some]
  constructor
  · rintro ⟨front, b, back, hmaps, hb, hfront⟩
    refine ⟨back.reverse, b, front.reverse, ?_, hb, fun c hc => hfront c (List.mem_reverse.mp hc)⟩
    simpa using congrArg List.reverse hmaps
  · rintro ⟨front, b, back, hmaps, hb, hback⟩
    refine ⟨back.reverse, b, front.reverse, ?_, hb, fun c hc => hback c (List.mem_reverse.mp hc)⟩
    simpa using congrArg List.reverse hmaps

lemma mem_names_merge {base : Bindings} {higher : List Bindings} (h : ∀ c ∈ higher, c.Ordered) {name : String} :
    name ∈ (merge base higher).names ↔ ∃ b ∈ base :: higher, name ∈ b.names := by
  rw [mem_names, get?_merge base h, ← List.reverse_cons, isSome_lookupIn]
  simp only [List.mem_reverse]

theorem layers_agree :
    (∀ maps : List Bindings, (∀ b ∈ maps, b.Ordered) → ∀ name, lookupIn maps name = (merge empty maps.reverse).get? name) ∧
    ∀ (base : Bindings) (higher : List Bindings), (∀ b ∈ base :: higher, b.Ordered) →
      (merge base higher).Ordered ∧
      (∀ name, name ∈ (merge base higher).names ↔ ∃ b ∈ base :: higher, name ∈ b.names) ∧
      ∀ name t, (merge base higher).get? name = some t ↔
        ∃ front b back, base :: higher = front ++ b :: back ∧ b.get? name = some t ∧ ∀ c ∈ back, name ∉ c.names := by
  refine ⟨fun maps hmaps name => ?_, fun base higher h => ?_⟩
  · rw [get?_merge empty (fun c hc => hmaps c (List.mem_reverse.mp hc)), List.reverse_reverse, lookupIn_append,
      lookupIn_singleton, get?_empty, Option.or_none]
  · obtain ⟨hbase, hhigher⟩ := List.forall_mem_cons.mp h
    exact ⟨hbase.merge higher, fun name => mem_names_merge hhigher, fun name t => get?_merge_eq_some hhigher⟩

namespace Overlapping

def first : Bindings := .ofList [("U", .bool), ("T", .int)]

def second : Bindings := .ofList [("V", .char), ("T", .string)]

lemma ordered : ∀ b ∈ [empty, first, second], b.Ordered := by
  simp only [List.forall_mem_cons]
  exact ⟨ordered_empty, (ordered_iff_ofList _).mpr ⟨_, rfl⟩, (ordered_iff_ofList _).mpr ⟨_, rfl⟩, by simp⟩

theorem first_over_second : (∀ b ∈ [empty, first, second], b.Ordered) ∧
    lookupIn [empty, first, second] "T" = some .int ∧
    lookupIn [empty, first, second] "T" = (merge empty [second, first, empty]).get? "T" ∧
    (merge empty [first, second]).Ordered ∧ "U" ∈ (merge empty [first, second]).names ∧
    (merge empty [first, second]).get? "T" = some .string := by
  obtain ⟨hlookup, hmerge⟩ := layers_agree
  obtain ⟨hordered, hnames, hvalues⟩ := hmerge empty [first, second] ordered
  refine ⟨ordered, rfl, hlookup _ ordered "T", hordered, (hnames "U").mpr ⟨first, by simp, ?_⟩, ?_⟩
  · exact mem_names.mpr rfl
  · exact (hvalues "T" .string).mpr ⟨[empty, first], second, [], rfl, rfl, by simp⟩

end Overlapping

/-! ### Layers that say the same -/

def Alike (maps maps' : List Bindings) : Prop := ∀ name, lookupIn maps name = lookupIn maps' name

namespace Alike

variable {maps maps' more more' : List Bindings}

lemma refl (maps : List Bindings) : Alike maps maps := fun _ => rfl

lemma symm (h : Alike maps maps') : Alike maps' maps := fun name => (h name).symm

lemma trans {maps'' : List Bindings} (h : Alike maps maps') (h' : Alike maps' maps'') : Alike maps maps'' :=
  fun name => (h name).trans (h' name)

lemma append (h : Alike maps maps') (hmore : Alike more more') : Alike (maps ++ more) (maps' ++ more') := by
  intro name
  rw [lookupIn_append, lookupIn_append, h name, hmore name]

lemma underlay (b c : Bindings) : Alike [b.underlay c] [b, c] := by
  intro name
  simp [lookupIn, get?_underlay]

lemma substitute (h : Alike maps maps') (t : Ty) : t.substitute maps = t.substitute maps' := by
  simp only [Ty.substitute, h _]

lemma substituteOrHole (h : Alike maps maps') (t : Ty) : t.substituteOrHole maps = t.substituteOrHole maps' := by
  simp only [Ty.substituteOrHole, h _]

end Alike

end Bindings

namespace Ty

mutual

lemma replace_congr {f f' : Generic Ty → Ty} {own : List String} (t : Ty) (h : ∀ g ∈ t.occurrencesIn own, f g = f' g) :
    t.replace f own = t.replace f' own := by
  cases t with
  | generic g =>
    rw [replace, replace]
    split
    · rfl
    · next hown => exact h g (by simp [occurrencesIn, hown])
  | named p args => rw [replace, replace, replaceAll_congr args h]
  | fn gs ps r =>
    rw [occurrencesIn] at h
    rw [replace, replace, replaceAll_congr ps fun g hg => h g (List.mem_append_left _ hg)]
    cases hr : r.isPending with
    | true => simp
    | false =>
      rw [hr] at h
      simp [replace_congr r fun g hg => h g (List.mem_append_right _ hg)]
  | _ => rfl

lemma replaceAll_congr {f f' : Generic Ty → Ty} {own : List String} (ts : List Ty)
    (h : ∀ g ∈ occurrencesInAll own ts, f g = f' g) : replaceAll f own ts = replaceAll f' own ts := by
  cases ts with
  | nil => rfl
  | cons t ts =>
    rw [replaceAll, replaceAll, replace_congr t fun g hg => h g (List.mem_append_left _ hg),
      replaceAll_congr ts fun g hg => h g (List.mem_append_right _ hg)]

end

end Ty

end TraitCheck
