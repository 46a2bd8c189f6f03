import Mathlib.Data.List.Perm.Basic
import Mathlib.Logic.Relation
import TraitCheck.Check.Instances

/-! The books that a check keeps of upcasts: the keys of what was recorded, the evidence of nodes, and for each module
its sites and the relations that it imports. One log explains all of them. -/

namespace TraitCheck

/-- What upcasts are told apart by, with the types as they were when the upcast was recorded. -/
def UpcastSite.key (u : UpcastSite) : Nat × String × String := (u.node.info.id, u.source.render, u.goal.render)

/-- Relations without those that were there before. -/
def firstRelations (rels : List Relation) : List Relation := rels.eraseDupsBy (·.id == ·.id)

def addRelation (l : List Relation) (r : Relation) : List Relation := if l.any (·.id = r.id) then l else l ++ [r]

structure Books where
  keys : List (Nat × String × String)
  evidence : Std.TreeMap Nat (List Evidence)
  modules : List (List UpcastSite × List Relation)

namespace Books

def record (b : Books) (id : Nat) (u : UpcastSite) : Books where
  keys := u.key :: b.keys
  evidence := b.evidence.insert u.node.info.id ((b.evidence[u.node.info.id]?).getD [] ++ [u.evidence])
  modules := b.modules.modify id fun m =>
    (m.1 ++ [u], u.evidence.relations.foldl addRelation m.2)

/-- The books are explained by a log of sites with the modules that they were recorded in. -/
structure Log (b : Books) (log : List (Nat × UpcastSite)) : Prop where
  keys : b.keys = (log.map (·.2.key)).reverse
  distinct : (log.map (·.2.key)).Nodup
  all : (b.modules.flatMap (·.1)).Perm (log.map Prod.snd)
  sites : ∀ i m, b.modules[i]? = some m → m.1 = (log.filter (·.1 = i)).map Prod.snd
  evidence : ∀ id : Nat, (b.evidence[id]?).getD [] = (log.filter (·.2.node.info.id = id)).map (·.2.evidence)
  imports : ∀ m ∈ b.modules, m.2 = firstRelations (m.1.flatMap (·.evidence.relations))

lemma loop_eq_foldl (rels l : List Relation) :
    List.eraseDupsBy.loop (·.id == ·.id) rels l = rels.foldl addRelation l.reverse := by
  induction rels generalizing l with
  | nil => rfl
  | cons r rels ih =>
    have hany : l.any (r.id == ·.id) = l.reverse.any (·.id = r.id) := by
      rw [List.any_reverse]
      exact congrArg l.any (funext fun x => decide_eq_decide.mpr eq_comm)
    rw [List.eraseDupsBy.loop, List.foldl_cons, addRelation, hany]
    cases l.reverse.any (·.id = r.id) with
    | true => exact ih l
    | false => rw [ih (r :: l), List.reverse_cons, if_neg (by simp)]

lemma firstRelations_append (rels more : List Relation) :
    firstRelations (rels ++ more) = more.foldl addRelation (firstRelations rels) := by
  simp only [firstRelations, List.eraseDupsBy, loop_eq_foldl, List.foldl_append]

lemma perm_flatMap_modify {α β : Type} {g : α → List β} {f : α → α} {b : β} (hf : ∀ a, g (f a) = g a ++ [b])
    {l : List α} {i : Nat} (hi : i < l.length) : ((l.modify i f).flatMap g).Perm (l.flatMap g ++ [b]) := by
  induction l generalizing i with
  | nil => simp at hi
  | cons a l ih =>
    cases i with
    | zero =>
      simp only [List.modify_zero_cons, List.flatMap_cons, hf, List.append_assoc]
      exact .append_left _ List.perm_append_comm
    | succ i =>
      simp only [List.modify_succ_cons, List.flatMap_cons, List.append_assoc]
      exact .append_left _ (ih (Nat.lt_of_succ_lt_succ hi))

lemma map_modify {α β : Type} {g : α → β} {f : α → α} {f' : β → β} (h : ∀ a, g (f a) = f' (g a)) (l : List α)
    (i : Nat) : (l.modify i f).map g = (l.map g).modify i f' := by
  induction l generalizing i with
  | nil => simp
  | cons a l ih =>
    cases i with
    | zero => rw [List.modify_zero_cons, List.map_cons, List.map_cons, List.modify_zero_cons, h]
    | succ i => rw [List.modify_succ_cons, List.map_cons, List.map_cons, List.modify_succ_cons, ih]

lemma mem_modify {α : Type} {l : List α} {i : Nat} {f : α → α} {a : α} (h : a ∈ l.modify i f) :
    a ∈ l ∨ i < l.length ∧ ∃ a' ∈ l, a = f a' := by
  obtain ⟨j, hj⟩ := List.mem_iff_getElem?.mp h
  rw [List.getElem?_modify] at hj
  obtain ⟨a', ha', rfl⟩ := Option.map_eq_some_iff.mp hj
  split
  · next hij =>
    subst hij
    exact .inr ⟨(List.getElem?_eq_some_iff.mp ha').1, a', List.mem_of_getElem? ha', rfl⟩
  · exact .inl (List.mem_of_getElem? ha')

variable {b : Books} {log : List (Nat × UpcastSite)}

lemma Log.record (h : b.Log log) {id : Nat} (hid : id < b.modules.length) {u : UpcastSite} (hnew : u.key ∉ b.keys) :
    (b.record id u).Log (log ++ [(id, u)]) where
  keys := by simp [Books.record, h.keys]
  distinct := by
    rw [h.keys, List.mem_reverse] at hnew
    rw [List.map_append, List.nodup_append]
    refine ⟨h.distinct, by simp, fun key hkey key' hkey' heq => ?_⟩
    obtain rfl := List.mem_singleton.mp hkey'
    subst heq
    exact hnew hkey
  all := by
    rw [List.map_append]
    exact (perm_flatMap_modify (fun _ => rfl) hid).trans (h.all.append_right _)
  sites i m hm := by
    rw [Books.record, List.getElem?_modify] at hm
    obtain ⟨m', hm', rfl⟩ := Option.map_eq_some_iff.mp hm
    rw [List.filter_append, List.map_append, ← h.sites i m' hm']
    by_cases hi : id = i <;> simp [hi]
  evidence n := by
    rw [Books.record, Std.TreeMap.getElem?_insert, List.filter_append, List.map_append, ← h.evidence n]
    by_cases hn : u.node.info.id = n
    · subst hn
      simp
    · simp [hn]
  imports m hm := by
    obtain ⟨i, hi⟩ := List.mem_iff_getElem?.mp hm
    rw [Books.record, List.getElem?_modify] at hi
    obtain ⟨m', hm', rfl⟩ := Option.map_eq_some_iff.mp hi
    have himports := h.imports m' (List.mem_of_getElem? hm')
    split
    · dsimp only
      rw [List.flatMap_append, firstRelations_append, ← himports, List.flatMap_cons, List.flatMap_nil, List.append_nil]
    · exact himports

end Books

namespace State

def books (s : State) : Books := ⟨s.upcasts, s.evidence, s.modules.map fun m => (m.upcasts, m.relImports)⟩

/-- A state in which a site has been noted, but in no module. -/
def noted (s : State) (u : UpcastSite) : State :=
  { s with
    upcasts := u.key :: s.upcasts
    evidence := s.evidence.insert u.node.info.id ((s.evidence[u.node.info.id]?).getD [] ++ [u.evidence]) }

def record (s : State) (id : Nat) (u : UpcastSite) : State :=
  { s.noted u with
    modules := s.modules.modify id fun m =>
      Check.addRelImports u.evidence.relations { m with upcasts := m.upcasts ++ [u] } }

lemma books_record (s : State) (id : Nat) (u : UpcastSite) : (s.record id u).books = s.books.record id u := by
  rw [books, Books.record]
  exact congrArg (Books.mk _ _) (Books.map_modify (fun _ => by rfl) s.modules id)

/-- What a check does to the books: nothing, or it adds a site, in the module that is being worked on, that is not there
yet. -/
inductive Booking : State → State → Prop
  | none {s t : State} (h : t.books = s.books) : Booking s t
  | site {s : State} {f : Frame} (hframe : s.frames.peek? = some f) (hmodule : f.module < s.modules.length)
      (u : UpcastSite) (hnew : u.key ∉ s.upcasts) : Booking s (s.record f.module u)

def Bookings : State → State → Prop := Relation.ReflTransGen Booking

variable {s t u : State}

lemma Booking.exists_log {log : List (Nat × UpcastSite)} (h : s.Booking t) (hlog : s.books.Log log) :
    ∃ new, t.books.Log (log ++ new) := by
  cases h with
  | none h => exact ⟨[], by rwa [h, List.append_nil]⟩
  | @site f _ hmodule u hnew =>
    refine ⟨[(f.module, u)], ?_⟩
    rw [books_record]
    exact hlog.record (by simpa [books] using hmodule) hnew

lemma Bookings.exists_log {log : List (Nat × UpcastSite)} (h : s.Bookings t) (hlog : s.books.Log log) :
    ∃ new, t.books.Log (log ++ new) := by
  induction h with
  | refl => exact ⟨[], by rwa [List.append_nil]⟩
  | tail _ h ih =>
    obtain ⟨new, hnew⟩ := ih
    obtain ⟨more, hmore⟩ := h.exists_log hnew
    exact ⟨new ++ more, by rwa [← List.append_assoc]⟩

lemma Bookings.trans (h : s.Bookings t) (h' : t.Bookings u) : s.Bookings u := Relation.ReflTransGen.trans h h'

lemma Bookings.of_books (h : t.books = s.books) : s.Bookings t := Relation.ReflTransGen.single (.none h)

end State

/-! ### Places

A site would get lost if the module that is being worked on did not exist. -/

def Definition.In (P : Nat → Prop) (d : Definition) : Prop := ∀ v m, d = .var v → v.module = some m → P m

abbrev Definition.Inner : Definition → Prop := Definition.In fun _ => False

lemma Definition.in_of_kind {P : Nat → Prop} {d : Definition} (h : d.kind ≠ .var) : d.In P := by
  rintro v m rfl
  exact absurd rfl h

lemma Definition.In.mono {P Q : Nat → Prop} {d : Definition} (h : d.In P) (hpq : ∀ m, P m → Q m) : d.In Q :=
  fun v m hd hm => hpq m (h v m hd hm)

namespace State

variable {s t u : State} {b c : Bool}

structure Anchored (s : State) : Prop where
  scopes : ∀ m ∈ s.modules, ∀ x ∈ m.scope.defs, x.2.In (· < s.modules.length)
  defs : ∀ m ∈ s.modules, ∀ (id : Nat) d, m.defs[id]? = some d → d.In (· < s.modules.length)
  locals : ∀ f ∈ s.frames.top, ∀ sc ∈ f.locals, ∀ x ∈ sc.defs, x.2.In (· < s.modules.length)
  pending : ∀ p ∈ s.pending, p.frame.module < s.modules.length

lemma Anchored.entry_scope (hs : s.Anchored) (id : Nat) :
    ∀ x ∈ ((s.modules[id]?).getD default).scope.defs, x.2.In (· < s.modules.length) := by
  cases hm : s.modules[id]? with
  | none => exact List.forall_mem_nil _
  | some m => exact hs.scopes m (List.mem_of_getElem? hm)

lemma Anchored.entry_defs (hs : s.Anchored) {id key : Nat} {d : Definition}
    (h : ((s.modules[id]?).getD default).defs[key]? = some d) : d.In (· < s.modules.length) := by
  cases hm : s.modules[id]? with
  | none =>
    rw [hm] at h
    exact absurd (h.symm.trans Std.TreeMap.getElem?_emptyc) (Option.some_ne_none d)
  | some m =>
    rw [hm] at h
    exact hs.defs m (List.mem_of_getElem? hm) key d h

def Within (s : State) : Prop := ∃ f, s.frames.peek? = some f ∧ f.module < s.modules.length

/-- What an action does to frames, modules and books. If it is one that may record sites, this goes for a module that
exists only. -/
structure Orderly (b : Bool) (s t : State) : Prop where
  frames : t.frames.top.map Frame.module = s.frames.top.map Frame.module
  length : t.modules.length = s.modules.length
  keeps : s.Anchored → (b = true → s.Within) → t.Anchored ∧ s.Bookings t

lemma Orderly.within (h : s.Orderly b t) (hs : s.Within) : t.Within := by
  obtain ⟨f, htop, hf⟩ := hs
  have hmodule : (t.frames.top.map Frame.module).head? = some f.module := by
    rw [h.frames, List.head?_map]
    exact congrArg (Option.map Frame.module) htop
  rw [List.head?_map] at hmodule
  obtain ⟨g, hg, hgf⟩ := Option.map_eq_some_iff.mp hmodule
  exact ⟨g, hg, by rwa [hgf, h.length]⟩

lemma Orderly.refl (s : State) : s.Orderly b s := ⟨rfl, rfl, fun hs _ => ⟨hs, Relation.ReflTransGen.refl⟩⟩

lemma Orderly.trans (h : s.Orderly b t) (h' : t.Orderly b u) : s.Orderly b u where
  frames := h'.frames.trans h.frames
  length := h'.length.trans h.length
  keeps hs hwithin := by
    obtain ⟨ht, hst⟩ := h.keeps hs hwithin
    obtain ⟨hu, htu⟩ := h'.keeps ht fun hb => h.within (hwithin hb)
    exact ⟨hu, hst.trans htu⟩

lemma Orderly.any (h : s.Orderly false t) : s.Orderly b t :=
  ⟨h.frames, h.length, fun hs _ => h.keeps hs fun hb => absurd hb Bool.false_ne_true⟩

lemma orderly_of_eq (hmodules : t.modules = s.modules) (hframes : t.frames = s.frames)
    (hpending : t.pending = s.pending) (hupcasts : t.upcasts = s.upcasts) (hevidence : t.evidence = s.evidence) :
    s.Orderly b t where
  frames := by rw [hframes]
  length := by rw [hmodules]
  keeps hs _ := by
    refine ⟨?_, .of_books (by rw [books, books, hupcasts, hevidence, hmodules])⟩
    constructor
    · rw [hmodules]
      exact hs.scopes
    · rw [hmodules]
      exact hs.defs
    · rw [hframes, hmodules]
      exact hs.locals
    · rw [hpending, hmodules]
      exact hs.pending

lemma orderly_modifyFrame {u : Frame → Frame} (hmodule : ∀ f, (u f).module = f.module)
    (hlocals : ∀ f, ∀ sc ∈ (u f).locals, ∀ x ∈ sc.defs, x.2.Inner ∨ ∃ sc' ∈ f.locals, x ∈ sc'.defs) :
    s.Orderly b (Check.modifyFrame u s) where
  frames := by
    rw [Check.modifyFrame, Stack.modifyTop]
    split
    · rfl
    · next f fs htop => simp [htop, hmodule]
  length := rfl
  keeps hs _ := by
    refine ⟨{ hs with locals := ?_ }, .of_books rfl⟩
    rw [Check.modifyFrame, Stack.modifyTop]
    split
    · exact hs.locals
    · next f fs htop =>
      have hold := hs.locals
      rw [htop] at hold
      refine List.forall_mem_cons.mpr ⟨fun sc hsc x hx => ?_, (List.forall_mem_cons.mp hold).2⟩
      rcases hlocals f sc hsc x hx with hinner | ⟨sc', hsc', hx'⟩
      · exact hinner.mono fun _ => False.elim
      · exact (List.forall_mem_cons.mp hold).1 sc' hsc' x hx'

lemma Anchored.modify (hs : s.Anchored) (id : Nat) {f : ModuleEntry → ModuleEntry}
    (hscope : ∀ m, ∀ x ∈ (f m).scope.defs, x.2.In (· = id) ∨ x ∈ m.scope.defs)
    (hdefs : ∀ m, ∀ (k : Nat) d, (f m).defs[k]? = some d → d.In (· = id) ∨ m.defs[k]? = some d) :
    { s with modules := s.modules.modify id f }.Anchored := by
  constructor <;> dsimp only <;> rw [List.length_modify]
  · intro m hm x hx
    rcases Books.mem_modify hm with hm | ⟨hid, m', hm', rfl⟩
    · exact hs.scopes m hm x hx
    · rcases hscope m' x hx with hown | hx
      · exact hown.mono fun k hk => hk ▸ hid
      · exact hs.scopes m' hm' x hx
  · intro m hm k d hd
    rcases Books.mem_modify hm with hm | ⟨hid, m', hm', rfl⟩
    · exact hs.defs m hm k d hd
    · rcases hdefs m' k d hd with hown | hd
      · exact hown.mono fun k hk => hk ▸ hid
      · exact hs.defs m' hm' k d hd
  · exact hs.locals
  · exact hs.pending

lemma orderly_modify {id : Nat} {f : ModuleEntry → ModuleEntry}
    (hbooks : ∀ m, (f m).upcasts = m.upcasts ∧ (f m).relImports = m.relImports)
    (hscope : ∀ m, ∀ x ∈ (f m).scope.defs, x.2.In (· = id) ∨ x ∈ m.scope.defs)
    (hdefs : ∀ m, ∀ (k : Nat) d, (f m).defs[k]? = some d → d.In (· = id) ∨ m.defs[k]? = some d) :
    s.Orderly b { s with modules := s.modules.modify id f } where
  frames := rfl
  length := List.length_modify _ _ _
  keeps hs _ := by
    refine ⟨hs.modify id hscope hdefs, .of_books ?_⟩
    refine congrArg (Books.mk s.upcasts s.evidence) (Eq.trans ?_ (List.modify_id id _))
    exact Books.map_modify (fun m => Prod.ext (hbooks m).1 (hbooks m).2) s.modules id

lemma orderly_await (c : Syntax.Lambda) {f : Frame} (htop : s.frames.peek? = some f) :
    s.Orderly true { s with pending := s.pending ++ [⟨c, f⟩] } where
  frames := rfl
  length := rfl
  keeps hs hwithin := by
    refine ⟨{ hs with pending := fun p hp => ?_ }, .of_books rfl⟩
    rcases List.mem_append.mp hp with hp | hp
    · exact hs.pending p hp
    · obtain rfl := List.mem_singleton.mp hp
      obtain ⟨g, hg, hlt⟩ := hwithin rfl
      obtain rfl := Option.some.inj (htop.symm.trans hg)
      exact hlt

lemma orderly_settle {l : List PendingClosure} (h : l.Sublist s.pending) : s.Orderly b { s with pending := l } where
  frames := rfl
  length := rfl
  keeps hs _ := ⟨{ hs with pending := fun p hp => hs.pending p (h.subset hp) }, .of_books rfl⟩

lemma orderly_record {f : Frame} (htop : s.frames.peek? = some f) (u : UpcastSite) (hnew : u.key ∉ s.upcasts) :
    s.Orderly true (s.record f.module u) where
  frames := rfl
  length := List.length_modify _ _ _
  keeps hs hwithin := by
    obtain ⟨g, hg, hlt⟩ := hwithin rfl
    obtain rfl := Option.some.inj (htop.symm.trans hg)
    refine ⟨?_, Relation.ReflTransGen.single (.site htop hlt u hnew)⟩
    have hanchored : { s with modules := (s.record f.module u).modules }.Anchored :=
      hs.modify f.module (fun _ _ hx => .inr hx) fun _ _ _ hd => .inr hd
    exact { hanchored with }

lemma Anchored.enter (hs : s.Anchored) (id : Nat) :
    { s with frames := s.frames.push { id := s.nextFrame, module := id }, nextFrame := s.nextFrame + 1 }.Anchored :=
  { hs with locals := List.forall_mem_cons.mpr ⟨by simp, hs.locals⟩ }

lemma Orderly.inModule {id : Nat}
    (h : { s with frames := s.frames.push { id := s.nextFrame, module := id }, nextFrame := s.nextFrame + 1 }.Orderly c u)
    (hid : c = true → s.Anchored → id < s.modules.length) : s.Orderly b { u with frames := u.frames.pop } where
  frames := by
    have hframes := h.frames
    rw [Stack.push, List.map_cons] at hframes
    rw [Stack.pop, List.map_tail, hframes, List.tail_cons]
  length := h.length
  keeps hs _ := by
    obtain ⟨hu, hbookings⟩ := h.keeps (hs.enter id) fun hc => ⟨_, rfl, hid hc hs⟩
    refine ⟨{ hu with locals := fun f hf => hu.locals f (List.mem_of_mem_tail hf) }, ?_⟩
    refine Bookings.trans (.of_books ?_) (hbookings.trans (.of_books ?_))
    · rfl
    · rfl

end State

end TraitCheck
