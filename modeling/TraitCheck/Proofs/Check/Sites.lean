import TraitCheck.Proofs.Check.Knots

/-! The books of upcasts over a whole check. They are in order from the first state to the last: one log explains the
sites of all modules, the evidence of all nodes and what modules import. Sites are told apart by their types as they
read when they were recorded. If the result of a closure becomes known later, two sites of one node may come to read the
same. -/

namespace TraitCheck

/-! ### Relations of evidence -/

namespace Evidence

/-- Evidence that refers to a relation, by itself or by evidence in it. -/
inductive Mentions (r : Relation) : Evidence → Prop
  | via {name : String} {via : List (String × Relation)} (h : (name, r) ∈ via) (generics : List (List Evidence)) :
      Mentions r (.view via generics)
  | generic (via : List (String × Relation)) {generics : List (List Evidence)} {bounds : List Evidence} {e : Evidence}
      (hbounds : bounds ∈ generics) (he : e ∈ bounds) (h : Mentions r e) : Mentions r (.view via generics)
  | param {params : List (Option Evidence)} {e : Evidence} (hparam : some e ∈ params) (h : Mentions r e)
      (result : Option Evidence) : Mentions r (.fn params result)
  | result (params : List (Option Evidence)) {e : Evidence} (h : Mentions r e) : Mentions r (.fn params (some e))

variable {r : Relation}

lemma mentions_view {via : List (String × Relation)} {generics : List (List Evidence)} :
    Mentions r (.view via generics) ↔ (∃ name, (name, r) ∈ via) ∨ ∃ bounds ∈ generics, ∃ e ∈ bounds, Mentions r e := by
  constructor
  · intro h
    cases h with
    | via h => exact .inl ⟨_, h⟩
    | generic _ hbounds he h => exact .inr ⟨_, hbounds, _, he, h⟩
  · rintro (⟨name, h⟩ | ⟨bounds, hbounds, e, he, h⟩)
    · exact .via h generics
    · exact .generic via hbounds he h

lemma mentions_fn {params : List (Option Evidence)} {result : Option Evidence} :
    Mentions r (.fn params result) ↔ (∃ e, some e ∈ params ∧ Mentions r e) ∨ ∃ e, result = some e ∧ Mentions r e := by
  constructor
  · intro h
    cases h with
    | param hparam h => exact .inl ⟨_, hparam, h⟩
    | result _ h => exact .inr ⟨_, rfl, h⟩
  · rintro (⟨e, hparam, h⟩ | ⟨e, rfl, h⟩)
    · exact .param hparam h result
    · exact .result params h

mutual

lemma mem_relations (e : Evidence) : r ∈ e.relations ↔ e.Mentions r := by
  cases e with
  | view via generics =>
    rw [relations, List.mem_append, mem_relationsOfGenerics generics, mentions_view]
    simp
  | fn params result =>
    rw [relations, List.mem_append, mem_relationsOfParams params, mem_relationsOfOption result, mentions_fn]

lemma mem_relationsOfAll (es : List Evidence) : r ∈ relationsOfAll es ↔ ∃ e ∈ es, Mentions r e := by
  cases es with
  | nil => simp [relationsOfAll]
  | cons e es => simp [relationsOfAll, mem_relations e, mem_relationsOfAll es]

lemma mem_relationsOfGenerics (generics : List (List Evidence)) :
    r ∈ relationsOfGenerics generics ↔ ∃ bounds ∈ generics, ∃ e ∈ bounds, Mentions r e := by
  cases generics with
  | nil => simp [relationsOfGenerics]
  | cons bounds rest => simp [relationsOfGenerics, mem_relationsOfAll bounds, mem_relationsOfGenerics rest]

lemma mem_relationsOfOption (o : Option Evidence) : r ∈ relationsOfOption o ↔ ∃ e, o = some e ∧ Mentions r e := by
  cases o with
  | none => simp [relationsOfOption]
  | some e => simp [relationsOfOption, mem_relations e]

lemma mem_relationsOfParams (ps : List (Option Evidence)) :
    r ∈ relationsOfParams ps ↔ ∃ e, some e ∈ ps ∧ Mentions r e := by
  cases ps with
  | nil => simp [relationsOfParams]
  | cons p ps =>
    rw [relationsOfParams, List.mem_append, mem_relationsOfOption p, mem_relationsOfParams ps]
    simp only [List.mem_cons, or_and_right, exists_or, eq_comm (a := p)]

end

end Evidence

/-! ### Types that waited -/

namespace Ty

mutual

lemma complete_eq_self {known : Nat → Option Ty} (t : Ty) (h : ∀ i ∈ t.waits, known i = none) :
    t.complete known = t := by
  cases t with
  | named p args =>
    rw [waits] at h
    rw [complete, completeAll_eq_self args h]
  | fn gs ps r =>
    by_cases hr : r.Done
    · rw [waits_fn hr, List.forall_mem_append] at h
      rw [complete_fn hr, completeAll_eq_self ps h.1, complete_eq_self r h.2]
    · obtain ⟨i, rfl⟩ : ∃ i, r = .ongoing i := by simpa [Done] using hr
      rw [waits, List.forall_mem_append] at h
      rw [complete, completeAll_eq_self ps h.1, h.2 i (by simp), Option.getD_none]
  | _ => rfl

lemma completeAll_eq_self {known : Nat → Option Ty} (ts : List Ty) (h : ∀ i ∈ waitsAll ts, known i = none) :
    completeAll known ts = ts := by
  cases ts with
  | nil => rfl
  | cons t ts =>
    rw [waitsAll, List.forall_mem_append] at h
    rw [completeAll, complete_eq_self t h.1, completeAll_eq_self ts h.2]

end

end Ty

/-! ### Relations that modules import -/

section Imports

variable {l : List Relation} {r : Relation}

lemma ids_addRelation (h : (l.map (·.id)).Nodup) (r : Relation) : ((addRelation l r).map (·.id)).Nodup ∧
    ∀ n, n ∈ (addRelation l r).map (·.id) ↔ n ∈ l.map (·.id) ∨ n = r.id := by
  have hany : l.any (·.id = r.id) = true ↔ r.id ∈ l.map (·.id) := by simp
  rw [addRelation]
  split
  · next hold =>
    refine ⟨h, fun n => ⟨.inl, ?_⟩⟩
    rintro (hn | rfl)
    · exact hn
    · exact hany.mp hold
  · next hnew =>
    rw [List.map_append, List.map_singleton]
    refine ⟨h.append (List.nodup_singleton _) (List.disjoint_singleton.mpr fun hr => hnew (hany.mpr hr)), fun n => ?_⟩
    rw [List.mem_append, List.mem_singleton]

lemma ids_foldl_addRelation (h : (l.map (·.id)).Nodup) (rels : List Relation) :
    ((rels.foldl addRelation l).map (·.id)).Nodup ∧
      ∀ n, n ∈ (rels.foldl addRelation l).map (·.id) ↔ n ∈ l.map (·.id) ∨ n ∈ rels.map (·.id) := by
  induction rels generalizing l with
  | nil => exact ⟨h, by simp⟩
  | cons r rels ih =>
    obtain ⟨hnodup, hmem⟩ := ids_addRelation h r
    obtain ⟨hnodup', hmem'⟩ := ih hnodup
    refine ⟨hnodup', fun n => ?_⟩
    rw [List.foldl_cons, hmem', hmem, List.map_cons, List.mem_cons, or_assoc]

lemma ids_firstRelations (rels : List Relation) : ((firstRelations rels).map (·.id)).Nodup ∧
    ∀ n, n ∈ (firstRelations rels).map (·.id) ↔ n ∈ rels.map (·.id) := by
  have hfold : firstRelations rels = rels.foldl addRelation [] := Books.firstRelations_append [] rels
  obtain ⟨hnodup, hmem⟩ := ids_foldl_addRelation (l := []) List.nodup_nil rels
  rw [hfold]
  exact ⟨hnodup, fun n => by simpa using hmem n⟩

end Imports

/-! ### The books of a check -/

namespace State

def sites (s : State) : List UpcastSite := s.modules.flatMap (·.upcasts)

lemma flatMap_books (s : State) : s.books.modules.flatMap (·.1) = s.sites := List.flatMap_map _ _ _

/-- What a site is told apart by, with the types as they read in a state. -/
def reading (s : State) (u : UpcastSite) : Nat × String × String :=
  (u.node.info.id, (s.complete u.source).render, (s.complete u.goal).render)

/-- No result is known that the types of a site waited for when it was recorded. -/
def Unaltered (s : State) (u : UpcastSite) : Prop := ∀ i ∈ u.source.waits ++ u.goal.waits, s.results[i]? = none

/-- The books are in order. A log of all sites, in the order in which they were recorded, explains them; sites differ in
how they read if they still read as they did; and a module imports the relations that its sites mention, each once. -/
structure InOrder (s : State) (log : List (Nat × UpcastSite)) : Prop where
  explained : s.books.Log log
  readings : log.Pairwise fun a b => s.Unaltered a.2 → s.Unaltered b.2 → s.reading a.2 ≠ s.reading b.2
  imports : ∀ m ∈ s.modules, (m.relImports.map (·.id)).Nodup ∧
    ∀ n, n ∈ m.relImports.map (·.id) ↔ ∃ u ∈ m.upcasts, ∃ r, u.evidence.Mentions r ∧ r.id = n

variable {s : State} {log : List (Nat × UpcastSite)}

lemma reading_eq_key {u : UpcastSite} (h : s.Unaltered u) : s.reading u = u.key := by
  obtain ⟨hsource, hgoal⟩ := List.forall_mem_append.mp h
  rw [reading, complete, complete, Ty.complete_eq_self _ hsource, Ty.complete_eq_self _ hgoal, UpcastSite.key]

lemma inOrder_of_log (h : s.books.Log log) : s.InOrder log where
  explained := h
  readings := by
    refine (List.pairwise_map.mp h.distinct).imp fun hkey ha hb => ?_
    rwa [reading_eq_key ha, reading_eq_key hb]
  imports m hm := by
    have himports : m.relImports = firstRelations (m.upcasts.flatMap (·.evidence.relations)) :=
      h.imports _ (List.mem_map_of_mem hm)
    obtain ⟨hnodup, hmem⟩ := ids_firstRelations (m.upcasts.flatMap (·.evidence.relations))
    rw [himports]
    refine ⟨hnodup, fun n => (hmem n).trans ?_⟩
    simp only [List.mem_map, List.mem_flatMap, Evidence.mem_relations]
    constructor
    · rintro ⟨r, ⟨u, hu, hr⟩, hn⟩
      exact ⟨u, hu, r, hr, hn⟩
    · rintro ⟨u, hu, r, hr, hn⟩
      exact ⟨r, ⟨u, hu, hr⟩, hn⟩

lemma Unchecked.log_nil {wf : Prop} (h : s.Unchecked wf) : s.books.Log [] := by
  have hupcasts : s.upcasts = [] := congrArg State.upcasts h.rest
  have hevidence : s.evidence = ∅ := congrArg State.evidence h.rest
  have hmodules : ∀ m ∈ s.books.modules, m = ([], []) := by
    intro m hm
    obtain ⟨entry, hentry, rfl⟩ := List.mem_map.mp hm
    rw [h.bare entry hentry]
    rfl
  constructor
  · exact hupcasts
  · exact List.nodup_nil
  · rw [List.map_nil, List.perm_nil, List.flatMap_eq_nil_iff]
    exact fun m hm => congrArg Prod.fst (hmodules m hm)
  · exact fun i m hm => congrArg Prod.fst (hmodules m (List.mem_of_getElem? hm))
  · intro n
    rw [books, hevidence, Std.TreeMap.getElem?_emptyc]
    rfl
  · intro m hm
    rw [hmodules m hm]
    rfl

lemma Unchecked.anchored {wf : Prop} (h : s.Unchecked wf) : s.Anchored := by
  have hframes : s.frames.top = [] := congrArg (fun t : State => t.frames.top) h.rest
  have hpending : s.pending = [] := congrArg State.pending h.rest
  constructor
  · intro m hm x hx
    rw [h.bare m hm] at hx
    exact absurd hx List.not_mem_nil
  · intro m hm id d hd
    rw [h.bare m hm] at hd
    exact absurd (hd.symm.trans Std.TreeMap.getElem?_emptyc) (Option.some_ne_none d)
  · rw [hframes]
    exact List.forall_mem_nil _
  · rw [hpending]
    exact List.forall_mem_nil _

/-- A check only records sites, one at a time, and whatever it has recorded the books are in order. -/
theorem books_of_check (prelude : List Path) (reserve : Nat)
    (packages : List (String × List (String × Syntax.Module))) :
    (ofPackages prelude reserve packages).Bookings (ofPackages prelude reserve packages).check.2 ∧
      (∀ s, (ofPackages prelude reserve packages).Bookings s → ∃ log, s.InOrder log) ∧
        ∀ (s : State) (f : Frame) (u : UpcastSite), s.frames.peek? = some f →
          (Check.recordUpcast u.node u.source u.goal u.evidence).run s =
            (.ok (), if u.key ∈ s.upcasts then s else s.record f.module u) := by
  have hstart : (ofPackages prelude reserve packages).Unchecked False := unchecked_ofPackages _ _ False.elim
  have hcheck := (comes_check (ofPackages prelude reserve packages)).orderly
  refine ⟨(hcheck.keeps hstart.anchored fun hb => absurd hb Bool.false_ne_true).2, ?_, ?_⟩
  · intro s hs
    obtain ⟨log, hlog⟩ := hs.exists_log hstart.log_nil
    exact ⟨log, inOrder_of_log hlog⟩
  · exact fun s f u htop => Check.run_recordUpcast u htop

end State

namespace Echoes

open Standard (ident ref)
open Syntax (Expr Stmt Module)

def call (f : Expr) (args : List Expr) : Expr := .call {} f args

def one : Expr := .literal ⟨{}, .int, "1"⟩

/-- A variable for a closure with one parameter. -/
def lambda (name param : String) (body : List Expr) : Stmt :=
  .var ⟨{}, false, name, none, .closure ⟨{}, [⟨{}, param, none⟩], none, ⟨{}, body.map (.expr {})⟩⟩⟩

/-- The closure `k` shows a box of the closure `g`. It is typed in the body of `g`, while `g` has no result yet, and
once more when it is called itself, with an argument that `g` has been typed for. -/
def main : List Stmt :=
  [lambda "g" "b" [call (ident "k") [one], one],
    lambda "k" "x" [call (ident "show") [call (ident "Box::Box") [ident "g"]]],
    .expr {} (call (ident "k") [.block ⟨{}, [.expr {} (call (ident "g") [one]), .expr {} one]⟩])]

def box : Stmt := .type ⟨{}, true, "Box", [Standard.gen "T"], [⟨{}, "Box", [⟨{}, true, "v", ref "T"⟩]⟩]⟩

def packages : List (String × List (String × Module)) :=
  [("app", [("app::main", Standard.module [Standard.trait "Show" [], box,
    Standard.impl [Standard.gen "T"] (some (ref "Show")) (ref "Box" [ref "T"]) [],
    .fn (Standard.fnOf "show" [Standard.param "s" (ref "Show")] (ref "Int") one),
    .fn ⟨{}, false, "main", [], [], none, some ⟨{}, main⟩⟩])])]

def start : State := State.ofPackages Standard.prelude 64 packages

def compared (id : Nat) : Nat × String × String := (id, "Self", "std::op::Eq")

/-- The box, with what the text of its type says of the result of `g`. -/
def boxed (result : String) : Nat × String × String :=
  (535, "app::main::Box<fn(std::int::Int): " ++ result ++ ">", "app::main::Show")

lemma sites_found : start.check.1.isNone = true ∧ start.check.2.diagnostics.length = 0 ∧
    start.check.2.sites.map (fun u => (u.key, start.check.2.reading u)) =
      [(compared 375, compared 375), (compared 374, compared 374), (boxed "std::unit::Unit", boxed "std::int::Int"),
        (boxed "std::int::Int", boxed "std::int::Int")] := by
  decide +kernel

/-- The two sites of the box differ as they were recorded, but not as they read in the end. -/
theorem box_shown_twice : ∃ t, start.check = (none, t) ∧ t.diagnostics.length = 0 ∧
    t.sites.map t.reading = [compared 375, compared 374, boxed "std::int::Int", boxed "std::int::Int"] ∧
      ¬ (t.sites.map t.reading).Nodup := by
  have hfound := sites_found
  generalize start.check = result at hfound ⊢
  obtain ⟨failure, t⟩ := result
  obtain ⟨hnone, hclean, hsites⟩ := hfound
  obtain rfl := Option.isNone_iff_eq_none.mp hnone
  have hreadings : t.sites.map t.reading =
      [compared 375, compared 374, boxed "std::int::Int", boxed "std::int::Int"] := by
    have hsnd := congrArg (List.map Prod.snd) hsites
    rwa [List.map_map] at hsnd
  refine ⟨t, rfl, hclean, hreadings, ?_⟩
  rw [hreadings]
  decide

/-- The last module is being worked on. -/
def entered : State := { start with frames := start.frames.push { id := 0, module := 12 } }

def site : UpcastSite := ⟨one, .unit, .unit, .view [] []⟩

/-- The sites of the standard package and those two. -/
theorem four_recorded : start.Bookings start.check.2 ∧ (∃ log, start.check.2.InOrder log ∧ log.length = 4) ∧
    entered.frames.peek? = some { id := 0, module := 12 } ∧
      (Check.recordUpcast site.node site.source site.goal site.evidence).run entered =
        (.ok (), entered.record 12 site) := by
  obtain ⟨hbookings, hlogs, hrecord⟩ := State.books_of_check Standard.prelude 64 packages
  obtain ⟨log, hlog⟩ := hlogs _ hbookings
  have hlength := congrArg List.length sites_found.2.2
  have hnew : site.key ∉ entered.upcasts := by decide +kernel
  refine ⟨hbookings, ⟨log, hlog, ?_⟩, rfl, ?_⟩
  · rwa [← List.length_map Prod.snd, ← hlog.explained.all.length_eq, State.flatMap_books, ← List.length_map]
  · rw [hrecord entered _ site rfl, if_neg hnew]

end Echoes

end TraitCheck
