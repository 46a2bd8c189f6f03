import Mathlib.Data.Finset.Lattice.Lemmas
import TraitCheck.Proofs.Check.Scoping
import TraitCheck.Proofs.Syntax.Within

/-! Closures that have the type of a function. A check can be made to stop when one of a few things happens to such a
closure; as long as it does not stop it is the check itself. Unless the closure is evaluated again, or the arguments of a
call of it have given it that type, its body is not checked again and its type stays. -/

namespace TraitCheck

open Syntax (Body Expr Form Lambda)

namespace Check

variable {α : Type}

/--
What can happen to a closure that has the type of a function.
* `evaluated`: it is evaluated
* `called`: a call types it after the arguments
* `typed`: it is typed
* `replaced`: its type is another one at the end of a nested check
-/
inductive Event where
  | evaluated
  | called
  | typed
  | replaced
  deriving DecidableEq

namespace Event

/-- A failure that no program brings about. -/
def failure : Event → Failure
  | evaluated => .notAtTop
  | called => .notNamed
  | typed => .noModule
  | replaced => .chainsTooEarly

/-- The event that a failure stands for. -/
def of? : Failure → Option Event
  | .notAtTop => some evaluated
  | .notNamed => some called
  | .noModule => some typed
  | .chainsTooEarly => some replaced
  | _ => none

lemma of?_eq_some {φ : Failure} {event : Event} : of? φ = some event ↔ φ = event.failure := by
  cases event <;> cases φ <;> simp [of?, failure]

lemma failure_injective : Function.Injective failure := by
  intro a b h
  have ha : of? b.failure = some a := of?_eq_some.mpr h.symm
  have hb : of? b.failure = some b := of?_eq_some.mpr rfl
  exact Option.some.inj (ha.symm.trans hb)

lemma not_allowedIn (event : Event) (F : Form) : ¬event.failure.AllowedIn F := by
  rintro (h | ⟨-, h | h⟩) <;> cases event <;> cases h

def all : Finset Event := {evaluated, called, typed, replaced}

lemma mem_all (event : Event) : event ∈ all := by cases event <;> simp [all]

end Event

/-- The event that an action stops at. -/
def stopsAt? (x : Check α) (s : State) : Option Event :=
  match (x.run s).1 with
  | .error φ => Event.of? φ
  | .ok _ => none

lemma stopsAt?_eq_some {x : Check α} {s : State} {event : Event} :
    stopsAt? x s = some event ↔ ∃ t, x.run s = (.error event.failure, t) := by
  unfold stopsAt?
  match hrun : x.run s with
  | (.error φ, t) =>
    refine Event.of?_eq_some.trans ⟨fun h => ⟨t, by rw [h]⟩, ?_⟩
    rintro ⟨u, hu⟩
    exact Except.error.inj (Prod.mk.inj hu).1
  | (.ok a, t) =>
    refine ⟨nofun, ?_⟩
    rintro ⟨u, hu⟩
    cases hu

/-! ### Checks that stop -/

/-- Whether the node has the type of a function. -/
def hasFn (k : Nat) (s : State) : Bool := (s.slots[k]?).any Ty.isFn

lemma hasFn_iff {k : Nat} {s : State} : hasFn k s = true ↔ s.HasFn k := by
  simp [hasFn, State.HasFn, Option.any_eq_true]

/-- Whether a node is another one, or has not the type of a function. -/
def isFresh (k id : Nat) (s : State) : Bool := id ≠ k || !hasFn k s

lemma isFresh_iff {k id : Nat} {s : State} : isFresh k id s = true ↔ (id = k → ¬s.HasFn k) := by
  rw [isFresh, ← hasFn_iff]
  by_cases hid : id = k <;> simp [hid]

open scoped Classical in
/-- Whether the node keeps the type of a function. -/
noncomputable def isKept (k : Nat) (s t : State) : Bool := !hasFn k s || t.slots[k]? = s.slots[k]?

lemma isKept_of {k : Nat} {s t : State} (h : ∀ r, s.slots[k]? = some r → r.isFn = true → t.slots[k]? = some r) :
    isKept k s t = true := by
  classical
  rw [isKept, Bool.or_eq_true, decide_eq_true_eq]
  cases hfn : hasFn k s with
  | false => exact .inl rfl
  | true =>
    obtain ⟨r, hr, hisFn⟩ := hasFn_iff.mp hfn
    rw [hr]
    exact .inr (h r hr hisFn)

/-- Stops with the failure if the node does not keep the type of a function. -/
noncomputable def keeping (φ : Failure) (k : Nat) (x : Check α) : Check α := do
  let s ← get
  let a ← x
  watched φ (isKept k s) (pure a)

lemma run_keeping {φ : Failure} {k : Nat} {x : Check α} {s : State}
    (h : ∀ a t, x.run s = (.ok a, t) → isKept k s t = true) : (keeping φ k x).run s = x.run s := by
  rw [keeping, run_get_bind]
  match hrun : x.run s with
  | (.error ψ, t) => rw [run_bind_error hrun]
  | (.ok a, t) =>
    rw [run_bind_ok hrun, run_watched _ (h a t hrun)]
    rfl

variable (k : Nat) (events : Finset Event)

/-- Stops at one of the events unless a condition holds. -/
def Event.guard (event : Event) (right : State → Bool) (x : Check α) : Check α :=
  if event ∈ events then watched event.failure right x else x

/-- Stops at one of the events if the node does not keep the type of a function. -/
noncomputable def steadily (x : Check α) : Check α :=
  if .replaced ∈ events then keeping Event.replaced.failure k x else x

def calling (nested : Nested) : Nested :=
  { nested with closure c ps t := Event.called.guard events (isFresh k c.info.id) (nested.closure c ps t) }

def trackExpr (nested : Nested) (x : Expr) (expected : Ty) : Check Ty :=
  match x with
  | .call info callee args => checkCallBy (calling k events nested) nested info callee args expected >>= keepType info.id
  | .closure c => Event.evaluated.guard events (isFresh k c.info.id) (checkExpr nested (.closure c) expected)
  | x => checkExpr nested x expected

/-- The checks down to a depth that stop at some events of one closure. -/
noncomputable def tracking : (depth : Nat) → Nested
  | 0 => levels 0
  | n + 1 =>
    { fuel := n + 1
      expr x t := steadily k events (trackExpr k events (tracking n) x t)
      block b t := steadily k events (checkBlock (tracking n) b t)
      closure c ps t :=
        Event.typed.guard events (isFresh k c.info.id) (steadily k events (typeClosure (tracking n) c ps t)) }

noncomputable def checkTracking : Check Unit := checkModulesBy (tracking k events)

end Check

/-- The event does not happen to a closure in a check. -/
def State.Never (s : State) (event : Check.Event) (k : Nat) : Prop :=
  Check.stopsAt? (Check.checkTracking k {event}) s ≠ some event

namespace Check

/-! ### One event after the other -/

variable {k : Nat} {events : Finset Event} {event other : Event} {φ : Failure} {x y : Check α} {s t : State}

lemma watched_both (right : State → Bool) (h : Follows φ x y) {ψ : Failure} :
    Follows φ (watched ψ right x) (watched ψ right y) :=
  .after fun _ => .ite h (.refl _)

lemma keeping_both (h : Follows φ x y) {ψ : Failure} : Follows φ (keeping ψ k x) (keeping ψ k y) :=
  .after fun _ => h.before

lemma keeping_follows (h : Follows φ x y) : Follows φ (keeping φ k x) y := by
  intro s
  rw [keeping, run_get_bind]
  obtain hsame | ⟨t, hstop⟩ := h s
  · match hrun : y.run s with
    | (.error ψ, t) => exact .inl (run_bind_error (hsame.trans hrun) _)
    | (.ok a, t) =>
      rw [run_bind_ok (hsame.trans hrun)]
      exact watched_follows (isKept k s) (.refl (pure a)) t
  · exact .inr ⟨t, run_bind_error hstop _⟩

lemma follows_insert {x' y' : Check α} (h : Follows event.failure x y) (h' : Follows event.failure x' y')
    (hnew : other = event → Follows event.failure x' y) : Follows event.failure
      (if other ∈ insert event events then x' else x) (if other ∈ events then y' else y) := by
  by_cases hmem : other ∈ events
  · rw [if_pos (Finset.mem_insert_of_mem hmem), if_pos hmem]
    exact h'
  · rw [if_neg hmem]
    by_cases heq : other = event
    · rw [if_pos (heq ▸ Finset.mem_insert_self ..)]
      exact hnew heq
    · rw [if_neg (by simp [heq, hmem])]
      exact h

lemma guard_follows (right : State → Bool) (h : Follows event.failure x y) :
    Follows event.failure (other.guard (insert event events) right x) (other.guard events right y) := by
  refine follows_insert h (watched_both right h) ?_
  rintro rfl
  exact watched_follows right h

lemma steadily_follows (h : Follows event.failure x y) :
    Follows event.failure (steadily k (insert event events) x) (steadily k events y) := by
  refine follows_insert h (keeping_both h) ?_
  rintro rfl
  exact keeping_follows h

variable {m n : Nested} (h : m.Follows event.failure n)

include h

lemma checkCallBy_follows (info : Syntax.Info) (callee : Expr) (args : List Expr) (t : Ty) :
    Follows event.failure (checkCallBy (calling k (insert event events) m) m info callee args t)
      (checkCallBy (calling k events n) n info callee args t) := by
  have hcalling : (calling k (insert event events) m).Follows event.failure (calling k events n) :=
    { h with closure := fun c ps t => guard_follows _ (h.closure c ps t) }
  refine (calleeType_follows h callee).bind fun r => .after fun u => ?_
  have hskip := skipArgs_follows h args
  cases u with
  | fn gs ps r => exact applyFn_follows h _ _ _ _ _ _
  | closure id arity => exact callClosure_follows hcalling _ _ _ _ _ _
  | _ => exact .ite hskip (.after fun _ => hskip)

lemma trackExpr_follows (x : Expr) (t : Ty) :
    Follows event.failure (trackExpr k (insert event events) m x t) (trackExpr k events n x t) := by
  cases x with
  | call info callee args => exact (checkCallBy_follows h info callee args t).before
  | closure c => exact guard_follows _ (checkExpr_follows h _ t)
  | _ =>
    simp only [trackExpr]
    exact checkExpr_follows h _ t

omit h

lemma tracking_follows (depth : Nat) :
    (tracking k (insert event events) depth).Follows event.failure (tracking k events depth) := by
  induction depth with
  | zero => exact ⟨rfl, fun _ _ => .refl _, fun _ _ => .refl _, fun _ _ _ => .refl _⟩
  | succ n ih =>
    rw [tracking, tracking]
    refine ⟨rfl, fun x t => ?_, fun b t => ?_, fun c ps t => ?_⟩
    · exact steadily_follows (trackExpr_follows ih x t)
    · exact steadily_follows (checkBlock_follows ih b t)
    · exact guard_follows _ (steadily_follows (typeClosure_follows ih c ps t))

lemma trackExpr_empty (nested : Nested) (x : Expr) (t : Ty) : trackExpr k ∅ nested x t = checkExpr nested x t := by
  cases x <;> rfl

lemma tracking_empty : tracking k ∅ = levels := by
  funext depth
  induction depth with
  | zero => rfl
  | succ n ih =>
    rw [tracking, ih]
    simp only [steadily, Event.guard, Finset.notMem_empty, if_false, trackExpr_empty]
    rfl

lemma run_checkTracking_insert (hne : stopsAt? (checkTracking k (insert event events)) s ≠ some event) :
    (checkTracking k (insert event events)).run s = (checkTracking k events).run s := by
  refine (checkModulesBy_follows tracking_follows s).resolve_right fun hstops => hne ?_
  exact stopsAt?_eq_some.mpr hstops

lemma stopsAt_alone (hmem : event ∈ events) (hstops : stopsAt? (checkTracking k events) s = some event) :
    stopsAt? (checkTracking k {event}) s = some event := by
  rw [← Finset.insert_eq_of_mem hmem] at hstops
  clear hmem
  induction events using Finset.induction_on with
  | empty => exact hstops
  | insert other events _ ih =>
    rw [Finset.insert_comm] at hstops
    by_cases hother : other = event
    · rw [hother, Finset.insert_idem] at hstops
      exact ih hstops
    · have hne : stopsAt? (checkTracking k (insert other (insert event events))) s ≠ some other := by
        simp [hstops, Ne.symm hother]
      refine ih ?_
      rwa [stopsAt?, ← run_checkTracking_insert hne]

lemma run_checkTracking_union {more : Finset Event} (h : stopsAt? (checkTracking k (more ∪ events)) s = none) :
    (checkTracking k (more ∪ events)).run s = (checkTracking k events).run s := by
  induction more using Finset.induction_on with
  | empty => rw [Finset.empty_union]
  | insert event more _ ih =>
    rw [Finset.insert_union] at h ⊢
    have hrun : (checkTracking k (insert event (more ∪ events))).run s = (checkTracking k (more ∪ events)).run s :=
      run_checkTracking_insert (by simp [h])
    rw [stopsAt?, hrun] at h
    exact hrun.trans (ih h)

end Check

/-! ### A closure that keeps its type -/

namespace Setting

/-- One closure is not to be typed again. The check may stop where it is evaluated again, and where it is called. -/
structure Tracks (e : Setting) (k : Nat) : Prop where
  built : e.built = true
  closure : e.Closure k
  once : ∀ id, e.once id ↔ id = k
  evaluated : e.excused Check.Event.evaluated.failure
  called : e.excused Check.Event.called.failure

def holding (e : Setting) (k : Nat) (r : Ty) : Setting := { e with held := some (k, r) }

variable {e : Setting} {k : Nat}

lemma Tracks.holding (h : e.Tracks k) (r : Ty) : (e.holding k r).Tracks k := { h with }

lemma Tracks.open_of_isFresh (h : e.Tracks k) {id : Nat} {s : State} (hfresh : Check.isFresh k id s = true) :
    e.Open s id := by
  intro honce
  obtain rfl := (h.once id).mp honce
  exact Check.isFresh_iff.mp hfresh rfl

lemma Tracks.isFresh_of_open (h : e.Tracks k) {id : Nat} {s : State} (hopen : e.Open s id) :
    Check.isFresh k id s = true := by
  rw [Check.isFresh_iff]
  rintro rfl
  exact hopen ((h.once id).mpr rfl)

end Setting

namespace Check

variable {e : Setting} {k : Nat} {events : Finset Event} {x : Check α} {s t : State} {P : α → Prop} {nested : Nested}

lemma Checking.holding (hs : Checking e s) (hk : e.Tracks k) {r : Ty} (hr : s.slots[k]? = some r) (hfn : r.isFn = true) :
    Checking (e.holding k r) s := by
  refine ⟨⟨hs.toSane.watch _, hs.placed, hs.awaited, fun j u hheld => ?_⟩, hs.framed⟩
  obtain ⟨rfl, rfl⟩ := Prod.mk.inj (Option.some.inj hheld)
  exact ⟨hk.closure, (hk.once _).mpr rfl, hfn, hr⟩

lemma run_steadily (hk : e.Tracks k) (hs : Checking e s)
    (hx : ∀ r, Checking (e.holding k r) s → (bodies (e.holding k r)).KeepsAt (fun _ => True) x s) :
    (steadily k events x).run s = x.run s := by
  unfold steadily
  split
  · refine run_keeping fun a t hrun => isKept_of fun r hr hfn => ?_
    have hs' := hs.holding hk hr hfn
    obtain ⟨ht, -, -⟩ := (hx r hs').ok a t hrun
    exact (Steady.held (Checking.toSteady ht) k r rfl).2.2.2
  · rfl

lemma guard_stops {event : Event} (hevent : e.excused event.failure) {right : State → Bool} (hright : right s = false)
    {pre post : List Nat} : TypesAt e pre P post (event.guard Event.all right x) s := by
  have hrun : (event.guard Event.all right x).run s = (.error event.failure, s) := by
    rw [Event.guard, if_pos event.mem_all, run_watched_stops x hright]
  refine ⟨.fails hrun (.inr hevent), fun _ _ _ a t hok => ?_⟩
  cases hrun.symm.trans hok

lemma run_guard {event : Event} {right : State → Bool} (hright : right s = true) :
    (event.guard events right x).run s = x.run s := by
  unfold Event.guard
  split
  · exact run_watched x hright
  · rfl

lemma calling_typesAny (hk : e.Tracks k) (hn : SafeNested e nested) : TypesAny e (calling k Event.all nested) := by
  intro c ps t hc hps ht s hs
  rw [calling]
  dsimp only
  cases hfresh : isFresh k c.info.id s with
  | false => exact guard_stops hk.called hfresh
  | true => exact .congr (run_guard hfresh) (hn.closure c ps t hc hps ht s hs (hk.open_of_isFresh hfresh))

lemma trackExpr_types (hk : e.Tracks k) (hn : SafeNested e nested) {x : Expr} (h : x.Fits e.toForm) {expected : Ty}
    (hexpected : e.Optional expected) :
    Types e [] (Given e x) [x.info.id] (trackExpr k Event.all nested x expected) := by
  cases x with
  | call info callee args =>
    have hexpr : (calling k Event.all nested).expr = nested.expr := rfl
    have hcall := checkCallBy_types hk.built hn hexpr (calling_typesAny hk hn) info h.call.1 h.call.2 hexpected
    rw [trackExpr]
    exact keepType_types h rfl hcall
  | closure c =>
    intro s hs
    rw [trackExpr]
    cases hfresh : isFresh k c.info.id s with
    | false => exact guard_stops hk.evaluated hfresh
    | true => exact .congr (run_guard hfresh) (checkClosure_types hn h hexpected hs (hk.open_of_isFresh hfresh))
  | _ =>
    simp only [trackExpr]
    exact checkExpr_types hk.built hn h hexpected (by simp) (by simp)

lemma tracking_safe (hk : e.Tracks k) (depth : Nat) : SafeNested e (tracking k Event.all depth) := by
  induction depth generalizing e with
  | zero => exact safeNested_zero
  | succ n ih =>
    rw [tracking]
    have hclosure {c : Lambda} {ps : List Ty} {t : Ty} (hc : Lambda.Fits e.toForm c) (hps : ∀ p ∈ ps, e.Whole p)
        (ht : e.Optional t) {s : State} (hs : Checking e s) (hopen : e.Open s c.info.id) :
        (Event.typed.guard Event.all (isFresh k c.info.id)
          (steadily k Event.all (typeClosure (tracking k Event.all n) c ps t))).run s =
            (typeClosure (tracking k Event.all n) c ps t).run s := by
      refine (run_guard (hk.isFresh_of_open hopen)).trans (run_steadily hk hs fun r hs' => ?_)
      have hunheld : (e.holding k r).Unheld c.info.id := hs'.unheld hopen
      exact (typeClosure_types (hk.holding r).built (ih (hk.holding r)) hc hunheld hps ht s hs').keeps.mono fun _ _ => trivial
    refine ⟨fun x t hx ht s hs => ?_, fun b t hb ht s hs => ?_, fun c ps t hc hps ht s hs hopen => ?_,
      fun c ps t hc hps ht s a s' hs hopen hrun => ?_⟩
    · dsimp only
      refine .congr (run_steadily hk hs fun r hs' => ?_) (trackExpr_types hk (ih hk) hx ht s hs)
      exact (trackExpr_types (hk.holding r) (ih (hk.holding r)) hx ht s hs').keeps.mono fun _ _ => trivial
    · have hblock := (checkBlock_types hk.built (ih hk) hb ht).mono fun _ hr => hr.whole
      dsimp only
      refine .congr (run_steadily hk hs fun r hs' => ?_) (hblock s hs)
      exact (checkBlock_types (hk.holding r).built (ih (hk.holding r)) hb ht s hs').keeps.mono fun _ _ => trivial
    · exact .congr (hclosure hc hps ht hs hopen) (typeClosure_types hk.built (ih hk) hc (hs.unheld hopen) hps ht s hs)
    · rw [hclosure hc hps ht hs hopen] at hrun
      exact typeClosure_settled hk.built (ih hk) hc (hs.unheld hopen) hps ht hs hrun

def onlyOnce (k : Nat) : Watch :=
  ⟨(· = k), none, fun φ => φ = Event.evaluated.failure ∨ φ = Event.called.failure⟩

lemma stopsAt?_checkTracking {F : Form} (hs : s.Untouched F) (hk : F.Closure k) {event : Event}
    (hstops : stopsAt? (checkTracking k Event.all) s = some event) : event = .evaluated ∨ event = .called := by
  obtain ⟨t, hrun⟩ := stopsAt?_eq_some.mp hstops
  have hsafe : ∀ e : Setting, e.toForm = F → e.toWatch = onlyOnce k → e.built = true →
      ∀ depth, SafeNested e (tracking k Event.all depth) := by
    intro e hform hwatch hbuilt
    refine tracking_safe ⟨hbuilt, hform ▸ hk, fun id => ?_, ?_, ?_⟩
    · rw [hwatch]
      exact Iff.rfl
    · rw [hwatch]
      exact .inl rfl
    · rw [hwatch]
      exact .inr rfl
  refine (allowed_of_checkModulesBy rfl hsafe hs hrun).elim (absurd · (event.not_allowedIn F)) fun hexcused => ?_
  exact hexcused.imp (@Event.failure_injective event _) (@Event.failure_injective event _)

end Check

namespace State

/-- The numbers of the closures in the modules. -/
def closureIds (s : State) : List Nat :=
  s.modules.flatMap fun m => m.syn.nodes.filterMap fun
    | .expr (.closure c) => some c.info.id
    | _ => none

lemma closure_of_mem_closureIds {s : State} {F : Form} (hs : s.Untouched F) {k : Nat} (hk : k ∈ s.closureIds) :
    F.Closure k := by
  obtain ⟨m, hm, hk⟩ := List.mem_flatMap.mp hk
  obtain ⟨n, hn, hk⟩ := List.mem_filterMap.mp hk
  split at hk
  · next c =>
    obtain rfl := Option.some.inj hk
    obtain ⟨stmt, hstmt, hc⟩ := Syntax.exists_of_mem_nodes hn
    have hfits : Lambda.Fits F c := ((hs.modules m hm).1.statements stmt hstmt).expr_of_mem hc
    exact hfits.closure.1
  · cases hk

noncomputable instance (s : State) (event : Check.Event) (k : Nat) : Decidable (s.Never event k) :=
  inferInstanceAs (Decidable (_ ≠ _))

/-- Whatever packages there are, a closure that has the type of a function is never typed again and keeps that type, unless
it is evaluated again or a call types it whose arguments have already done so: a check that stops where it is typed again or
gets another type never stops there. -/
theorem closure_typed_once (prelude : List Path) (reserve : Nat) (packages : List (String × List (String × Syntax.Module)))
    {k : Nat} (hk : k ∈ (ofPackages prelude reserve packages).closureIds)
    (hevaluated : (ofPackages prelude reserve packages).Never .evaluated k)
    (hcalled : (ofPackages prelude reserve packages).Never .called k) :
    (Check.checkTracking k {.typed, .replaced}).run (ofPackages prelude reserve packages) =
        Check.checkModules.run (ofPackages prelude reserve packages) ∧
      Check.stopsAt? Check.checkModules (ofPackages prelude reserve packages) = none := by
  have hunchecked : (ofPackages prelude reserve packages).Unchecked False := unchecked_ofPackages _ _ nofun
  have hclosure := closure_of_mem_closureIds hunchecked.untouched hk
  generalize ofPackages prelude reserve packages = s at *
  have hnever : Check.stopsAt? (Check.checkTracking k Check.Event.all) s = none := by
    rw [Option.eq_none_iff_forall_not_mem]
    intro event hstops
    obtain rfl | rfl := Check.stopsAt?_checkTracking hunchecked.untouched hclosure hstops
    · exact hevaluated (Check.stopsAt_alone (Check.Event.mem_all _) hstops)
    · exact hcalled (Check.stopsAt_alone (Check.Event.mem_all _) hstops)
  have hsplit : Check.Event.all = {.evaluated, .called} ∪ {.typed, .replaced} := rfl
  have hall : (Check.checkTracking k Check.Event.all).run s = Check.checkModules.run s := by
    rw [← Finset.union_empty Check.Event.all] at hnever ⊢
    rw [Check.run_checkTracking_union hnever, Check.checkTracking, Check.tracking_empty]
    rfl
  have htyped : (Check.checkTracking k Check.Event.all).run s = (Check.checkTracking k {.typed, .replaced}).run s := by
    rw [hsplit] at hnever ⊢
    exact Check.run_checkTracking_union hnever
  refine ⟨htyped.symm.trans hall, ?_⟩
  rwa [Check.stopsAt?, hall] at hnever

end State

namespace Once

open Syntax (Module)

def call (arg : Expr) : Expr := .call {} (Standard.ident "g") [arg]

/-- A variable `g` for a closure in which a name is missing, and what is done with it. -/
def packages (uses : List Expr) : List (String × List (String × Module)) :=
  [("app", [("app::a", Standard.module [.fn ⟨{}, false, "f", [], [], none, some ⟨{},
    Shadowing.bind "g" (.closure ⟨{}, [⟨{}, "a", none⟩], none, ⟨{}, [.expr {} (Standard.ident "missing")]⟩⟩) ::
      uses.map (.expr {})⟩⟩])])]

/-- Two calls one after the other. -/
def twice : State := State.ofPackages Standard.prelude 64 (packages [call Shadowing.number, call Shadowing.number])

theorem twice_typed_once : 501 ∈ twice.closureIds ∧ twice.Never .evaluated 501 ∧ twice.Never .called 501 ∧
    (Check.checkTracking 501 {.typed, .replaced}).run twice = Check.checkModules.run twice := by
  obtain ⟨hk, hevaluated, hcalled⟩ : 501 ∈ twice.closureIds ∧ twice.Never .evaluated 501 ∧ twice.Never .called 501 := by
    decide +kernel
  exact ⟨hk, hevaluated, hcalled, (State.closure_typed_once Standard.prelude 64 _ hk hevaluated hcalled).1⟩

/-- A call of `g` with a call of `g`. -/
def nested : State := State.ofPackages Standard.prelude 64 (packages [call (call Shadowing.number)])

/-- The outer call types the closure again, although it is evaluated once, and what is missing is reported twice. -/
theorem nested_typed_again : 501 ∈ nested.closureIds ∧ nested.Never .evaluated 501 ∧ ¬nested.Never .typed 501 ∧
    nested.check.2.diagnostics.length = 2 := by
  decide +kernel

end Once

end TraitCheck
