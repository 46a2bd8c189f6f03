import TraitCheck.Proofs.Check.Sane

/-! Closures that wait for their first use. Such a closure is pending, with the frame as it was where the closure is
written. While it is pending, that frame may only get more scopes and definitions; it is pending until it has the type
of a function. -/

namespace TraitCheck

open Check.Regime

/-- A frame has the scopes of another one, maybe with more definitions in the innermost of them, and with more scopes
inside. -/
structure Frame.Extends (f g : Frame) : Prop where
  module : g.module = f.module
  locals : ∃ opened new, g.locals.map Scope.plain =
    opened ++ (f.locals.map Scope.plain).modifyHead fun sc => { sc with defs := new ++ sc.defs }

namespace Frame

variable {f g h : Frame}

lemma Extends.refl (f : Frame) : f.Extends f := by
  refine ⟨rfl, [], [], ?_⟩
  cases f.locals <;> simp

lemma Extends.opened (hfg : f.Extends g) (scope : Scope) : f.Extends { g with locals := scope :: g.locals } := by
  obtain ⟨opened, new, hlocals⟩ := hfg.locals
  refine ⟨hfg.module, scope.plain :: opened, new, ?_⟩
  simp [hlocals]

lemma Extends.grown (hfg : f.Extends g) (hgh : g.Grown h) : f.Extends h := by
  obtain ⟨opened, new, hlocals⟩ := hfg.locals
  obtain ⟨more, hmore⟩ := hgh.locals
  refine ⟨hgh.module.trans hfg.module, ?_⟩
  rw [hmore, hlocals]
  -- the innermost scope is one that was opened, or the innermost of the first frame
  cases opened with
  | nil =>
    refine ⟨[], more ++ new, ?_⟩
    cases f.locals <;> simp
  | cons sc opened => exact ⟨{ sc with defs := more ++ sc.defs } :: opened, new, rfl⟩

lemma Extends.of_plain (hfg : f.Extends g) (hmodule : h.module = g.module)
    (hlocals : h.locals.map Scope.plain = g.locals.map Scope.plain) : f.Extends h := by
  obtain ⟨opened, new, hold⟩ := hfg.locals
  exact ⟨hmodule.trans hfg.module, opened, new, hlocals.trans hold⟩

lemma Extends.depth_le (h : f.Extends g) : f.depth ≤ g.depth := by
  obtain ⟨opened, new, hlocals⟩ := h.locals
  have := congrArg List.length hlocals
  simp only [List.length_map, List.length_append, List.length_modifyHead] at this
  simp [Frame.depth, this]

lemma Grown.depth (h : f.Grown g) : g.depth = f.depth := by
  obtain ⟨new, hlocals⟩ := h.locals
  have := congrArg List.length hlocals
  simpa [Frame.depth] using this

end Frame

structure State.Placed (s : State) : Prop where
  distinct : (s.frames.top.map Frame.id).Nodup
  known : ∀ f ∈ s.frames.top, f.id < s.nextFrame
  written : ∀ p ∈ s.pending, p.frame.id < s.nextFrame
  kept : ∀ p ∈ s.pending, ∀ f ∈ s.frames.top, f.id = p.frame.id → p.frame.Extends f
  within : ∀ p ∈ s.pending, p.frame.locals = [] ∨ p.frame.id ∈ s.frames.top.map Frame.id

namespace State.Placed

variable {s t : State}

lemma of_quiet {e : Setting} (hs : s.Placed) (h : Check.Quiet e s t) : t.Placed := by
  have hwritten : ∀ p ∈ t.pending, p.frame.id < t.nextFrame := fun p hp =>
    Nat.lt_of_lt_of_le (hs.written p (h.pending ▸ hp)) h.nextFrame
  cases htop : s.frames.top with
  | nil =>
    have hend : t.frames.top = [] := by
      have := h.frames
      rw [htop] at this
      cases hend : t.frames.top with
      | nil => rfl
      | cons g gs =>
        rw [hend] at this
        exact this.elim
    refine ⟨by simp [hend], by simp [hend], hwritten, by simp [hend], fun p hp => ?_⟩
    have hwithin := hs.within p (h.pending ▸ hp)
    rw [htop] at hwithin
    rwa [hend]
  | cons f fs =>
    have hframes := h.frames
    rw [htop] at hframes
    obtain ⟨g, hend, hgrown⟩ := hframes.exists_cons
    have hknown : ∀ k ∈ f :: fs, k.id < t.nextFrame := by
      intro k hk
      rw [← htop] at hk
      exact Nat.lt_of_lt_of_le (hs.known k hk) h.nextFrame
    refine ⟨?_, fun k hk => ?_, hwritten, fun p hp k hk hid => ?_, fun p hp => ?_⟩
    · have hdistinct := hs.distinct
      rw [htop] at hdistinct
      rw [hend]
      simpa [hgrown.id] using hdistinct
    · rw [hend] at hk
      obtain rfl | hk := List.mem_cons.mp hk
      · rw [hgrown.id]
        exact hknown f (by simp)
      · exact hknown k (List.mem_cons_of_mem _ hk)
    · rw [h.pending] at hp
      rw [hend] at hk
      obtain rfl | hk := List.mem_cons.mp hk
      · rw [hgrown.id] at hid
        exact (hs.kept p hp f (by simp [htop]) hid).grown hgrown
      · exact hs.kept p hp k (by simp [htop, hk]) hid
    · have hwithin := hs.within p (h.pending ▸ hp)
      rw [htop] at hwithin
      rw [hend]
      simpa [hgrown.id] using hwithin

lemma drop (hs : s.Placed) {l : List PendingClosure} (h : ∀ p ∈ l, p ∈ s.pending) :
    { s with pending := l : State }.Placed :=
  ⟨hs.distinct, hs.known, fun p hp => hs.written p (h p hp), fun p hp => hs.kept p (h p hp),
    fun p hp => hs.within p (h p hp)⟩

lemma entered (hs : s.Placed) (id : Nat) : (Check.entered id s).Placed := by
  refine ⟨?_, fun f hf => ?_, fun p hp => Nat.lt_succ_of_lt (hs.written p hp), fun p hp f hf hid => ?_,
    fun p hp => (hs.within p hp).imp_right (List.mem_cons_of_mem _)⟩
  · refine List.nodup_cons.mpr ⟨fun hmem => ?_, hs.distinct⟩
    obtain ⟨f, hf, hid⟩ := List.mem_map.mp hmem
    exact Nat.lt_irrefl _ (hid ▸ hs.known f hf)
  · obtain rfl | hf := List.mem_cons.mp hf
    · exact Nat.lt_succ_self _
    · exact Nat.lt_succ_of_lt (hs.known f hf)
  · obtain rfl | hf := List.mem_cons.mp hf
    · have hlt := hs.written p hp
      rw [← hid] at hlt
      exact absurd hlt (Nat.lt_irrefl _)
    · exact hs.kept p hp f hf hid

lemma pop (hs : s.Placed) (h : ∀ f fs, s.frames.top = f :: fs → f.locals = []) :
    { s with frames := s.frames.pop : State }.Placed := by
  have hmem : ∀ f ∈ s.frames.pop.top, f ∈ s.frames.top := fun f hf => List.mem_of_mem_tail hf
  refine ⟨?_, fun f hf => hs.known f (hmem f hf), hs.written, fun p hp f hf => hs.kept p hp f (hmem f hf),
    fun p hp => ?_⟩
  · exact hs.distinct.sublist ((List.tail_sublist _).map _)
  · obtain hlocals | hid := hs.within p hp
    · exact .inl hlocals
    · cases htop : s.frames.top with
      | nil => simp [htop] at hid
      | cons f fs =>
        rw [htop] at hid
        obtain hid | hid := List.mem_cons.mp hid
        · -- the closure was written at the top of the module as well
          have hdepth := (hs.kept p hp f (by simp [htop]) hid.symm).depth_le
          simp only [Frame.depth, h f fs htop, List.length_nil, Nat.add_le_add_iff_right, Nat.le_zero_eq] at hdepth
          exact .inl (List.length_eq_zero_iff.mp hdepth)
        · refine .inr ?_
          simpa [Stack.pop, htop] using hid

lemma inner (hs : s.Placed) (scope : Scope) : (Check.inner scope s).Placed := by
  cases htop : s.frames.top with
  | nil =>
    have : (Check.inner scope s).frames.top = [] := by simp [Check.inner, Check.modifyFrame, Stack.modifyTop, htop]
    refine ⟨by simp [this], by simp [this], hs.written, by simp [this], fun p hp => ?_⟩
    rw [this]
    exact htop ▸ hs.within p hp
  | cons f fs =>
    have henter : (Check.inner scope s).frames.top = { f with locals := scope :: f.locals } :: fs :=
      Check.top_modifyFrame htop _
    refine ⟨?_, fun k hk => ?_, hs.written, fun p hp k hk hid => ?_, fun p hp => ?_⟩
    · have hdistinct := hs.distinct
      rw [htop] at hdistinct
      rw [henter]
      exact hdistinct
    · rw [henter] at hk
      obtain rfl | hk := List.mem_cons.mp hk
      · exact hs.known f (by simp [htop])
      · exact hs.known k (by simp [htop, hk])
    · rw [henter] at hk
      obtain rfl | hk := List.mem_cons.mp hk
      · exact (hs.kept p hp f (by simp [htop]) hid).opened scope
      · exact hs.kept p hp k (by simp [htop, hk]) hid
    · have hwithin := hs.within p hp
      rw [htop] at hwithin
      rw [henter]
      exact hwithin

end State.Placed

/-! ### Types of closures -/

/-- Some closures with the number are pending. -/
def Waits (l : List PendingClosure) (id : Nat) : Prop := ∃ p ∈ l, p.node.info.id = id

namespace State

def HasFn (s : State) (id : Nat) : Prop := ∃ t, s.slots[id]? = some t ∧ t.isFn = true

/-- A closure has its type, or is among those that will get it. -/
def Settled (s : State) (l : List PendingClosure) (id : Nat) : Prop := s.HasFn id ∨ Waits l id

/-- Where a closure can have been written since: in the frame on top, at the depth that it has or deeper, or in a frame
that is new. -/
def Newly (s : State) (p : PendingClosure) : Prop :=
  s.nextFrame ≤ p.frame.id ∨ ∃ f fs, s.frames.top = f :: fs ∧ p.frame.id = f.id ∧ f.depth ≤ p.frame.depth

end State

def Setting.Open (e : Setting) (s : State) (id : Nat) : Prop := e.once id → ¬s.HasFn id

lemma Setting.open_of_none {e : Setting} (h : e.toWatch = .none) (s : State) (id : Nat) : e.Open s id := by
  intro honce
  rw [h] at honce
  cases honce

namespace Check

variable {α : Type} {e : Setting} {P : α → Prop} {x : Check α} {s t u : State} {due : PendingClosure → Bool}

structure Steady (e : Setting) (s : State) : Prop extends Sane e s where
  placed : s.Placed
  awaited : ∀ id : Nat, (s.closures[id]?).isSome ∨ e.Closure id ∧ (s.slots[id]?).isSome → s.Settled s.pending id
  held : ∀ k r, e.held = some (k, r) → e.Closure k ∧ e.once k ∧ r.isFn = true ∧ s.slots[k]? = some r

structure Checking (e : Setting) (s : State) : Prop extends Steady e s where
  framed : s.frames.top ≠ []

lemma Checking.ready (h : Checking e s) : Ready e s := ⟨h.toSane, h.framed⟩

lemma Steady.unheld (hs : Steady e s) {id : Nat} (h : e.Open s id) : e.Unheld id := by
  intro r hr
  obtain ⟨-, honce, hisFn, hslot⟩ := hs.held id r hr
  exact h honce ⟨r, hslot, hisFn⟩

lemma Steady.unheld_of_not_closure (hs : Steady e s) {id : Nat} (h : ¬e.Closure id) : e.Unheld id := fun r hr =>
  h (hs.held id r hr).1

lemma Steady.of_quiet (hs : Steady e s) (ht : Sane e t) (h : Quiet e s t) : Steady e t := by
  have hsame {id : Nat} (hclosure : e.Closure id) : t.slots[id]? = s.slots[id]? :=
    h.kept id fun hleaf => hleaf.not_closure hclosure
  have hheld : ∀ k r, e.held = some (k, r) → e.Closure k ∧ e.once k ∧ r.isFn = true ∧ t.slots[k]? = some r := by
    intro k r hr
    obtain ⟨hclosure, honce, hisFn, hslot⟩ := hs.held k r hr
    exact ⟨hclosure, honce, hisFn, (hsame hclosure).trans hslot⟩
  refine ⟨ht, hs.placed.of_quiet h, fun id hid => ?_, hheld⟩
  have hsettled : s.Settled s.pending id := by
    refine hs.awaited id (hid.imp (fun hmem => ?_) fun hslot => ?_)
    · rwa [h.closures] at hmem
    · rw [← hsame hslot.1]
      exact hslot
  rw [h.pending]
  refine hsettled.imp_left fun hfn => ?_
  have hclosure : e.Closure id := by
    obtain hmem | hslot := hid
    · obtain ⟨c, hc⟩ := Option.isSome_iff_exists.mp hmem
      obtain ⟨hfits, rfl⟩ := ht.closures id c hc
      exact hfits.closure.1
    · exact hslot.1
  obtain ⟨r, hr, hisFn⟩ := hfn
  exact ⟨r, (hsame hclosure).trans hr, hisFn⟩

/-- What has become of the pending closures: some of those that were due are gone, and others have been written. -/
structure Passed (e : Setting) (due keep : PendingClosure → Bool) (new : List PendingClosure) (s t : State) : Prop where
  spared : ∀ p, due p = false → keep p = true
  pending : t.pending = s.pending.filter keep ++ new
  written : ∀ q ∈ new, s.Newly q
  dropped : ∀ p ∈ s.pending, keep p = false → e.Closure p.node.info.id → t.Settled new p.node.info.id
  typed : ∀ id, e.Closure id → s.HasFn id → t.Settled new id

structure Onward (e : Setting) (due : PendingClosure → Bool) (s t : State) : Prop extends Calm s t where
  passed : ∃ keep new, Passed e due keep new s t

lemma Quiet.onward (h : Quiet e s t) (due : PendingClosure → Bool) : Onward e due s t := by
  refine ⟨h.toCalm, fun _ => true, [], fun _ _ => rfl, ?_, by simp, by simp, fun id hid hfn => .inl ?_⟩
  · simp [h.pending]
  · obtain ⟨r, hr, hisFn⟩ := hfn
    exact ⟨r, (h.kept id fun hleaf => hleaf.not_closure hid).trans hr, hisFn⟩

lemma Onward.refl (s : State) : Onward e due s s := (Quiet.refl s).onward due

lemma newly_of_onward (h : Onward e due s t) {p : PendingClosure} (hp : t.Newly p) : s.Newly p := by
  obtain hnew | ⟨g, gs, htop, hid, hdepth⟩ := hp
  · exact .inl (Nat.le_trans h.nextFrame hnew)
  · have hframes := h.frames
    rw [htop] at hframes
    match htop' : s.frames.top with
    | [] =>
      rw [htop'] at hframes
      exact hframes.elim
    | f :: fs =>
      rw [htop'] at hframes
      refine .inr ⟨f, fs, htop', ?_, ?_⟩
      · rw [hid, hframes.1.id]
      · rw [← hframes.1.depth]
        exact hdepth

lemma Passed.settled {keep : PendingClosure → Bool} {old new : List PendingClosure} (h : Passed e due keep new s t)
    (hold : ∀ p ∈ old, p ∈ s.pending) {id : Nat} (hid : e.Closure id) (hs : s.Settled old id) :
    t.Settled (old.filter keep ++ new) id := by
  have hlater : t.Settled new id → t.Settled (old.filter keep ++ new) id := by
    refine Or.imp_right fun hwaits => ?_
    obtain ⟨q, hq, rfl⟩ := hwaits
    exact ⟨q, List.mem_append_right _ hq, rfl⟩
  obtain hfn | ⟨p, hp, rfl⟩ := hs
  · exact hlater (h.typed id hid hfn)
  · cases hkeep : keep p with
    | true => exact .inr ⟨p, List.mem_append_left _ (List.mem_filter.mpr ⟨hp, hkeep⟩), rfl⟩
    | false => exact hlater (h.dropped p (hold p hp) hkeep hid)

lemma Onward.trans (h : Onward e due s t) (h' : Onward e due t u) : Onward e due s u := by
  obtain ⟨keep, new, hfirst⟩ := h.passed
  obtain ⟨keep', new', hsecond⟩ := h'.passed
  have hold : ∀ p ∈ new, p ∈ t.pending := fun p hp => by
    rw [hfirst.pending]
    exact List.mem_append_right _ hp
  refine ⟨h.toCalm.trans h'.toCalm, fun p => keep p && keep' p, new.filter keep' ++ new', fun p hp => ?_, ?_,
    fun q hq => ?_, fun p hp hkeep hid => ?_, fun id hid hfn => ?_⟩
  · simp [hfirst.spared p hp, hsecond.spared p hp]
  · simp [hsecond.pending, hfirst.pending, List.filter_append, List.filter_filter, Bool.and_comm]
  · obtain hq | hq := List.mem_append.mp hq
    · exact hfirst.written q (List.mem_filter.mp hq).1
    · exact newly_of_onward h (hsecond.written q hq)
  · cases hfirstKeep : keep p with
    | false => exact hsecond.settled hold hid (hfirst.dropped p hp hfirstKeep hid)
    | true =>
      have hmem : p ∈ t.pending := by
        rw [hfirst.pending]
        exact List.mem_append_left _ (List.mem_filter.mpr ⟨hp, hfirstKeep⟩)
      have hsettled := hsecond.dropped p hmem (by simpa [hfirstKeep] using hkeep) hid
      refine hsettled.imp_right fun hwaits => ?_
      obtain ⟨q, hq, hqid⟩ := hwaits
      exact ⟨q, List.mem_append_right _ hq, hqid⟩
  · exact hsecond.settled hold hid (hfirst.typed id hid hfn)

def flushing (e : Setting) (due : PendingClosure → Bool) : Regime where
  Inv := Checking e
  Step := Onward e due
  refl := .refl
  trans h h' := h.trans h'
  Allowed := e.Allowed

def noneDue (_ : PendingClosure) : Bool := false

def bodies (e : Setting) : Regime := flushing e noneDue

def outside (e : Setting) : Regime := { bodies e with Inv := Steady e }

abbrev Checks (e : Setting) (P : α → Prop) (x : Check α) : Prop := (bodies e).Keeps P x

abbrev Acts (e : Setting) (P : α → Prop) (x : Check α) : Prop := (outside e).Keeps P x

lemma Onward.appended (h : Onward e noneDue s t) : ∃ new, t.pending = s.pending ++ new ∧ (∀ q ∈ new, s.Newly q) ∧
    ∀ id, e.Closure id → s.HasFn id → t.Settled new id := by
  obtain ⟨keep, new, hpassed⟩ := h.passed
  refine ⟨new, ?_, hpassed.written, hpassed.typed⟩
  rw [hpassed.pending, List.filter_eq_self.mpr fun p _ => hpassed.spared p rfl]

lemma Onward.of_appended (h : Calm s t) {new : List PendingClosure} (hpending : t.pending = s.pending ++ new)
    (hnew : ∀ q ∈ new, s.Newly q) (htyped : ∀ id, e.Closure id → s.HasFn id → t.Settled new id) :
    Onward e due s t :=
  ⟨h, fun _ => true, new, fun _ _ => rfl, by simpa using hpending, hnew, by simp, htyped⟩

lemma Onward.weaken (h : Onward e noneDue s t) (due : PendingClosure → Bool) : Onward e due s t := by
  obtain ⟨new, hpending, hnew, htyped⟩ := h.appended
  exact .of_appended h.toCalm hpending hnew htyped

lemma Safe.checks (h : Safe e P x) : Checks e P x := by
  intro s hs
  refine ⟨fun a t hrun => ?_, (h s hs.ready).error⟩
  obtain ⟨hready, hquiet, ha⟩ := (h s hs.ready).ok a t hrun
  exact ⟨⟨hs.toSteady.of_quiet hready.toSane hquiet, hready.framed⟩, hquiet.onward _, ha⟩

lemma Acts.checks (h : Acts e P x) : Checks e P x := by
  intro s hs
  refine ⟨fun a t hrun => ?_, (h s hs.toSteady).error⟩
  obtain ⟨hsteady, honward, ha⟩ := (h s hs.toSteady).ok a t hrun
  exact ⟨⟨hsteady, GrownTop.framed honward.frames hs.framed⟩, honward, ha⟩

/-! ### Types of nodes -/

lemma hasFn_typed {id : Nat} {r : Ty} (hr : e.Closure id → r.isFn = true) {k : Nat} (hk : e.Closure k)
    (h : s.HasFn k) : (typed id r s).HasFn k := by
  by_cases hid : id = k
  · subst hid
    exact ⟨r, slots_typed_self id r s, hr hk⟩
  · obtain ⟨v, hv, hisFn⟩ := h
    exact ⟨v, (slots_typed_ne hid r s).trans hv, hisFn⟩

lemma held_typed {id : Nat} {u : Ty} (hs : Steady e s) (hid : e.Closure id → e.Unheld id) :
    ∀ k r, e.held = some (k, r) → e.Closure k ∧ e.once k ∧ r.isFn = true ∧ (typed id u s).slots[k]? = some r := by
  intro k r hr
  obtain ⟨hclosure, honce, hisFn, hslot⟩ := hs.held k r hr
  refine ⟨hclosure, honce, hisFn, (slots_typed_ne ?_ u s).trans hslot⟩
  rintro rfl
  exact hid hclosure r hr

lemma setSlot_checks {id : Nat} {r : Ty} (hr : e.Closure id → r.isFn = true ∧ e.Unheld id) (hwhole : e.Whole r) :
    Checks e (fun _ => True) (setSlot id r) := by
  intro s hs
  have hs : Checking e s := hs
  have hsane : Sane e (typed id r s) := sane_typed hs.toSane id hwhole
  have hfn : e.Closure id → r.isFn = true := fun hclosure => (hr hclosure).1
  refine .of_run (show (setSlot id r).run s = (.ok (), typed id r s) from rfl)
    ⟨⟨hsane, { hs.placed with }, fun k hk => ?_, held_typed hs.toSteady fun hclosure => (hr hclosure).2⟩, hs.framed⟩
    (.of_appended (calm_typed id r s) (List.append_nil _).symm (by simp) fun k hk hasFn =>
      .inl (hasFn_typed hfn hk hasFn)) trivial
  have hclosure : e.Closure k := by
    obtain hmem | hslot := hk
    · obtain ⟨c, hc⟩ := Option.isSome_iff_exists.mp hmem
      obtain ⟨hfits, rfl⟩ := hs.closures k c hc
      exact hfits.closure.1
    · exact hslot.1
  by_cases hid : id = k
  · subst hid
    exact .inl ⟨r, slots_typed_self id r s, hfn hclosure⟩
  · rw [slots_typed_ne hid] at hk
    exact (hs.awaited k hk).imp_left (hasFn_typed hfn hclosure)

/-! ### Frames and scopes -/

lemma Onward.left {id : Nat} (h : Onward e due (entered id s) t) :
    Onward e due s { t with frames := t.frames.pop } := by
  obtain ⟨keep, new, hpassed⟩ := h.passed
  refine ⟨h.toCalm.left, keep, new, { hpassed with written := fun q hq => .inl ?_ }⟩
  obtain hnew | ⟨f, fs, htop, hid, -⟩ := hpassed.written q hq
  · exact Nat.le_of_succ_le hnew
  · obtain ⟨rfl, -⟩ := List.cons.inj htop
    exact Nat.le_of_eq hid.symm

lemma Steady.entered (hs : Steady e s) (id : Nat) : Checking e (entered id s) :=
  ⟨⟨(Ready.entered hs.toSane id).toSane, hs.placed.entered id, hs.awaited, hs.held⟩,
    (Ready.entered hs.toSane id).framed⟩

lemma Steady.pop (hs : Steady e s) (h : ∀ f fs, s.frames.top = f :: fs → f.locals = []) :
    Steady e { s with frames := s.frames.pop } :=
  ⟨sane_pop hs.toSane, hs.placed.pop h, hs.awaited, hs.held⟩

lemma locals_of_entered {id : Nat} (h : GrownTop (Check.entered id s).frames.top t.frames.top) :
    ∀ f fs, t.frames.top = f :: fs → f.locals = [] := by
  intro f fs htop
  obtain ⟨g, hend, hgrown⟩ := h.exists_cons
  obtain ⟨rfl, -⟩ := List.cons.inj (htop.symm.trans hend)
  obtain ⟨new, hlocals⟩ := hgrown.locals
  simpa using hlocals

lemma Checks.inModule (h : Checks e P x) (id : Nat) : Acts e P (inModule id x) := by
  intro s hs
  refine .bracket (S := bodies e) (h _ (Steady.entered hs id)) (fun _ hφ => hφ) fun _ t _ ht honward => ?_
  exact ⟨Steady.pop ht.toSteady (locals_of_entered (Calm.frames (Onward.toCalm honward))), Onward.left honward⟩

lemma Checks.whileTyping (h : Checks e P x) (id : Nat) : Checks e P (bracket
    (fun s => { s with typing := id :: s.typing }) (fun s => { s with typing := s.typing.erase id }) x) := by
  intro s hs
  have hentered : Checking e { s with typing := id :: s.typing } :=
    ⟨⟨{ hs.toSane with }, { hs.placed with }, hs.awaited, hs.held⟩, hs.framed⟩
  refine .bracket (S := bodies e) (h _ hentered) (fun _ hφ => hφ) fun _ t _ ht honward => ?_
  have honward : Onward e noneDue { s with typing := id :: s.typing } t := honward
  obtain ⟨keep, new, hpassed⟩ := honward.passed
  refine ⟨⟨⟨{ ht.toSane with }, { ht.placed with }, ht.awaited, ht.held⟩, ht.framed⟩, ?_, keep, new, { hpassed with }⟩
  exact { honward.toCalm with typing := by simp [honward.typing] }

lemma Steady.drop (hs : Steady e s) {old kept new : List PendingClosure} (hpending : s.pending = old ++ new)
    (hkept : ∀ p ∈ kept, p ∈ old) (hdropped : ∀ p ∈ old, p ∉ kept → s.Settled new p.node.info.id) :
    Steady e { s with pending := kept ++ new } := by
  have hsub : ∀ p ∈ kept ++ new, p ∈ s.pending := by
    intro p hp
    rw [hpending]
    exact List.mem_append.mpr ((List.mem_append.mp hp).imp_left (hkept p))
  refine ⟨{ hs.toSane with pending := fun p hp => hs.pending p (hsub p hp) }, hs.placed.drop hsub, fun id hid => ?_, hs.held⟩
  -- a closure that was only pending among those that are gone has its type by now
  obtain hfn | ⟨p, hp, rfl⟩ := hs.awaited id hid
  · exact .inl hfn
  · rw [hpending] at hp
    obtain hp | hp := List.mem_append.mp hp
    · by_cases hmem : p ∈ kept
      · exact .inr ⟨p, List.mem_append_left _ hmem, rfl⟩
      · refine (hdropped p hp hmem).imp_right fun hwaits => ?_
        obtain ⟨q, hq, hqid⟩ := hwaits
        exact ⟨q, List.mem_append_right _ hq, hqid⟩
    · exact .inr ⟨p, List.mem_append_right _ hp, rfl⟩

lemma Checks.dropping (h : (bodies e).KeepsAt P x s)
    (hdone : ∀ a t, x.run s = (.ok a, t) → ∀ p ∈ s.pending, due p = true →
      t.Settled (t.pending.drop s.pending.length) p.node.info.id) :
    (flushing e due).KeepsAt P (Check.bracket id (fun t => { t with
      pending := (t.pending.take s.pending.length).filter (!due ·) ++ t.pending.drop s.pending.length }) x) s := by
  refine .bracket (S := bodies e) h (fun _ hφ => hφ) fun a t hrun ht honward => ?_
  have honward : Onward e noneDue s t := honward
  have ht : Checking e t := ht
  obtain ⟨new, hpending, hnew, htyped⟩ := honward.appended
  have hdrop : t.pending.drop s.pending.length = new := by simp [hpending]
  have htake : t.pending.take s.pending.length = s.pending := by simp [hpending]
  have hdropped : ∀ p ∈ s.pending, due p = true → t.Settled new p.node.info.id := by
    intro p hp hdue
    rw [← hdrop]
    exact hdone a t hrun p hp hdue
  rw [htake, hdrop]
  have hsteady : Steady e { t with pending := s.pending.filter (!due ·) ++ new } := by
    refine ht.toSteady.drop hpending (fun p hp => (List.mem_filter.mp hp).1) fun p hp hmem => hdropped p hp ?_
    simpa [hp] using hmem
  refine ⟨⟨hsteady, ht.framed⟩, { honward.toCalm with }, (!due ·), new, by simp, rfl, hnew, ?_, htyped⟩
  intro p hp hkeep _
  exact hdropped p hp (by simpa using hkeep)

lemma Checks.inScope {scope : Scope} (hscope : scope.Local e)
    (h : ∀ s f fs, Checking e s → s.frames.top = f :: fs →
      (flushing e (·.isDue f.id f.depth)).KeepsAt P x s ∧
        ∀ a t, x.run s = (.ok a, t) → ∀ p ∈ t.pending, p.isDue f.id f.depth = false) :
    Checks e P (inScope scope x) := by
  intro s hs
  have hs : Checking e s := hs
  obtain ⟨f, fs, htop⟩ := List.exists_cons_of_ne_nil hs.framed
  have hready : Ready e (inner scope s) := hs.ready.inner hscope
  have hentered : Checking e (inner scope s) :=
    ⟨⟨hready.toSane, hs.placed.inner scope, hs.awaited, hs.held⟩, hready.framed⟩
  have henter : (inner scope s).frames.top = { f with locals := scope :: f.locals } :: fs := top_modifyFrame htop _
  obtain ⟨hx, hdone⟩ := h _ _ _ hentered henter
  refine .bracket hx (fun _ hφ => hφ) fun a t hrun ht honward => ?_
  have ht : Checking e t := ht
  have honward : Onward e (·.isDue f.id (f.depth + 1)) (inner scope s) t := honward
  obtain ⟨g, hend, hid, hmodule, hlocals⟩ := grown_outer htop honward.frames
  obtain ⟨keep, new, hpassed⟩ := honward.passed
  -- what was pending before the scope was opened was written further out
  have hkeep : ∀ p ∈ s.pending, keep p = true := by
    intro p hp
    refine hpassed.spared p ?_
    rw [PendingClosure.isDue]
    by_cases hsame : f.id = p.frame.id
    · have hdepth := (hs.placed.kept p hp f (by simp [htop]) hsame).depth_le
      simp
      omega
    · simp [Ne.symm hsame]
  have hpending : t.pending = s.pending ++ new := by
    rw [hpassed.pending]
    congr 1
    exact List.filter_eq_self.mpr hkeep
  -- and what has been written since and is still pending was written in other frames
  have hnew : ∀ q ∈ new, s.nextFrame ≤ q.frame.id := by
    intro q hq
    obtain hnew | ⟨k, ks, htop', hqid, hdepth⟩ := hpassed.written q hq
    · exact hnew
    · obtain ⟨rfl, rfl⟩ := List.cons.inj (htop'.symm.trans henter)
      have hdue := hdone a t hrun q (by rw [hpending]; exact List.mem_append_right _ hq)
      simp [PendingClosure.isDue, hqid, hdepth] at hdue
  have hcalm : Calm s (outer t) := honward.toCalm.outer hs.framed
  have hplaced : (outer t).Placed := by
    have hlt : ∀ k ∈ f :: fs, k.id < s.nextFrame := fun k hk => hs.placed.known k (htop ▸ hk)
    refine ⟨?_, fun k hk => ?_, ht.placed.written, fun p hp k hk hsame => ?_, fun p hp => ?_⟩
    · have hdistinct := hs.placed.distinct
      rw [htop] at hdistinct
      rw [hend]
      simpa [hid] using hdistinct
    · rw [hend] at hk
      refine Nat.lt_of_lt_of_le ?_ hcalm.nextFrame
      obtain rfl | hk := List.mem_cons.mp hk
      · rw [hid]
        exact hlt f (by simp)
      · exact hlt k (List.mem_cons_of_mem _ hk)
    · rw [hend] at hk
      replace hp : p ∈ t.pending := hp
      rw [hpending] at hp
      obtain hp | hp := List.mem_append.mp hp
      · obtain rfl | hk := List.mem_cons.mp hk
        · exact (hs.placed.kept p hp f (by simp [htop]) (hid ▸ hsame)).of_plain hmodule hlocals
        · exact hs.placed.kept p hp k (by simp [htop, hk]) hsame
      · have hnew := hnew p hp
        rw [← hsame] at hnew
        obtain rfl | hk := List.mem_cons.mp hk
        · exact absurd (hlt f (by simp)) (Nat.not_lt_of_le (hid ▸ hnew))
        · exact absurd (hlt k (List.mem_cons_of_mem _ hk)) (Nat.not_lt_of_le hnew)
    · refine (ht.placed.within p hp).imp_right fun hmem => ?_
      obtain ⟨g', htop', hgrown⟩ := GrownTop.exists_cons (henter ▸ honward.frames)
      rw [htop', List.map_cons, hgrown.id] at hmem
      rw [hend, List.map_cons, hid]
      exact hmem
  have houter : Ready e (outer t) := ht.ready.outer
  refine ⟨⟨⟨houter.toSane, hplaced, ht.awaited, ht.held⟩, houter.framed⟩, ?_⟩
  exact .of_appended hcalm hpending (fun q hq => .inl (hnew q hq)) hpassed.typed

end Check

end TraitCheck
