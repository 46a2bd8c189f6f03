import TraitCheck.Proofs.Check.Packages
import TraitCheck.Proofs.Check.Program
import TraitCheck.Proofs.Check.Watching

/-! Where the names in a closure are looked up. A closure is typed in the frame of its first use; there the names in its
body stand for what they stand for where it is written, except for those that have been bound since. -/

namespace TraitCheck

open Syntax (Lambda)

/-! ### Names that have been bound since -/

/-- The names that a scope binds. -/
def Scope.bound (sc : Scope) : List String := sc.defs.map (·.1.2) ++ if sc.self.isSome then ["Self"] else []

/-- The names of what is only in the first of two innermost scopes. -/
def Scope.added : (now before : List Scope) → List String
  | sc :: _, old :: _ => (sc.defs.take (sc.defs.length - old.defs.length)).map (·.1.2)
  | _, _ => []

/-- The names that a frame has bound since it was `f`: those of the scopes that have been opened, and those that have
been added to what was the innermost scope. -/
def Frame.boundSince (f g : Frame) : List String :=
  let opened := g.locals.length - f.locals.length
  (g.locals.take opened).flatMap Scope.bound ++ Scope.added (g.locals.drop opened) f.locals

/-- A frame with more scopes inside. -/
def Frame.inside (f : Frame) (own : List Scope) : Frame := { f with locals := own ++ f.locals }

/-- A state in which the frame is being worked on. -/
def State.inFrame (s : State) (f : Frame) : State := { s with frames := ⟨[f]⟩ }

lemma Frame.Extends.boundSince {f g : Frame} (h : f.Extends g) : ∃ opened new, g.locals.map Scope.plain =
      opened ++ (f.locals.map Scope.plain).modifyHead (fun sc => { sc with defs := new ++ sc.defs }) ∧
    ∀ name, name ∉ f.boundSince g → (∀ sc ∈ opened, name ∉ sc.bound) ∧
      (f.locals ≠ [] → name ∉ new.map (·.1.2)) := by
  obtain ⟨opened, new, hlocals⟩ := h.locals
  have hlength : g.locals.length - f.locals.length = opened.length := by
    have := congrArg List.length hlocals
    simp only [List.length_map, List.length_append, List.length_modifyHead] at this
    omega
  have htake : (g.locals.take opened.length).map Scope.plain = opened := by
    rw [List.map_take, hlocals, List.take_left]
  have hdrop : (g.locals.drop opened.length).map Scope.plain =
      (f.locals.map Scope.plain).modifyHead (fun sc => { sc with defs := new ++ sc.defs }) := by
    rw [List.map_drop, hlocals, List.drop_left]
  refine ⟨opened, new, hlocals, fun name hname => ?_⟩
  rw [Frame.boundSince, hlength] at hname
  simp only [List.mem_append, List.mem_flatMap, not_or, not_exists, not_and] at hname
  refine ⟨fun sc hsc => ?_, fun hf => ?_⟩
  · rw [← htake] at hsc
    obtain ⟨sc', hsc', rfl⟩ := List.mem_map.mp hsc
    exact hname.1 sc' hsc'
  · obtain ⟨old, rest, hold⟩ := List.exists_cons_of_ne_nil hf
    rw [hold] at hdrop
    cases hnow : g.locals.drop opened.length with
    | nil => simp [hnow] at hdrop
    | cons sc more =>
      rw [hnow] at hdrop
      have hdefs : sc.defs = new ++ old.defs := congrArg Scope.defs (List.cons.inj hdrop).1
      have hadded := hname.2
      rw [hnow, hold, Scope.added, hdefs] at hadded
      simpa using hadded

/-! ### Scopes that do not bind a name -/

namespace Check

variable {s : State} {kinds : List Kind} {p : Path}

lemma get?_of_not_bound {sc : Scope} {name : String} (h : name ∉ sc.bound) (kind : Kind) : sc.get? kind name = none := by
  rw [Scope.get?, List.lookup_eq_none_iff]
  intro d hd
  have : name ≠ d.1.2 := fun heq => h (List.mem_append_left _ (heq ▸ List.mem_map_of_mem hd))
  simp [Prod.ext_iff, this]

lemma inScope?_of_not_bound {sc : Scope} (h : p.first ∉ sc.bound) (s : State) :
    inScope? s sc kinds none p = .ok none := by
  have hget := get?_of_not_bound h
  rw [inScope?.eq_def]
  split
  · next name hsegments =>
    have : p.first = name := by simp [Path.first, hsegments]
    rw [this] at hget
    have hfind : sc.find? kinds name = none := List.findSome?_eq_none_iff.mpr fun k _ => hget k
    rw [hfind]
    rfl
  · next first last hsegments =>
    have : p.first = first := by simp [Path.first, hsegments]
    rw [this] at hget
    have htype : sc.type? first = .ok none := by simp [Scope.type?, hget]; rfl
    have htrait : sc.trait? first = .ok none := by simp [Scope.trait?, hget]; rfl
    simp only [memberInScope?, ofType?, ofTrait?, htype, htrait]
    split <;> split <;> rfl
  · rfl

lemma inScope?_added {sc : Scope} {new : List ((Kind × String) × Definition)} (h : p.first ∉ new.map (·.1.2))
    (s : State) : inScope? s { sc with defs := new ++ sc.defs } kinds none p = inScope? s sc kinds none p := by
  have hget : ∀ kind, Scope.get? { sc with defs := new ++ sc.defs } kind p.first = sc.get? kind p.first := by
    intro kind
    have hnone : new.lookup (kind, p.first) = none := by
      rw [List.lookup_eq_none_iff]
      intro d hd
      have : p.first ≠ d.1.2 := fun heq => h (heq ▸ List.mem_map_of_mem hd)
      simp [Prod.ext_iff, this]
    simp [Scope.get?, List.lookup_append, hnone]
  rw [inScope?.eq_def, inScope?.eq_def]
  split
  · next name hsegments =>
    have : p.first = name := by simp [Path.first, hsegments]
    rw [this] at hget
    simp only [Scope.find?, hget]
  · next first last hsegments =>
    have : p.first = first := by simp [Path.first, hsegments]
    rw [this] at hget
    simp only [memberInScope?, ofType?, ofTrait?, Scope.type?, Scope.trait?, hget]
  · rfl

/-! ### Frames that see the same -/

lemma findSomeM?_inside {α β : Type} {f : α → Except Failure (Option β)} {l l' : List α}
    (h : l.findSomeM? f = l'.findSomeM? f) (own : List α) : (own ++ l).findSomeM? f = (own ++ l').findSomeM? f := by
  induction own with
  | nil => exact h
  | cons a own ih => simp only [List.cons_append, List.findSomeM?, ih]

lemma findSomeM?_skip {α β : Type} {f : α → Except Failure (Option β)} {opened l : List α}
    (h : ∀ a ∈ opened, f a = .ok none) : (opened ++ l).findSomeM? f = l.findSomeM? f := by
  induction opened with
  | nil => rfl
  | cons a opened ih =>
    rw [List.cons_append, List.findSomeM?, h a (by simp), ← ih fun b hb => h b (List.mem_cons_of_mem _ hb)]
    rfl

structure SeeSame (p : Path) (f g : Frame) : Prop where
  module : g.module = f.module
  self : p.first = "Self" → g.locals.findSome? (·.self) = f.locals.findSome? (·.self)
  scopes : ∀ (s : State) kinds, g.locals.findSomeM? (fun sc => inScope? s sc kinds none p) =
    f.locals.findSomeM? fun sc => inScope? s sc kinds none p

variable {f g : Frame}

lemma SeeSame.inside (h : SeeSame p f g) (own : List Scope) : SeeSame p (f.inside own) (g.inside own) := by
  refine ⟨h.module, fun hp => ?_, fun s kinds => findSomeM?_inside (h.scopes s kinds) own⟩
  simp [Frame.inside, h.self hp]

lemma seeSame_of_extends (h : f.Extends g) (hp : p.first ∉ f.boundSince g) : SeeSame p f g := by
  obtain ⟨opened, new, hlocals, hbound⟩ := h.boundSince
  obtain ⟨hopened, hnew⟩ := hbound p.first hp
  have hself : ∀ l : List Scope, (l.map Scope.plain).findSome? (·.self) = l.findSome? (·.self) := fun l => by
    simp [List.findSome?_map, Function.comp_def, Scope.plain]
  refine ⟨h.module, fun hfirst => ?_, fun s kinds => ?_⟩
  · rw [← hself g.locals, ← hself f.locals, hlocals, List.findSome?_append]
    have hnone : opened.findSome? (·.self) = none := by
      refine List.findSome?_eq_none_iff.mpr fun sc hsc => ?_
      have := hopened sc hsc
      rw [hfirst] at this
      by_contra hsome
      exact this (by simp [Scope.bound, Option.isSome_iff_ne_none.mpr hsome])
    rw [hnone, Option.none_or]
    cases f.locals <;> rfl
  · rw [← findSomeM?_plain s g.locals, ← findSomeM?_plain s f.locals, hlocals,
      findSomeM?_skip fun sc hsc => inScope?_of_not_bound (hopened sc hsc) s]
    cases hf : f.locals with
    | nil => rfl
    | cons sc l => simp only [List.map_cons, List.modifyHead_cons, List.findSomeM?, inScope?_added (hnew (by simp [hf]))]

def Agree {α : Type} (s : State) (f g : Frame) (x : Check α) : Prop :=
  ∃ r, x.run (s.inFrame f) = (r, s.inFrame f) ∧ x.run (s.inFrame g) = (r, s.inFrame g)

namespace Agree

variable {α β : Type}

lemma pure (a : α) : Agree s f g (Pure.pure a) := ⟨.ok a, rfl, rfl⟩

lemma bind {x : Check α} {k : α → Check β} (hx : Agree s f g x) (hk : ∀ a, Agree s f g (k a)) :
    Agree s f g (x >>= k) := by
  obtain ⟨r, hf, hg⟩ := hx
  cases r with
  | ok a =>
    obtain ⟨r, hf', hg'⟩ := hk a
    exact ⟨r, (run_bind_ok hf k).trans hf', (run_bind_ok hg k).trans hg'⟩
  | error φ => exact ⟨.error φ, run_bind_error hf k, run_bind_error hg k⟩

lemma of_reads {x : Check α} (hs : s.Glanced) (h : Reads .fixed x) : Agree s f g x :=
  ⟨(x.run s.fixed).1, h (s.inFrame f) hs, h (s.inFrame g) hs⟩

lemma ofExcept (x : Except Failure α) : Agree s f g (ofExcept x) := by
  cases x <;> exact ⟨_, rfl, rfl⟩

lemma get {k : State → Check α} (hsame : k (s.inFrame g) = k (s.inFrame f)) (h : Agree s f g (k (s.inFrame f))) :
    Agree s f g (MonadState.get >>= k) := by
  obtain ⟨r, hf, hg⟩ := h
  exact ⟨r, hf, by rw [run_get_bind, hsame, hg]⟩

lemma entry (id : Nat) : Agree s f g (Check.entry id) := ⟨_, rfl, rfl⟩

lemma currentModule (h : g.module = f.module) : Agree s f g Check.currentModule :=
  ⟨.ok f.module, rfl, by rw [← h]; rfl⟩

end Agree

lemma ofSelf?_agree (h : SeeSame p f g) : Agree s f g (ofSelf? kinds p) := by
  rw [ofSelf?]
  split
  · exact .pure _
  · next hfirst =>
    have hself : Agree s f g selfType? :=
      ⟨.ok (f.locals.findSome? (·.self)), rfl, by rw [← h.self (by simpa using hfirst)]; rfl⟩
    refine .get rfl (hself.bind fun r => ?_)
    split
    · exact .pure _
    · split <;> exact .pure _

def lookIn (s : State) (kinds : List Kind) (p : Path) (f : Frame) : Check (Option Resolved) := do
  let e ← Check.entry f.module
  match ← ofExcept (f.locals.findSomeM? fun sc => inScope? s sc kinds none p) with
  | some r => return some r
  | none => ofExcept (inScope? s e.scope kinds (some (f.module, e.path)) p)

lemma inFrame?_agree (h : SeeSame p f g) : Agree s f g (inFrame? kinds p) := by
  have hrest : ∀ k : Frame, k.module = f.module → k.locals.findSomeM? (fun sc => inScope? s sc kinds none p) =
        f.locals.findSomeM? (fun sc => inScope? s sc kinds none p) →
      (inFrame? kinds p).run (s.inFrame k) = (lookIn s kinds p f).run (s.inFrame k) := by
    intro k hmodule hscopes
    rw [lookIn, ← hscopes, ← hmodule]
    rfl
  obtain ⟨r, hf, hg⟩ : Agree s f g (lookIn s kinds p f) := by
    refine (Agree.entry _).bind fun e => (Agree.ofExcept _).bind fun r => ?_
    cases r with
    | none => exact .ofExcept _
    | some r => exact .pure _
  exact ⟨r, (hrest f rfl rfl).trans hf, (hrest g h.module (h.scopes s kinds)).trans hg⟩

lemma meaning_of_seeSame (hs : s.Glanced) (h : SeeSame p f g) :
    meaning (s.inFrame g) kinds p = meaning (s.inFrame f) kinds p := by
  have hagree : Agree s f g (resolve kinds p) := by
    rw [resolve]
    refine (ofSelf?_agree h).bind fun r => ?_
    cases r with
    | some r => exact .pure _
    | none =>
      refine (inFrame?_agree h).bind fun r => ?_
      cases r with
      | some r => exact .pure _
      | none =>
        refine (Agree.of_reads hs (qualified_reads kinds p)).bind fun r => ?_
        cases r with
        | some r => exact .pure _
        | none =>
          refine (Agree.currentModule h.module).bind fun id => (Agree.entry id).bind fun e => .get rfl ?_
          exact .of_reads hs (viaImports_reads kinds p _)
  obtain ⟨r, hf, hg⟩ := hagree
  rw [meaning, meaning, hf, hg]

/-! ### Closures that are typed -/

/-- Names in the body of a closure that is about to be typed. The closure has waited since it was written. If it was
written in the module that is being worked on, and not in scopes of a frame further down, then inside any scopes of its
own a path stands for what it stands for where the closure is written, unless its first name is one of those that have
been bound. -/
structure Lexical (bound : Frame → Frame → List String) (c : Lambda) (s : State) : Prop where
  waits : (s.closures[c.info.id]?).isSome → ¬s.HasFn c.info.id → Waits s.pending c.info.id
  names : ∀ p ∈ s.pending, p.node.info.id = c.info.id → ∀ g gs, s.frames.top = g :: gs →
    g.module = p.frame.module → (p.frame.id ∈ gs.map Frame.id → p.frame.locals = []) →
    ∀ own kinds path, path.first ∉ bound p.frame g →
      meaning (s.inFrame (g.inside own)) kinds path = meaning (s.inFrame (p.frame.inside own)) kinds path

open scoped Classical in
noncomputable def isLexical (bound : Frame → Frame → List String) (c : Lambda) (s : State) : Bool :=
  decide (Lexical bound c s)

open scoped Classical in
lemma isLexical_iff {bound : Frame → Frame → List String} {c : Lambda} :
    isLexical bound c s = true ↔ Lexical bound c s := decide_eq_true_iff

/-- The check that stops where a closure is about to be typed and names in it would stand for something else. -/
noncomputable def checkLexically (bound : Frame → Frame → List String) : Check Unit :=
  checkModulesBy (watching .noModule (isLexical bound))

lemma extends_of_placed (hs : s.Placed) {p : PendingClosure} (hp : p ∈ s.pending) {gs : List Frame}
    (htop : s.frames.top = g :: gs) (hmodule : g.module = p.frame.module)
    (hbelow : p.frame.id ∈ gs.map Frame.id → p.frame.locals = []) : p.frame.Extends g := by
  by_cases hid : g.id = p.frame.id
  · exact hs.kept p hp g (by simp [htop]) hid
  · -- the closure was written at the top of the module, and all scopes are new
    have hlocals : p.frame.locals = [] := by
      refine (hs.within p hp).elim (fun h => h) fun hmem => hbelow ?_
      rw [htop] at hmem
      exact (List.mem_cons.mp hmem).resolve_left (Ne.symm hid)
    exact ⟨hmodule, g.locals.map Scope.plain, [], by simp [hlocals]⟩

lemma lexical_of_checking {e : Setting} (hs : Checking e s) (c : Lambda) : Lexical Frame.boundSince c s := by
  refine ⟨fun hmem hfn => (hs.awaited _ (.inl hmem)).resolve_left hfn, ?_⟩
  intro p hp _ g gs htop hmodule hbelow own kinds path hpath
  have hextends := extends_of_placed hs.placed hp htop hmodule hbelow
  exact meaning_of_seeSame hs.glanced ((seeSame_of_extends hextends hpath).inside own)

lemma watching_safe {e : Setting} (hwatch : e.toWatch = .none) {right : Lambda → State → Bool}
    (hright : ∀ s, Checking e s → ∀ c, right c s = true) (φ : Failure) (he : e.built = true) (depth : Nat) :
    SafeNested e (watching φ right depth) := by
  have hunheld (id : Nat) : e.Unheld id := Setting.unheld_of_none hwatch id
  induction depth with
  | zero => exact safeNested_zero
  | succ n ih =>
    have hrun : ∀ {c : Lambda} {ps : List Ty} {t : Ty} {s : State}, Checking e s →
        ((watching φ right (n + 1)).closure c ps t).run s = (typeClosure (watching φ right n) c ps t).run s :=
      fun hs => run_watched _ (hright _ hs _)
    refine ⟨fun x t hx ht => ?_, fun b t hb ht => ?_, fun c ps t hc hps ht s hs _ => ?_,
      fun c ps t hc hps ht s a s' hs _ h => ?_⟩
    · exact checkExpr_plain he ih hwatch hx ht
    · exact (checkBlock_types he ih hb ht).mono fun _ hr => hr.whole
    · exact .congr (hrun hs) (typeClosure_types he ih hc (hunheld _) hps ht s hs)
    · exact typeClosure_settled he ih hc (hunheld _) hps ht hs ((hrun hs).symm.trans h)

end Check

namespace State

variable (prelude : List Path) (reserve : Nat) (packages : List (String × List (String × Syntax.Module)))

/-- A check of packages never stops for want of a module, and neither does one that watches closures for what always
holds. -/
lemma run_checkModulesBy_ne {checks : Nat → Check.Nested}
    (hchecks : ∀ e : Setting, e.toWatch = .none → e.built = true → ∀ depth, Check.SafeNested e (checks depth))
    (t : State) :
    (Check.checkModulesBy checks).run (ofPackages prelude reserve packages) ≠ (.error .noModule, t) := by
  have hunchecked : (ofPackages prelude reserve packages).Unchecked False := unchecked_ofPackages _ _ nofun
  intro ht
  have hends := Check.checkModulesBy_ends (fun e _ hwatch => hchecks e hwatch) hunchecked.untouched
  obtain h | ⟨-, h | h⟩ := hends.2 .noModule t ht <;> cases h

/-- Whatever packages there are, names in a closure that is typed stand for what they stand for where it is written,
unless they have been bound since: a check that stops where this is not so never stops there. -/
theorem check_lexical : (Check.checkLexically Frame.boundSince).run (ofPackages prelude reserve packages) =
      Check.checkModules.run (ofPackages prelude reserve packages) ∧
    ∀ t, Check.checkModules.run (ofPackages prelude reserve packages) ≠ (.error .noModule, t) := by
  refine ⟨?_, run_checkModulesBy_ne _ _ _ fun _ => Check.levels_safe⟩
  refine (Check.checkModulesBy_follows (fun depth => Check.watching_follows _ depth) _).resolve_right ?_
  rintro ⟨t, ht⟩
  refine run_checkModulesBy_ne _ _ _ (fun _ he => Check.watching_safe he (fun s hs c => ?_) _) t ht
  exact Check.isLexical_iff.mpr (Check.lexical_of_checking hs c)

end State

/-! ### A name that is bound again -/

namespace Check

def variableOf? (s : State) (f : Frame) (name : String) : Option Nat :=
  match meaning (s.inFrame f) Kind.values ⟨[name]⟩ with
  | .ok (some ⟨_, .var ⟨_, _, .slot id, _⟩, _⟩) => some id
  | _ => none

def sees (name : String) (c : Lambda) (s : State) : Bool :=
  match s.frames.top with
  | [] => true
  | g :: gs => s.pending.all fun p =>
    if p.node.info.id = c.info.id ∧ g.module = p.frame.module ∧ p.frame.id ∉ gs.map Frame.id then
      variableOf? s g name = variableOf? s p.frame name
    else true

lemma sees_of_lexical {s : State} {c : Lambda} (h : Lexical (fun _ _ => []) c s) (name : String) :
    sees name c s = true := by
  unfold sees
  split
  · rfl
  · next g gs htop =>
    refine List.all_eq_true.mpr fun p hp => ?_
    split
    · next hwritten =>
      obtain ⟨hid, hmodule, hbelow⟩ := hwritten
      have hmeaning : meaning (s.inFrame g) Kind.values ⟨[name]⟩ = meaning (s.inFrame p.frame) Kind.values ⟨[name]⟩ :=
        h.names p hp hid g gs htop hmodule (absurd · hbelow) [] Kind.values ⟨[name]⟩ List.not_mem_nil
      rw [variableOf?, variableOf?, hmeaning, decide_eq_true_eq]
    · rfl

def stops (x : Check Unit) (s : State) : Bool :=
  match x.run s with
  | (.error .noModule, _) => true
  | _ => false

lemma exists_of_stops {x : Check Unit} {s : State} (h : stops x s = true) : ∃ t, x.run s = (.error .noModule, t) := by
  unfold stops at h
  split at h
  · next t hrun => exact ⟨t, hrun⟩
  · cases h

end Check

lemma State.exists_run_checkLexically {s : State} (name : String)
    (h : Check.stops (Check.checkModulesBy (Check.watching .noModule (Check.sees name))) s = true) :
    ∃ t, (Check.checkLexically fun _ _ => []).run s = (.error .noModule, t) := by
  obtain ⟨t, ht⟩ := Check.exists_of_stops h
  have hright : ∀ c s, Check.isLexical (fun _ _ => []) c s = true → Check.sees name c s = true := fun c s hc =>
    Check.sees_of_lexical (Check.isLexical_iff.mp hc) name
  have hstricter (depth : Nat) : (Check.watching .noModule (Check.isLexical fun _ _ => []) depth).Follows .noModule
      (Check.watching .noModule (Check.sees name) depth) := Check.watching_stricter hright depth
  have hfollows := Check.checkModulesBy_follows hstricter
  exact (hfollows s).elim (fun hsame => ⟨t, hsame.trans ht⟩) fun hstops => hstops

namespace Shadowing

open Syntax (Expr Stmt Module)

/-- A variable. -/
def bind (name : String) (value : Expr) : Stmt := .var ⟨{}, false, name, none, value⟩

def number : Expr := .literal ⟨{}, .int, "1"⟩

def text : Expr := .literal ⟨{}, .string, "s"⟩

/-- A closure that returns `x`, and that is called where another `x` has been bound. -/
def packages : List (String × List (String × Module)) :=
  [("app", [("app::a", Standard.module [.fn ⟨{}, false, "f", [], [], none, some ⟨{}, [
    bind "x" number,
    bind "g" (.closure ⟨{}, [⟨{}, "a", none⟩], none, ⟨{}, [.expr {} (Standard.ident "x")]⟩⟩),
    .expr {} (.block ⟨{}, [
      bind "x" text,
      bind "y" (.call {} (Standard.ident "g") [number])]⟩)]⟩⟩])])]

/-- The closure is typed where `x` stands for another variable than where it is written. -/
theorem typed_where_shadowed :
    (Check.checkLexically fun _ _ => []).run (State.ofPackages Standard.prelude 64 packages) ≠
      Check.checkModules.run (State.ofPackages Standard.prelude 64 packages) := by
  obtain ⟨t, ht⟩ := State.exists_run_checkLexically (s := State.ofPackages Standard.prelude 64 packages) "x"
    (by decide +kernel)
  rw [ht]
  exact (State.run_checkModulesBy_ne _ _ _ (fun _ => Check.levels_safe) t).symm

end Shadowing

end TraitCheck
