import TraitCheck.Proofs.Check.Updates

/-! A path never stands for a variable at the top of a module that does not exist. -/

namespace TraitCheck

lemma Scope.mem_of_find? {sc : Scope} {kinds : List Kind} {name : String} {d : Definition}
    (h : sc.find? kinds name = some d) : ∃ key, (key, d) ∈ sc.defs := by
  obtain ⟨k, -, hget⟩ := List.exists_of_findSome?_eq_some h
  obtain ⟨front, back, heq, -⟩ := List.lookup_eq_some_iff.mp hget
  exact ⟨(k, name), by simp [heq]⟩

namespace Check

/-! ### Scopes -/

section Scopes

variable {s : State} {n : Nat} {kinds : List Kind}

def Located (n : Nat) (x : Except Failure (Option Resolved)) : Prop :=
  ∀ r, x = .ok (some r) → r.definition.In (· < n)

namespace Located

lemma nothing : Located n (.ok none) := by
  intro r hr
  cases hr

lemma bind {α : Type} {x : Except Failure α} {f : α → Except Failure (Option Resolved)}
    (h : ∀ a, x = .ok a → Located n (f a)) : Located n (x >>= f) := by
  cases x with
  | error φ =>
    intro r hr
    cases hr
  | ok a => exact h a rfl

lemma found {r : Resolved} (h : r.definition.In (· < n)) : Located n (.ok (some r)) := by
  intro r' hr
  exact Option.some.inj (Except.ok.inj hr) ▸ h

lemma map {α : Type} {o : Option α} {g : α → Resolved} (h : ∀ a, o = some a → (g a).definition.In (· < n)) :
    Located n (.ok (o.map g)) := by
  cases o with
  | none => exact nothing
  | some a => exact found (h a rfl)

end Located

lemma typeMember?_located (d : TypeDecl) (name : String) : Located n (typeMember? s kinds d name) := by
  rw [typeMember?]
  split
  · exact .found (Definition.in_of_kind (by simp [Definition.kind]))
  · refine .bind fun method _ => ?_
    split
    · exact .map fun m _ => Definition.in_of_kind (by simp [Definition.kind])
    · exact .nothing

lemma memberInScope?_located (sc : Scope) (first last : String) :
    Located n (memberInScope? s sc kinds first last) := by
  have htype : Located n (ofType? s sc kinds first last) := by
    rw [ofType?]
    split
    · refine .bind fun d _ => ?_
      cases d with
      | none => exact .nothing
      | some d => exact typeMember?_located d last
    · exact .nothing
  refine .bind fun r hr => ?_
  cases r with
  | some r => exact .found (htype r hr)
  | none =>
    dsimp only
    rw [ofTrait?]
    split
    · refine .bind fun d _ => ?_
      cases d with
      | none => exact .nothing
      | some d => exact .map fun m _ => Definition.in_of_kind (by simp [Definition.kind])
    · exact .nothing

lemma inScope?_located {sc : Scope} (h : ∀ x ∈ sc.defs, x.2.In (· < n)) (owner : Option (Nat × Path)) (p : Path) :
    Located n (inScope? s sc kinds owner p) := by
  rw [inScope?.eq_def]
  split
  · refine .map fun d hd => ?_
    obtain ⟨key, hmem⟩ := Scope.mem_of_find? hd
    cases owner <;> exact h _ hmem
  · exact memberInScope?_located sc _ _
  · exact .nothing

lemma findSomeM?_located {l : List Scope} (h : ∀ sc ∈ l, ∀ x ∈ sc.defs, x.2.In (· < n)) (p : Path) :
    Located n (l.findSomeM? fun sc => inScope? s sc kinds none p) := by
  induction l with
  | nil => exact .nothing
  | cons sc l ih =>
    rw [List.forall_mem_cons] at h
    rw [List.findSomeM?]
    refine .bind fun r hr => ?_
    cases r with
    | none => exact ih h.2
    | some r => exact .found (inScope?_located h.1 none p r hr)

end Scopes

/-! ### Resolving -/

def Locates (x : Check (Option Resolved)) : Prop :=
  ∀ s r t, x.run s = (.ok (some r), t) → t.Anchored → r.definition.In (· < t.modules.length)

variable {kinds : List Kind}

namespace Locates

variable {α : Type}

lemma pure {o : Option Resolved} (h : ∀ r, o = some r → r.definition.kind ≠ .var) : Locates (Pure.pure o) := by
  intro s r t hrun _
  cases hrun
  exact Definition.in_of_kind (h r rfl)

lemma none : Locates (Pure.pure Option.none) := .pure fun r hr => by cases hr

lemma bind {x : Check α} {f : α → Check (Option Resolved)} (hf : ∀ a, Locates (f a)) : Locates (x >>= f) := by
  intro s r t hrun
  obtain ⟨a, u, -, hlast⟩ := exists_of_run_bind hrun
  exact hf a u r t hlast

lemma orElse {x : Check (Option Resolved)} {f : Option Resolved → Check (Option Resolved)} (hx : Locates x)
    (hsome : ∀ r, f (some r) = Pure.pure (some r)) (hnone : Locates (f .none)) : Locates (x >>= f) := by
  intro s r t hrun
  obtain ⟨o, u, hfirst, hlast⟩ := exists_of_run_bind hrun
  cases o with
  | none => exact hnone u r t hlast
  | some r' =>
    rw [hsome] at hlast
    cases hlast
    exact hx s r _ hfirst

end Locates

lemma in_of_run_ofExcept {x : Except Failure (Option Resolved)} {s t : State} {r : Resolved}
    (hx : s.Anchored → Located s.modules.length x) (hrun : (ofExcept x : Check _).run s = (.ok (some r), t))
    (ht : t.Anchored) : r.definition.In (· < t.modules.length) := by
  cases x with
  | error φ => cases hrun
  | ok o =>
    cases hrun
    exact hx ht r rfl

lemma state_of_run_ofExcept {α : Type} {x : Except Failure α} {s t : State} {r : Except Failure α}
    (hrun : (ofExcept x : Check α).run s = (r, t)) : t = s := by
  cases x <;> cases hrun <;> rfl

lemma firstCut_locates (package : Package) (cuts : List (Path × Path)) :
    Locates (firstCut visit package kinds cuts) := by
  induction cuts with
  | nil => exact .none
  | cons cut cuts ih =>
    obtain ⟨front, rest⟩ := cut
    rw [firstCut]
    refine .bind fun s => ?_
    split
    · exact ih
    · next id _ =>
      split
      · split
        · refine .pure fun r hr => ?_
          cases hr
          simp [Definition.kind]
        · exact ih
      · refine .bind fun _ s r t hrun => ?_
        have hentry : (entry id).run s = (.ok ((s.modules[id]?).getD default), s) := rfl
        rw [run_bind_ok hentry, run_get_bind] at hrun
        obtain ⟨o, u, hfirst, hlast⟩ := exists_of_run_bind hrun
        cases o with
        | none => exact ih u r t hlast
        | some r' =>
          cases hlast
          exact in_of_run_ofExcept (fun hs => inScope?_located (hs.entry_scope id) _ rest) hfirst

lemma qualified_locates (p : Path) : Locates (qualified kinds p) := by
  refine .bind fun s => ?_
  split
  · exact firstCut_locates _ (cuts p)
  · exact .none

lemma ofSelf?_locates (p : Path) : Locates (ofSelf? kinds p) := by
  rw [ofSelf?]
  split
  · exact .none
  · refine .bind fun s => .bind fun self => ?_
    split
    · exact .none
    · split
      · refine .pure fun r hr => ?_
        split at hr
        · cases hr
          simp [Definition.kind]
        · cases hr
      · refine .pure fun r hr => ?_
        obtain ⟨m, -, rfl⟩ := Option.map_eq_some_iff.mp hr
        simp [Definition.kind]
      · exact .none

lemma inFrame?_locates (p : Path) : Locates (inFrame? kinds p) := by
  intro s r t hrun
  rw [inFrame?] at hrun
  obtain ⟨f, u, hframe, hrest⟩ := exists_of_run_bind hrun
  obtain ⟨rfl, htop⟩ := of_run_frame hframe
  have hentry : (entry f.module).run u = (.ok ((u.modules[f.module]?).getD default), u) := rfl
  rw [run_bind_ok hentry, run_get_bind] at hrest
  obtain ⟨o, v, hfirst, hlast⟩ := exists_of_run_bind hrest
  have hlocals (hu : u.Anchored) := hu.locals f (List.mem_of_mem_head? htop)
  cases o with
  | none =>
    obtain rfl : v = u := state_of_run_ofExcept hfirst
    exact in_of_run_ofExcept (fun hv => inScope?_located (hv.entry_scope f.module) _ p) hlast
  | some r' =>
    cases hlast
    exact in_of_run_ofExcept (fun hu => findSomeM?_located (hlocals hu) p) hfirst

lemma viaImports_locates (p : Path) (refs : List Path) : Locates (viaImports kinds p refs) := by
  induction refs with
  | nil => exact .none
  | cons reference refs ih =>
    rw [viaImports]
    split
    · split
      · exact (qualified_locates _).orElse (fun _ => rfl) ih
      · exact ih
    · exact ih

lemma resolve_locates (p : Path) : Locates (resolve kinds p) := by
  refine (ofSelf?_locates p).orElse (fun _ => rfl) ((inFrame?_locates p).orElse (fun _ => rfl) ?_)
  refine (qualified_locates p).orElse (fun _ => rfl) (.bind fun id => .bind fun e => .bind fun s => ?_)
  exact viaImports_locates p _

lemma state_of_run_mayUse {r : Resolved} {s t : State} {may : Bool} (hrun : (mayUse r).run s = (.ok may, t)) :
    t = s := by
  rw [mayUse] at hrun
  cases hmodule : r.module with
  | none =>
    rw [hmodule] at hrun
    cases hrun
    rfl
  | some id =>
    rw [hmodule] at hrun
    obtain ⟨current, u, hcurrent, hrest⟩ := exists_of_run_bind hrun
    obtain ⟨f, v, hframe, hmodule⟩ := exists_of_run_bind hcurrent
    obtain ⟨rfl, -⟩ := of_run_frame hframe
    cases hmodule
    cases hrest
    rfl

lemma resolveOrReport_locates (info : Syntax.Info) (what : String) (p : Path) :
    Locates (resolveOrReport info what kinds p) := by
  intro s r t hrun
  rw [resolveOrReport] at hrun
  obtain ⟨o, u, hfirst, hlast⟩ := exists_of_run_bind hrun
  cases o with
  | none => cases hlast
  | some r' =>
    have hr' := resolve_locates p s r' u hfirst
    obtain ⟨may, v, hmay, hrest⟩ := exists_of_run_bind hlast
    have hv : v = u := state_of_run_mayUse hmay
    subst hv
    cases may with
    | true =>
      cases hrest
      exact hr'
    | false =>
      cases hrest
      exact fun ht => hr' { ht with }

end Check

end TraitCheck
