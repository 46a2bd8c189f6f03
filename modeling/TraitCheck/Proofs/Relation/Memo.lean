import TraitCheck.Proofs.Relation.Names
import TraitCheck.Relation.Evidence

/-! A question that is answered with a memo has the answer that the chains in the final memo give, since an entry stays
once it is made. -/

namespace TraitCheck

def Memo.Grows (before after : Memo) : Prop := ∀ k l, before.lookup k = some l → after.lookup k = some l

def Memo.Agrees (memo : Memo) (cs : Path → List Chain) : Prop := ∀ p l, memo.lookup p.render = some l → cs p = l

/-- `x` keeps what is known of the memo, and has a result as described. The result is that of `y` if the final memo
agrees with the chains that `y` was computed with. -/
def Runs {α : Type} (I : Memo → Prop) (cs : Path → List Chain) (Q : α → Prop) (x : StateM Memo α) (y : Id α) : Prop :=
  ∀ memo, I memo → I (x.run memo).2 ∧ memo.Grows (x.run memo).2 ∧ Q (x.run memo).1 ∧
    ((x.run memo).2.Agrees cs → (x.run memo).1 = y.run)

variable {I : Memo → Prop} {cs : Path → List Chain} {α β : Type}

namespace Runs

lemma pure {Q : α → Prop} {a : α} (h : Q a) : Runs I cs Q (Pure.pure a) (Pure.pure a) :=
  fun _ hI => ⟨hI, fun _ _ h => h, h, fun _ => rfl⟩

lemma bind {Q : α → Prop} {R : β → Prop} {x : StateM Memo α} {y : Id α} {f : α → StateM Memo β} {g : α → Id β}
    (hx : Runs I cs Q x y) (hf : ∀ a, Q a → Runs I cs R (f a) (g a)) : Runs I cs R (x >>= f) (y >>= g) := by
  intro memo hI
  obtain ⟨hI₁, hgrows₁, hQ, heq₁⟩ := hx memo hI
  obtain ⟨hI₂, hgrows₂, hR, heq₂⟩ := hf _ hQ _ hI₁
  refine ⟨hI₂, fun k l h => hgrows₂ k l (hgrows₁ k l h), hR, fun hagrees => ?_⟩
  have hx : (x.run memo).1 = y.run := heq₁ fun p l h => hagrees p l (hgrows₂ _ l h)
  change ((f (x.run memo).1).run (x.run memo).2).1 = (g y.run).run
  rw [heq₂ hagrees, hx]

lemma weaken {Q R : α → Prop} {x : StateM Memo α} {y : Id α} (h : Runs I cs Q x y) (hQ : ∀ a, Q a → R a) :
    Runs I cs R x y := by
  intro memo hI
  obtain ⟨h₁, h₂, h₃, h₄⟩ := h memo hI
  exact ⟨h₁, h₂, hQ _ h₃, h₄⟩

end Runs

abbrev RunsAs (I : Memo → Prop) (cs : Path → List Chain) (x : StateM Memo α) (y : Id α) : Prop :=
  Runs I cs (fun _ => True) x y

/-! ### The rules of assignability in two monads -/

/-- A correspondence between the actions of two monads, where `Q` is what is known of their results. -/
structure Mirrors (m n : Type → Type) [Monad m] [Monad n] where
  rel : {α : Type} → (Q : α → Prop) → m α → n α → Prop
  pure : ∀ {α : Type} {Q : α → Prop} {a : α}, Q a → rel Q (Pure.pure a) (Pure.pure a)
  bind : ∀ {α β : Type} {Q : α → Prop} {R : β → Prop} {x : m α} {y : n α} {f : α → m β} {g : α → n β}, rel Q x y →
    (∀ a, Q a → rel R (f a) (g a)) → rel R (x >>= f) (y >>= g)

namespace Mirrors

variable {m n : Type → Type} [Monad m] [Monad n] (R : Mirrors m n)

abbrev Alike (x : m α) (y : n α) : Prop := R.rel (fun _ => True) x y

variable {R}

lemma allM {l : List α} {f : α → m Bool} {g : α → n Bool} (h : ∀ a ∈ l, R.Alike (f a) (g a)) :
    R.Alike (l.allM f) (l.allM g) := by
  induction l with
  | nil => exact R.pure trivial
  | cons a l ih =>
    refine R.bind (h a (by simp)) fun b _ => ?_
    cases b with
    | true => exact ih fun b hb => h b (List.mem_cons_of_mem _ hb)
    | false => exact R.pure trivial

lemma anyM {l : List α} {f : α → m Bool} {g : α → n Bool} (h : ∀ a ∈ l, R.Alike (f a) (g a)) :
    R.Alike (l.anyM f) (l.anyM g) := by
  induction l with
  | nil => exact R.pure trivial
  | cons a l ih =>
    refine R.bind (h a (by simp)) fun b _ => ?_
    cases b with
    | true => exact R.pure trivial
    | false => exact ih fun b hb => h b (List.mem_cons_of_mem _ hb)

variable (R)

def HoldsAlike (names : Set Path) (holds : Ty → Ty → m Bool) (said : Ty → Ty → n Bool) : Prop :=
  ∀ t u, t.Within names → u.Within names → R.Alike (holds t u) (said t u)

def ChainsAlike (names : Set Path) (chains : Path → m (List Chain)) (known : Path → n (List Chain)) : Prop :=
  ∀ p ∈ names, R.rel (fun l => ∀ c ∈ l, c.Within names) (chains p) (known p)

variable {R} {names : Set Path} (hunit : Ty.unitPath ∈ names) {holds : Ty → Ty → m Bool} {said : Ty → Ty → n Bool}
  (hh : R.HoldsAlike names holds said)

include hunit hh

lemma step {r : Relation} (hr : r.Within names) {t : Ty} (ht : t.Within names) :
    R.rel (fun o => ∀ e, o = some e → e.1.Within names) (r.step holds t) (r.step said t) := by
  unfold Relation.step
  split_ifs
  · have hd := hr.demands hunit (ht.unify hunit hr.forType)
    refine R.bind (allM fun d hmem => hh _ _ (hd d hmem).1 (hd d hmem).2) fun b _ => ?_
    split_ifs
    · refine R.pure fun e he => ?_
      cases he
      exact hr.view hunit ht
    · exact R.pure (by simp)
  · exact R.pure (by simp)

lemma follow {c : Chain} (hc : c.Within names) {cur : Ty × Bindings} (ht : cur.1.Within names) :
    R.rel (fun o => ∀ e, o = some e → e.1.Within names) (c.follow holds cur) (c.follow said cur) := by
  induction c generalizing cur with
  | nil =>
    refine R.pure fun e he => ?_
    cases he
    exact ht
  | cons r c ih =>
    unfold Chain.follow
    refine R.bind (step hunit hh (hc r (by simp)) ht) fun o ho => ?_
    cases o with
    | none => exact R.pure (by simp)
    | some next => exact ih (fun s hs => hc s (List.mem_cons_of_mem _ hs)) (ho next rfl)

lemma firstFit {t target : Ty} (ht : t.Within names) (hu : target.Within names) (q : Path) {l : List Chain}
    (hl : ∀ c ∈ l, c.Within names) :
    R.rel (fun o => ∀ c, o = some c → c.Within names) (TraitCheck.firstFit holds t q target l)
      (TraitCheck.firstFit said t q target l) := by
  induction l with
  | nil => exact R.pure (by simp)
  | cons c l ih =>
    have hrest := ih fun c hc => hl c (List.mem_cons_of_mem _ hc)
    have hc := hl c (by simp)
    unfold TraitCheck.firstFit
    split_ifs
    · refine R.bind (follow hunit hh hc ht) fun o ho => ?_
      cases o with
      | none => exact hrest
      | some e =>
        refine R.bind (hh e.1 target (ho e rfl) hu) fun b _ => ?_
        split_ifs
        · refine R.pure fun c' he => ?_
          cases he
          exact hc
        · exact hrest
    · exact hrest

variable {chains : Path → m (List Chain)} {known : Path → n (List Chain)} (hc : R.ChainsAlike names chains known)

include hc

lemma superTypeAs {p : Path} (hp : p ∈ names) {t target : Ty} (ht : t.Within names) (hu : target.Within names)
    (q : Path) :
    R.rel (fun o => ∀ c, o = some c → c.Within names) (TraitCheck.superTypeAs holds chains p t q target)
      (TraitCheck.superTypeAs said known p t q target) :=
  R.bind (hc p hp) fun _ hl => firstFit hunit hh ht hu q hl

lemma assignParts {t target : Ty} (ht : t.Within names) (hu : target.Within names) :
    R.Alike (TraitCheck.assignParts holds chains t target) (TraitCheck.assignParts said known t target) := by
  cases ht with
  | generic hb =>
    simp only [TraitCheck.assignParts]
    exact anyM fun b hmem => hh b target (hb b hmem) hu
  | named hp hargs =>
    cases hu with
    | named hq hbs =>
      simp only [TraitCheck.assignParts]
      split_ifs
      · have hzip := zip_within hargs hbs
        exact allM fun d hmem => hh _ _ (hzip d hmem).1 (hzip d hmem).2
      · exact R.pure trivial
      · exact R.bind (superTypeAs hunit hh hc hp (.named hp hargs) (.named hq hbs) _) fun _ _ => R.pure trivial
    | _ => exact R.pure trivial
  | fn hps hr =>
    cases hu with
    | fn hqs hs =>
      simp only [TraitCheck.assignParts]
      split_ifs
      · have hzip := zip_within hqs hps
        refine R.bind (allM fun d hmem => hh _ _ (hzip d hmem).1 (hzip d hmem).2) fun b _ => ?_
        split_ifs
        · exact hh _ _ (hr.resultOf hunit) (hs.resultOf hunit)
        · exact R.pure trivial
      · exact R.pure trivial
    | _ => exact R.pure trivial
  | _ => exact R.pure trivial

lemma assignStep {t target : Ty} (ht : t.Within names) (hu : target.Within names) :
    R.Alike (TraitCheck.assignStep holds chains t target) (TraitCheck.assignStep said known t target) := by
  cases hu with
  | generic hb =>
    simp only [TraitCheck.assignStep]
    split_ifs
    · exact assignParts hunit hh hc ht (.generic hb)
    · exact allM fun b hmem => hh t b ht (hb b hmem)
  | named hp hargs => exact assignParts hunit hh hc ht (.named hp hargs)
  | fn hps hr => exact assignParts hunit hh hc ht (.fn hps hr)
  | unknown => exact assignParts hunit hh hc ht .unknown
  | closure i n => exact assignParts hunit hh hc ht (.closure i n)
  | hole => exact assignParts hunit hh hc ht .hole
  | absent => exact assignParts hunit hh hc ht .absent
  | ongoing i => exact assignParts hunit hh hc ht (.ongoing i)

end Mirrors

/-! ### Assignability -/

abbrev running (I : Memo → Prop) (cs : Path → List Chain) : Mirrors (StateM Memo) Id where
  rel := Runs I cs
  pure := .pure
  bind := .bind

section Assign

variable {names : Set Path} (hunit : Ty.unitPath ∈ names) {holds : Ty → Ty → StateM Memo Bool} {said : Ty → Ty → Id Bool}
  {chains : Path → StateM Memo (List Chain)}

abbrev HoldsAlike (I : Memo → Prop) (cs : Path → List Chain) (names : Set Path) (holds : Ty → Ty → StateM Memo Bool)
    (said : Ty → Ty → Id Bool) : Prop :=
  (running I cs).HoldsAlike names holds said

abbrev ChainsAlike (I : Memo → Prop) (cs : Path → List Chain) (names : Set Path)
    (chains : Path → StateM Memo (List Chain)) : Prop :=
  (running I cs).ChainsAlike names chains fun p => pure (cs p)

include hunit

lemma instantiate_runs (hh : HoldsAlike I cs names holds said) {c : Chain} (hc : c.Within names) {t : Ty}
    (ht : t.Within names) :
    Runs I cs (fun o => ∀ e, o = some e → e.1.Within names) (c.instantiate holds t) (c.instantiate said t) :=
  Mirrors.follow hunit hh hc ht

lemma assignWith_runs (hc : ChainsAlike I cs names chains) (budget : Nat) (asked : List String) :
    HoldsAlike I cs names (assignWith chains budget asked) (assignBy cs budget asked) := by
  induction budget generalizing asked with
  | zero =>
    intro t u ht hu
    unfold assignBy assignWith
    cases t.fits? u with
    | some answer => exact (running I cs).pure trivial
    | none =>
      dsimp only
      split_ifs <;> exact (running I cs).pure trivial
  | succ budget ih =>
    intro t u ht hu
    unfold assignBy assignWith
    cases t.fits? u with
    | some answer => exact (running I cs).pure trivial
    | none =>
      dsimp only
      split_ifs
      · exact (running I cs).pure trivial
      · exact Mirrors.assignStep hunit (ih _) hc ht hu

lemma combineWith_runs (hc : ChainsAlike I cs names chains) {a b : Ty} (ha : a.Within names) (hb : b.Within names) :
    RunsAs I cs (combineWith chains a b) (combineWith (fun p => pure (cs p)) a b) := by
  have hh : ∀ t u, t.Within names → u.Within names →
      RunsAs I cs (assignWith chains maxDepth [] t u) (assignWith (fun p => pure (cs p)) maxDepth [] t u) :=
    assignWith_runs hunit hc maxDepth []
  unfold combineWith
  split_ifs
  · exact .pure trivial
  · exact .pure trivial
  · refine (hh a b ha hb).bind fun r _ => ?_
    split_ifs
    · exact .pure trivial
    · refine (hh b a hb ha).bind fun r _ => ?_
      split_ifs <;> exact .pure trivial

end Assign

/-! ### Evidence -/

def RunsE (I : Memo → Prop) (cs : Path → List Chain) (Q : α → Prop) (x : EvidenceT (StateM Memo) α) (y : EvidenceT Id α) :
    Prop :=
  Runs I cs (fun r => ∀ a, r = .ok a → Q a) x.run y.run

namespace RunsE

lemma pure {Q : α → Prop} {a : α} (h : Q a) : RunsE I cs Q (Pure.pure a) (Pure.pure a) := by
  refine Runs.pure fun b hb => ?_
  cases hb
  exact h

lemma throw {Q : α → Prop} (e : EvidenceError) : RunsE I cs Q (MonadExcept.throw e) (MonadExcept.throw e) :=
  Runs.pure (by simp)

lemma bind {Q : α → Prop} {R : β → Prop} {x : EvidenceT (StateM Memo) α} {y : EvidenceT Id α}
    {f : α → EvidenceT (StateM Memo) β} {g : α → EvidenceT Id β} (hx : RunsE I cs Q x y)
    (hf : ∀ a, Q a → RunsE I cs R (f a) (g a)) : RunsE I cs R (x >>= f) (y >>= g) := by
  rw [RunsE, ExceptT.run_bind, ExceptT.run_bind]
  refine Runs.bind hx fun r hr => ?_
  cases r with
  | ok a => exact hf a (hr a rfl)
  | error e => exact Runs.pure (by simp)

lemma lift {Q : α → Prop} {x : StateM Memo α} {y : Id α} (h : Runs I cs Q x y) :
    RunsE I cs Q (ExceptT.lift x) (ExceptT.lift y) := by
  rw [RunsE, ExceptT.run_lift, ExceptT.run_lift, ← bind_pure_comp, ← bind_pure_comp]
  refine Runs.bind h fun a ha => Runs.pure fun b hb => ?_
  cases hb
  exact ha

end RunsE

section View

variable {names : Set Path} (hunit : Ty.unitPath ∈ names) {chains : Path → StateM Memo (List Chain)}
  (rels : List Relation)

def ViewsAlike (I : Memo → Prop) (cs : Path → List Chain) (names : Set Path)
    (view : Ty → Path → List Ty → EvidenceT (StateM Memo) (Option Evidence))
    (seen : Ty → Path → List Ty → EvidenceT Id (Option Evidence)) : Prop :=
  ∀ t p args, t.Within names → (Ty.named p args).Within names → RunsE I cs (fun _ => True) (view t p args) (seen t p args)

lemma mapM_runs {l : List α} {f : α → EvidenceT (StateM Memo) β} {g : α → EvidenceT Id β}
    (h : ∀ a ∈ l, RunsE I cs (fun _ => True) (f a) (g a)) : RunsE I cs (fun _ => True) (l.mapM f) (l.mapM g) := by
  induction l with
  | nil => exact .pure trivial
  | cons a l ih =>
    rw [List.mapM_cons, List.mapM_cons]
    refine (h a (by simp)).bind fun b _ => ?_
    exact (ih fun b hb => h b (List.mem_cons_of_mem _ hb)).bind fun _ _ => .pure trivial

lemma identityView_runs (p : Path) (args : List Ty) :
    RunsE I cs (fun _ => True) (identityView rels p args) (identityView rels p args) := by
  unfold identityView
  cases traitRelation? rels p with
  | some r => exact .pure trivial
  | none => exact .throw _

variable {view : Ty → Path → List Ty → EvidenceT (StateM Memo) (Option Evidence)}
  {seen : Ty → Path → List Ty → EvidenceT Id (Option Evidence)}

lemma boundEvidence_runs (hv : ViewsAlike I cs names view seen) {value bound : Ty} (ht : value.Within names)
    (hb : bound.Within names) :
    RunsE I cs (fun _ => True) (boundEvidence rels view value bound) (boundEvidence rels seen value bound) := by
  unfold boundEvidence
  split_ifs
  · cases hb with
    | named hp hargs =>
      refine (hv value _ _ ht (.named hp hargs)).bind fun o _ => ?_
      cases o with
      | some e => exact .pure trivial
      | none => exact identityView_runs rels _ _
    | _ => exact .pure trivial
  · exact .pure trivial

lemma viewFromBounds_runs (hv : ViewsAlike I cs names view seen) {p : Path} {args : List Ty}
    (hp : (Ty.named p args).Within names) {bounds : List Ty} (hb : ∀ b ∈ bounds, b.Within names) :
    RunsE I cs (fun _ => True) (viewFromBounds rels view p args bounds) (viewFromBounds rels seen p args bounds) := by
  induction bounds with
  | nil => exact .pure trivial
  | cons b bounds ih =>
    have hrest := ih fun b hmem => hb b (List.mem_cons_of_mem _ hmem)
    cases hb b (by simp) with
    | named hq hbargs =>
      simp only [viewFromBounds]
      split_ifs
      · exact (identityView_runs rels p args).bind fun _ _ => .pure trivial
      · refine (hv _ p args (.named hq hbargs) hp).bind fun o _ => ?_
        cases o with
        | some e => exact .pure trivial
        | none => exact hrest
    | _ => simpa only [viewFromBounds] using hrest

def viewThrough {m : Type → Type} [Monad m] (rels : List Relation)
    (view : Ty → Path → List Ty → EvidenceT m (Option Evidence)) (t : Ty) :
    Option Chain → EvidenceT m (Option Evidence)
  | none | some [] => return none
  | some (first :: rest) => do
    let b := Ty.unify t first.forType
    let generics ← first.generics.mapM fun g => g.bounds.mapM fun bound =>
      boundEvidence rels view ((b.get? g.name).getD .hole) (bound.substitute [b])
    return some (.view (Evidence.viaChain (first :: rest)) generics)

def way {m : Type → Type} [Monad m] (chains : Path → m (List Chain)) (q : Path) (as : List Ty) (p : Path)
    (args : List Ty) : m (Option Chain) :=
  superTypeAs (assignWith chains maxDepth []) chains q (.named q as) p (.named p args)

lemma viewAs_named {m : Type → Type} [Monad m] (chains : Path → m (List Chain)) (fuel : Nat) {q p : Path}
    (hne : q ≠ p) (as args : List Ty) :
    viewAs rels chains (fuel + 1) (.named q as) p args =
      (ExceptT.lift (way chains q as p args) >>= viewThrough rels (viewAs rels chains fuel) (.named q as)) := by
  simp only [viewAs, if_neg hne]
  rfl

include hunit in
lemma way_runs (hc : ChainsAlike I cs names chains) {q p : Path} {as args : List Ty} (ht : (Ty.named q as).Within names)
    (hp : (Ty.named p args).Within names) :
    Runs I cs (fun o => ∀ c, o = some c → c.Within names) (way chains q as p args)
      (way (fun p => pure (cs p)) q as p args) := by
  cases ht with
  | named hq hargs =>
    exact Mirrors.superTypeAs hunit (assignWith_runs hunit hc maxDepth []) hc hq (.named hq hargs) hp p

include hunit in
lemma viewThrough_runs (hv : ViewsAlike I cs names view seen) {t : Ty} (ht : t.Within names) {o : Option Chain}
    (ho : ∀ c, o = some c → c.Within names) :
    RunsE I cs (fun _ => True) (viewThrough rels view t o) (viewThrough rels seen t o) := by
  rcases o with _ | _ | ⟨first, rest⟩
  · exact .pure trivial
  · exact .pure trivial
  · have hfirst := ho _ rfl first (by simp)
    have hunify := ht.unify hunit hfirst.forType
    refine (mapM_runs fun g hg => mapM_runs fun bound hbound => ?_).bind fun _ _ => .pure trivial
    refine boundEvidence_runs rels hv ?_ ((hfirst.bounds g hg bound hbound).substitute hunit hunify)
    cases hget : (Ty.unify t first.forType).get? g.name with
    | none => exact .hole
    | some u => exact hunify.get hget

include hunit in
lemma viewAs_runs (hc : ChainsAlike I cs names chains) (fuel : Nat) :
    ViewsAlike I cs names (viewAs rels chains fuel) (viewAs rels (fun p => pure (cs p)) fuel) := by
  induction fuel with
  | zero => exact fun _ _ _ _ _ => .throw _
  | succ fuel ih =>
    intro t p args ht hp
    cases ht with
    | generic hb => exact viewFromBounds_runs rels ih hp hb
    | @named q as hq hargs =>
      by_cases hne : q = p
      · simp only [viewAs, if_pos hne]
        exact .pure trivial
      · have ht := Ty.Within.named hq hargs
        rw [viewAs_named rels _ fuel hne, viewAs_named rels _ fuel hne]
        exact (RunsE.lift (way_runs hunit hc ht hp)).bind fun o ho => viewThrough_runs hunit rels ih ht ho
    | _ => exact .pure trivial

variable {evidence : Ty → Ty → EvidenceT (StateM Memo) (Option Evidence)}
  {given : Ty → Ty → EvidenceT Id (Option Evidence)}

def EvidenceAlike (I : Memo → Prop) (cs : Path → List Chain) (names : Set Path)
    (evidence : Ty → Ty → EvidenceT (StateM Memo) (Option Evidence))
    (given : Ty → Ty → EvidenceT Id (Option Evidence)) : Prop :=
  ∀ t u, t.Within names → u.Within names → RunsE I cs (fun _ => True) (evidence t u) (given t u)

lemma evidenceAll_runs (hv : EvidenceAlike I cs names evidence given) {ds : List (Ty × Ty)}
    (hds : ∀ d ∈ ds, d.1.Within names ∧ d.2.Within names) :
    RunsE I cs (fun _ => True) (evidenceAll evidence ds) (evidenceAll given ds) := by
  induction ds with
  | nil => exact .pure trivial
  | cons d ds ih =>
    unfold evidenceAll
    have hd := hds d (by simp)
    refine (hv d.1 d.2 hd.1 hd.2).bind fun _ _ => ?_
    exact (ih fun d hmem => hds d (List.mem_cons_of_mem _ hmem)).bind fun _ _ => .pure trivial

include hunit in
lemma fnEvidence_runs (hv : EvidenceAlike I cs names evidence given) {ps qs : List Ty} {r s : Ty}
    (hps : ∀ p ∈ ps, p.Within names) (hqs : ∀ q ∈ qs, q.Within names) (hr : r.Within names) (hs : s.Within names) :
    RunsE I cs (fun _ => True) (fnEvidence evidence ps r qs s) (fnEvidence given ps r qs s) := by
  unfold fnEvidence
  split_ifs
  · refine (evidenceAll_runs hv (zip_within hqs hps)).bind fun _ _ => ?_
    exact (hv _ _ (hr.resultOf hunit) (hs.resultOf hunit)).bind fun _ _ => .pure trivial
  · exact .pure trivial

include hunit in
lemma evidenceWith_runs (hc : ChainsAlike I cs names chains) (fuel : Nat) :
    EvidenceAlike I cs names (evidenceWith rels chains fuel) (evidenceWith rels (fun p => pure (cs p)) fuel) := by
  induction fuel with
  | zero => exact fun _ _ _ _ => .throw _
  | succ fuel ih =>
    intro t u ht hu
    cases hu with
    | named hp hargs =>
      simp only [evidenceWith]
      split_ifs
      · exact viewAs_runs hunit rels hc _ t _ _ ht (.named hp hargs)
      · exact .pure trivial
    | fn hqs hs =>
      cases ht with
      | fn hps hr =>
        simp only [evidenceWith]
        refine (fnEvidence_runs hunit ih hps hqs hr hs).bind fun found _ => ?_
        rcases found with _ | ⟨ev, _ | _⟩ <;> exact .pure trivial
      | _ => exact .pure trivial
    | _ => exact .pure trivial

end View

end TraitCheck
