import TraitCheck.Check.Program
import TraitCheck.Proofs.Check.Regime

/-! Checks that watch closures. Such a check stops with a failure where the body of a closure is about to be checked and
a condition does not hold; as long as it does not stop it is the check itself. -/

namespace TraitCheck.Check

open Syntax (Expr Stmt Body Lambda Arm TypeExpr Info)

variable {α β : Type} {φ : Failure}

def Follows (φ : Failure) (x y : Check α) : Prop := ∀ s, x.run s = y.run s ∨ ∃ t, x.run s = (.error φ, t)

namespace Follows

variable {x y : Check α} {f g : α → Check β}

lemma refl (x : Check α) : Follows φ x x := fun _ => .inl rfl

lemma bind (hx : Follows φ x y) (hf : ∀ a, Follows φ (f a) (g a)) : Follows φ (x >>= f) (y >>= g) := by
  intro s
  obtain hsame | ⟨t, hstop⟩ := hx s
  · match hrun : y.run s with
    | (.ok a, t) =>
      rw [run_bind_ok (hsame.trans hrun), run_bind_ok hrun]
      exact hf a t
    | (.error ψ, t) =>
      rw [run_bind_error (hsame.trans hrun), run_bind_error hrun]
      exact .inl rfl
  · exact .inr ⟨t, run_bind_error hstop f⟩

lemma after (hf : ∀ a, Follows φ (f a) (g a)) : Follows φ (x >>= f) (x >>= g) := (refl x).bind hf

lemma before (hx : Follows φ x y) : Follows φ (x >>= f) (y >>= f) := hx.bind fun _ => refl _

lemma discard (hx : Follows φ x y) : Follows φ (Functor.discard x) (Functor.discard y) := hx.before

lemma ite {c : Prop} [Decidable c] {x' y' : Check α} (hx : Follows φ x y) (hx' : Follows φ x' y') :
    Follows φ (if c then x else x') (if c then y else y') := by
  split
  · exact hx
  · exact hx'

lemma bracket (enter leave : State → State) (hx : Follows φ x y) :
    Follows φ (Check.bracket enter leave x) (Check.bracket enter leave y) := by
  intro s
  refine (hx (enter s)).imp (fun hsame => ?_) fun hstop => ?_
  · change ((x.run (enter s)).1, leave (x.run (enter s)).2) = ((y.run (enter s)).1, leave (y.run (enter s)).2)
    rw [hsame]
  · obtain ⟨t, hstop⟩ := hstop
    refine ⟨leave t, ?_⟩
    change ((x.run (enter s)).1, leave (x.run (enter s)).2) = _
    rw [hstop]

lemma forM {l : List α} {f g : α → Check Unit} (h : ∀ a ∈ l, Follows φ (f a) (g a)) :
    Follows φ (l.forM f) (l.forM g) := by
  induction l with
  | nil => exact refl _
  | cons a l ih => exact (h a (by simp)).bind fun _ => ih fun b hb => h b (List.mem_cons_of_mem _ hb)

lemma mapM {l : List α} (h : ∀ a, Follows φ (f a) (g a)) : Follows φ (l.mapM f) (l.mapM g) := by
  induction l with
  | nil => exact refl _
  | cons a l ih =>
    rw [List.mapM_cons, List.mapM_cons]
    exact (h a).bind fun _ => ih.before

lemma forIn {l : List α} {b c : α → PUnit → Check (ForInStep PUnit)} (h : ∀ a, Follows φ (b a ⟨⟩) (c a ⟨⟩)) :
    Follows φ (forIn l ⟨⟩ b) (forIn l ⟨⟩ c) := by
  induction l with
  | nil => exact refl _
  | cons a l ih =>
    rw [List.forIn_cons, List.forIn_cons]
    refine (h a).bind fun step => ?_
    cases step with
    | done => exact refl _
    | yield => exact ih

end Follows

structure Nested.Follows (φ : Failure) (m n : Nested) : Prop where
  fuel : m.fuel = n.fuel
  expr : ∀ e t, Check.Follows φ (m.expr e t) (n.expr e t)
  block : ∀ b t, Check.Follows φ (m.block b t) (n.block b t)
  closure : ∀ c ps t, Check.Follows φ (m.closure c ps t) (n.closure c ps t)

variable {m n : Nested} (h : m.Follows φ n)

include h

/-! ### Closures -/

lemma settleAgainst_follows (node : Expr) (t target : Ty) :
    Follows φ (settleAgainst m node t target) (settleAgainst n node t target) := by
  cases t with
  | closure id arity =>
    refine .after fun u => .after fun s => ?_
    cases u with
    | fn gs ps r =>
      cases s.closures[id]? with
      | none => exact .refl _
      | some c => exact (h.closure c ps _).before
    | _ => exact .refl _
  | _ => exact .refl _

lemma typeUnused_follows (c : Lambda) : Follows φ (typeUnused m c) (typeUnused n c) :=
  .after fun _ => .ite (.refl _) (h.closure c _ _).discard

lemma flushPending_follows (frame depth fuel : Nat) :
    Follows φ (flushPending m frame depth fuel) (flushPending n frame depth fuel) := by
  induction fuel with
  | zero => exact .refl _
  | succ fuel ih =>
    refine .after fun s => .ite (.refl _) (.bind (.bracket _ _ (.forM fun p _ => ?_)) fun _ => ih)
    exact typeUnused_follows h p.node

lemma withScope_follows (scope : Scope) {x y : Check α} (hx : Follows φ x y) :
    Follows φ (withScope m scope x) (withScope n scope y) := by
  refine .bracket _ _ (hx.bind fun a => .after fun f => ?_)
  rw [h.fuel]
  exact (flushPending_follows h _ _ _).before

lemma typeClosure_follows (c : Lambda) (ps : List Ty) (t : Ty) :
    Follows φ (typeClosure m c ps t) (typeClosure n c ps t) := by
  refine .after fun params => .after fun written => .after fun id => .after fun _ => ?_
  exact (withScope_follows h _ (h.block c.body _).before).before

lemma checkClosure_follows (c : Lambda) (t : Ty) : Follows φ (checkClosure m c t) (checkClosure n c t) := by
  refine .after fun u => ?_
  cases u with
  | fn gs ps r => exact .ite (h.closure c _ _) (.ite (.refl _) (h.closure c _ _))
  | _ => exact .ite (.refl _) (h.closure c _ _)

lemma checkVar_follows (d : Syntax.Let) : Follows φ (checkVar m d) (checkVar n d) := by
  refine .after fun declared => (h.expr d.value _).bind fun t => .after fun t => .ite (.refl _) ?_
  exact (settleAgainst_follows h _ _ _).before

lemma topVarType_follows (v : Variable) : Follows φ (topVarType m v) (topVarType n v) := by
  rw [topVarType, topVarType]
  split
  · refine .after fun s => .ite (.refl _) (.bracket _ _ (.bracket _ _ (checkVar_follows h _)))
  · exact .refl _

lemma varType_follows (v : Variable) : Follows φ (varType m v) (varType n v) := by
  rw [varType, varType]
  split
  · exact .after fun known => .ite (topVarType_follows h v) (.refl _)
  · exact .after fun known => .ite (topVarType_follows h v) (.refl _)

/-! ### Calls -/

lemma checkAll_follows (args : List Expr) : Follows φ (checkAll m args) (checkAll n args) :=
  .forM fun a _ => (h.expr a _).discard

lemma checkArgs_follows (maps : List Bindings) (args : List Expr) (params : List Ty) (inferred : Bindings) :
    Follows φ (checkArgs m maps args params inferred) (checkArgs n maps args params inferred) := by
  induction args generalizing params inferred with
  | nil => exact .refl _
  | cons a args ih =>
    cases params with
    | nil => exact (h.expr a _).bind fun t => (ih [] inferred).before
    | cons p params =>
      refine (h.expr a _).bind fun t => .after fun t => (settleAgainst_follows h _ _ _).bind fun t => ?_
      exact (ih params _).before

lemma applyFn_follows (info : Info) (f : Callee) (explicit : List TypeExpr) (args : List Expr)
    (receiver : List Bindings) (t : Ty) :
    Follows φ (applyFn m info f explicit args receiver t) (applyFn n info f explicit args receiver t) := by
  rw [applyFn, applyFn]
  refine .ite ?_ (.after fun _ => ?_) <;> exact .after fun b => (checkArgs_follows h _ _ _ _).before

lemma skipArgs_follows (args : List Expr) :
    Follows φ (do checkAll m args; return Ty.unknown) (do checkAll n args; return Ty.unknown) :=
  (checkAll_follows h args).before

lemma dispatch_follows (info : Info) (recv : Expr) (name : String) (typeArgs : List TypeExpr) (args : List Expr)
    (t : Ty) : Follows φ (dispatch m info recv name typeArgs args t) (dispatch n info recv name typeArgs args t) := by
  refine (h.expr recv _).bind fun t => .after fun t => ?_
  have hskip := skipArgs_follows h args
  refine .ite hskip (.after fun found => ?_)
  cases found with
  | none => exact hskip
  | some c =>
    refine .ite (.after fun _ => hskip) (.after fun sig => ?_)
    cases sig with
    | fn gs ps r => exact .after fun _ => (applyFn_follows h _ _ _ _ _ _).before
    | _ => exact hskip

/-! ### Expressions -/

lemma identType_follows (i : Syntax.Ident) (t : Ty) : Follows φ (identType m i t) (identType n i t) := by
  refine .after fun path => .after fun found => ?_
  cases found with
  | none => exact .refl _
  | some r =>
    obtain ⟨path, d, module⟩ := r
    cases d with
    | var v => exact (varType_follows h v).before
    | _ => exact .refl _

lemma checkIdent_follows (i : Syntax.Ident) (t : Ty) : Follows φ (checkIdent m i t) (checkIdent n i t) :=
  (identType_follows h i t).before

lemma calleeType_follows (callee : Expr) : Follows φ (calleeType m callee) (calleeType n callee) := by
  cases callee with
  | ident i => exact (identType_follows h i _).before
  | _ => exact (h.expr _ _).before

lemma callClosure_follows (info : Info) (callee : Expr) (id arity : Nat) (args : List Expr) (t : Ty) :
    Follows φ (callClosure m info callee id arity args t) (callClosure n info callee id arity args t) := by
  refine .bind (.mapM fun a => (h.expr a _).before) fun ts => .after fun s => ?_
  cases s.closures[id]? with
  | none => exact .refl _
  | some c => exact .ite (h.closure c _ _).before (.refl _)

lemma checkCall_follows (info : Info) (callee : Expr) (args : List Expr) (t : Ty) :
    Follows φ (checkCall m info callee args t) (checkCall n info callee args t) := by
  refine (calleeType_follows h callee).bind fun r => .after fun u => ?_
  have hskip := skipArgs_follows h args
  cases u with
  | fn gs ps r => exact applyFn_follows h _ _ _ _ _ _
  | closure id arity => exact callClosure_follows h _ _ _ _ _ _
  | _ => exact .ite hskip (.after fun _ => hskip)

lemma checkBool_follows (e : Expr) : Follows φ (checkBool m e) (checkBool n e) := (h.expr e _).before

lemma checkBinary_follows (info : Info) (op : String) (left right : Expr) (t : Ty) :
    Follows φ (checkBinary m info op left right t) (checkBinary n info op left right t) := by
  refine .ite ((checkBool_follows h left).bind fun _ => (checkBool_follows h right).before) ?_
  cases binaryMethod? op with
  | none => exact .refl _
  | some name => exact dispatch_follows h _ _ _ _ _ _

lemma checkUnary_follows (info : Info) (op : String) (operand : Expr) (t : Ty) :
    Follows φ (checkUnary m info op operand t) (checkUnary n info op operand t) := by
  rw [checkUnary, checkUnary]
  cases unaryMethod? op with
  | none => exact .refl _
  | some name => exact dispatch_follows h _ _ _ _ _ _

lemma checkField_follows (info : Info) (receiver : Expr) (name : String) :
    Follows φ (checkField m info receiver name) (checkField n info receiver name) := (h.expr receiver _).before

lemma checkCond_follows (info : Info) (test : Expr) (yes : Body) (no : Option Body) (t : Ty) :
    Follows φ (checkCond m info test yes no t) (checkCond n info test yes no t) := by
  refine (checkBool_follows h test).bind fun _ => (h.block yes t).bind fun a => ?_
  cases no with
  | none => exact .refl _
  | some no => exact (h.block no t).before

lemma checkElements_follows (t elem : Ty) (es : List Expr) :
    Follows φ (checkElements m t elem es) (checkElements n t elem es) := by
  induction es generalizing elem with
  | nil => exact .refl _
  | cons e es ih =>
    refine (h.expr e t).bind fun u => .after fun u => .ite (ih u) (.after fun found => ?_)
    cases found with
    | none => exact .after fun _ => ih elem
    | some v => exact ih v

lemma checkList_follows (elements : List Expr) (t : Ty) :
    Follows φ (checkList m elements t) (checkList n elements t) :=
  (checkElements_follows h _ _ elements).before

lemma checkClauses_follows (scrutinee t result : Ty) (cs : List Arm) :
    Follows φ (checkClauses m scrutinee t result cs) (checkClauses n scrutinee t result cs) := by
  induction cs generalizing result with
  | nil => exact .refl _
  | cons c cs ih =>
    refine .bind (withScope_follows h _ (.after fun _ => ?_)) fun result => ih result
    cases c.guard with
    | none => exact (h.block c.body t).before
    | some g => exact (checkBool_follows h g).bind fun _ => (h.block c.body t).before

lemma checkSwitch_follows (info : Info) (scrutinee : Expr) (clauses : List Arm) (t : Ty) :
    Follows φ (checkSwitch m info scrutinee clauses t) (checkSwitch n info scrutinee clauses t) :=
  (h.expr scrutinee _).bind fun _ => .after fun _ => (checkClauses_follows h _ _ _ clauses).before

/-! ### Statements -/

lemma checkFnBody_follows (fn : Syntax.Fn) (sig : Ty) : Follows φ (checkFnBody m fn sig) (checkFnBody n fn sig) := by
  refine .after fun _ => ?_
  cases fn.body with
  | none => exact .refl _
  | some body =>
    cases sig with
    | fn gs ps result => exact .after fun _ => withScope_follows h _ (h.block body result).before
    | _ => exact .refl _

lemma checkReturn_follows (info : Info) (value : Option Expr) :
    Follows φ (checkReturn m info value) (checkReturn n info value) := by
  refine .after fun b => ?_
  cases b with
  | none =>
    cases value with
    | none => exact .refl _
    | some e => exact .after fun _ => (h.expr e _).discard
  | some b =>
    cases value with
    | none => exact .refl _
    | some e => exact (h.expr e _).before

lemma checkStmt_follows (stmt : Stmt) : Follows φ (checkStmt m stmt) (checkStmt n stmt) := by
  cases stmt with
  | var d => exact (checkVar_follows h d).discard.before
  | fn d => exact .after fun sig => .after fun _ => checkFnBody_follows h d sig
  | ret info value => exact checkReturn_follows h info value
  | expr _ e => exact (h.expr e _).discard
  | _ => exact .refl _

lemma checkStmts_follows (t : Ty) (stmts : List Stmt) : Follows φ (checkStmts m t stmts) (checkStmts n t stmts) := by
  induction stmts with
  | nil => exact .refl _
  | cons stmt stmts ih =>
    rw [checkStmts.eq_def, checkStmts.eq_def]
    split
    · exact .refl _
    · exact h.expr _ t
    · next heq =>
      obtain ⟨rfl, rfl⟩ := List.cons.inj heq
      exact (checkStmt_follows h stmt).bind fun _ => ih

lemma checkBlock_follows (b : Body) (t : Ty) : Follows φ (checkBlock m b t) (checkBlock n b t) :=
  .before (withScope_follows h _ (checkStmts_follows h t b.statements).before)

lemma checkExpr_follows (e : Expr) (t : Ty) : Follows φ (checkExpr m e t) (checkExpr n e t) := by
  cases e with
  | ident i => exact (checkIdent_follows h i t).before
  | literal l => exact .refl _
  | call info callee args => exact (checkCall_follows h info callee args t).before
  | method info receiver name typeArgs args => exact (dispatch_follows h info receiver name typeArgs args t).before
  | field info receiver name => exact (checkField_follows h info receiver name).before
  | binary info op left right => exact (checkBinary_follows h info op left right t).before
  | unary info op operand => exact (checkUnary_follows h info op operand t).before
  | closure c => exact (checkClosure_follows h c t).before
  | cond info test yes no => exact (checkCond_follows h info test yes no t).before
  | switch info scrutinee clauses => exact (checkSwitch_follows h info scrutinee clauses t).before
  | list _ elements => exact (checkList_follows h elements t).before
  | block b => exact (h.block b t).before

/-! ### Modules -/

lemma checkMethods_follows (o : Owner) : Follows φ (checkMethods m o) (checkMethods n o) := by
  refine .after fun scope => withScope_follows h scope (.before (.forIn fun fn => ?_))
  cases o.method? fn.name with
  | none => exact .refl _
  | some k => exact .after fun sig => (checkFnBody_follows h fn sig).before

lemma checkTopLevel_follows (module : Nat) (stmt : Stmt) :
    Follows φ (checkTopLevel m module stmt) (checkTopLevel n module stmt) := by
  refine .after fun e => ?_
  split
  · exact (varType_follows h _).discard
  · exact (checkVar_follows h _).discard
  · exact .after fun sig => checkFnBody_follows h _ sig
  · exact .after fun sig => checkFnBody_follows h _ sig
  · exact checkMethods_follows h _
  · refine .after fun s => ?_
    split
    · exact (checkMethods_follows h _).before
    · exact .refl _
  · exact .refl _
  · exact .refl _
  · exact checkStmt_follows h _
  · exact checkStmt_follows h _
  · exact .refl _

lemma typeTopLevelClosures_follows (fuel : Nat) :
    Follows φ (typeTopLevelClosures m fuel) (typeTopLevelClosures n fuel) := by
  induction fuel with
  | zero => exact .refl _
  | succ fuel ih =>
    refine .after fun s => ?_
    cases s.pending with
    | nil => exact .refl _
    | cons p rest => exact .bind (.bracket _ _ (.bracket _ _ (typeUnused_follows h p.node))) fun _ => ih

omit h

lemma checkModulesBy_follows {checks checks' : Nat → Nested} (h : ∀ depth, (checks depth).Follows φ (checks' depth)) :
    Follows φ (checkModulesBy checks) (checkModulesBy checks') := by
  have hmodule (id : Nat) : Follows φ (checkModule checks id) (checkModule checks' id) := by
    refine .after fun e => ?_
    cases e.phase with
    | glanced =>
      refine .after fun s => .after fun _ => .before (.bracket _ _ (.forM fun stmt _ => ?_))
      exact checkTopLevel_follows (h _) id stmt
    | _ => exact .refl _
  refine .after fun s => .after fun _ => .after fun _ => .bind (.forM fun id _ => hmodule id) fun _ => ?_
  refine .after fun t => ?_
  exact typeTopLevelClosures_follows (h _) _

/-- Stops with the failure unless a condition holds. -/
def watched (φ : Failure) (right : State → Bool) (x : Check α) : Check α := do
  if right (← get) then x else throw φ

lemma run_watched {right : State → Bool} (x : Check α) {s : State} (h : right s = true) :
    (watched φ right x).run s = x.run s := by
  rw [watched, run_get_bind, if_pos h]

lemma run_watched_stops {right : State → Bool} (x : Check α) {s : State} (h : right s = false) :
    (watched φ right x).run s = (.error φ, s) := by
  rw [watched, run_get_bind, h]
  rfl

lemma watched_follows (right : State → Bool) {x y : Check α} (hx : Follows φ x y) : Follows φ (watched φ right x) y := by
  intro s
  cases hright : right s with
  | true =>
    rw [run_watched x hright]
    exact hx s
  | false => exact .inr ⟨s, run_watched_stops x hright⟩

/-- The checks down to a depth that stop where a closure is about to be typed in a state that is not right for it. -/
def watching (φ : Failure) (right : Lambda → State → Bool) : (depth : Nat) → Nested
  | 0 => levels 0
  | n + 1 =>
    { fuel := n + 1
      expr := checkExpr (watching φ right n)
      block := checkBlock (watching φ right n)
      closure c ps t := watched φ (right c) (typeClosure (watching φ right n) c ps t) }

lemma watching_follows (right : Lambda → State → Bool) (depth : Nat) :
    (watching φ right depth).Follows φ (levels depth) := by
  induction depth with
  | zero => exact ⟨rfl, fun _ _ => .refl _, fun _ _ => .refl _, fun _ _ _ => .refl _⟩
  | succ n ih =>
    rw [watching, levels]
    exact ⟨rfl, checkExpr_follows ih, checkBlock_follows ih, fun c ps t =>
      watched_follows (right c) (typeClosure_follows ih c ps t)⟩

lemma watching_stricter {right right' : Lambda → State → Bool} (h : ∀ c s, right c s = true → right' c s = true)
    (depth : Nat) : (watching φ right depth).Follows φ (watching φ right' depth) := by
  induction depth with
  | zero => exact ⟨rfl, fun _ _ => .refl _, fun _ _ => .refl _, fun _ _ _ => .refl _⟩
  | succ n ih =>
    rw [watching, watching]
    refine ⟨rfl, checkExpr_follows ih, checkBlock_follows ih, fun c ps t s => ?_⟩
    cases hright : right c s with
    | true =>
      rw [run_watched _ hright, run_watched _ (h c s hright)]
      exact typeClosure_follows ih c ps t s
    | false => exact .inr ⟨s, run_watched_stops _ hright⟩

end TraitCheck.Check
