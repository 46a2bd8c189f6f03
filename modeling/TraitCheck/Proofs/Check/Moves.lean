import TraitCheck.Check.Program
import TraitCheck.Proofs.Check.Located

/-! Once the relations are built, checks only make updates. Before, relations are added as well. -/

namespace TraitCheck.Check

open Syntax (Expr Stmt Body Lambda Arm TypeExpr Info Pattern FieldPattern)

variable {α : Type} {b : Bool}

/-! ### Methods and upcasts -/

lemma chainCandidates_moves (recv : Ty) (name : String) (found : List Candidate) (cs : List Chain) :
    Moves true (chainCandidates recv name found cs) := by
  induction cs generalizing found with
  | nil => exact .pure _
  | cons c cs ih =>
    refine .get fun s => ?_
    split
    · exact ih found
    · split
      · exact ih found
      · exact (instantiate_moves recv c).bind fun _ => .ite (ih _) (ih found)

mutual

lemma candidates_moves (name : String) (recv : Ty) : Moves true (candidates name recv) := by
  cases recv with
  | named p args =>
    rw [candidates]
    exact .get fun s => (chainsOf_moves p).bind fun cs => chainCandidates_moves _ _ _ _
  | generic g =>
    obtain ⟨_, _, bounds⟩ := g
    rw [candidates]
    exact candidatesOfAll_moves name [] bounds
  | _ => exact .pure _

lemma candidatesOfAll_moves (name : String) (found : List Candidate) (bounds : List Ty) :
    Moves true (candidatesOfAll name found bounds) := by
  cases bounds with
  | nil => exact .pure _
  | cons b bs =>
    rw [candidatesOfAll]
    exact (candidates_moves name b).bind fun cs => candidatesOfAll_moves name _ bs

end

lemma resolveMethod_moves (at? : Option Info) (recv : Ty) (name : String) : Moves true (resolveMethod at? recv name) := by
  refine (candidates_moves name recv).bind fun cs => ?_
  split
  · exact (report_moves _ _).bind fun _ => .pure _
  · exact .pure _
  · exact (report_moves _ _).bind fun _ => .pure _

lemma run_recordUpcast_of_mem {u : UpcastSite} {s : State} (hold : u.key ∈ s.upcasts) :
    (recordUpcast u.node u.source u.goal u.evidence).run s = (.ok (), s) := by
  rw [recordUpcast, run_get_bind]
  exact congrArg (fun x : Check Unit => x.run s) (if_pos hold)

lemma run_recordUpcast_of_notMem {u : UpcastSite} {s : State} (hnew : u.key ∉ s.upcasts) :
    (recordUpcast u.node u.source u.goal u.evidence).run s = (do
      let id ← currentModule
      modifyEntry id fun m =>
        addRelImports u.evidence.relations { m with upcasts := m.upcasts ++ [u] }).run (s.noted u) := by
  rw [recordUpcast, run_get_bind]
  exact congrArg (fun x : Check Unit => x.run s) (if_neg hnew)

lemma run_recordUpcast (u : UpcastSite) {s : State} {f : Frame} (htop : s.frames.peek? = some f) :
    (recordUpcast u.node u.source u.goal u.evidence).run s =
      (.ok (), if u.key ∈ s.upcasts then s else s.record f.module u) := by
  by_cases hold : u.key ∈ s.upcasts
  · rw [if_pos hold, run_recordUpcast_of_mem hold]
  · rw [if_neg hold, run_recordUpcast_of_notMem hold]
    exact run_bind_ok (run_currentModule (s := s.noted u) htop) _

lemma recordUpcast_moves (node : Expr) (source goal : Ty) (e : Evidence) :
    Moves true (recordUpcast node source goal e) := by
  intro s hs
  let u : UpcastSite := ⟨node, source, goal, e⟩
  by_cases hold : u.key ∈ s.upcasts
  · exact .of_run (run_recordUpcast_of_mem hold) (.refl s)
  have hnoted : s.Onto (s.noted u) := State.Beside.onto ⟨rfl, rfl, rfl, rfl, rfl, rfl, rfl⟩ rfl
  cases htop : s.frames.peek? with
  | none =>
    -- where no module is being worked on, the site is noted and then lost
    have hnone := run_currentModule_none (s := s.noted u) htop
    have hrun := (run_recordUpcast_of_notMem hold).trans (run_bind_error hnone _)
    refine .of_run hrun ⟨hnoted, rfl, rfl, fun _ hwithin => ?_⟩
    obtain ⟨f, hf, -⟩ := hwithin rfl
    cases htop.symm.trans hf
  | some f =>
    have hentry := State.Update.entry (s.noted u) f.module
      (fun m => addRelImports u.evidence.relations { m with upcasts := m.upcasts ++ [u] }) fun _ => rfl
    have hrun := run_recordUpcast u htop
    rw [if_neg hold] at hrun
    exact .of_run hrun ⟨hnoted.trans (hentry.onto rfl), State.orderly_record htop u hold⟩

mutual

lemma upcastTo_moves (node : Expr) (source goal : Ty) : Moves true (upcastTo node source goal) := by
  have hother : Moves true (do
      if source.absorbs then return
      match ← evidenceFor source goal with
      | some e => recordUpcast node source goal e
      | none => return) := by
    refine .ite (.pure _) ((evidenceFor_moves source goal).bind fun e => ?_)
    cases e with
    | none => exact .pure _
    | some e => exact recordUpcast_moves node source goal e
  cases goal with
  | generic g =>
    obtain ⟨_, _, bounds⟩ := g
    rw [upcastTo]
    exact upcastToAll_moves node source bounds
  | _ => exact hother

lemma upcastToAll_moves (node : Expr) (source : Ty) (goals : List Ty) : Moves true (upcastToAll node source goals) := by
  cases goals with
  | nil => exact .pure _
  | cons g gs =>
    rw [upcastToAll]
    exact (upcastTo_moves node source g).bind fun _ => upcastToAll_moves node source gs

end

lemma expectAssignable_moves (node : Expr) (got want : Ty) : Moves true (expectAssignable node got want) :=
  (isAssignable_moves got want).bind fun _ => .ite (upcastTo_moves node got want) (report_moves _ _)

/-! ### Closures -/

structure Nested.Moves (nested : Nested) : Prop where
  expr : ∀ e t, Check.Moves true (nested.expr e t)
  block : ∀ b t, Check.Moves true (nested.block b t)
  closure : ∀ c ps t, Check.Moves true (nested.closure c ps t)

lemma settle_moves (t : Ty) : Moves b (settle t) := by
  cases t with
  | closure id arity => exact (slot_moves id).bind fun _ => .pure _
  | _ => exact .pure _

section Nested

variable {nested : Nested} (h : nested.Moves)
include h

lemma settleAgainst_moves (node : Expr) (t target : Ty) : Moves true (settleAgainst nested node t target) := by
  cases t with
  | closure id arity =>
    refine (settle_moves target).bind fun u => .get fun s => ?_
    split
    · refine (h.closure _ _ _).bind fun typed => .ite (.pure _) ((setSlot_moves _ _).bind fun _ => .pure _)
    · exact .pure _
  | _ => exact .pure _

lemma typeUnused_moves (c : Lambda) : Moves true (typeUnused nested c) :=
  (slot_moves _).bind fun _ => .ite (.pure _) (h.closure _ _ _).discard

lemma flushPending_moves (frame depth fuel : Nat) : Moves true (flushPending nested frame depth fuel) := by
  induction fuel with
  | zero => exact .throw _
  | succ fuel ih =>
    refine .get fun s => .ite (.pure _) (.bind (.bracket (fun s => .refl s) (fun t => ?_) ?_) fun _ => ih)
    · have hsublist : ((t.pending.take s.pending.length).filter (!·.isDue frame depth) ++
          t.pending.drop s.pending.length).Sublist t.pending := by
        refine (List.filter_sublist.append (List.Sublist.refl _)).trans ?_
        rw [List.take_append_drop]
      exact ⟨(State.Update.settle hsublist).onto rfl, State.orderly_settle hsublist⟩
    · exact .forM fun p => typeUnused_moves h p.node

lemma withScope_moves {scope : Scope} (hscope : scope.Fresh) {x : Check α} (hx : Moves true x) :
    Moves true (withScope nested scope x) :=
  .inScope hscope (hx.bind fun _ => frame_moves.bind fun _ => (flushPending_moves h _ _ _).bind fun _ => .pure _)

omit h in
lemma checkBodyReturns_moves (name : String) (body : Body) (t result : Ty) :
    Moves true (checkBodyReturns name body t result) := by
  refine .ite (.pure _) ?_
  cases tail? body with
  | none => exact report_moves _ _
  | some tail => exact expectAssignable_moves tail t result

omit h in
lemma combineReturns_moves (c : Lambda) (t : Ty) (rs : List Ty) : Moves true (combineReturns c t rs) := by
  induction rs generalizing t with
  | nil => exact .pure _
  | cons r rs ih =>
    refine (combine_moves t r).bind fun u => ?_
    cases u with
    | none => exact (report_moves _ _).bind fun _ => .pure _
    | some u => exact ih u

omit h in
lemma closureParams_moves (ps : List Syntax.Param) (given : List Ty) : Moves b (closureParams ps given) := by
  induction ps generalizing given with
  | nil => exact .pure _
  | cons p ps ih =>
    have hrest (t : Ty) : Moves b (do
        setSlot p.info.id t
        return t :: (← closureParams ps given.tail)) :=
      (setSlot_moves _ _).bind fun _ => (ih _).bind fun _ => .pure _
    rw [closureParams]
    exact .ite ((paramType_moves p).bind hrest) (hrest _)

lemma typeClosure_moves (c : Lambda) (ps : List Ty) (expected : Ty) : Moves true (typeClosure nested c ps expected) := by
  refine (closureParams_moves _ _).bind fun params => (typeOf?_moves _).bind fun written => newResult_moves.bind fun id => ?_
  refine (setSlot_moves _ _).bind fun _ => .bind (withScope_moves h ?_ ?_) fun _ => completed_moves _
  · exact .same (Scope.Fresh.empty.foldl Syntax.Param.name (fun _ => Definition.in_of_kind (by simp [Definition.kind])) _) rfl
  · refine (h.block _ _).bind fun t => .ite ?_ ?_
    · exact body?_moves.bind fun _ => (Moves.mapM completed_moves).bind fun _ => (combineReturns_moves c t _).bind fun u =>
        setResult_moves id u
    · exact (checkBodyReturns_moves _ _ _ _).bind fun _ => setResult_moves id _

lemma checkClosure_moves (c : Lambda) (expected : Ty) : Moves true (checkClosure nested c expected) := by
  have hwait : Moves true (do
      let f ← frame
      modify fun s => { s with
        pending := s.pending ++ [⟨c, f⟩]
        closures := s.closures.insert c.info.id c }
      return Ty.closure c.info.id c.params.length) := by
    intro s hs
    refine (frame_moves s hs).bind fun f t hrun => ?_
    obtain ⟨rfl, htop⟩ := of_run_frame hrun
    have hawait : t.Goes true { t with pending := t.pending ++ [⟨c, f⟩] } :=
      ⟨(State.Update.await c htop).onto rfl, State.orderly_await c htop⟩
    exact hawait.trans (State.Aside.goes ⟨⟨rfl, rfl, rfl, rfl, rfl, rfl, rfl⟩, rfl, rfl, rfl⟩)
  refine (settle_moves expected).bind fun u => ?_
  cases u with
  | fn gs ps r => exact .ite (h.closure _ _ _) (.ite hwait (h.closure _ _ _))
  | _ => exact .ite hwait (h.closure _ _ _)

lemma checkVar_moves (d : Syntax.Let) : Moves true (checkVar nested d) := by
  refine (typeOf?_moves _).bind fun declared => (h.expr _ _).bind fun t => (settle_moves t).bind fun t => .ite ?_ ?_
  · exact (setSlot_moves _ _).bind fun _ => .pure _
  · refine (settleAgainst_moves h _ _ _).bind fun t => (expectAssignable_moves _ _ _).bind fun _ => ?_
    exact (setSlot_moves _ _).bind fun _ => .pure _

lemma topVarType_movesAt {v : Variable} {s : State} (hs : s.built = true)
    (hv : s.Anchored → (Definition.var v).In (· < s.modules.length)) : MovesAt true (topVarType nested v) s := by
  unfold topVarType
  split
  · next m d hm _ =>
    refine MovesAt.bind (.refl s) fun s' t hrun => ?_
    cases hrun
    split
    · exact (report_moves _ _).bind (fun _ => .pure _) s fun _ => hs
    · refine .bracket (State.Aside.goes ⟨⟨rfl, rfl, rfl, rfl, rfl, rfl, rfl⟩, rfl, rfl, rfl⟩)
        (fun t => State.Aside.goes ⟨⟨rfl, rfl, rfl, rfl, rfl, rfl, rfl⟩, rfl, rfl, rfl⟩) ?_
      exact .inModule m (checkVar_moves h d) (fun _ => hs) fun _ hanchored => hv { hanchored with } v m rfl hm
  · exact .refl s

lemma varType_movesAt {v : Variable} {s : State} (hs : s.built = true)
    (hv : s.Anchored → (Definition.var v).In (· < s.modules.length)) : MovesAt true (varType nested v) s := by
  have hrest (known : Ty) : MovesAt true (if known.isAbsent then topVarType nested v else settle known) s := by
    split
    · exact topVarType_movesAt h hs hv
    · exact settle_moves known s fun _ => hs
  unfold varType
  cases v.type with
  | slot id => exact hrest _
  | known t => exact hrest _

/-! ### Calls -/

lemma checkAll_moves (args : List Expr) : Moves true (checkAll nested args) := .forM fun a => (h.expr a _).discard

lemma checkArgs_moves (maps : List Bindings) (args : List Expr) (params : List Ty) (inferred : Bindings) :
    Moves true (checkArgs nested maps args params inferred) := by
  induction args generalizing params inferred with
  | nil => exact .pure _
  | cons a args ih =>
    cases params with
    | nil => exact (h.expr a _).bind fun t => (ih _ _).bind fun _ => .pure _
    | cons p params =>
      refine (h.expr a _).bind fun t => (settle_moves t).bind fun t => (settleAgainst_moves h a t _).bind fun t => ?_
      exact (ih _ _).bind fun _ => .pure _

omit h in
lemma fitArguments_moves (maps : List Bindings) (args : List Expr) (ts params : List Ty) :
    Moves true (fitArguments maps args ts params) := by
  induction args generalizing ts params with
  | nil => exact .pure _
  | cons a args ih =>
    cases ts with
    | nil => exact .pure _
    | cons t ts =>
      cases params with
      | nil => exact .pure _
      | cons p params =>
        refine (isAssignable_moves t _).bind fun fits => .ite ?_ ?_
        · exact (upcastTo_moves a t _).bind fun _ => ih ts params
        · exact (report_moves _ _).bind fun _ => ih ts params

omit h in
lemma checkBounds_moves (info : Info) (maps : List Bindings) (generics : List (Generic Ty)) :
    Moves true (checkBounds info maps generics) := by
  refine .forM fun g => ?_
  cases Bindings.lookupIn maps g.name with
  | none => exact .pure _
  | some value =>
    refine .ite (.pure _) (.forM fun bound => (isAssignable_moves value _).bind fun fits => ?_)
    exact .ite (.pure _) (report_moves _ _)

lemma applyFn_moves (info : Info) (f : Callee) (explicit : List TypeExpr) (args : List Expr) (receiver : List Bindings)
    (expected : Ty) : Moves true (applyFn nested info f explicit args receiver expected) := by
  have hrest : Moves true (do
      let maps := (← explicitGenerics info f.generics explicit) :: receiver
      let r ← checkArgs nested maps args f.params .empty
      let fromResult := if expected.absorbs then [] else [Ty.unify expected f.result.resultOf]
      let maps := maps ++ [r.2] ++ fromResult
      fitArguments maps args r.1 f.params
      checkBounds info maps f.generics
      if f.isConstructor then return f.result.resultOf.substituteOrHole maps
      else resolveGenerics (some info) maps f.result.resultOf) := by
    refine (explicitGenerics_moves _ _ _).bind fun m => (checkArgs_moves h _ _ _ _).bind fun r => ?_
    refine (fitArguments_moves _ _ _ _).bind fun _ => (checkBounds_moves _ _ _).bind fun _ => ?_
    exact .ite (.pure _) (resolveGenerics_moves _ _ _)
  exact .ite hrest ((report_moves _ _).bind fun _ => hrest)

omit h in
lemma viewOf_moves (name : String) (rel : Relation) (recv : Ty) (bounds : List Ty) :
    Moves true (viewOf name rel recv bounds) := by
  induction bounds with
  | nil => exact .pure _
  | cons bound bounds ih => exact (candidates_moves name bound).bind fun _ => .ite (.pure _) ih

omit h in
lemma chainBindings_moves (view : Ty) (c : Candidate) : Moves true (chainBindings view c) := by
  refine .ite (.pure _) (.ite (.pure _) ((instantiate_moves _ _).bind fun r => ?_))
  cases r <;> exact .pure _

omit h in
lemma traitBindings_moves (m : Bindings) (d : Option TraitDecl) (seenAs : Option Ty) :
    Moves b (traitBindings m d seenAs) := by
  unfold traitBindings
  split
  · exact (traitSelf_moves _).bind fun _ => .pure _
  · exact .pure _

omit h in
lemma receiverBindings_moves (recv : Ty) (c : Candidate) (name : String) : Moves true (receiverBindings recv c name) := by
  have hrest (view : Ty) : Moves true (do
      let r ← chainBindings view c
      let b ← traitBindings r.1 c.provider.trait? r.2
      return (b.insert selfName recv, r.2)) :=
    (chainBindings_moves view c).bind fun r => (traitBindings_moves _ _ _).bind fun _ => .pure _
  unfold receiverBindings
  cases recv with
  | generic g => exact (viewOf_moves _ _ _ _).bind hrest
  | _ => exact hrest _

lemma dispatch_moves (info : Info) (recv : Expr) (name : String) (typeArgs : List TypeExpr) (args : List Expr)
    (expected : Ty) : Moves true (dispatch nested info recv name typeArgs args expected) := by
  have hskip : Moves true (do
      checkAll nested args
      return Ty.unknown) := (checkAll_moves h args).bind fun _ => .pure _
  refine (h.expr _ _).bind fun t => (settle_moves t).bind fun t => .ite hskip ((resolveMethod_moves _ _ _).bind fun c => ?_)
  cases c with
  | none => exact hskip
  | some c =>
    refine .ite ((report_moves _ _).bind fun _ => hskip) ((methodSignature_moves _).bind fun sig => ?_)
    cases sig with
    | fn generics params result =>
      refine (receiverBindings_moves _ _ _).bind fun r => (applyFn_moves h _ _ _ _ _ _).bind fun t => ?_
      obtain ⟨m, seenAs⟩ := r
      cases seenAs with
      | none => exact .pure _
      | some trait => exact .ite (.pure _) ((upcastTo_moves _ _ _).bind fun _ => .pure _)
    | _ => exact hskip

end Nested

/-! ### Patterns -/

lemma inner_var {name : String} {node : Option Syntax.Let} {type : VarType} :
    (Definition.var ⟨name, node, type, none⟩).Inner := by
  rintro v m hv hm
  cases hv
  cases hm

lemma variantSelf_moves (info : Info) (d : TypeDecl) (expected : Ty) : Moves b (variantSelf info d expected) := by
  refine (typeGenerics_moves d).bind fun gs => ?_
  cases expected with
  | named p args => exact .ite ((typeSelf_moves d).bind fun _ => .pure _) ((report_moves _ _).bind fun _ => .pure _)
  | _ => exact .ite (.pure _) ((report_moves _ _).bind fun _ => .pure _)

lemma patternField_moves (d : TypeDecl) (v : Syntax.Variant) (m : Bindings) (info : Info) (name : String) :
    Moves b (patternField d v m info name) := by
  unfold patternField
  cases v.field? name with
  | none => exact (report_moves _ _).bind fun _ => .pure _
  | some f =>
    have hrest : Moves b (do return (← fieldType d f).substituteOrHole [m]) := (fieldType_moves d f).bind fun _ => .pure _
    exact currentModule_moves.bind fun id => .ite hrest ((report_moves _ _).bind fun _ => hrest)

mutual

lemma checkPattern_moves (p : Pattern) (expected : Ty) : Moves true (checkPattern p expected) := by
  cases p with
  | bind info name =>
    rw [checkPattern]
    exact (setSlot_moves _ _).bind fun _ => define_moves _ inner_var
  | hole info =>
    rw [checkPattern]
    exact setSlot_moves _ _
  | literal info l =>
    rw [checkPattern]
    refine (setSlot_moves _ _).bind fun _ => (setSlot_moves _ _).bind fun _ => (isAssignable_moves _ _).bind fun _ => ?_
    exact .ite (.pure _) (report_moves _ _)
  | variant info ident fields =>
    rw [checkPattern]
    refine (pathOf_moves _).bind fun p => (resolveOrReport_moves _ _ _ p).bind fun r => ?_
    cases r with
    | none => exact (setSlot_moves _ _).bind fun _ => checkFields_moves (fun _ _ => .pure _) fields
    | some r =>
      obtain ⟨_, d, _⟩ := r
      cases d with
      | variant d v =>
        refine .bind (.note fun _ => ⟨⟨rfl, rfl, rfl, rfl, rfl, rfl, rfl⟩, rfl, rfl, rfl⟩) fun _ => ?_
        refine (variantSelf_moves _ _ _).bind fun r => ?_
        refine (setSlot_moves _ _).bind fun _ => (setSlot_moves _ _).bind fun _ => ?_
        exact checkFields_moves (patternField_moves d v r.2) fields
      | _ => exact .throw _

lemma checkFields_moves {fieldType : Info → String → Check Ty} (h : ∀ info name, Moves true (fieldType info name))
    (fields : List (FieldPattern Pattern)) : Moves true (checkFields fieldType fields) := by
  match fields with
  | [] =>
    rw [checkFields]
    exact .pure _
  | ⟨info, name, some p⟩ :: rest =>
    rw [checkFields]
    exact (h info name).bind fun t => (checkPattern_moves p t).bind fun _ => checkFields_moves h rest
  | ⟨info, name, none⟩ :: rest =>
    rw [checkFields]
    exact (h info name).bind fun t => (define_moves _ inner_var).bind fun _ => checkFields_moves h rest

end

lemma checkCoverage_moves (info : Info) (clauses : List Arm) : Moves b (checkCoverage info clauses) := by
  refine .get fun s => .bind (.forIn fun c => ?_) fun _ => .ite (.pure _) (report_moves _ _)
  exact .ite (.pure _) ((report_moves _ _).bind fun _ => .pure _)

/-! ### Expressions -/

lemma variantType_moves (d : TypeDecl) (v : Syntax.Variant) (expected : Ty) : Moves b (variantType d v expected) := by
  refine (typeGenerics_moves d).bind fun gs => .ite ?_ ((typeSelf_moves d).bind fun self => ?_)
  · cases expected with
    | named p args => exact .ite (.pure _) (.pure _)
    | _ => exact .pure _
  · exact (Moves.mapM (fieldType_moves d)).bind fun _ => .pure _

lemma staticMethodType_moves (m : Method) : Moves b (staticMethodType m) := by
  refine (methodSignature_moves m).bind fun sig => ?_
  cases sig with
  | fn generics params result =>
    dsimp only
    split
    · exact (traitGenerics_moves _).bind fun _ => (traitSelfGeneric_moves _).bind fun _ => .pure _
    · exact .get fun _ => .pure _
  | _ => exact .pure _

lemma FieldView.add_moves (d : TypeDecl) (m : Bindings) (name : String) (v : FieldView) (variant : Syntax.Variant) :
    Moves true (FieldView.add d m name v variant) := by
  unfold FieldView.add
  cases variant.field? name with
  | none => exact .pure _
  | some f =>
    refine currentModule_moves.bind fun id => (fieldType_moves d f).bind fun t => .ite (.pure _) ?_
    refine (combine_moves _ _).bind fun u => ?_
    cases u <;> exact .pure _

lemma typeDecl?_moves (t : Ty) : Moves b (typeDecl? t) := by
  cases t with
  | named p args =>
    refine (qualified_moves _ p).bind fun r => ?_
    split
    · exact .pure _
    · exact .throw _
    · exact .pure _
  | _ => exact .pure _

section Nested

variable {nested : Nested} (h : nested.Moves)
include h

lemma identType_moves (i : Syntax.Ident) (expected : Ty) : Moves true (identType nested i expected) := by
  refine (pathOf_moves _).bind fun p s hs => (resolveOrReport_moves _ _ _ p s hs).bind fun r t hrun => ?_
  have ht : true = true → t.built = true := fun hb =>
    ((resolveOrReport_moves _ _ _ p s hs).goes hrun).onto.updates.built.trans (hs hb)
  cases r with
  | none => exact .refl t
  | some r =>
    have hlocated := resolveOrReport_locates _ _ p s r t hrun
    obtain ⟨_, d, _⟩ := r
    cases d with
    | var v => exact (varType_movesAt h (ht rfl) hlocated).bind fun _ u _ => .refl u
    | param p => exact (slot_moves _).bind (fun t => (settle_moves t).bind fun _ => .pure _) t ht
    | fn f => exact (fnSignature_moves f).bind (fun _ => .pure _) t ht
    | variant d v => exact (variantType_moves d v _).bind (fun _ => .pure _) t ht
    | method m => exact (staticMethodType_moves m).bind (fun _ => .pure _) t ht
    | _ => exact .refl t

lemma checkIdent_moves (i : Syntax.Ident) (expected : Ty) : Moves true (checkIdent nested i expected) := by
  refine (identType_moves h i expected).bind fun r => .ite (.pure _) ?_
  split
  · exact (explicitGenerics_moves _ _ _).bind fun _ => .pure _
  · exact (checkArity_moves _ _ _).discard.bind fun _ => .pure _

lemma calleeType_moves (callee : Expr) : Moves true (calleeType nested callee) := by
  cases callee with
  | ident i => exact (identType_moves h i _).bind fun _ => (setSlot_moves _ _).bind fun _ => .pure _
  | _ => exact (h.expr _ _).bind fun _ => .pure _

lemma callClosure_moves (info : Info) (callee : Expr) (id arity : Nat) (args : List Expr) (expected : Ty) :
    Moves true (callClosure nested info callee id arity args expected) := by
  refine (Moves.mapM fun a => (h.expr a _).bind fun t => settle_moves t).bind fun ts => .get fun s => ?_
  cases s.closures[id]? with
  | none => exact .pure _
  | some c =>
    refine .ite ((h.closure _ _ _).bind fun t => (setSlot_moves _ _).bind fun _ => ?_) ((report_moves _ _).bind fun _ => .pure _)
    split <;> exact .pure _

lemma checkCall_moves (info : Info) (callee : Expr) (args : List Expr) (expected : Ty) :
    Moves true (checkCall nested info callee args expected) := by
  refine (calleeType_moves h callee).bind fun r => (settle_moves _).bind fun t => ?_
  have hother (t : Ty) : Moves true (do
      unless t.absorbs do report (some callee.info) (.notCallable t)
      checkAll nested args
      return Ty.unknown) := by
    have hall := (checkAll_moves h args).bind fun _ => Moves.pure Ty.unknown
    exact .ite hall ((report_moves _ _).bind fun _ => hall)
  cases t with
  | fn generics params result => exact applyFn_moves h _ _ _ _ _ _
  | closure id arity => exact callClosure_moves h _ _ _ _ _ _
  | _ => exact hother _

lemma checkBool_moves (e : Expr) : Moves true (checkBool nested e) :=
  (h.expr e _).bind fun t => expectAssignable_moves e t _

lemma checkBinary_moves (info : Info) (op : String) (left right : Expr) (expected : Ty) :
    Moves true (checkBinary nested info op left right expected) := by
  refine .ite ((checkBool_moves h left).bind fun _ => (checkBool_moves h right).bind fun _ => .pure _) ?_
  cases binaryMethod? op with
  | none => exact .throw _
  | some name => exact dispatch_moves h _ _ _ _ _ _

lemma checkUnary_moves (info : Info) (op : String) (operand : Expr) (expected : Ty) :
    Moves true (checkUnary nested info op operand expected) := by
  unfold checkUnary
  cases unaryMethod? op with
  | none => exact .throw _
  | some name => exact dispatch_moves h _ _ _ _ _ _

lemma checkField_moves (info : Info) (receiver : Expr) (name : String) : Moves true (checkField nested info receiver name) := by
  refine (h.expr _ _).bind fun t => (settle_moves t).bind fun t => .ite (.pure _) ((typeDecl?_moves t).bind fun r => ?_)
  have hmissing : Moves true (do
      report (some info) (.notFound "field" (t.render ++ "." ++ name))
      return Ty.unknown) := (report_moves _ _).bind fun _ => .pure _
  match r with
  | none => exact hmissing
  | some (d, args) =>
    refine (typeGenerics_moves d).bind fun gs => (Moves.foldlM (FieldView.add_moves d _ name) _).bind fun v => ?_
    refine .ite hmissing (.ite ((report_moves _ _).bind fun _ => .pure _) (.ite ?_ (.pure _)))
    exact (report_moves _ _).bind fun _ => .pure _

lemma checkCond_moves (info : Info) (test : Expr) (yes : Body) (no : Option Body) (expected : Ty) :
    Moves true (checkCond nested info test yes no expected) := by
  refine (checkBool_moves h test).bind fun _ => (h.block yes _).bind fun t => ?_
  cases no with
  | none => exact .pure _
  | some no =>
    refine (h.block no _).bind fun u => (combine_moves t u).bind fun r => ?_
    cases r with
    | none => exact (report_moves _ _).bind fun _ => .pure _
    | some r => exact .pure _

lemma checkElements_moves (expected elem : Ty) (es : List Expr) : Moves true (checkElements nested expected elem es) := by
  induction es generalizing elem with
  | nil => exact .pure _
  | cons e es ih =>
    refine (h.expr e _).bind fun t => (settle_moves t).bind fun t => .ite (ih t) ((combine_moves elem t).bind fun r => ?_)
    cases r with
    | none => exact (report_moves _ _).bind fun _ => ih elem
    | some r => exact ih r

lemma checkList_moves (elements : List Expr) (expected : Ty) : Moves true (checkList nested elements expected) :=
  (checkElements_moves h _ _ elements).bind fun _ => .ite (.pure _) (.pure _)

omit h in
lemma join_moves (info : Info) (a b : Ty) : Moves true (join info a b) := by
  refine .ite (.pure _) ((combine_moves a b).bind fun r => ?_)
  cases r with
  | none => exact (report_moves _ _).bind fun _ => .pure _
  | some r => exact .pure _

lemma clause_moves (c : Arm) (scrutinee expected result : Ty) : Moves true (do
    c.patterns.forM fun p => checkPattern p scrutinee
    match c.guard with
    | some g => checkBool nested g
    | none => pure ()
    nested.block c.body expected >>= join c.body.info result) := by
  refine .bind (.forM fun p => checkPattern_moves p scrutinee) fun _ => ?_
  have hbody := (h.block c.body expected).bind fun t => join_moves c.body.info result t
  cases c.guard with
  | none => exact hbody
  | some g => exact (checkBool_moves h g).bind fun _ => hbody

lemma checkClauses_moves (scrutinee expected result : Ty) (clauses : List Arm) :
    Moves true (checkClauses nested scrutinee expected result clauses) := by
  induction clauses generalizing result with
  | nil => exact .pure _
  | cons c cs ih => exact .bind (withScope_moves h .empty (clause_moves h c scrutinee expected result)) ih

lemma checkSwitch_moves (info : Info) (scrutinee : Expr) (clauses : List Arm) (expected : Ty) :
    Moves true (checkSwitch nested info scrutinee clauses expected) := by
  refine (h.expr _ _).bind fun t => (settle_moves t).bind fun t => (checkClauses_moves h _ _ _ _).bind fun r => ?_
  exact (checkCoverage_moves _ _).bind fun _ => .pure _

/-! ### Bodies -/

lemma checkFnBody_moves (fn : Syntax.Fn) (sig : Ty) : Moves true (checkFnBody nested fn sig) := by
  refine (setSlot_moves _ _).bind fun _ => ?_
  split
  · refine declareGenerics_sound.bind fun scope hscope => withScope_moves h ?_ ?_
    · exact .same (hscope.foldl Syntax.Param.name (fun _ => Definition.in_of_kind (by simp [Definition.kind])) _) rfl
    · exact (h.block _ _).bind fun t => checkBodyReturns_moves _ _ t _
  · exact .pure _

lemma checkReturn_moves (info : Info) (value : Option Expr) : Moves true (checkReturn nested info value) := by
  refine body?_moves.bind fun body => ?_
  cases body with
  | none =>
    refine (report_moves _ _).bind fun _ => ?_
    cases value with
    | none => exact .pure _
    | some e => exact (h.expr e _).discard
  | some body =>
    cases value with
    | none =>
      refine .ite (addReturn_moves _) ((isAssignable_moves _ _).bind fun _ => ?_)
      exact .ite (.pure _) (report_moves _ _)
    | some e => exact (h.expr e _).bind fun t => .ite (addReturn_moves t) (expectAssignable_moves e t _)

lemma checkStmt_moves (stmt : Stmt) : Moves true (checkStmt nested stmt) := by
  cases stmt with
  | var d => exact (checkVar_moves h d).discard.bind fun _ => define_moves _ inner_var
  | fn d =>
    refine (signatureOf_moves d _).bind fun sig => .bind (define_moves _ ?_) fun _ => checkFnBody_moves h d sig
    exact Definition.in_of_kind (by simp [Definition.kind])
  | ret info value => exact checkReturn_moves h info value
  | expr info e => exact (h.expr e _).discard
  | _ => exact report_moves _ _

lemma checkStmts_moves (expected : Ty) (stmts : List Stmt) : Moves true (checkStmts nested expected stmts) := by
  induction stmts with
  | nil => exact .pure _
  | cons stmt stmts ih =>
    rw [checkStmts.eq_def]
    split
    · exact .pure _
    · exact h.expr _ _
    · next heq =>
      obtain ⟨rfl, rfl⟩ := List.cons.inj heq
      exact (checkStmt_moves h _).bind fun _ => ih

lemma checkBlock_moves (body : Body) (expected : Ty) : Moves true (checkBlock nested body expected) := by
  refine .bind (withScope_moves h .empty ((checkStmts_moves h _ _).bind fun t => .pure _)) fun t => ?_
  exact (setSlot_moves _ _).bind fun _ => .pure _

lemma checkExpr_moves (e : Expr) (expected : Ty) : Moves true (checkExpr nested e expected) := by
  have hkept (t : Ty) : Moves true (do
      setSlot e.info.id t
      return t) := (setSlot_moves _ _).bind fun _ => .pure _
  unfold checkExpr
  cases e with
  | ident i => exact (checkIdent_moves h i expected).bind hkept
  | literal l => exact hkept _
  | call info callee args => exact (checkCall_moves h info callee args expected).bind hkept
  | method info receiver name typeArgs args => exact (dispatch_moves h info receiver name typeArgs args expected).bind hkept
  | field info receiver name => exact (checkField_moves h info receiver name).bind hkept
  | binary info op left right => exact (checkBinary_moves h info op left right expected).bind hkept
  | unary info op operand => exact (checkUnary_moves h info op operand expected).bind hkept
  | closure c => exact (checkClosure_moves h c expected).bind hkept
  | cond info test yes no => exact (checkCond_moves h info test yes no expected).bind hkept
  | switch info scrutinee clauses => exact (checkSwitch_moves h info scrutinee clauses expected).bind hkept
  | list info elements => exact (checkList_moves h elements expected).bind hkept
  | block body => exact (h.block body expected).bind hkept

end Nested

lemma levels_moves (depth : Nat) : (levels depth).Moves := by
  induction depth with
  | zero => exact ⟨fun _ _ => .throw _, fun _ _ => .throw _, fun _ _ _ => .throw _⟩
  | succ depth ih => exact ⟨checkExpr_moves ih, checkBlock_moves ih, typeClosure_moves ih⟩

/-! ### Building -/

lemma traitInstance_moves (id : Nat) (d : TraitDecl) : Moves b (traitInstance id d) :=
  (traitGenerics_moves d).bind fun _ => .pure _

lemma implInstance_moves (id : Nat) (d : ImplDecl) : Moves b (implInstance id d) := by
  refine (entry_moves _).bind fun m => declareGenerics_sound.bind fun scope hscope => .inScope hscope ?_
  refine (typeOf?_moves _).bind fun forType => ?_
  split
  · split <;> exact .pure _
  · refine (pathOf_moves _).bind fun p => (resolveOrReport_moves _ _ _ p).bind fun r => ?_
    split
    · exact .pure _
    · refine (typeOf_moves _).bind fun t => ?_
      split
      · exact .pure _
      · exact .throw _
    · exact (report_moves _ _).bind fun _ => .pure _
  · exact (report_moves _ _).bind fun _ => .pure _

lemma reportOverlaps_moves (seen : List String) (is : List Instance) : Moves b (reportOverlaps seen is) := by
  induction is generalizing seen with
  | nil => exact .pure _
  | cons i is ih =>
    refine .ite (.ite ?_ (ih _)) (ih seen)
    cases i.owner with
    | impl d => exact (Moves.inModule _ (report_moves _ _)).bind fun _ => ih seen
    | trait d => exact .bind (.throw _) fun _ => ih seen

variable {β : Type} {x : Check α} {f : α → Check β}

def Builds (x : Check α) : Prop :=
  ∀ s : State, s.built = false → s.Comes (x.run s).2 ∧ (x.run s).2.built = false

lemma Moves.builds (h : Moves false x) : Builds x := by
  intro s hs
  have hgoes := h.goes hs rfl
  exact ⟨hgoes.comes, hgoes.onto.updates.built.trans hs⟩

namespace Builds

lemma bind (hx : Builds x) (hf : ∀ a, Builds (f a)) : Builds (x >>= f) := by
  intro s hs
  have hfirst := hx s hs
  match hrun : x.run s with
  | (.ok a, t) =>
    rw [hrun] at hfirst
    rw [run_bind_ok hrun]
    obtain ⟨hcomes, hbuilt⟩ := hf a t hfirst.2
    exact ⟨hfirst.1.trans hcomes, hbuilt⟩
  | (.error φ, t) =>
    rw [run_bind_error hrun]
    rwa [hrun] at hfirst

lemma get {f : State → Check β} (h : ∀ s, Builds (f s)) : Builds (MonadState.get >>= f) := fun s hs => h s s hs

lemma forM {l : List α} {f : α → Check PUnit} (h : ∀ a, Builds (f a)) : Builds (l.forM f) := by
  induction l with
  | nil => exact (Moves.pure _).builds
  | cons a l ih => exact (h a).bind fun _ => ih

lemma forIn {l : List α} {body : α → PUnit → Check (ForInStep PUnit)} (h : ∀ a, Builds (body a ⟨⟩)) :
    Builds (forIn l ⟨⟩ body) := by
  induction l with
  | nil => exact (Moves.pure _).builds
  | cons a l ih =>
    rw [List.forIn_cons]
    refine (h a).bind fun step => ?_
    cases step with
    | done => exact (Moves.pure _).builds
    | yield => exact ih

lemma inModule (id : Nat) (hx : Builds x) : Builds (Check.inModule id x) := by
  intro s hs
  have henter := State.Update.enter s id
  obtain ⟨hcomes, hbuilt⟩ := hx _ (henter.built.trans hs)
  refine ⟨⟨?_, hcomes.orderly.inModule fun hc => absurd hc Bool.false_ne_true⟩, hbuilt⟩
  exact ((henter.onto rfl).attains.trans hcomes.attains).trans ((State.Update.leave _).onto rfl).attains

end Builds

lemma addInstance_builds (module : Nat) (stmt : Stmt) : Builds (addInstance module stmt) := by
  have hadd (i : Instance) : Builds (modify fun s : State => { s with instances := s.instances ++ [i] }) := fun s hs =>
    ⟨⟨(State.Advance.relate hs i).attains rfl, State.orderly_of_eq rfl rfl rfl rfl rfl⟩, hs⟩
  refine .get fun s => (Moves.builds (entry_moves module)).bind fun m => ?_
  split
  · exact (traitInstance_moves _ _).builds.bind hadd
  · refine (implInstance_moves _ _).builds.bind fun i => ?_
    cases i with
    | none => exact (Moves.pure _).builds
    | some i => exact hadd i
  · exact (Moves.pure _).builds

lemma builds_then_built {x : Check PUnit} (hx : Builds x) {y : State → Check Unit} (hy : ∀ s, Moves false (y s)) {s : State}
    (hs : s.built = false) {r : Except Failure Unit} {t : State}
    (h : (do
      x
      modify fun s : State => { s with built := true }
      y (← get)).run s = (r, t)) : s.Comes t ∧ (r = .ok () → t.built = true) := by
  have hfirst := hx s hs
  match hrun : x.run s with
  | (.ok a, u) =>
    rw [hrun] at hfirst
    rw [run_bind_ok hrun] at h
    have hlast : (y { u with built := true }).run { u with built := true } = (r, t) := h
    have hgoes := ((hy { u with built := true }).anywhere { u with built := true }).goes hlast
    have hbuild : u.Comes { u with built := true } :=
      ⟨(State.Advance.build u).attains rfl, State.orderly_of_eq rfl rfl rfl rfl rfl⟩
    exact ⟨(hfirst.1.trans hbuild).trans hgoes.comes, fun _ => hgoes.onto.updates.built⟩
  | (.error φ, u) =>
    rw [hrun] at hfirst
    rw [run_bind_error hrun] at h
    cases h
    exact ⟨hfirst.1, nofun⟩

lemma buildRelations_comes {s t : State} {r : Except Failure Unit} (h : buildRelations.run s = (r, t)) :
    s.Comes t ∧ (r = .ok () → t.built = true) := by
  rw [buildRelations, run_get_bind] at h
  cases hs : s.built with
  | true =>
    rw [if_pos hs] at h
    cases h
    exact ⟨.refl _, fun _ => hs⟩
  | false =>
    rw [if_neg (by simp [hs]), run_get_bind] at h
    refine builds_then_built (.forIn fun id => ?_) (fun u => reportOverlaps_moves [] u.instances) hs h
    refine (Moves.builds (entry_moves id)).bind fun e => ?_
    exact (Builds.inModule id (.forM (addInstance_builds id))).bind fun _ => (Moves.pure _).builds

/-! ### Modules -/

section Modules

variable {nested : Nested} (h : nested.Moves)
include h

lemma checkMethods_moves (o : Owner) : Moves true (checkMethods nested o) := by
  refine (ownerScope_moves o).bindYields (ownerScope_yields o) fun scope hscope => withScope_moves h hscope ?_
  refine .bind (.forIn fun fn => ?_) fun _ => .pure _
  cases o.method? fn.name with
  | none => exact .bind (.throw _) fun _ => .pure _
  | some m => exact (methodSignature_moves m).bind fun sig => (checkFnBody_moves h fn sig).bind fun _ => .pure _

omit h in
lemma checkComplete_moves (d : ImplDecl) (i : Instance) : Moves b (checkComplete d i) := by
  unfold checkComplete
  cases i.trait? with
  | none => exact .pure _
  | some trait =>
    refine .bind (.forIn fun fn => ?_) fun _ => .pure _
    refine .ite (.ite (.bind (.throw _) fun _ => ?_) ?_) (.pure _)
    · exact (report_moves _ _).bind fun _ => .pure _
    · exact (report_moves _ _).bind fun _ => .pure _

lemma checkTopLevel_moves (module : Nat) (stmt : Stmt) : Moves true (checkTopLevel nested module stmt) := by
  intro s hs
  refine (entry_moves module s hs).bind fun e t hrun => ?_
  cases hrun
  split
  · next v hdef =>
    exact MovesAt.bind (varType_movesAt h (hs rfl) fun hanchored => hanchored.entry_defs hdef) fun _ _ _ => .refl _
  · exact (checkVar_moves h _).discard s hs
  · exact Moves.bind (fnSignature_moves _) (fun sig => checkFnBody_moves h _ sig) s hs
  · exact Moves.bind (signatureOf_moves _ _) (fun sig => checkFnBody_moves h _ sig) s hs
  · exact checkMethods_moves h _ s hs
  · refine Moves.get (fun u => ?_) s hs
    split
    · exact (checkMethods_moves h _).bind fun _ => checkComplete_moves _ _
    · exact .pure _
  · exact Moves.throw _ s hs
  · exact Moves.forM (fun f => (fieldType_moves _ f).discard) s hs
  · exact checkStmt_moves h _ s hs
  · exact checkStmt_moves h _ s hs
  · exact .refl s

lemma typeTopLevelClosures_movesAt (fuel : Nat) {s : State} (hs : s.built = true) :
    MovesAt false (typeTopLevelClosures nested fuel) s := by
  induction fuel generalizing s with
  | zero => exact .refl s
  | succ fuel ih =>
    rw [typeTopLevelClosures, MovesAt, run_get_bind]
    cases hpending : s.pending with
    | nil => exact .refl s
    | cons p ps =>
      have hsettle (t : State) : t.Goes false { t with pending := t.pending.tail } :=
        ⟨(State.Update.settle (List.tail_sublist _)).onto rfl, State.orderly_settle (List.tail_sublist _)⟩
      have hunused : MovesAt false (inModule p.frame.module (typeUnused nested p.node)) s :=
        .inModule p.frame.module (typeUnused_moves h p.node) (fun _ => hs) fun _ hanchored =>
          hanchored.pending p (hpending ▸ List.mem_cons_self)
      have hfirst : MovesAt false (bracket id (fun s => { s with pending := s.pending.tail })
          (inModule p.frame.module (typeUnused nested p.node))) s := .bracket (.refl s) hsettle hunused
      exact hfirst.bind fun _ t hrun => ih ((hfirst.goes hrun).onto.updates.built.trans hs)

end Modules

lemma checkModule_movesAt {checks : Nat → Nested} (h : ∀ n, (checks n).Moves) {s : State} (hs : s.built = true) {id : Nat}
    (hid : id < s.modules.length) : MovesAt false (checkModule checks id) s := by
  refine ((entry_moves id).anywhere s).bind fun e t hrun => ?_
  cases hrun
  cases (s.modules[id]?.getD default).phase with
  | glanced =>
    rw [MovesAt, run_get_bind]
    have hphase := (setPhase_moves id .checking).anywhere s
    refine hphase.bind fun _ t hrun => ?_
    have hgoes := hphase.goes hrun
    refine .bind (.inModule id (.forM (checkTopLevel_moves (h _) id)) (fun _ => hgoes.onto.updates.built.trans hs) ?_)
      fun _ u _ => (setPhase_moves id .checked).anywhere u
    exact fun _ _ => hgoes.orderly.length ▸ hid
  | checking => exact .refl s
  | checked => exact .refl s
  | _ => exact .refl s

lemma forM_checkModule_movesAt {checks : Nat → Nested} (h : ∀ n, (checks n).Moves) {ids : List Nat} {s : State}
    (hs : s.built = true) (hids : ∀ id ∈ ids, id < s.modules.length) : MovesAt false (ids.forM (checkModule checks)) s := by
  induction ids generalizing s with
  | nil => exact .refl s
  | cons id ids ih =>
    obtain ⟨hid, hids⟩ := List.forall_mem_cons.mp hids
    have hfirst := checkModule_movesAt h hs hid
    refine hfirst.bind fun _ t hrun => ?_
    have hgoes := hfirst.goes hrun
    exact ih (hgoes.onto.updates.built.trans hs) (hgoes.orderly.length ▸ hids)

lemma comes_bind {s : State} (hx : s.Comes (x.run s).2)
    (hf : ∀ a t, x.run s = (.ok a, t) → t.Comes ((f a).run t).2) : s.Comes ((x >>= f).run s).2 := by
  match hrun : x.run s with
  | (.ok a, t) =>
    rw [hrun] at hx
    rw [run_bind_ok hrun]
    exact hx.trans (hf a t hrun)
  | (.error φ, t) =>
    rw [run_bind_error hrun]
    rwa [hrun] at hx

lemma checkModulesBy_comes {checks : Nat → Nested} (h : ∀ n, (checks n).Moves) (s : State) :
    s.Comes ((checkModulesBy checks).run s).2 := by
  rw [checkModulesBy, run_get_bind]
  have hglance : MovesAt false ((List.range s.modules.length).forM glanceModule) s :=
    (Moves.forM glanceModule_moves).anywhere s
  refine comes_bind hglance.comes fun _ t hglanced => ?_
  refine comes_bind (buildRelations_comes rfl).1 fun _ u hbuild => ?_
  obtain ⟨hcomes, hbuilt⟩ := buildRelations_comes hbuild
  have hlength : u.modules.length = s.modules.length :=
    hcomes.orderly.length.trans (hglance.goes hglanced).orderly.length
  have hchecks : MovesAt false ((List.range s.modules.length).forM (checkModule checks)) u :=
    forM_checkModule_movesAt h (hbuilt rfl) fun id hid => hlength ▸ List.mem_range.mp hid
  refine comes_bind hchecks.comes fun _ v hrun => ?_
  exact (typeTopLevelClosures_movesAt (h _) _ ((hchecks.goes hrun).onto.updates.built.trans (hbuilt rfl))).comes

end TraitCheck.Check

namespace TraitCheck.State

lemma comes_check (s : State) : s.Comes s.check.2 := by
  have hcomes := Check.checkModulesBy_comes Check.levels_moves s
  rw [check]
  match hrun : Check.checkModules.run s with
  | (.ok (), t) =>
    change (Check.checkModulesBy Check.levels).run s = _ at hrun
    rwa [hrun] at hcomes
  | (.error φ, t) =>
    change (Check.checkModulesBy Check.levels).run s = _ at hrun
    rw [hrun] at hcomes
    have hkept : t.Aside { t with failures := t.failures ++ [φ] } :=
      ⟨⟨rfl, rfl, rfl, rfl, rfl, rfl, rfl⟩, rfl, rfl, rfl⟩
    exact hcomes.trans hkept.goes.comes

lemma attains_check (s : State) : s.Attains s.check.2 := (comes_check s).attains

end TraitCheck.State
