import TraitCheck.Check.Instances

/-!
Closures. The parameters of a closure may go without types; such a closure is typed by its first use, and at the end of
its scope if there was none.
-/

namespace TraitCheck.Check

open Syntax (Expr Body Lambda)

/-- The checks of nested expressions. `fuel` bounds loops. An absent type says that nothing is expected. -/
structure Nested where
  fuel : Nat
  expr : Expr → (expected : Ty) → Check Ty
  block : Body → (expected : Ty) → Check Ty
  closure : Lambda → (params : List Ty) → (result : Ty) → Check Ty

variable {α : Type} (nested : Nested)

/-- A closure that has been typed is of its function type from then on. -/
def settle (t : Ty) : Check Ty := do
  match t with
  | .closure id _ =>
    let typed ← slot id
    return if typed.isFn then typed else t
  | _ => return t

/-- Types a closure, if it is one, by the function type that it flows into. -/
def settleAgainst (node : Expr) (t target : Ty) : Check Ty := do
  match t with
  | .closure id _ =>
    match ← settle target, (← get).closures[id]? with
    | .fn _ ps r, some c =>
      let typed ← nested.closure c ps r.resultOf
      unless node.info.id = id do setSlot node.info.id typed
      return typed
    | _, _ => return t
  | _ => return t

def typeUnused (c : Lambda) : Check Unit := do
  unless (← slot c.info.id).isFn do
    discard <| nested.closure c (c.params.map fun _ => .unknown) .absent

/-- Types the closures of a frame that were written at a depth or deeper and are still without a type. They are pending
until all of them have been typed. -/
def flushPending (frame depth : Nat) : (fuel : Nat) → Check Unit
  | 0 => throw .tooDeep
  | fuel + 1 => do
    let pending := (← get).pending
    let n := pending.length
    let due := pending.filter (·.isDue frame depth)
    unless due.isEmpty do
      bracket id
        (fun s => { s with pending := (s.pending.take n).filter (!·.isDue frame depth) ++ s.pending.drop n })
        (due.forM fun p => typeUnused nested p.node)
      flushPending frame depth fuel

/-- Runs `x` with one more scope. Closures that are written in it are typed before it is left. -/
def withScope (scope : Scope) (x : Check α) : Check α :=
  inScope scope do
    let a ← x
    let f ← frame
    flushPending nested f.id f.depth nested.fuel
    return a

/-- The expression that a block evaluates to. -/
def tail? (b : Body) : Option Expr :=
  match b.statements.getLast? with
  | some (.expr _ e) => some e
  | _ => none

def checkBodyReturns (name : String) (body : Body) (bodyType result : Ty) : Check Unit := do
  if result.equal .unit || bodyType.isNever then return
  match tail? body with
  | some tail => expectAssignable tail bodyType result
  | none => report (some body.info) (.missingReturn name result)

/-- Combines the type that a closure ends with and the types that it returns. -/
def combineReturns (c : Lambda) : (t : Ty) → List Ty → Check Ty
  | t, [] => return t
  | t, r :: rest => do
    match ← combine t r with
    | some t => combineReturns c t rest
    | none =>
      report (some c.info) (.branchMismatch t r)
      return .unknown

/-- The types of the parameters of a closure: as written, else as given. -/
def closureParams : List Syntax.Param → (given : List Ty) → Check (List Ty)
  | [], _ => return []
  | p :: ps, given => do
    let fromUse := given.headD .absent
    let t ← if p.type.isSome || fromUse.isAbsent then paramType p else pure fromUse
    setSlot p.info.id t
    return t :: (← closureParams ps given.tail)

/-- Checks the body of a closure. The closure has its function type while its body is checked; what it returns becomes
known at the end. -/
def typeClosure (c : Lambda) (params : List Ty) (expected : Ty) : Check Ty := do
  let params ← closureParams c.params params
  let written ← typeOf? c.result
  let result := if written.isAbsent && expected.genericNames.isEmpty then expected else written
  let id ← newResult
  let t : Ty := .fn [] params (.ongoing id)
  setSlot c.info.id t
  let scope := c.params.foldl (fun s p => s.define p.name (.param p)) Scope.empty
  withScope nested { scope with body := some ⟨"closure", result, []⟩ } do
    let bodyType ← nested.block c.body result
    if result.isAbsent then
      let returns := ((← body?).map (·.returns)).getD []
      setResult id (← combineReturns c bodyType (← returns.mapM completed))
    else
      checkBodyReturns "closure" c.body bodyType result
      setResult id result
  completed t

/-- A closure is typed where a function of its arity is expected, or if all its parameters have types. -/
def checkClosure (c : Lambda) (expected : Ty) : Check Ty := do
  match ← settle expected with
  | .fn _ ps r => if ps.length = c.params.length then return ← nested.closure c ps r.resultOf
  | _ => pure ()
  if c.params.any (·.type.isNone) then
    let f ← frame
    modify fun s => { s with
      pending := s.pending ++ [⟨c, f⟩]
      closures := s.closures.insert c.info.id c }
    return .closure c.info.id c.params.length
  nested.closure c [] .absent

/-! ### Variables -/

/-- Checks the value of a definition, and gives the type of the variable. -/
def checkVar (d : Syntax.Let) : Check Ty := do
  let declared ← typeOf? d.type
  let t ← settle (← nested.expr d.value declared)
  if declared.isAbsent then
    setSlot d.info.id t
    return t
  let t ← settleAgainst nested d.value t declared
  expectAssignable d.value t declared
  setSlot d.info.id declared
  return declared

/-- The type of a variable at the top of a module, whose value is checked for it. A value that refers to its own
variable has no type. -/
def topVarType (v : Variable) : Check Ty := do
  match v.module, v.node with
  | some m, some d =>
    if d.info.id ∈ (← get).typing then
      report (some d.info) (.unclassified ("variable " ++ Diagnostic.Cause.ticked v.name ++ " refers to itself"))
      return .unknown
    bracket
      (fun s => { s with typing := d.info.id :: s.typing })
      (fun s => { s with typing := s.typing.erase d.info.id })
      (inModule m (checkVar nested d))
  | _, _ => return .unknown

/-- The type of a variable. One at the top of a module is checked when it is first used. -/
def varType (v : Variable) : Check Ty := do
  let known ← match v.type with
    | .slot id => slot id
    | .known t => completed t
  if known.isAbsent then topVarType nested v else settle known

end TraitCheck.Check
