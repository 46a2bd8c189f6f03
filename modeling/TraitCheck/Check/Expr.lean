import TraitCheck.Check.Call
import TraitCheck.Check.Pattern

/-!
Expressions, blocks and statements. Every check of something nested goes through the checks of one level below; the
levels are tied together at the end.
-/

namespace TraitCheck.Check

open Syntax (Expr Body Lambda Stmt Info)

variable (nested : Nested)

/-! ### Names -/

/-- A variant without fields is a value, any other one a function. -/
def variantType (d : TypeDecl) (v : Syntax.Variant) (expected : Ty) : Check Ty := do
  let generics ← typeGenerics d
  if v.fields.isEmpty then
    match expected with
    | .named p args =>
      if p = d.path && args.length = generics.length then return .named d.path args
    | _ => pure ()
    return .named d.path (Ty.holes generics.length)
  let self ← typeSelf d
  return .fn generics (← v.fields.mapM (fieldType d)) self

/-- A method that is referred to by path. The generics of its trait or impl, and `Self` for a trait, become its own. -/
def staticMethodType (m : Method) : Check Ty := do
  match ← methodSignature m with
  | .fn generics params result =>
    match m.owner with
    | .trait d => return .fn ((← traitGenerics d) ++ [← traitSelfGeneric d] ++ generics) params result
    | .impl _ =>
      let own := ((← get).instanceOf? m.owner).map (·.relation.generics)
      return .fn (own.getD [] ++ generics) params result
  | t => return t

/-- The type of a name without its type arguments, and whether it is a constructor. -/
def identType (i : Syntax.Ident) (expected : Ty) : Check (Ty × Bool) := do
  match ← resolveOrReport i.info "identifier" Kind.values (← pathOf i.names) with
  | none => return (.unknown, false)
  | some r =>
    match r.definition with
    | .var v => return (← varType nested v, false)
    | .param p =>
      let t ← settle (← slot p.info.id)
      return (if t.isAbsent then .unknown else t, false)
    | .fn f => return (← fnSignature f, false)
    | .variant d v => return (← variantType d v expected, true)
    | .method m => return (← staticMethodType m, false)
    | d => throw (.unexpected d.kind)

/-- Binds some generics of a function; the others stay its own. -/
def bindGenerics (b : Bindings) (generics : List (Generic Ty)) (params : List Ty) (result : Ty) : Ty :=
  match Ty.substitute [b] (.fn [] params result) with
  | .fn _ params result => .fn (generics.filter fun g => (b.get? g.name).isNone) params result
  | t => t

def checkIdent (i : Syntax.Ident) (expected : Ty) : Check Ty := do
  let (t, _) ← identType nested i expected
  if i.args.isEmpty then return t
  match t with
  | .fn (g :: gs) params result =>
    return bindGenerics (← explicitGenerics i.info (g :: gs) i.args) (g :: gs) params result
  | _ =>
    discard <| checkArity i.info 0 i.args.length
    return t

/-! ### Calls and operators -/

/-- The type of what is called, whether it is a constructor, and the type arguments that are written with it. -/
def calleeType : Expr → Check (Ty × Bool × List Syntax.TypeExpr)
  | .ident i => do
    let (t, isConstructor) ← identType nested i .absent
    setSlot i.info.id t
    return (t, isConstructor, i.args)
  | callee => return (← nested.expr callee .absent, false, [])

/-- Checks the call of a closure that has no types yet, by which it gets them. -/
def callClosure (info : Info) (callee : Expr) (id arity : Nat) (args : List Expr) (expected : Ty) : Check Ty := do
  let ts ← args.mapM fun a => do settle (← nested.expr a .absent)
  match (← get).closures[id]? with
  | some c =>
    if arity = ts.length then
      let t ← nested.closure c ts expected
      setSlot callee.info.id t
      match t with
      | .fn _ _ r => return r.resultOf
      | _ => return .unknown
    else
      report (some info) (.arityMismatch "arguments" arity ts.length)
      return .unknown
  | none => return .unknown

def checkCall (info : Info) (callee : Expr) (args : List Expr) (expected : Ty) : Check Ty := do
  let (t, isConstructor, explicit) ← calleeType nested callee
  match ← settle t with
  | .fn generics params result =>
    applyFn nested info ⟨generics, params, result, isConstructor⟩ explicit args [] expected
  | .closure id arity => callClosure nested info callee id arity args expected
  | t =>
    unless t.absorbs do report (some callee.info) (.notCallable t)
    checkAll nested args
    return .unknown

def binaryMethod? : String → Option String
  | "+" => some "add"
  | "-" => some "sub"
  | "*" => some "mul"
  | "/" => some "div"
  | "%" => some "rem"
  | "==" => some "eq"
  | "!=" => some "ne"
  | "<" => some "lt"
  | ">" => some "gt"
  | "<=" => some "le"
  | ">=" => some "ge"
  | _ => none

def unaryMethod? : String → Option String
  | "-" => some "neg"
  | "!" => some "not"
  | _ => none

/-- Checks an expression that has to be a truth value. -/
def checkBool (e : Expr) : Check Unit := do expectAssignable e (← nested.expr e .bool) .bool

def checkBinary (info : Info) (op : String) (left right : Expr) (expected : Ty) : Check Ty := do
  if op = "&&" || op = "||" then
    checkBool nested left
    checkBool nested right
    return .bool
  match binaryMethod? op with
  | some name => dispatch nested info left name [] [right] expected
  | none => throw (.unknownBinary op)

def checkUnary (info : Info) (op : String) (operand : Expr) (expected : Ty) : Check Ty := do
  match unaryMethod? op with
  | some name => dispatch nested info operand name [] [] expected
  | none => throw (.unknownUnary op)

/-! ### Fields -/

/-- What is known of a field after some variants: its type, in how many variants it is, whether its types have no
common one, and whether it is private. -/
structure FieldView where
  type : Ty := .absent
  present : Nat := 0
  narrow : Bool := false
  hidden : Bool := false

def FieldView.add (d : TypeDecl) (b : Bindings) (name : String) (v : FieldView) (variant : Syntax.Variant) :
    Check FieldView := do
  match variant.field? name with
  | none => return v
  | some f =>
    let hidden := v.hidden || (!f.pub && d.module ≠ (← currentModule))
    let v := { v with present := v.present + 1, hidden := hidden }
    let t := (← fieldType d f).substitute [b]
    if v.type.isAbsent then return { v with type := t }
    match ← combine v.type t with
    | some t => return { v with type := t }
    | none => return { v with narrow := true }

def typeDecl? (t : Ty) : Check (Option (TypeDecl × List Ty)) := do
  match t with
  | .named p args =>
    match ← qualified [.type] p with
    | some ⟨_, .type d, _⟩ => return some (d, args)
    | some r => throw (.unexpected r.definition.kind)
    | none => return none
  | _ => return none

/-- A field must be there in all variants, with types that have a common one. -/
def checkField (info : Info) (receiver : Expr) (name : String) : Check Ty := do
  let t ← settle (← nested.expr receiver .absent)
  if t.absorbs then return .unknown
  let missing : Check Ty := do
    report (some info) (.notFound "field" (t.render ++ "." ++ name))
    return .unknown
  match ← typeDecl? t with
  | none => missing
  | some (d, args) =>
    let generics ← typeGenerics d
    let b := (generics.zip args).foldl (fun b (g, a) => b.insert g.name a) Bindings.empty
    let v ← d.node.variants.foldlM (FieldView.add d b name) {}
    if v.present = 0 then missing
    else if v.narrow || v.present < d.node.variants.length then
      report (some info) (.narrowFieldAccess name d.path.render)
      return .unknown
    else
      if v.hidden then report (some info) (.privateAccess (d.path.render ++ "." ++ name))
      return v.type

/-! ### Branches and lists -/

def checkCond (info : Info) (test : Expr) (yes : Body) (no : Option Body) (expected : Ty) : Check Ty := do
  checkBool nested test
  let a ← nested.block yes expected
  match no with
  | none => return .unit
  | some no =>
    let b ← nested.block no expected
    match ← combine a b with
    | some t => return t
    | none =>
      report (some info) (.branchMismatch a b)
      return .unknown

/-- Checks elements from left to right. `elem` is the type of the ones before, absent for none. -/
def checkElements (expected : Ty) : (elem : Ty) → List Expr → Check Ty
  | elem, [] => return elem
  | elem, e :: es => do
    let t ← settle (← nested.expr e expected)
    if elem.isAbsent then checkElements expected t es
    else
      match ← combine elem t with
      | some t => checkElements expected t es
      | none =>
        report (some e.info) (.typeMismatch elem t)
        checkElements expected elem es

def checkList (elements : List Expr) (expected : Ty) : Check Ty := do
  let elemExpected : Ty := match expected with
    | .named p [t] => if p = Ty.listPath then t else .absent
    | _ => .absent
  let elem ← checkElements nested elemExpected .absent elements
  if !elem.isAbsent then return .list elem
  return .list (if elemExpected.isAbsent then .hole else elemExpected)

/-- Checks clauses in order. `result` is the type of the ones before, absent for none. -/
def checkClauses (scrutinee expected : Ty) : (result : Ty) → List Syntax.Arm → Check Ty
  | result, [] => return result
  | result, c :: cs => do
    let result ← withScope nested .empty do
      c.patterns.forM fun p => checkPattern p scrutinee
      match c.guard with
      | some g => checkBool nested g
      | none => pure ()
      let t ← nested.block c.body expected
      if result.isAbsent then return t
      match ← combine result t with
      | some t => return t
      | none =>
        report (some c.body.info) (.branchMismatch result t)
        return .unknown
    checkClauses scrutinee expected result cs

def checkSwitch (info : Info) (scrutinee : Expr) (clauses : List Syntax.Arm) (expected : Ty) : Check Ty := do
  let t ← settle (← nested.expr scrutinee .absent)
  let result ← checkClauses nested t expected .absent clauses
  checkCoverage info clauses
  return if result.isAbsent then .never else result

/-! ### Functions and statements -/

/-- Checks the body of a function against its signature. A function without one is implemented elsewhere. -/
def checkFnBody (fn : Syntax.Fn) (sig : Ty) : Check Unit := do
  setSlot fn.info.id sig
  match fn.body, sig with
  | some body, .fn _ _ result =>
    let (scope, _) ← declareGenerics fn.generics ⟨[fn.name]⟩
    let scope := fn.params.foldl (fun s p => s.define p.name (.param p)) scope
    withScope nested { scope with body := some ⟨fn.name, result, []⟩ } do
      let t ← nested.block body result
      checkBodyReturns fn.name body t result
  | _, _ => return

def checkReturn (info : Info) (value : Option Expr) : Check Unit := do
  match ← body? with
  | none =>
    report (some info) (.unclassified "return outside of a function")
    match value with
    | some e => discard <| nested.expr e .absent
    | none => return
  | some b =>
    match value with
    | some e =>
      let t ← nested.expr e b.result
      if b.result.isAbsent then addReturn t else expectAssignable e t b.result
    | none =>
      if b.result.isAbsent then addReturn .unit
      else unless ← isAssignable .unit b.result do report (some info) (.missingReturn b.name b.result)

def checkStmt : Stmt → Check Unit
  | .var d => do
    discard <| checkVar nested d
    define d.name (.var ⟨d.name, some d, .slot d.info.id, none⟩)
  | .fn d => do
    let sig ← signatureOf d ⟨[d.name]⟩
    define d.name (.fn ⟨d, ⟨[d.name]⟩, none, some sig⟩)
    checkFnBody nested d sig
  | .ret info value => checkReturn nested info value
  | .expr _ e => discard <| nested.expr e .absent
  | s =>
    report (some s.info)
      (.unclassified "trait, impl and type declarations are only allowed at the top level of a module")

/-- Checks the statements of a block. The last one gives its type if it is an expression. -/
def checkStmts (expected : Ty) : List Stmt → Check Ty
  | [] => return .unit
  | [.expr _ e] => nested.expr e expected
  | s :: rest => do
    checkStmt nested s
    checkStmts expected rest

def Stmt.isReturn : Stmt → Bool
  | .ret _ _ => true
  | _ => false

/-- A block is of the type of its last expression. One that returns before produces no value. -/
def checkBlock (b : Body) (expected : Ty) : Check Ty := do
  let t ← withScope nested .empty do
    let t ← checkStmts nested expected b.statements
    return if b.statements.any Stmt.isReturn && t.equal .unit then .never else t
  setSlot b.info.id t
  return t

/-- Checks an expression and keeps its type. `expected` guides closures, constructors and generics, but whether the type
fits is not checked here. -/
def checkExpr (e : Expr) (expected : Ty) : Check Ty := do
  let t ← match e with
    | .ident i => checkIdent nested i expected
    | .literal l => pure (literalType l.kind)
    | .call info callee args => checkCall nested info callee args expected
    | .method info receiver name typeArgs args => dispatch nested info receiver name typeArgs args expected
    | .field info receiver name => checkField nested info receiver name
    | .binary info op left right => checkBinary nested info op left right expected
    | .unary info op operand => checkUnary nested info op operand expected
    | .closure c => checkClosure nested c expected
    | .cond info test yes no => checkCond nested info test yes no expected
    | .switch info scrutinee clauses => checkSwitch nested info scrutinee clauses expected
    | .list _ elements => checkList nested elements expected
    | .block b => nested.block b expected
  setSlot e.info.id t
  return t

/-- The checks down to a depth. -/
def levels : (depth : Nat) → Nested
  | 0 => ⟨0, fun _ _ => throw .tooDeep, fun _ _ => throw .tooDeep, fun _ _ _ => throw .tooDeep⟩
  | n + 1 =>
    ⟨n + 1, fun e t => checkExpr (levels n) e t, fun b t => checkBlock (levels n) b t,
      fun c ps t => typeClosure (levels n) c ps t⟩

/-- Variables and closures that are open at a time are different nodes, and below each there are at most all nodes, so
that no check is nested deeper than this. -/
def depthBound (s : State) : Nat := 4 * ((s.nextNode + 2) * (s.nextNode + 2)) + s.reserve

end TraitCheck.Check
