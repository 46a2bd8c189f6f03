import TraitCheck.Check.Closure

/-!
Calls. The generics of a function are bound by explicit type arguments, then by the receiver, then by the arguments from
left to right, and last by the type that is expected.
-/

namespace TraitCheck.Check

open Syntax (Expr TypeExpr Info)

variable (nested : Nested)

/-- Checks expressions about which nothing is expected. -/
def checkAll (args : List Expr) : Check Unit := args.forM fun a => discard <| nested.expr a .absent

/-- The types of arguments and the bindings that they give. `inferred` holds the bindings from the arguments before. -/
def checkArgs (maps : List Bindings) : List Expr → (params : List Ty) → (inferred : Bindings) →
    Check (List Ty × Bindings)
  | [], _, inferred => return ([], inferred)
  | a :: args, [], inferred => do
    let t ← nested.expr a .absent
    let (ts, inferred) ← checkArgs maps args [] inferred
    return (t :: ts, inferred)
  | a :: args, p :: params, inferred => do
    let hint := p.substitute (maps ++ [inferred])
    let t ← settle (← nested.expr a hint)
    let t ← settleAgainst nested a t hint
    let (ts, inferred) ← checkArgs maps args params (inferred.underlay (Ty.unify t p))
    return (t :: ts, inferred)

/-- The place that an argument flows into. A parameter that is a generic with bounds keeps them, so that the argument
is seen as each of them. -/
def upcastTarget (maps : List Bindings) : Ty → Ty
  | .generic g =>
    if g.bounds.isEmpty then Ty.substituteOrHole maps (.generic g)
    else .generic { g with bounds := g.bounds.map (Ty.substituteOrHole maps) }
  | p => p.substituteOrHole maps

/-- Checks arguments, whose types are known, against parameters. -/
def fitArguments (maps : List Bindings) : List Expr → List Ty → (params : List Ty) → Check Unit
  | a :: args, t :: ts, p :: params => do
    let target := p.substituteOrHole maps
    if ← isAssignable t target then upcastTo a t (upcastTarget maps p)
    else report (some a.info) (.typeMismatch target t)
    fitArguments maps args ts params
  | _, _, _ => return

/-- Reports generics whose values do not satisfy their bounds. -/
def checkBounds (info : Info) (maps : List Bindings) (generics : List (Generic Ty)) : Check Unit :=
  generics.forM fun g => do
    match Bindings.lookupIn maps g.name with
    | some value =>
      unless value.absorbs do
        g.bounds.forM fun b => do
          let bound := b.substituteOrHole maps
          unless ← isAssignable value bound do report (some info) (.typeMismatch bound value)
    | none => return

/-- A function as it is called: its own generics, its parameters without a receiver, and its result. -/
structure Callee where
  generics : List (Generic Ty)
  params : List Ty
  result : Ty
  /-- The unbound generics of a constructor become holes; those of other functions are errors. -/
  isConstructor : Bool := false

/-- Checks a call and gives its type. `receiver` holds the bindings that come from a receiver. -/
def applyFn (info : Info) (f : Callee) (explicit : List TypeExpr) (args : List Expr) (receiver : List Bindings)
    (expected : Ty) : Check Ty := do
  unless args.length = f.params.length do
    report (some info) (.arityMismatch "arguments" f.params.length args.length)
  let maps := (← explicitGenerics info f.generics explicit) :: receiver
  let (ts, inferred) ← checkArgs nested maps args f.params .empty
  let fromResult := if expected.absorbs then [] else [Ty.unify expected f.result.resultOf]
  let maps := maps ++ [inferred] ++ fromResult
  fitArguments maps args ts f.params
  checkBounds info maps f.generics
  if f.isConstructor then return f.result.resultOf.substituteOrHole maps
  else resolveGenerics (some info) maps f.result.resultOf

/-- The bound of a generic receiver that has the method. -/
def viewOf (name : String) (rel : Relation) (recv : Ty) : List Ty → Check Ty
  | [] => return recv
  | b :: bs => do
    if (← candidates name b).any (·.provider.relation.id = rel.id) then return b
    viewOf name rel recv bs

/-- The bindings that a view of a receiver gives to the generics of the impl of a method, and the trait that the receiver
is seen as. -/
def chainBindings (view : Ty) (c : Candidate) : Check (Bindings × Option Ty) := do
  let rel := c.provider.relation
  if rel.kind = .inherent then return (Ty.unify view rel.forType, none)
  if c.chain.isEmpty then return (.empty, if view.path?.isSome then some view else none)
  match ← instantiate view c.chain with
  | some (t, b) => return (b, some t)
  | none => return (.empty, none)

def traitBindings (b : Bindings) : Option TraitDecl → (seenAs : Option Ty) → Check Bindings
  | some d, some t => return b.underlay (Ty.unify t (← traitSelf d))
  | _, _ => return b

/-- The bindings that a receiver gives to the generics of the trait or impl of a method and to `Self`, and the trait
that the receiver is seen as. -/
def receiverBindings (recv : Ty) (c : Candidate) (name : String) : Check (Bindings × Option Ty) := do
  let view ← match recv with
    | .generic g => viewOf name c.provider.relation recv g.bounds
    | _ => pure recv
  let (b, seenAs) ← chainBindings view c
  let b ← traitBindings b c.provider.trait? seenAs
  return (b.insert selfName recv, seenAs)

/-- Checks the call of a method. Operators are called in the same way. -/
def dispatch (info : Info) (recv : Expr) (name : String) (typeArgs : List TypeExpr) (args : List Expr)
    (expected : Ty) : Check Ty := do
  let t ← settle (← nested.expr recv .absent)
  let skip : Check Ty := do
    checkAll nested args
    return .unknown
  if t.absorbs then return ← skip
  match ← resolveMethod (some info) t name with
  | none => skip
  | some c =>
    if !c.method.node.hasReceiver then
      report (some info) (.notFound "method with a receiver" name)
      return ← skip
    match ← methodSignature c.method with
    | .fn generics params result =>
      let (b, seenAs) ← receiverBindings t c name
      let r ← applyFn nested info ⟨generics, params.tail, result, false⟩ typeArgs args [b] expected
      match seenAs with
      | some trait => unless c.isStatic do upcastTo recv t trait
      | none => pure ()
      return r
    | _ => skip

end TraitCheck.Check
