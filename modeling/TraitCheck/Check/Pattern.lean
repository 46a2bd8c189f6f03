import TraitCheck.Check.Closure
import TraitCheck.Coverage

/-!
Patterns of `match` clauses: their types, the variables that they bind, and whether clauses cover everything.
-/

namespace TraitCheck.Check

open Syntax (Pattern FieldPattern)

def literalType : Syntax.LiteralKind → Ty
  | .int => .int
  | .float => .float
  | .string => .string
  | .char => .char
  | .bool => .bool

/-- The type that a constructor pattern gives its value, and the generics bound by that. A value of another type is
reported. -/
def variantSelf (info : Syntax.Info) (d : TypeDecl) (expected : Ty) : Check (Ty × Bindings) := do
  let self : Ty := .named d.path (Ty.holes (← typeGenerics d).length)
  match expected with
  | .named p args =>
    if p = d.path then return (.named p args, Ty.unify (.named p args) (← typeSelf d))
    report (some info) (.typeMismatch expected self)
    return (self, .empty)
  | _ =>
    unless expected.absorbs do report (some info) (.typeMismatch expected self)
    return (self, .empty)

/-- The type of a field named in a constructor pattern. -/
def patternField (d : TypeDecl) (v : Syntax.Variant) (b : Bindings) (info : Syntax.Info) (name : String) :
    Check Ty := do
  match v.field? name with
  | none =>
    report (some info) (.notFound "field" (v.name ++ "." ++ name))
    return .unknown
  | some f =>
    unless f.pub || d.module = (← currentModule) do
      report (some info) (.privateAccess (d.path.render ++ "." ++ f.name))
    return (← fieldType d f).substituteOrHole [b]

mutual

/-- Checks a pattern against the type of its value, and binds its variables in the innermost scope. -/
def checkPattern : Pattern → (expected : Ty) → Check Unit
  | .bind info name, expected => do
    setSlot info.id expected
    define name (.var ⟨name, none, .slot info.id, none⟩)
  | .hole info, expected => setSlot info.id expected
  | .literal info l, expected => do
    let t := literalType l.kind
    setSlot l.info.id t
    setSlot info.id t
    unless ← isAssignable t expected do report (some info) (.typeMismatch expected t)
  | .variant info ident fields, expected => do
    match ← resolveOrReport ident.info "variant" [.variant] (← pathOf ident.names) with
    | some ⟨_, .variant d v, _⟩ =>
      modify fun s => { s with variants := s.variants.insert info.id (d, v) }
      let (self, b) ← variantSelf info d expected
      setSlot info.id self
      setSlot ident.info.id self
      checkFields (patternField d v b) fields
    | some r => throw (.unexpected r.definition.kind)
    | none =>
      setSlot info.id .unknown
      checkFields (fun _ _ => return .unknown) fields

/-- Checks the fields of a constructor pattern. A field without a pattern is bound to a variable of its name. -/
def checkFields (fieldType : Syntax.Info → String → Check Ty) : List (FieldPattern Pattern) → Check Unit
  | [] => return
  | ⟨info, name, some p⟩ :: rest => do
    checkPattern p (← fieldType info name)
    checkFields fieldType rest
  | ⟨info, name, none⟩ :: rest => do
    define name (.var ⟨name, none, .known (← fieldType info name), none⟩)
    checkFields fieldType rest

end

/-! ### Coverage -/

section Shapes

variable (variant? : Nat → Option (TypeDecl × Syntax.Variant))

mutual

/-- A pattern as far as coverage goes. Of two patterns for one field the last one counts. -/
def shapeOf : Pattern → Coverage.Shape
  | .bind _ _ | .hole _ => .any
  | .literal _ _ => .literal
  | .variant info _ fields =>
    match variant? info.id with
    | none => .unresolved
    | some (d, v) =>
      let given := (fieldShapes fields).reverse
      .variant ⟨d.node.info.id, d.node.variants.map (·.name)⟩ v.name
        (v.fields.map fun f => (f.name, (given.lookup f.name).getD .any))

def fieldShapes : List (FieldPattern Pattern) → List (String × Coverage.Shape)
  | [] => []
  | ⟨_, name, some p⟩ :: rest => (name, shapeOf p) :: fieldShapes rest
  | ⟨_, name, none⟩ :: rest => (name, .any) :: fieldShapes rest

end

end Shapes

/-- Reports clauses that cannot be reached, and a `match` that leaves values uncovered. -/
def checkCoverage (info : Syntax.Info) (clauses : List Syntax.Arm) : Check Unit := do
  let s ← get
  let shapes (c : Syntax.Arm) : Coverage.Clause := ⟨c.guard.isSome, c.patterns.map (shapeOf fun i => s.variants[i]?)⟩
  let verdict := Coverage.check (clauses.map shapes)
  for (c, reachable) in clauses.zip verdict.reachable do
    unless reachable do report (c.patterns.head?.map (·.info)) .unreachablePattern
  unless verdict.exhaustive do report (some info) .nonExhaustiveMatch

end TraitCheck.Check
