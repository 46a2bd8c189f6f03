import TraitCheck.Check.Resolve

/-!
From written types to types: generics of declarations, fields and signatures. All of them are worked out once and kept
with their nodes.
-/

namespace TraitCheck

namespace Generic

mutual

/-- Puts generics with their bounds where generics of the same name and key stand. A function type hides the names that
it declares. -/
def tie (known : List (Generic Ty)) : Ty → Ty
  | .generic ⟨name, key, bounds⟩ =>
    match known.reverse.find? fun g => g.name = name && g.key = key with
    | some g => .generic g
    | none => .generic ⟨name, key, tieAll known bounds⟩
  | .named p args => .named p (tieAll known args)
  | .fn gs ps r =>
    let known := known.filter fun k => !gs.any (·.name = k.name)
    .fn (tieDecls known gs) (tieAll known ps) (tie known r)
  | t => t

def tieAll (known : List (Generic Ty)) : List Ty → List Ty
  | [] => []
  | t :: ts => tie known t :: tieAll known ts

def tieDecls (known : List (Generic Ty)) : List (Generic Ty) → List (Generic Ty)
  | [] => []
  | ⟨name, key, bounds⟩ :: gs => ⟨name, key, tieAll known bounds⟩ :: tieDecls known gs

end

/-- Bounds may refer to generics of the same list. After as many rounds as there are generics all of them are
complete. -/
def tieSiblings (gs : List (Generic Ty)) : (rounds : Nat) → List (Generic Ty)
  | 0 => gs
  | n + 1 => gs.map fun g => { g with bounds := tieAll (tieSiblings gs n) g.bounds }

end Generic

/-- The name of the generic that stands for the receiver in a trait. -/
def selfName : String := "Self"

def Scope.ofGenerics (gs : List (Generic Ty)) : Scope := gs.foldl (fun s g => s.define g.name (.generic g)) .empty

namespace Check

open Syntax (TypeExpr GenericDecl Info)

def checkArity (info : Info) (expected got : Nat) : Check Bool := do
  if expected = got then return true
  report (some info) (.arityMismatch "type arguments" expected got)
  return false

/-- Makes type arguments as many as were declared: holes for none at all, and after a wrong number was reported what
there is, filled up with unknown ones. -/
def fitArgs (info : Info) (expected : Nat) (args : List Ty) : Check (List Ty) := do
  if args.isEmpty then return Ty.holes expected
  if ← checkArity info expected args.length then return args
  return (args ++ List.replicate (expected - args.length) Ty.unknown).take expected

/-- How generics are declared: their scope and the generics. -/
abbrev Declare := List GenericDecl → Path → Check (Scope × List (Generic Ty))

section Written

variable (declare : Declare)

mutual

def resolveType : TypeExpr → Check Ty
  | .hole _ => return .hole
  | .fn _ gs ps r => do
    let (scope, generics) ← declare gs ⟨["fn"]⟩
    inScope scope do
      let ps ← resolveTypes ps
      let r ← resolveOptType r
      return .fn generics ps r.resultOf
  | .named info names args => do
    match ← resolveOrReport info "type" Kind.types (← pathOf names) with
    | none => return .unknown
    | some r =>
      let args ← resolveTypes args
      match r.definition with
      | .self _ t =>
        discard <| checkArity info 0 args.length
        return t
      | .generic g =>
        discard <| checkArity info 0 args.length
        return .generic g
      | .type d =>
        let (_, generics) ← inModule d.module (declare d.node.generics d.path)
        return .named d.path (← fitArgs info generics.length args)
      | .trait d =>
        let (_, generics) ← inModule d.module (declare d.node.generics d.path)
        return .named d.path (← fitArgs info generics.length args)
      | d => throw (.unexpected d.kind)

def resolveTypes : List TypeExpr → Check (List Ty)
  | [] => return []
  | t :: ts => return (← resolveType t) :: (← resolveTypes ts)

def resolveOptType : Option TypeExpr → Check Ty
  | none => return .absent
  | some t => resolveType t

end

end Written

/-- Declares generics, each once for all times. While their bounds are being resolved they have none. -/
def declareWith (bound : TypeExpr → Check Ty) : Declare := fun decls owner => do
  let known := (← get).generics
  let start := decls.map fun d => (known[d.info.id]?).getD ⟨d.name, (owner.child d.name).render, []⟩
  let isNew (d : GenericDecl) : Bool := (known[d.info.id]?).isNone
  if decls.any isNew then
    let store (gs : List (Generic Ty)) : Check Unit :=
      modify fun s => { s with generics := (decls.zip gs).foldl (fun m e => m.insert e.1.info.id e.2) s.generics }
    store start
    let resolved ← inScope (.ofGenerics start) <| (decls.zip start).mapM fun (d, g) => do
      if isNew d then return { g with bounds := ← d.bounds.mapM bound } else return g
    let generics := Generic.tieSiblings resolved resolved.length
    store generics
    return (.ofGenerics generics, generics)
  else return (.ofGenerics start, start)

/-- Declares generics whose bounds may lead to further declarations, to a depth of `fuel`. -/
def declare : (fuel : Nat) → Declare
  | 0 => fun _ _ => throw .tooDeep
  | fuel + 1 => declareWith (resolveType (declare fuel))

/-- Every declaration is resolved once, so that there are never more open ones than nodes. -/
def declareGenerics : Declare := fun decls owner => do
  let s ← get
  declare (s.nextNode + 1 + s.reserve) decls owner

def typeOf (t : TypeExpr) : Check Ty := resolveType declareGenerics t

def typeOf? (t : Option TypeExpr) : Check Ty := resolveOptType declareGenerics t

/-! ### Declarations -/

def typeGenerics (d : TypeDecl) : Check (List (Generic Ty)) :=
  return (← inModule d.module (declareGenerics d.node.generics d.path)).2

def traitGenerics (d : TraitDecl) : Check (List (Generic Ty)) :=
  return (← inModule d.module (declareGenerics d.node.generics d.path)).2

/-- A declared type with its own generics as arguments. -/
def typeSelf (d : TypeDecl) : Check Ty := return .named d.path ((← typeGenerics d).map .generic)

/-- A trait with its own generics as arguments. -/
def traitSelf (d : TraitDecl) : Check Ty := return .named d.path ((← traitGenerics d).map .generic)

/-- `Self` in a trait: any type that implements it. -/
def traitSelfGeneric (d : TraitDecl) : Check (Generic Ty) :=
  return ⟨selfName, (d.path.child selfName).render, [← traitSelf d]⟩

/-- The type of a field in terms of the generics of its type. -/
def fieldType (d : TypeDecl) (f : Syntax.FieldDef) : Check Ty := do
  let known ← slot f.info.id
  unless known.isAbsent do return known
  inModule d.module do
    let (scope, _) ← declareGenerics d.node.generics d.path
    let t ← inScope scope (typeOf? f.type)
    unless t.isAbsent do setSlot f.info.id t
    return t

def ownerScope (o : Owner) : Check Scope := do
  match o with
  | .trait d =>
    let generics ← traitGenerics d
    let self ← traitSelfGeneric d
    return { Scope.ofGenerics generics with self := some (o, .generic self) }
  | .impl _ =>
    match (← get).instanceOf? o with
    | some i => return { Scope.ofGenerics i.relation.generics with self := some (o, i.relation.forType) }
    | none => throw .implTooEarly

/-- The path that the generics of methods are named after. -/
def ownerPath (o : Owner) : Check Path := do
  match o with
  | .trait d => return d.path
  | .impl d =>
    match (← get).instanceOf? o with
    | some i => return i.relation.path
    | none => return (← entry d.module).path.child "impl"

/-! ### Signatures -/

/-- The type of a parameter as written; a receiver without a type is of type `Self`. -/
def paramType (p : Syntax.Param) : Check Ty := do
  match p.type with
  | some t => typeOf t
  | none =>
    let self ← selfType?
    match if p.name = Syntax.receiverName then self else none with
    | some (_, t) => return t
    | none =>
      report (some p.info) (.notFound "type annotation for parameter" p.name)
      return .unknown

def paramSlot (p : Syntax.Param) : Check Ty := do
  let known ← slot p.info.id
  unless known.isAbsent do return known
  let t ← paramType p
  setSlot p.info.id t
  return t

/-- The type of a function as seen from the current scope. `owner` is the path that its generics are named after. -/
def signatureOf (fn : Syntax.Fn) (owner : Path) : Check Ty := do
  let (scope, generics) ← declareGenerics fn.generics owner
  inScope scope do
    let params ← fn.params.mapM paramSlot
    let result ← typeOf? fn.result
    return .fn generics params result.resultOf

def signatureOnce (id : Nat) (make : Check Ty) : Check Ty := do
  match (← get).signatures[id]? with
  | some t => return t
  | none =>
    let t ← make
    modify fun s => { s with signatures := s.signatures.insert id t }
    return t

def fnSignature (f : Function) : Check Ty := do
  match f.signature, f.module with
  | some t, _ => completed t
  | none, some m => signatureOnce f.node.info.id (inModule m (signatureOf f.node f.path))
  | none, none => throw .notAtTop

/-- The type of a method. A receiver is the first parameter. -/
def methodSignature (m : Method) : Check Ty :=
  signatureOnce m.node.info.id <| inModule m.owner.module do
    let scope ← ownerScope m.owner
    inScope scope do signatureOf m.node ((← ownerPath m.owner).child m.node.name)

/-! ### Substitution that reports -/

/-- Whether a generic is one of a declaration around the current place. -/
def inDeclaration (g : Generic Ty) : Check Bool := do
  if g.name = selfName then
    match ← selfType? with
    | some (_, .generic h) => return h.key = g.key
    | _ => return false
  else
    match ← resolve [.generic] ⟨[g.name]⟩ with
    | some ⟨_, .generic h, _⟩ => return h.key = g.key
    | some r => throw (.unexpected r.definition.kind)
    | none => return false

/-- The generics, among some occurrences of unbound ones, that stay. All others are reported. -/
def keptGenerics (info : Option Info) : List (Generic Ty) → Check (List (String × String))
  | [] => return []
  | g :: gs => do
    if ← inDeclaration g then return (g.name, g.key) :: (← keptGenerics info gs)
    report info (.unresolvedGeneric g.name)
    keptGenerics info gs

/-- Substitutes from the first of `maps` that binds a name. Generics of declarations around the place stay; any other
one is reported and becomes unknown. -/
def resolveGenerics (info : Option Info) (maps : List Bindings) (t : Ty) : Check Ty := do
  let unbound := t.occurrences.filter fun g => (Bindings.lookupIn maps g.name).isNone
  let kept ← keptGenerics info unbound
  return t.replace
    (fun g => (Bindings.lookupIn maps g.name).getD (if (g.name, g.key) ∈ kept then .generic g else .unknown)) []

/-- Binds generics to written types by position. A wrong number is reported and binds nothing. -/
def explicitGenerics (info : Info) (generics : List (Generic Ty)) (args : List TypeExpr) : Check Bindings := do
  if args.isEmpty then return .empty
  if ← checkArity info generics.length args.length then
    (generics.zip args).foldlM (fun b (g, a) => return b.insert g.name (← typeOf a)) .empty
  else return .empty

end Check

end TraitCheck
