import TraitCheck.Check.Types
import TraitCheck.Syntax.Show

/-!
The list of relations that traits and impls give, and the methods that a type has through them.
-/

namespace TraitCheck

/-- A relation through which a receiver has a method. The chain leads from the type of the receiver to the relation; it
is empty if the relation is for that type itself. -/
structure Candidate where
  provider : Instance
  method : Method
  chain : Chain
  deriving Inhabited

/-- Whether the method is implemented for the type of the receiver itself, which then need not be seen as a trait. -/
def Candidate.isStatic (c : Candidate) : Bool :=
  c.provider.relation.kind = .inherent || (c.method.owner.kind = .impl && c.chain.length = 1)

/-- Adds a candidate unless its relation is there already. -/
def addCandidate (cs : List Candidate) (c : Candidate) : List Candidate :=
  if cs.any (·.provider.relation.id = c.provider.relation.id) then cs else cs ++ [c]

namespace Check

/-! ### Building -/

def traitInstance (id : Nat) (d : TraitDecl) : Check Instance := do
  let generics ← traitGenerics d
  let args := generics.map Ty.generic
  return ⟨⟨id, .trait, d.path, args, .named d.path args, generics⟩, .trait d, none, d.module⟩

/-- The relation of an impl, if its types can be resolved. -/
def implInstance (id : Nat) (d : ImplDecl) : Check (Option Instance) := do
  let owner := (← entry d.module).path.child "impl"
  let (scope, generics) ← declareGenerics d.node.generics owner
  inScope scope do
    let forType ← typeOf? d.node.forType
    match d.node.trait with
    | none =>
      match forType with
      | .named p args => return some ⟨⟨id, .inherent, p, args, forType, generics⟩, .impl d, none, d.module⟩
      | _ => return none
    | some (.named info names args) =>
      match ← resolveOrReport info "trait" Kind.types (← pathOf names) with
      | none => return none
      | some ⟨_, .trait t, _⟩ =>
        match ← typeOf (.named info names args) with
        | .named p args => return some ⟨⟨id, .impl, p, args, forType, generics⟩, .impl d, some t, d.module⟩
        | _ => throw .notNamed
      | some r =>
        report (some info) (.notATrait r.path.render)
        return none
    | some other =>
      report (some other.info) (.notATrait other.show)
      return none

def addInstance (module : Nat) (stmt : Syntax.Stmt) : Check Unit := do
  let id := (← get).instances.length
  match (← entry module).defs[stmt.info.id]? with
  | some (.trait d) =>
    let i ← traitInstance id d
    modify fun s => { s with instances := s.instances ++ [i] }
  | some (.impl d) =>
    match ← implInstance id d with
    | some i => modify fun s => { s with instances := s.instances ++ [i] }
    | none => return
  | _ => return

/-- Reports impls of a trait for a type that had one before. -/
def reportOverlaps : (seen : List String) → List Instance → Check Unit
  | _, [] => return
  | seen, i :: rest => do
    let r := i.relation
    if r.isImpl && !r.isBlanket then
      let key := r.name ++ "|" ++ r.forPath.render
      if key ∈ seen then
        match i.owner with
        | .impl d => inModule i.module (report (some d.node.info) (.overlappingImpl r.name r.forPath.render))
        | .trait _ => throw (.unexpected .trait)
        reportOverlaps seen rest
      else reportOverlaps (key :: seen) rest
    else reportOverlaps seen rest

/-- Collects the relations of all modules, in the order of modules and statements. This is done once. -/
def buildRelations : Check Unit := do
  if (← get).built then return
  for id in List.range (← get).modules.length do
    let e ← entry id
    inModule id (e.syn.statements.forM (addInstance id))
  modify fun s => { s with built := true }
  reportOverlaps [] (← get).instances

/-! ### Methods -/

/-- The relations for a named type itself that have a method. -/
def directCandidates (s : State) (p : Path) (name : String) : List Candidate :=
  s.instances.filterMap fun i =>
    if !i.relation.isImpl && i.relation.forPath = p then (i.method? name).map fun m => ⟨i, m, []⟩ else none

/-- Adds the ends of chains that have a method and apply to the receiver. -/
def chainCandidates (recv : Ty) (name : String) : List Candidate → List Chain → Check (List Candidate)
  | found, [] => return found
  | found, c :: cs => do
    let s ← get
    match c.getLast?.bind fun r => s.instances[r.id]? with
    | none => chainCandidates recv name found cs
    | some i =>
      match i.method? name with
      | none => chainCandidates recv name found cs
      | some m =>
        if (← instantiate recv c).isSome then chainCandidates recv name (addCandidate found ⟨i, m, c⟩) cs
        else chainCandidates recv name found cs

mutual

/-- The relations through which a receiver has a method, each once. A generic has the methods of its bounds. -/
def candidates (name : String) : (recv : Ty) → Check (List Candidate)
  | .named p args => do
    let direct := (directCandidates (← get) p name).foldl addCandidate []
    chainCandidates (.named p args) name direct (← chainsOf p)
  | .generic ⟨_, _, bounds⟩ => candidatesOfAll name [] bounds
  | _ => return []

def candidatesOfAll (name : String) : List Candidate → List Ty → Check (List Candidate)
  | found, [] => return found
  | found, b :: bs => do candidatesOfAll name ((← candidates name b).foldl addCandidate found) bs

end

/-- The one relation through which a receiver has a method. None at all and several ones are reported. -/
def resolveMethod (at? : Option Syntax.Info) (recv : Ty) (name : String) : Check (Option Candidate) := do
  match ← candidates name recv with
  | [] =>
    report at? (.notFound "method" (recv.render ++ "." ++ name))
    return none
  | [c] => return some c
  | cs =>
    let names := (sortBy (· ≤ ·) (cs.map (·.provider.relation.name))).eraseDups
    report at? (.clashingMethod name recv.render names)
    return none

/-! ### Values that flow into a place -/

/-- Adds relations that the code of the module needs, each once. -/
def addRelImports (rels : List Relation) (e : ModuleEntry) : ModuleEntry :=
  { e with relImports := rels.foldl (fun l r => if l.any (·.id = r.id) then l else l ++ [r]) e.relImports }

/-- Records evidence for an expression, once for each pair of types. -/
def recordUpcast (node : Syntax.Expr) (source goal : Ty) (e : Evidence) : Check Unit := do
  let id := node.info.id
  let key := (id, source.render, goal.render)
  let s ← get
  unless key ∈ s.upcasts do
    set { s with
      upcasts := key :: s.upcasts
      evidence := s.evidence.insert id ((s.evidence[id]?).getD [] ++ [e]) }
    modifyEntry (← currentModule) fun m =>
      addRelImports e.relations { m with upcasts := m.upcasts ++ [⟨node, source, goal, e⟩] }

mutual

/-- Records what an expression of type `source` needs in a place of type `goal`. A generic place with bounds needs
each of them. -/
def upcastTo (node : Syntax.Expr) (source : Ty) : (goal : Ty) → Check Unit
  | .generic ⟨_, _, bounds⟩ => upcastToAll node source bounds
  | goal => do
    if source.absorbs then return
    match ← evidenceFor source goal with
    | some e => recordUpcast node source goal e
    | none => return

def upcastToAll (node : Syntax.Expr) (source : Ty) : List Ty → Check Unit
  | [] => return
  | g :: gs => do
    upcastTo node source g
    upcastToAll node source gs

end

/-- Reports a mismatch if `got` does not fit `want`, and records the upcast otherwise. -/
def expectAssignable (node : Syntax.Expr) (got want : Ty) : Check Unit := do
  if ← isAssignable got want then upcastTo node got want
  else report (some node.info) (.typeMismatch want got)

end Check

end TraitCheck
