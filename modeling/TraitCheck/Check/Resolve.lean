import TraitCheck.Check.State

/-!
Finding what a path stands for. Modules are glanced when a path leads into them: their definitions are registered, and
their imports become references.
-/

namespace TraitCheck

namespace State

/-- The first package of a name. -/
def package? (s : State) (name : String) : Option Package := s.packages.find? (·.name = name)

/-- The module of a package at a path, which includes the name of the package. -/
def moduleIn? (s : State) (package : Package) (p : Path) : Option Nat :=
  package.modules.find? fun id => (s.modules[id]?).any (·.path.render = p.render)

def module? (s : State) (p : Path) : Option Nat := (s.package? p.first).bind (s.moduleIn? · p)

def instanceOf? (s : State) (o : Owner) : Option Instance := s.instances.find? (·.owner.id = o.id)

/-- A method of a trait or an impl. In an impl of a trait, the methods of the trait are there too. -/
def memberOf? (s : State) (o : Owner) (name : String) : Option Method :=
  (o.method? name).or <|
    match o with
    | .trait _ => none
    | .impl _ => (s.instanceOf? o).bind (·.method? name)

/-- A method from the impls of a type's own methods. -/
def inherentMethod? (s : State) (d : TypeDecl) (name : String) : Except Failure (Option Method) :=
  s.instances.findSomeM? fun i =>
    if i.relation.kind = .inherent && i.relation.forPath = d.path then
      match i.owner with
      | .impl _ => return i.owner.method? name
      | .trait _ => throw (.unexpected .trait)
    else return none

end State

namespace Scope

def type? (s : Scope) (name : String) : Except Failure (Option TypeDecl) :=
  match s.get? .type name with
  | some (.type d) => return some d
  | some d => throw (.unexpected d.kind)
  | none => return none

def trait? (s : Scope) (name : String) : Except Failure (Option TraitDecl) :=
  match s.get? .trait name with
  | some (.trait d) => return some d
  | some d => throw (.unexpected d.kind)
  | none => return none

end Scope

/-- What a path stands for. The path of a definition at the top of a module is the full one. -/
structure Resolved where
  path : Path
  definition : Definition
  module : Option Nat
  deriving Inhabited

namespace Check

def typeMember? (s : State) (kinds : List Kind) (d : TypeDecl) (name : String) : Except Failure (Option Resolved) := do
  match if .variant ∈ kinds then d.variant? name else none with
  | some v => return some ⟨d.path.child name, .variant d v, some d.module⟩
  | none =>
    let method ← s.inherentMethod? d name
    return if .method ∈ kinds then method.map fun m => ⟨d.path.child name, .method m, some m.owner.module⟩ else none

def ofType? (s : State) (scope : Scope) (kinds : List Kind) (first last : String) : Except Failure (Option Resolved) :=
  if .variant ∈ kinds || .method ∈ kinds then do
    match ← scope.type? first with
    | some d => typeMember? s kinds d last
    | none => return none
  else return none

def ofTrait? (scope : Scope) (kinds : List Kind) (first last : String) : Except Failure (Option Resolved) :=
  if .method ∈ kinds then do
    match ← scope.trait? first with
    | some d => return ((Owner.trait d).method? last).map fun m => ⟨d.path.child last, .method m, some d.module⟩
    | none => return none
  else return none

/-- Looks a path of two segments up: a variant or method of a type, or a method of a trait. -/
def memberInScope? (s : State) (scope : Scope) (kinds : List Kind) (first last : String) :
    Except Failure (Option Resolved) := do
  match ← ofType? s scope kinds first last with
  | some r => return some r
  | none => ofTrait? scope kinds first last

/-- Looks a path up in one scope. `owner` is the module whose top scope it is, if it is one. -/
def inScope? (s : State) (scope : Scope) (kinds : List Kind) (owner : Option (Nat × Path)) (p : Path) :
    Except Failure (Option Resolved) :=
  match p.segments with
  | [name] =>
    return (scope.find? kinds name).map fun d =>
      match owner with
      | some (id, path) => ⟨path ++ p, d, some id⟩
      | none => ⟨p, d, none⟩
  | [first, last] => memberInScope? s scope kinds first last
  | _ => return none

/-- The ways to cut a path in two with two segments at least in front. -/
def cuts (p : Path) : List (Path × Path) :=
  (List.range (p.length - 1)).map fun i => (⟨p.segments.take (i + 2)⟩, ⟨p.segments.drop (i + 2)⟩)

/-- Tries cuts in order: in front a module, behind it a path in its top scope. -/
def firstCut (visit : Nat → Check Unit) (package : Package) (kinds : List Kind) :
    List (Path × Path) → Check (Option Resolved)
  | [] => return none
  | (front, rest) :: cuts => do
    match (← get).moduleIn? package front with
    | none => firstCut visit package kinds cuts
    | some id =>
      if rest.isEmpty then
        if .module ∈ kinds then return some ⟨front, .module id, none⟩ else firstCut visit package kinds cuts
      else
        visit id
        let e ← entry id
        match ← ofExcept (inScope? (← get) e.scope kinds (some (id, e.path)) rest) with
        | some r => return some r
        | none => firstCut visit package kinds cuts

/-- Resolves a path that starts with the name of a package. `visit` is called for each module that it leads into. -/
def qualifiedWith (visit : Nat → Check Unit) (kinds : List Kind) (p : Path) : Check (Option Resolved) := do
  match (← get).package? p.first with
  | some package => firstCut visit package kinds (cuts p)
  | none => return none

/-! ### Glancing -/

/-- The text that a cycle has wherever it was entered. -/
def cycleKey (members : List String) : String := String.join ((sortBy (· ≤ ·) members).map (· ++ ";"))

/-- Reports that a module is imported while it is itself being glanced. Each cycle is reported once. -/
def reportCycle (id : Nat) : Check Unit := do
  let s ← get
  let stack := s.glances.items.dropWhile (· ≠ id)
  let names := stack.filterMap fun i => (s.modules[i]?).map (·.path.render)
  unless cycleKey names ∈ s.cycles do
    set { s with cycles := cycleKey names :: s.cycles }
    report none (.circularModuleReference (names ++ [(← entry id).path.render]))

def visitWith (glance : Nat → Check Unit) (id : Nat) : Check Unit := do
  match (← entry id).phase with
  | .unvisited => glance id
  | .glancing => reportCycle id
  | _ => return

/-- The definition that a statement at the top of a module makes. -/
def topLevel? (module : Nat) (path : Path) : Syntax.Stmt → Option (String × Definition)
  | .var d => some (d.name, .var ⟨d.name, some d, .slot d.info.id, some module⟩)
  | .fn d => some (d.name, .fn ⟨d, path.child d.name, some module, none⟩)
  | .trait d => some (d.name, .trait ⟨d, path.child d.name, module⟩)
  | .type d => some (d.name, .type ⟨d, path.child d.name, module⟩)
  | .impl _ | .ret _ _ | .expr _ _ => none

/-- Registers a statement at the top of a module. Of two definitions of one kind and name the first one stays. -/
def register (id : Nat) (stmt : Syntax.Stmt) : Check Unit := do
  let e ← entry id
  match stmt with
  | .impl d => modifyEntry id fun e => { e with defs := e.defs.insert d.info.id (.impl ⟨d, id⟩) }
  | _ =>
    match topLevel? id e.path stmt with
    | some (name, d) =>
      if (e.scope.get? d.kind name).isSome then report (some stmt.info) (.redeclaration name)
      else
        modifyEntry id fun e =>
          { e with scope := e.scope.define name d, defs := e.defs.insert stmt.info.id d }
    | none => return

/-- Adds an import to the module that is being worked on. -/
def addReference (p : Path) : Check Unit := do
  modifyEntry (← currentModule) fun e => { e with references := e.references ++ [p] }

/-- Whether a definition may be used in the module that is being worked on. -/
def mayUse (r : Resolved) : Check Bool := do
  match r.module with
  | some id => return id = (← currentModule) || r.definition.isPublic
  | none => return true

/-- Imports every name of a module that has a public definition; a module may also import its own ones. -/
def useAll (visit : Nat → Check Unit) (info : Syntax.Info) (p : Path) : Check Unit := do
  match ← qualifiedWith visit Kind.modules p with
  | some ⟨_, .module id, _⟩ =>
    visit id
    let e ← entry id
    let current ← currentModule
    for name in e.scope.names do
      match e.scope.find? Kind.any name with
      | some d => if id = current || d.isPublic then addReference (e.path.child name)
      | none => throw (.notDeclared name e.path.render)
  | some r => throw (.unexpected r.definition.kind)
  | none => report (some info) (.notFound "module" p.render)

def useOne (visit : Nat → Check Unit) (info : Syntax.Info) (p : Path) : Check Unit := do
  match ← qualifiedWith visit Kind.any p with
  | some r =>
    unless ← mayUse r do report (some info) (.privateAccess r.path.render)
    addReference r.path
  | none => report (some info) (.notFound "import" p.render)

mutual

/-- Turns an import into references. `outer` is the path of the import around it. -/
def flatten (visit : Nat → Check Unit) (outer : List String) : Syntax.Use → Check Unit
  | .mk info _ segments wildcard nested => do
    match Path.ofSegments? (outer ++ segments) with
    | none => report (some info) (.notFound "import" "")
    | some path =>
      if wildcard then useAll visit info path
      else if nested.isEmpty then useOne visit info path
      else flattenAll visit path.segments nested

def flattenAll (visit : Nat → Check Unit) (outer : List String) : List Syntax.Use → Check Unit
  | [] => return
  | u :: us => do
    flatten visit outer u
    flattenAll visit outer us

end

/-- Registers the definitions of a module and resolves its imports. Modules that it imports from are glanced before. -/
def glance : (fuel : Nat) → (id : Nat) → Check Unit
  | 0, _ => throw .tooDeep
  | fuel + 1, id => do
    let e ← entry id
    unless e.phase = .unvisited do return
    let setPhase (phase : Phase) (s : State) : State :=
      { s with modules := s.modules.modify id fun e => { e with phase := phase } }
    bracket
      (fun s => setPhase .glancing { s with glances := s.glances.push id })
      (fun s => setPhase .glanced { s with glances := s.glances.pop })
      (inModule id do
        e.syn.statements.forM (register id)
        flattenAll (visitWith (glance fuel)) [] e.syn.uses)

/-- No glance is nested deeper than there are modules. -/
def glanceFuel : Check Nat := return (← get).modules.length + 1 + (← get).reserve

def glanceModule (id : Nat) : Check Unit := do glance (← glanceFuel) id

def visit (id : Nat) : Check Unit := visitWith glanceModule id

/-! ### Resolving -/

def qualified (kinds : List Kind) (p : Path) : Check (Option Resolved) := qualifiedWith visit kinds p

def ofSelf? (kinds : List Kind) (p : Path) : Check (Option Resolved) := do
  if p.first ≠ "Self" then return none
  let s ← get
  match ← selfType? with
  | none => return none
  | some (owner, t) =>
    match p.segments with
    | [_] => return if .self ∈ kinds then some ⟨p, .self owner t, none⟩ else none
    | [_, name] =>
      let m := if .method ∈ kinds then s.memberOf? owner name else none
      return m.map fun m => ⟨p, .method m, some m.owner.module⟩
    | _ => return none

/-- Looks a path up in the scopes of the frame, the innermost first and the top of the module last. -/
def inFrame? (kinds : List Kind) (p : Path) : Check (Option Resolved) := do
  let f ← frame
  let e ← entry f.module
  let s ← get
  match ← ofExcept (f.locals.findSomeM? fun scope => inScope? s scope kinds none p) with
  | some r => return some r
  | none => ofExcept (inScope? s e.scope kinds (some (f.module, e.path)) p)

/-- Resolves a path against imports whose last segment is its first one. -/
def viaImports (kinds : List Kind) (p : Path) : List Path → Check (Option Resolved)
  | [] => return none
  | reference :: rest => do
    if reference.last = p.first then
      match reference.parent? with
      | some scope =>
        match ← qualified kinds (scope ++ p) with
        | some r => return some r
        | none => viaImports kinds p rest
      | none => viaImports kinds p rest
    else viaImports kinds p rest

/-- Finds the definition of one of some kinds that a path stands for: `Self`, then scopes, then the path as a full one,
then imports and the prelude. -/
def resolve (kinds : List Kind) (p : Path) : Check (Option Resolved) := do
  if let some r ← ofSelf? kinds p then return some r
  if let some r ← inFrame? kinds p then return some r
  if let some r ← qualified kinds p then return some r
  let e ← entry (← currentModule)
  viaImports kinds p (e.references ++ (← get).prelude)

/-- Resolves a path, and reports if there is nothing or nothing that may be used here. -/
def resolveOrReport (info : Syntax.Info) (what : String) (kinds : List Kind) (p : Path) : Check (Option Resolved) := do
  match ← resolve kinds p with
  | some r =>
    unless ← mayUse r do report (some info) (.privateAccess r.path.render)
    return some r
  | none =>
    report (some info) (.notFound what p.render)
    return none

end Check

end TraitCheck
