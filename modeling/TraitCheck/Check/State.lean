import Std.Data.TreeMap
import TraitCheck.Check.Definition
import TraitCheck.Diagnostic.Basic
import TraitCheck.Stack
import TraitCheck.Text.Quoted

/-!
The state of a check, and the actions that read and change it. A failure ends a check but keeps what was found so far.
-/

namespace TraitCheck

/-- An assumption of the checker that does not hold. It says nothing about the program that is checked. -/
inductive Failure where
  | unknownBinary (op : String)
  | unknownUnary (op : String)
  | notATrait (t : Ty)
  | chainsTooEarly
  | packageTooLate (package : String)
  | outsidePackage (module package : String)
  | notGlanced (module : String)
  | implTooEarly
  | noModule
  | noForType
  | emptyPath
  | unexpected (kind : Kind)
  | notDeclared (name module : String)
  | notAtTop
  | notNamed
  | noMethod (name : String)
  | tooDeep
  deriving Inhabited

def Failure.message (f : Failure) : String :=
  "assertion failed: " ++
    match f with
    | unknownBinary op => "unknown binary operator " ++ Text.quote op
    | unknownUnary op => "unknown unary operator " ++ Text.quote op
    | notATrait t => t.render ++ " is not a trait"
    | chainsTooEarly => "super relation chains requested before relations were built"
    | packageTooLate package => "package " ++ package ++ " added after instance relations were built"
    | outsidePackage module package => "module " ++ module ++ " is not inside package " ++ package
    | notGlanced module => "module " ++ module ++ " checked before it was glanced"
    | implTooEarly => "impl scope requested before relations were built"
    | noModule => "no module is being checked"
    | noForType => "impl is for no type"
    | emptyPath => "empty path"
    | unexpected kind => kind.render ++ " where none can stand"
    | notDeclared name module => name ++ " is not declared in " ++ module
    | notAtTop => "function is not a top-level definition"
    | notNamed => "trait of an impl is no named type"
    | noMethod name => "no method " ++ name
    | tooDeep => "nested too deep"

inductive Phase where
  | unvisited
  | glancing
  | glanced
  | checking
  | checked
  deriving DecidableEq, Inhabited

namespace Phase

def render : Phase → String
  | unvisited => "unvisited"
  | glancing => "glancing"
  | glanced => "glanced"
  | checking => "checking"
  | checked => "checked"

def list : List Phase := [unvisited, glancing, glanced, checking, checked]

end Phase

/-- An expression whose value is used as something else. -/
structure UpcastSite where
  node : Syntax.Expr
  source : Ty
  goal : Ty
  evidence : Evidence
  deriving Inhabited

/-- A module with what is known about it. `references` are the imports, one path for each imported name; `defs` are
the definitions of its statements. -/
structure ModuleEntry where
  path : Path
  package : String
  syn : Syntax.Module
  phase : Phase := .unvisited
  references : List Path := []
  scope : Scope := {}
  defs : Std.TreeMap Nat Definition := {}
  upcasts : List UpcastSite := []
  relImports : List Relation := []
  deriving Inhabited

structure Package where
  name : String
  modules : List Nat
  deriving Inhabited

/-- A module that is being worked on, with the scopes below its top, the innermost first. -/
structure Frame where
  id : Nat
  module : Nat
  locals : List Scope := []
  deriving Inhabited

/-- How many scopes there are, the top one included. -/
def Frame.depth (f : Frame) : Nat := f.locals.length + 1

/-- A closure that no use has given a type yet, with the frame as it was where the closure is written. -/
structure PendingClosure where
  node : Syntax.Lambda
  frame : Frame
  deriving Inhabited

/-- Whether a closure was written in a frame at a depth or deeper. -/
def PendingClosure.isDue (frame depth : Nat) (p : PendingClosure) : Bool :=
  p.frame.id = frame && depth ≤ p.frame.depth

structure State where
  modules : List ModuleEntry := []
  packages : List Package := []
  prelude : List Path := []
  instances : List Instance := []
  built : Bool := false
  frames : Stack Frame := .empty
  glances : Stack Nat := .empty
  cycles : List String := []
  memo : Memo := []
  /-- the types of nodes -/
  slots : Std.TreeMap Nat Ty := {}
  /-- the evidence recorded for expressions -/
  evidence : Std.TreeMap Nat (List Evidence) := {}
  /-- the generics of declarations -/
  generics : Std.TreeMap Nat (Generic Ty) := {}
  /-- the types of functions and methods -/
  signatures : Std.TreeMap Nat Ty := {}
  /-- the variants of patterns -/
  variants : Std.TreeMap Nat (TypeDecl × Syntax.Variant) := {}
  /-- the closures that were left without a type at first -/
  closures : Std.TreeMap Nat Syntax.Lambda := {}
  /-- the results of closures whose bodies have been checked -/
  results : Std.TreeMap Nat Ty := {}
  upcasts : List (Nat × String × String) := []
  pending : List PendingClosure := []
  typing : List Nat := []
  diagnostics : List Diagnostic := []
  failures : List Failure := []
  /-- how much deeper than expected anything may be nested -/
  reserve : Nat := evidenceFuel
  nextNode : Nat := 1
  nextFrame : Nat := 0
  nextResult : Nat := 0
  deriving Inhabited

def State.relations (s : State) : List Relation := s.instances.map (·.relation)

/-- An action on the state that may fail. -/
abbrev Check (α : Type) := ExceptT Failure (StateM State) α

namespace Check

variable {α : Type}

/-- Runs `x` between two changes of the state. The second one happens also if `x` fails. -/
def bracket (enter leave : State → State) (x : Check α) : Check α :=
  ExceptT.mk fun s =>
    let (r, s) := x.run (enter s)
    (r, leave s)

def pathOf (names : List String) : Check Path :=
  match Path.ofSegments? names with
  | some p => return p
  | none => throw .emptyPath

/-! ### Modules and frames -/

def entry (id : Nat) : Check ModuleEntry := return ((← get).modules[id]?).getD default

def modifyEntry (id : Nat) (f : ModuleEntry → ModuleEntry) : Check Unit :=
  modify fun s => { s with modules := s.modules.modify id f }

def frame : Check Frame := do
  match (← get).frames.peek? with
  | some f => return f
  | none => throw .noModule

def currentModule : Check Nat := return (← frame).module

def inModule (id : Nat) (x : Check α) : Check α :=
  bracket
    (fun s => { s with frames := s.frames.push { id := s.nextFrame, module := id }, nextFrame := s.nextFrame + 1 })
    (fun s => { s with frames := s.frames.pop }) x

def modifyFrame (f : Frame → Frame) (s : State) : State := { s with frames := s.frames.modifyTop f }

def inScope (scope : Scope) (x : Check α) : Check α :=
  bracket
    (modifyFrame fun f => { f with locals := scope :: f.locals })
    (modifyFrame fun f => { f with locals := f.locals.tail }) x

def modifyScope (f : Scope → Scope) : Check Unit :=
  modify (modifyFrame fun fr => { fr with locals := fr.locals.modifyHead f })

def define (name : String) (d : Definition) : Check Unit := modifyScope (·.define name d)

def selfType? : Check (Option (Owner × Ty)) := return (← frame).locals.findSome? (·.self)

def body? : Check (Option BodyScope) := return (← frame).locals.findSome? (·.body)

def addReturn (t : Ty) : Check Unit := do
  let rec note : List Scope → List Scope
    | [] => []
    | s :: rest =>
      match s.body with
      | some b => { s with body := some { b with returns := b.returns ++ [t] } } :: rest
      | none => s :: note rest
  modify (modifyFrame fun f => { f with locals := note f.locals })

/-! ### Diagnostics -/

/-- Reports a cause in the module that is being worked on, at a node if there is one. -/
def report (at? : Option Syntax.Info) (cause : Diagnostic.Cause) : Check Unit :=
  modify fun s =>
    let module := (s.frames.peek?.bind fun f => s.modules[f.module]?).map (·.path.render)
    { s with diagnostics := s.diagnostics ++ [⟨module.getD "", at?.map (·.range), cause⟩] }

/-! ### Types of nodes -/

/-- A type with the results of closures that are known by now. -/
def completed (t : Ty) : Check Ty := do
  let s ← get
  return t.complete fun i => s.results[i]?

/-- The type of a node; absent if it has none. -/
def slot (id : Nat) : Check Ty := do completed (((← get).slots[id]?).getD .absent)

def setSlot (id : Nat) (t : Ty) : Check Unit := modify fun s => { s with slots := s.slots.insert id t }

/-- A number for the result of a closure whose body is about to be checked. -/
def newResult : Check Nat := do
  let s ← get
  set { s with nextResult := s.nextResult + 1 }
  return s.nextResult

/-- The results of closures once that of one more of them is known, also in results that mention it. -/
def learn (known : Std.TreeMap Nat Ty) (id : Nat) (t : Ty) : Std.TreeMap Nat Ty :=
  let t := t.resultOf.complete fun i => known[i]?
  (known.map fun _ u => u.complete fun i => if i = id then some t else none).insert id t

def setResult (id : Nat) (t : Ty) : Check Unit := modify fun s => { s with results := learn s.results id t }

/-! ### Questions about types -/

/-- Answers a question by the relations, which must have been built if it takes a search. -/
def ask (q : {m : Type → Type} → [Monad m] → (Path → m (List Chain)) → m α) : Check α := do
  let s ← get
  if s.built then
    let (a, memo) := (q (chains s.relations)).run s.memo
    set { s with memo := memo }
    return a
  else q (m := Check) fun _ => throw .chainsTooEarly

def isAssignable (t target : Ty) : Check Bool := ask fun chains => assignWith chains maxDepth [] t target

def combine (a b : Ty) : Check (Option Ty) := ask fun chains => combineWith chains a b

def chainsOf (p : Path) : Check (List Chain) := ask fun chains => chains p

def instantiate (t : Ty) (c : Chain) : Check (Option (Ty × Bindings)) :=
  ask fun chains => c.instantiate (assignWith chains maxDepth []) t

/-- What a failed search for evidence means for the check. -/
def evidenceOr : Except EvidenceError α → Check α
  | .ok a => return a
  | .error (.notATrait t) => throw (.notATrait t)
  | .error .tooDeep => throw .tooDeep

def viewAs (t : Ty) (p : Path) (args : List Ty) : Check (Option Evidence) := do
  let rels := (← get).relations
  evidenceOr (← ask fun chains => (TraitCheck.viewAs rels chains evidenceFuel t p args).run)

def evidenceFor (source goal : Ty) : Check (Option Evidence) := do
  let s ← get
  evidenceOr (← ask fun chains => (evidenceWith s.relations chains s.reserve source goal).run)

/-- The evidence for a function where another function type is expected, and whether it needs any. -/
def evidenceForFn (ps : List Ty) (r : Ty) (qs : List Ty) (s : Ty) : Check (Option (Evidence × Bool)) := do
  let rels := (← get).relations
  evidenceOr (← ask fun chains => (fnEvidence (evidenceWith rels chains evidenceFuel) ps r qs s).run)

end Check

end TraitCheck
