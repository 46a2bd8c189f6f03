import TraitCheck.Check.Expr
import TraitCheck.Standard
import TraitCheck.Syntax.Number
import TraitCheck.Syntax.Visit

/-!
Packages and the check of all their modules.
-/

namespace TraitCheck

namespace Check

open Syntax (Stmt)

/-! ### Packages -/

/-- Adds the modules of a package, given by their full paths, in the order of those. -/
def addPackage (name : String) (modules : List (String × Syntax.Module)) : Check Unit := do
  if (← get).built then throw (.packageTooLate name)
  let sorted := sortBy (fun a b => a.1 ≤ b.1) modules
  for (text, _) in sorted do
    let p := Path.parse text
    unless p.first = name && 1 < p.length do throw (.outsidePackage text name)
  let add (s : State) (m : String × Syntax.Module) : State :=
    let (syn, next) := m.2.number.run s.nextNode
    { s with modules := s.modules ++ [{ path := Path.parse m.1, package := name, syn := syn }], nextNode := next }
  modify fun s =>
    let ids := (List.range sorted.length).map (s.modules.length + ·)
    { sorted.foldl add s with packages := s.packages ++ [⟨name, ids⟩] }

/-! ### Modules -/

/-- Checks the methods of a trait or an impl. Of two methods of one name the last one gives the signature. -/
def checkMethods (nested : Nested) (o : Owner) : Check Unit := do
  withScope nested (← ownerScope o) do
    for fn in o.fns do
      match o.method? fn.name with
      | some m => checkFnBody nested fn (← methodSignature m)
      | none => throw (.noMethod fn.name)

/-- Reports methods of a trait without a body that an impl of it leaves out. The impl must be for a type, which the
report names. -/
def checkComplete (d : ImplDecl) (i : Instance) : Check Unit := do
  match i.trait? with
  | none => return
  | some trait =>
    for fn in trait.node.methods do
      if fn.body.isNone && ((Owner.impl d).method? fn.name).isNone then
        if i.relation.forType.isAbsent then throw .noForType
        report (some d.node.info) (.missingMethod fn.name i.relation.name i.relation.forType.render)

def checkTopLevel (nested : Nested) (module : Nat) (stmt : Stmt) : Check Unit := do
  let e ← entry module
  match stmt, e.defs[stmt.info.id]? with
  | .var _, some (.var v) => discard <| varType nested v
  | .var d, _ => discard <| checkVar nested d
  | .fn d, some (.fn f) => checkFnBody nested d (← fnSignature f)
  | .fn d, _ => checkFnBody nested d (← signatureOf d (e.path.child d.name))
  | .trait _, some (.trait d) => checkMethods nested (.trait d)
  | .impl _, some (.impl d) =>
    match (← get).instanceOf? (.impl d) with
    | some i =>
      checkMethods nested (.impl d)
      checkComplete d i
    | none => return
  | .impl _, _ => throw (.unexpected .impl)
  | .type _, some (.type d) => d.node.fieldDefs.forM fun f => discard <| fieldType d f
  | .ret _ _, _ | .expr _ _, _ => checkStmt nested stmt
  | _, _ => return

/-- Checks a module, by checks of any depth. One whose check has started is not checked again. -/
def checkModule (checks : Nat → Nested) (id : Nat) : Check Unit := do
  let e ← entry id
  match e.phase with
  | .checking | .checked => return
  | .glanced =>
    let nested := checks (depthBound (← get))
    modifyEntry id fun e => { e with phase := .checking }
    inModule id (e.syn.statements.forM (checkTopLevel nested id))
    modifyEntry id fun e => { e with phase := .checked }
  | _ => throw (.notGlanced e.path.render)

/-- Types the closures of variables at the top of modules that nothing has used. -/
def typeTopLevelClosures (nested : Nested) : (fuel : Nat) → Check Unit
  | 0 => throw .tooDeep
  | fuel + 1 => do
    match (← get).pending with
    | [] => return
    | p :: _ =>
      bracket id (fun s => { s with pending := s.pending.tail }) (inModule p.frame.module (typeUnused nested p.node))
      typeTopLevelClosures nested fuel

/-- Glances all modules, builds the relations, and checks all modules. -/
def checkModulesBy (checks : Nat → Nested) : Check Unit := do
  let ids := List.range (← get).modules.length
  ids.forM glanceModule
  buildRelations
  ids.forM (checkModule checks)
  let bound := depthBound (← get)
  typeTopLevelClosures (checks bound) bound

def checkModules : Check Unit := checkModulesBy levels

end Check

namespace State

def initial (prelude : List Path) : State :=
  ((Check.addPackage Standard.packageName Standard.modules).run { prelude := prelude }).2

/-- Checks everything. A failure is kept as well as returned; what is wrong with the program is in the diagnostics. -/
def check (s : State) : Option Failure × State :=
  match Check.checkModules.run s with
  | (.ok _, s) => (none, s)
  | (.error f, s) => (some f, { s with failures := s.failures ++ [f] })

/-- A type as it reads with everything that is known in the end. -/
def complete (s : State) (t : Ty) : Ty := t.complete fun i => s.results[i]?

/-- Whether a type comes to an end if the results of closures are put in their places again and again. -/
def unfolds (s : State) (t : Ty) : Bool := (s.complete t).waits.all fun i => s.results[i]?.isNone

def reported (s : State) : List Diagnostic :=
  s.diagnostics.map fun d => { d with cause := d.cause.complete fun i => s.results[i]? }

def typeOf? (s : State) (id : Nat) : Option Ty := ((s.slots[id]?).map s.complete).filter (!·.isAbsent)

def evidenceOf (s : State) (id : Nat) : List Evidence := (s.evidence[id]?).getD []

end State

end TraitCheck
