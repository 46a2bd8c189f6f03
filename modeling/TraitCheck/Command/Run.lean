import TraitCheck.Command.Arguments
import TraitCheck.Project.Load

/-!
The commands: checking a project, and listing its relations.
-/

namespace TraitCheck.Command

/-- What was printed, and the error that a command ended with. -/
structure Outcome where
  output : String
  error : Option String := none

inductive Failed where
  | usage (error : UsageError)
  | noTarget (path detail : String)
  | load (error : LoadError)
  | level (text : String) (error : LevelError)
  | internal (failure : Failure)
  | diagnostics (errors : Nat)

def Failed.message : Failed → String
  | usage e => e.message
  | noTarget path detail => "could not stat target: stat " ++ path ++ ": " ++ detail
  | load e => "could not load project (this is not a compile error): " ++ e.message
  | level text e => "invalid --log-level: " ++ e.message text
  | internal f => "internal compiler failure: " ++ f.message
  | diagnostics n => "found " ++ toString n ++ " errors"

def Failed.report (f : Failed) : String :=
  "Error: " ++ f.message ++ "\n" ++
    match f with
    | usage (.unknownCommand _) => "Run '" ++ programName ++ " --help' for usage.\n"
    | _ => ""

def usageText : String :=
  "Usage:\n  " ++ programName ++ " check [./folder] [--log-level LEVEL] [--no-color]\n  " ++ programName ++
    " relations [./folder] [--std] [--log-level LEVEL] [--no-color]\n"

def line (s : String) : String := s ++ "\n"

/-- The diagnostics and a summary. Errors make the command fail. -/
def printDiagnostics (p : Project) : String × Option Failed :=
  let found := p.state.reported
  let errors := found.countP (·.isError)
  let warnings := toString (found.countP (!·.isError)) ++ " warnings"
  let lines := String.join (found.map fun d => line (d.renderAt (some p.sources)))
  if errors = 0 then
    (lines ++ line ("ok: " ++ toString p.modules.length ++ " modules checked, " ++ warnings), none)
  else (lines ++ line (toString errors ++ " errors, " ++ warnings), some (.diagnostics errors))

/-- The relations and, for each module, those that its code needs. -/
def printRelations (p : Project) (std : Bool) : String :=
  let declaredInStd (i : Instance) : Bool := (p.state.modules[i.module]?).any (·.package = Standard.packageName)
  let shown := p.state.instances.filter fun i => std || !declaredInStd i
  let imports (e : ModuleEntry) : String :=
    line ("# " ++ e.path.render ++ ": " ++ toString e.upcasts.length ++ " upcast sites") ++
      String.join (e.relImports.map fun r => line ("  " ++ r.render))
  line "# relations" ++ String.join (shown.map fun i => line i.relation.render) ++ String.join (p.modules.map imports)

def Action.print (a : Action) (o : Options) (p : Project) : String × Option Failed :=
  match a with
  | .check => printDiagnostics p
  | .relations =>
    if p.state.reported.any (·.isError) then printDiagnostics p else (printRelations p o.std, none)

/-- Loads and checks the project in a directory and prints what was asked for. -/
def Action.execute (a : Action) (o : Options) (process? : String → Option String) (dir : FileTree) :
    String × Option Failed :=
  match Project.load .disk process? dir with
  | .error e => ("", some (.load e))
  | .ok p =>
    match if o.logLevel.isEmpty then .ok 0 else Level.parse o.logLevel with
    | .error e => ("", some (.level o.logLevel e))
    | .ok _ =>
      match p.check with
      | (some f, _) => ("", some (.internal f))
      | (none, p) => a.print o p

/-- The path of a target as seen from the working directory. -/
def absolute (cwd target : String) : String :=
  FilePath.clean (if target.startsWith "/" then target else cwd ++ "/" ++ target)

def parent (path : String) : String :=
  FilePath.clean ("/" ++ "/".intercalate (Text.split '/' path).dropLast)

section

variable {m : Type → Type} [Monad m]

/-- Finds the directory of a target. A file stands for the directory that it is in. -/
def findTarget (look : String → m FileTree.Found) (path : String) : m (Except Failed FileTree) := do
  match ← look path with
  | .missing => return .error (.noTarget path "no such file or directory")
  | .belowFile => return .error (.noTarget path "not a directory")
  | .tree t =>
    if t.text?.isNone then return .ok t
    else
      match ← look (parent path) with
      | .tree t => return .ok t
      | _ => return .error (.noTarget path "no such file or directory")

/-- Runs the program. `look` says what there is at an absolute path. -/
def run (cwd : String) (look : String → m FileTree.Found) (process? : String → Option String) (args : List String) :
    m Outcome := do
  let (output, failed) ← match parse args with
    | .error e => pure ("", some (.usage e))
    | .ok .help => pure (usageText, none)
    | .ok (.run action options target) => do
      match ← findTarget look (absolute cwd (target.getD ".")) with
      | .error f => pure ("", some f)
      | .ok dir => pure (action.execute options process? dir)
  match failed with
  | some f => return ⟨output ++ f.report, some f.message⟩
  | none => return ⟨output, none⟩

end

end TraitCheck.Command
