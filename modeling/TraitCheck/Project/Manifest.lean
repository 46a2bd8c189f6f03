import TraitCheck.Path
import TraitCheck.Project.Environment
import TraitCheck.Project.FileTree
import TraitCheck.Project.Level
import TraitCheck.Yaml.Reader
import TraitCheck.Yaml.Shape

/-!
The manifest of a project: its packages, the prelude, and what is logged. Variables of a file next to it and of the
process win over it.
-/

namespace TraitCheck

/-- A package and the directory that its modules are in. -/
structure PackageRoot where
  name : String := ""
  root : String := ""
  deriving Inhabited, DecidableEq

structure Manifest where
  packages : List PackageRoot := []
  prelude : List String := []
  level : String := ""
  sections : List String := []
  deriving Inhabited

/-- What is wrong with a manifest that could be read. -/
inductive ManifestProblem where
  | noPackages
  | noName (index : Nat)
  | notAnIdentifier (name : String)
  | reservedName
  | declaredTwice (name : String)
  | badLevel (text : String) (error : LevelError)

def ManifestProblem.message : ManifestProblem → String
  | noPackages => "no packages declared"
  | noName i => "package " ++ toString i ++ " has no name"
  | notAnIdentifier name => "package name " ++ Text.quote name ++ " must be a single identifier"
  | reservedName => "package name std is reserved"
  | declaredTwice name => "package " ++ Text.quote name ++ " declared twice"
  | badLevel text e => "invalid log level " ++ Text.quote text ++ ": " ++ e.message text

inductive ManifestError where
  | unreadable (file detail : String)
  | malformed (file : String)
  | collectionKey
  | invalid (problem : ManifestProblem)

namespace Manifest

def fileName : String := "tarn.yaml"
def environmentFile : String := ".env"
def levelVariable : String := "TARN_LOG_LEVEL"
def sectionsVariable : String := "TARN_LOG_SECTIONS"

end Manifest

def ManifestError.message : ManifestError → String
  | unreadable file detail => "could not read " ++ file ++ ": " ++ detail
  | malformed file => "could not parse " ++ file
  | collectionKey => "a collection is a key where entries are taken over"
  | invalid problem => "invalid " ++ Manifest.fileName ++ ": " ++ problem.message

namespace Manifest

/-- The manifest of a project that has none. -/
def default : Manifest := { packages := [⟨"app", "."⟩], level := "error" }

/-! ### Reading -/

open Yaml (Shape Value)

def packageShape : Shape := .record [("name", .text), ("root", .text)]

def logShape : Shape := .record [("level", .text), ("sections", .list .text)]

def shape : Shape := .record [("packages", .list packageShape), ("prelude", .list .text), ("log", logShape)]

/-- The manifest that a value of its shape describes. -/
def ofValue (v : Value) : Manifest where
  packages := (v.field "packages").items.map fun p => ⟨(p.field "name").asText, (p.field "root").asText⟩
  prelude := (v.field "prelude").items.map (·.asText)
  level := ((v.field "log").field "level").asText
  sections := ((v.field "log").field "sections").items.map (·.asText)

def parse (text : String) : Except Yaml.ShapeError Manifest :=
  match Yaml.read text with
  | none => .error .mismatch
  | some none => .ok {}
  | some (some d) => (d.read? shape).map fun v => (v.map ofValue).getD {}

/-! ### Settings -/

/-- Applies variables; what is split at commas replaces all sections. -/
def applyVariables (value? : String → Option String) (m : Manifest) : Manifest :=
  let m := match value? levelVariable with
    | some level => { m with level := level }
    | none => m
  match value? sectionsVariable with
  | some text => { m with sections := Text.commaParts text }
  | none => m

/-- The level that is logged from on; without one it is that of errors. -/
def logLevel (m : Manifest) : Except ManifestProblem Int :=
  if m.level.isEmpty then return Level.error
  else
    match Level.parse m.level with
    | .ok level => return level
    | .error e => throw (.badLevel m.level e)

/-- Names must be single identifiers, each used once. -/
def checkNames : (index : Nat) → (seen : List String) → List PackageRoot → Except ManifestProblem Unit
  | _, _, [] => return
  | i, seen, p :: rest => do
    if p.name.isEmpty then throw (.noName i)
    if (Path.parse p.name).length ≠ 1 then throw (.notAnIdentifier p.name)
    if p.name = "std" then throw .reservedName
    if p.name ∈ seen then throw (.declaredTwice p.name)
    checkNames (i + 1) (p.name :: seen) rest

def validate (m : Manifest) : Except ManifestProblem Unit := do
  if m.packages.isEmpty then throw .noPackages
  checkNames 0 [] m.packages
  discard <| m.logLevel

/-- The variables of the file next to the manifest. -/
def readVariables (s : Storage) (t : FileTree) : Except ManifestError Environment.Vars :=
  match s.readFile t environmentFile with
  | .error detail => throw (.unreadable environmentFile detail)
  | .ok none => return []
  | .ok (some text) =>
    match Environment.parse text with
    | some vars => return vars
    | none => throw (.malformed environmentFile)

/-- The manifest of a project, with variables applied. `process?` are the variables of the process. -/
def load (s : Storage) (process? : String → Option String) (t : FileTree) : Except ManifestError Manifest := do
  let m ← match s.readFile t fileName with
    | .error detail => throw (.unreadable fileName detail)
    | .ok none => pure default
    | .ok (some text) =>
      match parse text with
      | .ok m => pure m
      | .error .mismatch => throw (.malformed fileName)
      | .error .collectionKey => throw .collectionKey
  let vars ← readVariables s t
  let m := m.applyVariables fun name => (process? name).or (vars.lookup name)
  match m.validate with
  | .ok _ => return m
  | .error problem => throw (.invalid problem)

end Manifest

end TraitCheck
