import TraitCheck.Check.Program
import TraitCheck.Project.Manifest
import TraitCheck.Syntax.Decode

/-!
Projects: the packages of a manifest with all their modules, ready to be checked.
-/

namespace TraitCheck

open Syntax.Decode (FileError decodeFile)

/-- `origins` are the files that modules come from. -/
structure Project where
  manifest : Manifest
  sources : FileSet := {}
  origins : List (String × String) := []
  state : State

inductive PackageError where
  | noRoot (detail : String)
  | badFile (error : FileError)
  | outside (file module package : String)
  | declaredTwice (file module other : String)

def PackageError.message : PackageError → String
  | noRoot detail => detail
  | badFile e => e.message
  | outside file module package => file ++ ": module " ++ module ++ " is not inside package " ++ package
  | declaredTwice file module other => file ++ ": module " ++ module ++ " is already declared in " ++ other

inductive LoadError where
  | manifest (error : ManifestError)
  | package (name : String) (error : PackageError)

namespace LoadError

def message : LoadError → String
  | manifest e => e.message
  | package name e => "could not load package " ++ name ++ ": " ++ e.message

def isMalformed : LoadError → Bool
  | manifest (.malformed _) | package _ (.badFile (.malformed _)) => true
  | _ => false

end LoadError

namespace Project

def moduleSuffix : String := ".ast.yaml"

def addFile (package : String) (p : Project) (file text : String) :
    Except PackageError ((String × Syntax.Module) × Project) :=
  match decodeFile p.sources file text with
  | (.error e, _) => throw (.badFile e)
  | (.ok (name, m), sources) =>
    let path := Path.parse name
    if path.length < 2 || path.first ≠ package then throw (.outside file name package)
    else
      match p.origins.lookup path.render with
      | some other => throw (.declaredTwice file name other)
      | none => return ((name, m), { p with sources := sources, origins := p.origins ++ [(path.render, file)] })

def addFiles (package : String) (p : Project) :
    List (String × String) → Except PackageError (List (String × Syntax.Module) × Project)
  | [] => return ([], p)
  | (file, text) :: rest => do
    let (m, p) ← addFile package p file text
    let (modules, p) ← addFiles package p rest
    return (m :: modules, p)

def addPackage (s : Storage) (t : FileTree) (p : Project) (package : PackageRoot) : Except PackageError Project := do
  let root := FilePath.clean package.root
  match s.subtree t root with
  | .error detail => throw (.noRoot detail)
  | .ok tree =>
    let files := (tree.files root).filter (·.1.endsWith moduleSuffix)
    let (modules, p) ← addFiles package.name p files
    return { p with state := ((Check.addPackage package.name modules).run p.state).2 }

def addPackages (s : Storage) (t : FileTree) (p : Project) : List PackageRoot → Except LoadError Project
  | [] => return p
  | package :: rest =>
    match addPackage s t p package with
    | .ok p => addPackages s t p rest
    | .error e => throw (.package package.name e)

/-- Reads the manifest of a project and all modules of its packages. -/
def load (s : Storage) (process? : String → Option String) (t : FileTree) : Except LoadError Project :=
  match Manifest.load s process? t with
  | .error e => throw (.manifest e)
  | .ok m =>
    let prelude := if m.prelude.isEmpty then Standard.prelude else m.prelude.map Path.parse
    addPackages s t { manifest := m, state := .initial prelude } m.packages

def check (p : Project) : Option Failure × Project :=
  let (failure, s) := p.state.check
  (failure, { p with state := s })

def modules (p : Project) : List ModuleEntry :=
  p.manifest.packages.flatMap fun package =>
    match p.state.packages.find? (·.name = package.name) with
    | some found => found.modules.filterMap (p.state.modules[·]?)
    | none => []

end Project

end TraitCheck
