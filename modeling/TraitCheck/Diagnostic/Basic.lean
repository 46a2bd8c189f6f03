import TraitCheck.Source
import TraitCheck.Ty.Substitution

/-!
What the checker reports about a program: causes, their codes, severity and wording.
-/

namespace TraitCheck

inductive Severity where
  | error
  | warning
  deriving DecidableEq, Inhabited

def Severity.render : Severity → String
  | .error => "error"
  | .warning => "warning"

namespace Diagnostic

/-- The cause of a diagnostic. `what` says which kind of thing was looked for or counted. -/
inductive Cause where
  | unclassified (text : String)
  | notFound (what name : String)
  | typeMismatch (expected got : Ty)
  | branchMismatch (first second : Ty)
  | clashingMethod (method typeName : String) (providers : List String)
  | narrowFieldAccess (field typeName : String)
  | privateAccess (name : String)
  | unresolvedGeneric (name : String)
  | circularModuleReference (cycle : List String)
  | nonExhaustiveMatch
  | unreachablePattern
  | arityMismatch (what : String) (expected got : Int)
  | overlappingImpl (trait typeName : String)
  | notCallable (type : Ty)
  | redeclaration (name : String)
  | notATrait (name : String)
  | missingReturn (function : String) (expected : Ty)
  | missingMethod (method trait typeName : String)
  deriving Inhabited

namespace Cause

def code : Cause → Nat
  | unclassified .. => 0
  | notFound .. => 1
  | typeMismatch .. => 2
  | branchMismatch .. => 3
  | clashingMethod .. => 4
  | narrowFieldAccess .. => 5
  | privateAccess .. => 6
  | unresolvedGeneric .. => 7
  | circularModuleReference .. => 8
  | nonExhaustiveMatch => 9
  | unreachablePattern => 10
  | arityMismatch .. => 11
  | overlappingImpl .. => 12
  | notCallable .. => 13
  | redeclaration .. => 14
  | notATrait .. => 15
  | missingReturn .. => 16
  | missingMethod .. => 17

/-- Only unreachable patterns leave a program correct. -/
def severity : Cause → Severity
  | unreachablePattern => .warning
  | _ => .error

/-- Text between the marks that names are shown in. -/
def ticked (s : String) : String := "\x60" ++ s ++ "\x60"

def message : Cause → String
  | unclassified text => "unclassified error: " ++ text
  | notFound what name => what ++ " " ++ ticked name ++ " not found"
  | typeMismatch expected got =>
    "type mismatch: expected " ++ ticked expected.render ++ ", got " ++ ticked got.render
  | branchMismatch first second =>
    "branch type mismatch: " ++ ticked first.render ++ " and " ++ ticked second.render ++ " have no common type"
  | clashingMethod method typeName providers =>
    "clashing method name " ++ ticked method ++ " on " ++ ticked typeName ++ ": provided by " ++
      ", ".intercalate providers
  | narrowFieldAccess field typeName =>
    "field " ++ ticked field ++ " is not defined in all variants of " ++ ticked typeName
  | privateAccess name => ticked name ++ " is private to its module"
  | unresolvedGeneric name => "unresolved generic " ++ ticked name
  | circularModuleReference cycle => "circular module reference: " ++ " -> ".intercalate cycle
  | nonExhaustiveMatch => "non-exhaustive match expression"
  | unreachablePattern => "unreachable pattern"
  | arityMismatch what expected got =>
    "expected " ++ toString expected ++ " " ++ what ++ ", got " ++ toString got
  | overlappingImpl trait typeName =>
    "overlapping implementations of " ++ ticked trait ++ " for " ++ ticked typeName
  | notCallable type => "type " ++ ticked type.render ++ " is not callable"
  | redeclaration name => ticked name ++ " is already declared in this scope"
  | notATrait name => ticked name ++ " is not a trait"
  | missingReturn function expected =>
    "function " ++ ticked function ++ " must return a value of type " ++ ticked expected.render
  | missingMethod method trait typeName =>
    "impl of " ++ ticked trait ++ " for " ++ ticked typeName ++ " is missing method " ++ ticked method

/-- Completes the types that are part of the cause. -/
def complete (result? : Nat → Option Ty) : Cause → Cause
  | typeMismatch expected got => typeMismatch (expected.complete result?) (got.complete result?)
  | branchMismatch first second => branchMismatch (first.complete result?) (second.complete result?)
  | notCallable type => notCallable (type.complete result?)
  | missingReturn function expected => missingReturn function (expected.complete result?)
  | c => c

end Cause

end Diagnostic

/-- A cause with the module it was found in and the range of the node, if there is one. -/
structure Diagnostic where
  module : String
  range : Option Range
  cause : Diagnostic.Cause
  deriving Inhabited

namespace Diagnostic

def severity (d : Diagnostic) : Severity := d.cause.severity

def isError (d : Diagnostic) : Bool := d.severity = .error

def start (d : Diagnostic) : Int := (d.range.map (·.start)).getD 0

def stop (d : Diagnostic) : Int := (d.range.map (·.stop)).getD 0

def codeText (n : Nat) : String :=
  let digits := (toString n).toList
  String.ofList (List.replicate (3 - digits.length) '0' ++ digits)

/-- The message with its code, as in `(E001) …` or `(W010) …`. -/
def render (d : Diagnostic) : String :=
  (if d.isError then "(E" else "(W") ++ codeText d.cause.code ++ ") " ++ d.cause.message

/-- The message after its position or, where none is known, after its module. -/
def renderAt (files : Option FileSet) (d : Diagnostic) : String :=
  match files with
  | some files =>
    if d.start ≠ 0 then (files.position d.start).render ++ ": " ++ d.render
    else if d.module.isEmpty then d.render else d.module ++ ": " ++ d.render
  | none => if d.module.isEmpty then d.render else d.module ++ ": " ++ d.render

/-- A list of diagnostics as one structured log value. -/
def renderLog (ds : List Diagnostic) : String :=
  let entry (e : Diagnostic × Nat) : String :=
    "e" ++ toString e.2 ++ "=[msg=" ++ e.1.render ++ " module=" ++ e.1.module ++ "]"
  "[" ++ " ".intercalate (ds.zipIdx.map entry) ++ "]"

end Diagnostic

end TraitCheck
