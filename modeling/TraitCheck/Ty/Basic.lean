import TraitCheck.Path

/-!
Types as the checker sees them: their text, the types it knows by name, and equality.
-/

namespace TraitCheck

/-- A type parameter. The key tells parameters of one name but of different declarations apart. -/
structure Generic (α : Type) where
  name : String
  key : String
  bounds : List α
  deriving Inhabited

/--
* `named`: a declared type or trait with its arguments
* `fn`: a function; the generics are those that the function itself declares
* `generic`: a type parameter
* `unknown`: the type of an expression about which an error was reported
* `closure`: a closure whose parameters have no types before its first use
* `hole`: written `_`, fits everything
* `absent`: no type was given
* `ongoing`: stands only as the result of the function type of a closure whose body is being checked
-/
inductive Ty where
  | named (path : Path) (args : List Ty)
  | fn (generics : List (Generic Ty)) (params : List Ty) (result : Ty)
  | generic (g : Generic Ty)
  | unknown
  | closure (id : Nat) (arity : Nat)
  | hole
  | absent
  | ongoing (id : Nat)
  deriving Inhabited

namespace Ty

def intPath : Path := ⟨["std", "int", "Int"]⟩
def floatPath : Path := ⟨["std", "float", "Float"]⟩
def stringPath : Path := ⟨["std", "string", "String"]⟩
def charPath : Path := ⟨["std", "char", "Char"]⟩
def boolPath : Path := ⟨["std", "bool", "Bool"]⟩
def unitPath : Path := ⟨["std", "unit", "Unit"]⟩
def neverPath : Path := ⟨["std", "never", "Never"]⟩
def listPath : Path := ⟨["std", "list", "List"]⟩

def int : Ty := .named intPath []
def float : Ty := .named floatPath []
def string : Ty := .named stringPath []
def char : Ty := .named charPath []
def bool : Ty := .named boolPath []
def unit : Ty := .named unitPath []

/-- The type of what produces no value. -/
def never : Ty := .named neverPath []

def list (elem : Ty) : Ty := .named listPath [elem]

def isNever : Ty → Bool
  | .named p _ => p = neverPath
  | _ => false

/-- The types that satisfy every check. -/
def absorbs : Ty → Bool
  | .unknown | .hole | .absent => true
  | _ => false

def isAbsent : Ty → Bool
  | .absent => true
  | _ => false

def isFn : Ty → Bool
  | .fn .. => true
  | _ => false

/-- What a function with the given result returns: a result that is not there, or not there yet, is the unit. -/
def resultOf : Ty → Ty
  | .absent | .ongoing _ => unit
  | t => t

def path? : Ty → Option Path
  | .named p _ => some p
  | _ => none

/-- As many holes as a declaration has parameters. -/
def holes (n : Nat) : List Ty := List.replicate n .hole

/-- A result that reads as the unit because it is not there, or not there yet. -/
def isPending : Ty → Bool
  | .absent | .ongoing _ => true
  | _ => false

def isUnit : Ty → Bool
  | .named p [] => p = unitPath
  | _ => false

mutual

def render : Ty → String
  | .named p [] => p.render
  | .named p (a :: as) => p.render ++ "<" ++ ", ".intercalate (renderAll (a :: as)) ++ ">"
  | .fn [] ps r =>
    "fn(" ++ ", ".intercalate (renderAll ps) ++ "): " ++ (if r.isPending then unitPath.render else render r)
  | .fn (g :: gs) ps r =>
    "fn<" ++ ", ".intercalate (renderDecls (g :: gs)) ++ ">(" ++ ", ".intercalate (renderAll ps) ++ "): " ++
      (if r.isPending then unitPath.render else render r)
  | .generic g => g.name
  | .unknown => "<unknown>"
  | .closure _ _ => "<malleable>"
  | .hole => "_"
  | .absent => "<nil>"
  | .ongoing _ => unitPath.render

def renderAll : List Ty → List String
  | [] => []
  | t :: ts => render t :: renderAll ts

/-- A declared generic with its bounds, as in `T: A + B`. -/
def renderDecl : Generic Ty → String
  | ⟨name, _, []⟩ => name
  | ⟨name, _, b :: bs⟩ => name ++ ": " ++ " + ".intercalate (renderAll (b :: bs))

def renderDecls : List (Generic Ty) → List String
  | [] => []
  | g :: gs => renderDecl g :: renderDecls gs

end

mutual

/-- Whether a type has a text: a bound of a declared generic must be there. -/
def printable : Ty → Bool
  | .named _ args => printableAll args
  | .fn gs ps r => printableDecls gs && printableAll ps && printable r
  | _ => true

def printableAll : List Ty → Bool
  | [] => true
  | t :: ts => printable t && printableAll ts

def printableBounds : List Ty → Bool
  | [] => true
  | t :: ts => !t.isAbsent && printable t && printableBounds ts

def printableDecl : Generic Ty → Bool
  | ⟨_, _, bounds⟩ => printableBounds bounds

def printableDecls : List (Generic Ty) → Bool
  | [] => true
  | g :: gs => printableDecl g && printableDecls gs

end

mutual

/-- Equality of structure. Functions are compared by parameters and result, generics by name and bounds. -/
def equal : Ty → Ty → Bool
  | .named p as, .named q bs => p = q && equalAll as bs
  | .fn _ ps r, .fn _ qs s =>
    equalAll ps qs &&
      (if r.isPending || s.isPending then r.resultOf.isUnit && s.resultOf.isUnit else equal r s)
  | .generic g, .generic h => equalGeneric g h
  | .unknown, .unknown => true
  | .hole, .hole => true
  | .closure i _, .closure j _ => i = j
  | .absent, .absent => true
  | .ongoing i, .ongoing j => i = j
  | _, _ => false

def equalAll : List Ty → List Ty → Bool
  | [], [] => true
  | t :: ts, u :: us => equal t u && equalAll ts us
  | _, _ => false

def equalGeneric : Generic Ty → Generic Ty → Bool
  | ⟨n, _, bs⟩, ⟨m, _, cs⟩ => n = m && equalAll bs cs

end

instance : ToString Ty := ⟨render⟩

end Ty

end TraitCheck
