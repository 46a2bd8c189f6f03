import TraitCheck.Ty.Basic

/-!
Bindings of generic names to types, kept in name order, and two ways to layer several of them.
-/

namespace TraitCheck

structure Bindings where
  entries : List (String × Ty)
  deriving Inhabited

namespace Bindings

def empty : Bindings := ⟨[]⟩

def get? (b : Bindings) (name : String) : Option Ty := b.entries.lookup name

def size (b : Bindings) : Nat := b.entries.length

def insertEntry (name : String) (t : Ty) : List (String × Ty) → List (String × Ty)
  | [] => [(name, t)]
  | (n, u) :: rest =>
    if name = n then (n, t) :: rest
    else if name < n then (name, t) :: (n, u) :: rest
    else (n, u) :: insertEntry name t rest

/-- Binds `name`, whatever it was bound to before. -/
def insert (b : Bindings) (name : String) (t : Ty) : Bindings := ⟨insertEntry name t b.entries⟩

/-- Binds `name` unless it is bound already. -/
def insertIfNew (b : Bindings) (name : String) (t : Ty) : Bindings :=
  if (b.get? name).isSome then b else b.insert name t

/-- Lays `c` over `b`: what `c` binds wins. -/
def overlay (b c : Bindings) : Bindings :=
  c.entries.foldl (fun acc e => acc.insert e.1 e.2) b

/-- Lays `c` under `b`: what `b` binds stays. -/
def underlay (b c : Bindings) : Bindings :=
  c.entries.foldl (fun acc e => acc.insertIfNew e.1 e.2) b

/-- Lays every map of the list over what came before it, so that the last one wins. -/
def merge (base : Bindings) (higher : List Bindings) : Bindings := higher.foldl overlay base

def ofList (entries : List (String × Ty)) : Bindings :=
  entries.foldl (fun acc e => acc.insert e.1 e.2) empty

/-- The first map of the list that binds `name` decides. -/
def lookupIn : List Bindings → String → Option Ty
  | [], _ => none
  | b :: bs, name => (b.get? name).or (lookupIn bs name)

def render (b : Bindings) : String :=
  "\x7b" ++ ", ".intercalate (b.entries.map fun e => e.1 ++ ": " ++ e.2.render) ++ "\x7d"

/-- Whether the map has a text: every value must be there and have one. -/
def printable (b : Bindings) : Bool := b.entries.all fun e => !e.2.isAbsent && e.2.printable

end Bindings

end TraitCheck
