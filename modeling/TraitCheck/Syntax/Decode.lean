import TraitCheck.Path
import TraitCheck.Syntax.Basic
import TraitCheck.Text.Quoted
import TraitCheck.Yaml.Meaning
import TraitCheck.Yaml.Reader

/-!
Modules out of YAML documents. Each node of the tree is a mapping with a `kind`, for some of which there is a
shorter way to write them.
-/

namespace TraitCheck.Syntax.Decode

open Yaml (Place)

inductive Problem where
  | missingKey (key : String)
  | notScalar (key : String)
  | notBool (key : String)
  | notList (key : String)
  | notMapping
  | notFn (kind : String)
  | notBlock
  | notBlockKind (kind : String)
  | unknownExpr (kind : String)
  | unknownPattern (kind : String)
  | unknownType (kind : String)
  | notLiteral (kind : String)
  | badBool (value : String)
  | noPatterns
  deriving DecidableEq

def Problem.message : Problem → String
  | .missingKey k => "missing key " ++ Text.quote k
  | .notScalar k => "expected " ++ Text.quote k ++ " to be a scalar"
  | .notBool k => "expected " ++ Text.quote k ++ " to be a bool"
  | .notList k => "expected " ++ Text.quote k ++ " to be a list"
  | .notMapping => "expected a mapping"
  | .notFn k => "expected a fn, got " ++ Text.quote k
  | .notBlock => "expected a block"
  | .notBlockKind k => "expected a block, got " ++ Text.quote k
  | .unknownExpr k => "unknown expression kind " ++ Text.quote k
  | .unknownPattern k => "unknown pattern kind " ++ Text.quote k
  | .unknownType k => "unknown type kind " ++ Text.quote k
  | .notLiteral k => "expected a literal, got " ++ Text.quote k
  | .badBool v => "invalid bool literal " ++ Text.quote v
  | .noPatterns => "match clause without patterns"

structure Error where
  place : Place
  problem : Problem
  deriving DecidableEq

abbrev Result (α : Type) := Except Error α

def fail {α : Type} (n : Yaml.Node) (p : Problem) : Result α := .error ⟨n.place, p⟩

/-- A mapping with the node that it was written as. -/
structure Fields where
  node : Yaml.Node
  entries : List (Yaml.Node × Yaml.Node)

def mapping : Yaml.Node → Result Fields
  | .mapping place tag entries => .ok ⟨.mapping place tag entries, entries⟩
  | n => fail n .notMapping

namespace Fields

/-- The value of a key. The last of several values counts, and a null counts as none. -/
def get? (f : Fields) (key : String) : Option Yaml.Node :=
  match f.entries.reverse.find? (·.1.text = key) with
  | some (_, n) => if n.isNull then none else some n
  | none => none

def required (f : Fields) (key : String) : Result Yaml.Node :=
  match f.get? key with
  | some n => .ok n
  | none => fail f.node (.missingKey key)

def str (f : Fields) (key : String) : Result String := do
  match ← f.required key with
  | .scalar _ _ text => return text
  | n => fail n (.notScalar key)

def flag (f : Fields) (d : Yaml.Document) (key : String) : Result Bool :=
  match f.get? key with
  | none => .ok false
  | some n =>
    match d.bool? n with
    | some b => .ok b
    | none => fail n (.notBool key)

def seq (f : Fields) (key : String) : Result (List Yaml.Node) :=
  match f.get? key with
  | none => .ok []
  | some (.sequence _ _ items) => .ok items
  | some n => fail n (.notList key)

def kind (f : Fields) : Result String := f.str "kind"

end Fields

def splitPath (text : String) : List String := (Path.parse text).segments

/-- The path before a final `::*`, if the text ends so. -/
def dropWildcard? (text : String) : Option String :=
  let cs := text.toList
  if "::*".toList.isSuffixOf cs then some (String.ofList (cs.take (cs.length - 3))) else none

structure Source where
  file : SourceFile
  doc : Yaml.Document

section

variable (src : Source)

def infoOf (n : Yaml.Node) : Info := { range := .point (src.file.pos n.place.line n.place.column) }

def optional {α : Type} (decode : Yaml.Node → Result α) (f : Fields) (key : String) : Result (Option α) :=
  match f.get? key with
  | none => .ok none
  | some n => return some (← decode n)

def each {α : Type} (decode : Yaml.Node → Result α) (f : Fields) (key : String) : Result (List α) := do
  (← f.seq key).mapM decode

/-- A type parameter: a name, or a mapping with name and bounds. -/
def genericWith (typeExpr : Yaml.Node → Result TypeExpr) (n : Yaml.Node) : Result GenericDecl := do
  match n with
  | .scalar _ _ text => return ⟨infoOf src n, text, []⟩
  | _ =>
    let f ← mapping n
    return ⟨infoOf src n, ← f.str "name", ← each typeExpr f "bounds"⟩

/-- A type; `Int` and `_` are short for a type without arguments and for a hole. -/
def typeExpr : Nat → Yaml.Node → Result TypeExpr
  | 0, n => fail n .notMapping
  | fuel + 1, n => do
    match n with
    | .scalar _ _ text => return if text = "_" then .hole (infoOf src n) else .named (infoOf src n) (splitPath text) []
    | _ =>
      let f ← mapping n
      let kind ← f.kind
      match kind with
      | "type" => return .named (infoOf src n) (splitPath (← f.str "name")) (← each (typeExpr fuel) f "args")
      | "fn-type" =>
        return .fn (infoOf src n) (← each (genericWith src (typeExpr fuel)) f "generics")
          (← each (typeExpr fuel) f "params") (← optional (typeExpr fuel) f "returns")
      | "hole" => return .hole (infoOf src n)
      | _ => fail n (.unknownType kind)

def generics (fuel : Nat) (f : Fields) : Result (List GenericDecl) :=
  each (genericWith src (typeExpr src fuel)) f "generics"

/-- A parameter: a name, or a mapping with name and type. -/
def param (fuel : Nat) (n : Yaml.Node) : Result Param := do
  match n with
  | .scalar _ _ text => return ⟨infoOf src n, text, none⟩
  | _ =>
    let f ← mapping n
    return ⟨infoOf src n, ← f.str "name", ← optional (typeExpr src fuel) f "type"⟩

def literal (n : Yaml.Node) : Result Literal := do
  let f ← mapping n
  let value ← f.str "value"
  let kind ← f.kind
  match kind with
  | "int" => return ⟨infoOf src n, .int, value⟩
  | "float" => return ⟨infoOf src n, .float, value⟩
  | "string" => return ⟨infoOf src n, .string, value⟩
  | "char" => return ⟨infoOf src n, .char, value⟩
  | "bool" =>
    if value = "true" || value = "false" then return ⟨infoOf src n, .bool, value⟩ else fail n (.badBool value)
  | _ => fail n (.notLiteral kind)

def fieldPatternWith (pattern : Yaml.Node → Result Pattern) (n : Yaml.Node) : Result (FieldPattern Pattern) := do
  let f ← mapping n
  return ⟨infoOf src n, ← f.str "name", ← optional pattern f "pattern"⟩

def pattern : Nat → Yaml.Node → Result Pattern
  | 0, n => fail n .notMapping
  | fuel + 1, n => do
    let f ← mapping n
    let kind ← f.kind
    match kind with
    | "bind" => return .bind (infoOf src n) (← f.str "name")
    | "hole" => return .hole (infoOf src n)
    | "lit" => return .literal (infoOf src n) (← literal src (← f.required "value"))
    | "con" =>
      let name ← f.required "name"
      return .variant (infoOf src n) ⟨infoOf src name, splitPath name.text, []⟩
        (← each (fieldPatternWith src (pattern fuel)) f "fields")
    | _ => fail n (.unknownPattern kind)

def fieldDef (fuel : Nat) (n : Yaml.Node) : Result FieldDef := do
  let f ← mapping n
  return ⟨infoOf src n, ← f.flag src.doc "pub", ← f.str "name", some (← typeExpr src fuel (← f.required "type"))⟩

def variant (fuel : Nat) (n : Yaml.Node) : Result Variant := do
  let f ← mapping n
  return ⟨infoOf src n, ← f.str "name", ← each (fieldDef src fuel) f "fields"⟩

/-- A block: a list of statements, or a mapping that holds one. -/
def blockWith (stmt : Yaml.Node → Result Stmt) (n : Yaml.Node) : Result Body := do
  match n with
  | .sequence _ _ items => return ⟨infoOf src n, ← items.mapM stmt⟩
  | .mapping .. =>
    let f ← mapping n
    let kind ← f.kind
    if kind ≠ "block" then fail n (.notBlockKind kind)
    return ⟨infoOf src n, ← each stmt f "statements"⟩
  | _ => fail n .notBlock

def fnWith (fuel : Nat) (stmt : Yaml.Node → Result Stmt) (n : Yaml.Node) : Result Fn := do
  let f ← mapping n
  let kind ← f.kind
  if kind ≠ "fn" then fail n (.notFn kind)
  return ⟨infoOf src n, ← f.flag src.doc "pub", ← f.str "name", ← generics src fuel f,
    ← each (param src fuel) f "params", ← optional (typeExpr src fuel) f "returns",
    ← optional (blockWith src stmt) f "body"⟩

/-- A clause. `pattern` adds one to the `patterns`, of which there must be one at least. -/
def clauseWith (fuel : Nat) (expr : Yaml.Node → Result Expr) (stmt : Yaml.Node → Result Stmt) (n : Yaml.Node) :
    Result Arm := do
  let f ← mapping n
  let guard ← optional expr f "guard"
  let body ← blockWith src stmt (← f.required "body")
  let several ← each (pattern src fuel) f "patterns"
  let single ← optional (pattern src fuel) f "pattern"
  let patterns := several ++ single.toList
  if patterns.isEmpty then fail n .noPatterns
  return ⟨infoOf src n, patterns, guard, body⟩

mutual

def expr : Nat → Yaml.Node → Result Expr
  | 0, n => fail n .notMapping
  | fuel + 1, n => do
    let f ← mapping n
    let info := infoOf src n
    let kind ← f.kind
    match kind with
    | "ident" =>
      return .ident ⟨info, splitPath (← f.str "name"), ← each (typeExpr src fuel) f "args"⟩
    | "int" | "float" | "string" | "char" | "bool" => return .literal (← literal src n)
    | "call" => return .call info (← expr fuel (← f.required "callee")) (← each (expr fuel) f "args")
    | "method" =>
      return .method info (← expr fuel (← f.required "receiver")) (← f.str "name")
        (← each (typeExpr src fuel) f "type-args") (← each (expr fuel) f "args")
    | "field" => return .field info (← expr fuel (← f.required "receiver")) (← f.str "name")
    | "binary" =>
      return .binary info (← f.str "op") (← expr fuel (← f.required "left")) (← expr fuel (← f.required "right"))
    | "unary" => return .unary info (← f.str "op") (← expr fuel (← f.required "operand"))
    | "closure" =>
      return .closure ⟨info, ← each (param src fuel) f "params", ← optional (typeExpr src fuel) f "returns",
        ← blockWith src (stmt fuel) (← f.required "body")⟩
    | "if" =>
      return .cond info (← expr fuel (← f.required "cond")) (← blockWith src (stmt fuel) (← f.required "then"))
        (← optional (blockWith src (stmt fuel)) f "else")
    | "match" =>
      return .switch info (← expr fuel (← f.required "scrutinee"))
        (← each (clauseWith src fuel (expr fuel) (stmt fuel)) f "clauses")
    | "list" => return .list info (← each (expr fuel) f "elements")
    | "block" => return .block (← blockWith src (stmt fuel) n)
    | _ => fail n (.unknownExpr kind)

def stmt : Nat → Yaml.Node → Result Stmt
  | 0, n => fail n .notMapping
  | fuel + 1, n => do
    let f ← mapping n
    let info := infoOf src n
    let kind ← f.kind
    match kind with
    | "var" =>
      return .var ⟨info, ← f.flag src.doc "pub", ← f.str "name", ← optional (typeExpr src fuel) f "type",
        ← expr fuel (← f.required "value")⟩
    | "fn" => return .fn (← fnWith src fuel (stmt fuel) n)
    | "trait" =>
      return .trait ⟨info, ← f.flag src.doc "pub", ← f.str "name", ← generics src fuel f,
        ← each (fnWith src fuel (stmt fuel)) f "methods"⟩
    | "impl" =>
      return .impl ⟨info, ← f.flag src.doc "pub", ← generics src fuel f, ← optional (typeExpr src fuel) f "trait",
        some (← typeExpr src fuel (← f.required "for")), ← each (fnWith src fuel (stmt fuel)) f "methods"⟩
    | "type" =>
      return .type ⟨info, ← f.flag src.doc "pub", ← f.str "name", ← generics src fuel f,
        ← each (variant src fuel) f "variants"⟩
    | "return" => return .ret info (← optional (expr fuel) f "value")
    | _ => return .expr info (← expr fuel n)

end

/-- An import: a path, where a final `::*` stands for all names, or a mapping. -/
def use : Nat → Yaml.Node → Result Use
  | 0, n => fail n .notMapping
  | fuel + 1, n => do
    match n with
    | .scalar _ _ text =>
      match dropWildcard? text with
      | some path => return .mk (infoOf src n) false (splitPath path) true []
      | none => return .mk (infoOf src n) false (splitPath text) false []
    | _ =>
      let f ← mapping n
      return .mk (infoOf src n) (← f.flag src.doc "pub") (splitPath (← f.str "path")) (← f.flag src.doc "wildcard")
        (← each (use fuel) f "nested")

end

mutual

def depth : Yaml.Node → Nat
  | .scalar .. | .alias .. => 1
  | .sequence _ _ items => depths items + 1
  | .mapping _ _ entries => entryDepths entries + 1

def depths : List Yaml.Node → Nat
  | [] => 0
  | n :: ns => max (depth n) (depths ns)

def entryDepths : List (Yaml.Node × Yaml.Node) → Nat
  | [] => 0
  | (_, v) :: es => max (depth v) (entryDepths es)

end

/-- The module of a document and the path that it declares. -/
def module (src : Source) : Result (String × Module) := do
  let n := src.doc.root
  let fuel := 2 * depth n + 2
  let f ← mapping n
  let uses ← each (use src fuel) f "uses"
  let statements ← each (stmt src fuel) f "statements"
  return (← f.str "module", ⟨infoOf src n, uses, statements⟩)

inductive FileError where
  | malformed (file : String)
  | noDocument (file : String)
  | bad (file : String) (error : Error)

def FileError.message : FileError → String
  | .malformed file => "could not parse " ++ file
  | .noDocument file => file ++ ": expected a single YAML document"
  | .bad file e =>
    file ++ ":" ++ toString e.place.line ++ ":" ++ toString e.place.column ++ ": " ++ e.problem.message

/-- Reads a module file. The file joins the set as soon as its text has been read as a document. -/
def decodeFile (files : FileSet) (name text : String) : Except FileError (String × Module) × FileSet :=
  match Yaml.read text with
  | none => (.error (.malformed name), files)
  | some none => (.error (.noDocument name), files)
  | some (some doc) =>
    let file := files.newFile name text
    match module ⟨file, doc⟩ with
    | .ok m => (.ok m, files.add file)
    | .error e => (.error (.bad name e), files.add file)

end TraitCheck.Syntax.Decode
