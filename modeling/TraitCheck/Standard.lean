import TraitCheck.Path
import TraitCheck.Syntax.Basic

/-!
The package that every program can use. Its functions and methods without a body are implemented elsewhere.
-/

namespace TraitCheck.Standard

open Syntax

def packageName : String := "std"

/-- The paths that every module can use by their last segment. -/
def prelude : List Path :=
  (["std::int::Int", "std::float::Float", "std::string::String", "std::char::Char", "std::bool::Bool",
    "std::unit::Unit", "std::never::Never", "std::list::List", "std::option::Option", "std::fmt::Display",
    "std::op::Add", "std::op::Sub", "std::op::Mul", "std::op::Div", "std::op::Rem", "std::op::Eq", "std::op::Ord",
    "std::op::Neg", "std::op::Not", "std::op::And", "std::op::Or", "std::io::print", "std::io::println"]).map Path.parse

/-! ### Parts of declarations -/

def ref (path : String) (args : List TypeExpr := []) : TypeExpr := .named {} (Path.parse path).segments args

def selfRef : TypeExpr := ref "Self"
def boolRef : TypeExpr := ref "std::bool::Bool"
def intRef : TypeExpr := ref "std::int::Int"
def stringRef : TypeExpr := ref "std::string::String"
def displayRef : TypeExpr := ref "std::fmt::Display"
def elemRef : TypeExpr := ref "T"

def gen (name : String) (bounds : List TypeExpr := []) : GenericDecl := ⟨{}, name, bounds⟩

def receiver : Param := ⟨{}, receiverName, none⟩

def param (name : String) (type : TypeExpr) : Param := ⟨{}, name, some type⟩

def declared (name : String) (params : List Param) (result : Option TypeExpr) (generics : List GenericDecl := []) :
    Fn :=
  ⟨{}, false, name, generics, params, result, none⟩

def fnOf (name : String) (params : List Param) (result : TypeExpr) (body : Expr) : Fn :=
  ⟨{}, false, name, [], params, some result, some ⟨{}, [.expr {} body]⟩⟩

def trait (name : String) (methods : List Fn) : Stmt := .trait ⟨{}, true, name, [], methods⟩

def impl (generics : List GenericDecl) (trait : Option TypeExpr) (forType : TypeExpr) (methods : List Fn) : Stmt :=
  .impl ⟨{}, false, generics, trait, some forType, methods⟩

def type (name : String) (variants : List Variant := []) (generics : List GenericDecl := []) : Stmt :=
  .type ⟨{}, true, name, generics, variants⟩

def ident (path : String) : Expr := .ident ⟨{}, (Path.parse path).segments, []⟩

def arm (pattern : Pattern) (body : Expr) : Arm := ⟨{}, [pattern], none, ⟨{}, [.expr {} body]⟩⟩

def con (path : String) (fields : List String := []) : Pattern :=
  .variant {} ⟨{}, (Path.parse path).segments, []⟩ (fields.map (⟨{}, ·, none⟩))

def truth (value : Bool) : Expr := .literal ⟨{}, .bool, if value then "true" else "false"⟩

def module (statements : List Stmt) : Module := ⟨{}, [], statements⟩

/-! ### Operators -/

def binaryMethod (name : String) (result : TypeExpr) : Fn :=
  declared name [receiver, param "other" selfRef] (some result)

def unaryMethod (name : String) (result : TypeExpr) : Fn := declared name [receiver] (some result)

/-- The methods that an impl of an operator trait has. -/
def operatorMethods : String → List Fn
  | "Add" => [binaryMethod "add" selfRef]
  | "Sub" => [binaryMethod "sub" selfRef]
  | "Mul" => [binaryMethod "mul" selfRef]
  | "Div" => [binaryMethod "div" selfRef]
  | "Rem" => [binaryMethod "rem" selfRef]
  | "And" => [binaryMethod "and" selfRef]
  | "Or" => [binaryMethod "or" selfRef]
  | "Neg" => [unaryMethod "neg" selfRef]
  | "Not" => [unaryMethod "not" selfRef]
  | "Eq" => [binaryMethod "eq" boolRef]
  | "Ord" => ["lt", "gt", "le", "ge"].map (binaryMethod · boolRef)
  | _ => []

/-- Impls of operator traits and of `Display` for a type. -/
def operatorImpls (typeName : String) (traits : List String) : List Stmt :=
  (traits.map fun t => impl [] (some (ref ("std::op::" ++ t))) (ref typeName) (operatorMethods t)) ++
    [impl [] (some displayRef) (ref typeName) [unaryMethod "show" stringRef]]

def primitive (name : String) (traits : List String) : Module := module (type name :: operatorImpls name traits)

def numeric : List String := ["Add", "Sub", "Mul", "Div", "Rem", "Neg", "Eq", "Ord"]

/-! ### Modules -/

def listModule : Module :=
  let self := ref "List" [elemRef]
  module
    [type "List" [] [gen "T"],
      impl [gen "T"] none self
        [declared "len" [receiver] (some intRef),
          declared "push" [receiver, param "item" elemRef] (some self),
          declared "get" [receiver, param "index" intRef] (some (ref "std::option::Option" [elemRef])),
          declared "map" [receiver, param "f" (.fn {} [] [elemRef] (some (ref "U")))] (some (ref "List" [ref "U"]))
            [gen "U"]],
      impl [gen "T" [displayRef]] (some displayRef) self [unaryMethod "show" stringRef]]

def optionModule : Module :=
  let self := ident "self"
  module
    [type "Option" [⟨{}, "Some", [⟨{}, true, "value", some elemRef⟩]⟩, ⟨{}, "None", []⟩] [gen "T"],
      impl [gen "T"] none (ref "Option" [elemRef])
        [fnOf "unwrap_or" [receiver, param "default" elemRef] elemRef
            (.switch {} self
              [arm (con "Option::Some" ["value"]) (ident "value"), arm (con "Option::None") (ident "default")]),
          fnOf "is_some" [receiver] boolRef
            (.switch {} self [arm (con "Option::Some") (truth true), arm (.hole {}) (truth false)])]]

def operatorModule : Module :=
  let plain := ["Add", "Sub", "Mul", "Div", "Rem", "And", "Or", "Neg", "Not"]
  let differs := fnOf "ne" [receiver, param "other" selfRef] boolRef
    (.unary {} "!" (.method {} (ident "self") "eq" [] [ident "other"]))
  module
    ((plain.map fun t => trait t (operatorMethods t)) ++
      [trait "Eq" (operatorMethods "Eq" ++ [differs]), trait "Ord" (operatorMethods "Ord")])

def outputFn (name : String) : Stmt :=
  .fn { declared name [param "value" elemRef] none [gen "T" [displayRef]] with pub := true }

def modules : List (String × Module) :=
  [("std::int", primitive "Int" numeric),
    ("std::float", primitive "Float" numeric),
    ("std::string", primitive "String" ["Add", "Eq", "Ord"]),
    ("std::char", primitive "Char" ["Eq", "Ord"]),
    ("std::bool",
      module
        (type "Bool" [⟨{}, "True", []⟩, ⟨{}, "False", []⟩] :: operatorImpls "Bool" ["Not", "Eq", "And", "Or"])),
    ("std::unit", module [type "Unit"]),
    ("std::never", module [type "Never"]),
    ("std::list", listModule),
    ("std::option", optionModule),
    ("std::op", operatorModule),
    ("std::fmt", module [trait "Display" [unaryMethod "show" stringRef]]),
    ("std::io", module [outputFn "print", outputFn "println"])]

end TraitCheck.Standard
