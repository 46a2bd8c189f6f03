import TraitCheck.Syntax.Basic
import TraitCheck.Text.Quoted

/-!
Expressions, patterns and written types as short source-like text.
-/

namespace TraitCheck.Syntax

def commas (parts : List String) : String := ", ".intercalate parts

mutual

def TypeExpr.show : TypeExpr → String
  | .named _ ns as => "::".intercalate ns ++ showArgs as
  | .fn _ _ ps r => "(" ++ commas (showTypes ps) ++ ") -> " ++ showOptType r
  | .hole _ => "_"

def showTypes : List TypeExpr → List String
  | [] => []
  | t :: ts => t.show :: showTypes ts

def showArgs : List TypeExpr → String
  | [] => ""
  | t :: ts => "<" ++ commas (t.show :: showTypes ts) ++ ">"

def showOptType : Option TypeExpr → String
  | none => "nil"
  | some t => t.show

end

def Ident.show (i : Ident) : String := "::".intercalate i.names ++ showArgs i.args

def Literal.show (l : Literal) : String :=
  match l.kind with
  | .string => Text.quote l.value
  | .char => "'" ++ l.value ++ "'"
  | _ => l.value

def Param.show (p : Param) : String :=
  match p.type with
  | none => p.name
  | some t => p.name ++ ": " ++ t.show

mutual

def Expr.show : Expr → String
  | .ident i => i.show
  | .literal l => l.show
  | .call _ f as => f.show ++ "(" ++ commas (showExprs as) ++ ")"
  | .method _ r n ts as => r.show ++ "." ++ n ++ showArgs ts ++ "(" ++ commas (showExprs as) ++ ")"
  | .field _ r n => r.show ++ "." ++ n
  | .binary _ o l r => "(" ++ l.show ++ " " ++ o ++ " " ++ r.show ++ ")"
  | .unary _ o e => o ++ e.show
  | .closure c => "|" ++ commas (c.params.map Param.show) ++ "| \x7b ... \x7d"
  | .cond _ c _ none => "if " ++ c.show ++ " \x7b ... \x7d"
  | .cond _ c _ (some _) => "if " ++ c.show ++ " \x7b ... \x7d else \x7b ... \x7d"
  | .switch _ e _ => "match " ++ e.show ++ " \x7b ... \x7d"
  | .list _ es => "[" ++ commas (showExprs es) ++ "]"
  | .block _ => "\x7b ... \x7d"

def showExprs : List Expr → List String
  | [] => []
  | e :: es => e.show :: showExprs es

end

mutual

def Pattern.show : Pattern → String
  | .bind _ n => n
  | .hole _ => "_"
  | .literal _ l => l.show
  | .variant _ n [] => n.show
  | .variant _ n (f :: fs) => n.show ++ "(" ++ commas (showFieldPatterns (f :: fs)) ++ ")"

def showFieldPatterns : List (FieldPattern Pattern) → List String
  | [] => []
  | ⟨_, n, none⟩ :: fs => n :: showFieldPatterns fs
  | ⟨_, n, some p⟩ :: fs => (n ++ ": " ++ p.show) :: showFieldPatterns fs

end

end TraitCheck.Syntax
