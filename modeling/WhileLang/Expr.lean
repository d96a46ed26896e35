import WhileLang.Operator

/-!
Expressions, as trees that keep the token each node begins with or hangs on.
-/

namespace WhileLang

/-- An expression tree. A tree built by hand may hold a piece that is no
expression; only the text that shows it is kept. -/
inductive Expr where
  | ident (token : Token) (name : String)
  | literal (token : Token) (value : Int)
  | binary (token : Token) (left : Expr) (operator : Operator) (right : Expr)
  | foreign (rendering : String)
deriving DecidableEq, Repr

namespace Expr

/-- The text of an expression, with brackets around every operation. An
operation shows the lexeme of its token. -/
def render : Expr → String
  | .ident _ name => name
  | .literal _ value => toString value
  | .binary token left _ right =>
      "(" ++ left.render ++ " " ++ token.lexeme ++ " " ++ right.render ++ ")"
  | .foreign rendering => rendering

/-- The names that occur in an expression, from left to right. -/
def names : Expr → List String
  | .ident _ name => [name]
  | .literal _ _ => []
  | .binary _ left _ right => left.names ++ right.names
  | .foreign _ => []

end Expr

end WhileLang
