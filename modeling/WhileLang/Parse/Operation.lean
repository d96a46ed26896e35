import WhileLang.Parse.Statement

/-!
Parsers driven from outside, one operation at a time. After an operation that
breaks, the parser goes on from where it was left.
-/

namespace WhileLang.Parse

/-- What a parser can be asked to do. -/
inductive Operation where
  | advance
  | statement (inBlock : Bool)
  | expression (above : Int)
  | condition
  | block
  | program
  | expect (kind : Token.Kind)
  | precedence
deriving DecidableEq, Repr

/-- What an operation yields; nothing where the input was rejected. -/
inductive Answer where
  | none
  | statement (statement? : Option Stmt)
  | expression (expression? : Option Expr)
  | program (program : Program)
  | expected (met : Bool)
  | precedence (precedence : Nat)
deriving DecidableEq, Repr

/-- Carries out an operation. -/
def Operation.run : Operation → Parse Answer
  | .advance => do
      Parse.advance
      pure .none
  | .statement inBlock => do
      let statement? ← attempt (Parse.statement inBlock)
      pure (.statement statement?)
  | .expression above => do
      let expression? ← attempt (Parse.expression above)
      pure (.expression expression?)
  | .condition => do
      let expression? ← attempt Parse.condition
      pure (.expression expression?)
  | .block => do
      let statement? ← attempt Parse.block
      pure (.statement statement?)
  | .program => do
      let program ← Parse.program
      pure (.program program)
  | .expect kind => do
      let met ← attempt (Parse.expect kind)
      pure (.expected met.isSome)
  | .precedence => do
      let token ← current
      pure (.precedence token.kind.precedence)

end WhileLang.Parse

namespace WhileLang

/-- A parser between two operations: where it stands, and its notices so far. -/
structure Parser where
  state : Parse.State
  notices : List Parse.Notice
deriving DecidableEq, Repr

namespace Parser

open Parse

/-- A parser that has not seen any token yet. -/
def unopened (feed : Feed) : State :=
  ⟨Token.endOfInput, Token.endOfInput, feed, 0⟩

/-- Brings the first two tokens into sight. -/
def opening : Parse Unit := do
  advance
  advance

/-- A parser that sees the first two tokens of a feed, unless a fault is among
them. -/
def ofFeed (feed : Feed) : Except Breakage Parser :=
  match opening (unopened feed) with
  | ⟨.accepted _, state, notices⟩ => .ok ⟨state, notices⟩
  | ⟨.rejected, state, notices⟩ => .ok ⟨state, notices⟩
  | ⟨.broken breakage, _, _⟩ => .error breakage

/-- Carries out an operation, and keeps where it led. -/
def perform (parser : Parser) (operation : Operation) :
    Verdict Answer × Parser :=
  let step := operation.run parser.state
  (step.verdict, ⟨step.state, parser.notices ++ step.notices⟩)

/-- The complaints so far. -/
def diagnostics (parser : Parser) : List String :=
  Parse.diagnostics parser.notices

end Parser

end WhileLang
