import WhileLang.Numeral
import WhileLang.Parse.Step

/-!
Parsing of expressions, by the precedence of their operators. Each parser starts
on the first token of what it reads and ends on the last one.

Recursion goes down by a limit. No two steps down in a row leave all the tokens
where they are, so a limit of somewhat more than twice their number is never
reached.
-/

namespace WhileLang.Parse

/-- Reads the current token, an integer, as the literal it spells. -/
def literal (token : Token) : Parse Expr :=
  match Numeral.readWord token.lexeme with
  | .ok value => pure (.literal token value)
  | .error _ => refuse token

mutual

/-- An operand, and then operators that bind more strongly than `precedence`
with their right sides. An integer cannot follow an operand. -/
def expressionWithin : Nat → Int → Parse Expr
  | 0, _ => reject
  | limit + 1, precedence => do
      let operand ← operandWithin limit
      let following ← next
      if following.kind = .integer then
        refuse following
      else
        operationsWithin limit precedence operand

/-- A name, an integer, or an expression in brackets. -/
def operandWithin : Nat → Parse Expr
  | 0 => reject
  | limit + 1 => do
      let token ← current
      match token.kind with
      | .identifier => pure (.ident token token.lexeme)
      | .integer => literal token
      | .bracketOpen => do
          advance
          let inner ← expressionWithin limit 0
          expect .bracketClose
          pure inner
      | _ => refuse token

/-- Further operations on a left side that is already read. -/
def operationsWithin : Nat → Int → Expr → Parse Expr
  | 0, _, _ => reject
  | limit + 1, precedence, left => do
      let sign ← next
      if precedence < sign.kind.precedence then do
        advance
        advance
        let right ← expressionWithin limit sign.kind.precedence
        match Operator.ofKind? sign.kind with
        | none => stop (.noOperator sign.kind)
        | some operator =>
            operationsWithin limit precedence (.binary sign left operator right)
      else
        pure left

end

/-- A condition: an expression in brackets behind the current token. Ends on the
first token behind it. -/
def conditionWithin (limit : Nat) : Parse Expr := do
  expect .bracketOpen
  advance
  let truth ← expressionWithin limit 0
  expect .bracketClose
  advance
  pure truth

/-- Expressions with commas between them, each behind the current token. -/
def expressionsWithin : Nat → Parse (List Expr)
  | 0 => reject
  | limit + 1 => do
      advance
      let value ← expressionWithin limit 0
      let following ← next
      if following.kind = .comma then do
        advance
        (value :: ·) <$> expressionsWithin limit
      else
        pure [value]

/-! ## Without a limit -/

/-- A limit that is large enough for everything that remains to be read. -/
def State.bound (state : State) : Nat :=
  2 * state.pending.tokens.length + 8

/-- Gives a parser a limit that it does not reach. -/
def unlimited {α : Type} (parser : Nat → Parse α) : Parse α :=
  fun state => parser state.bound state

/-- An expression whose operators outside brackets all bind more strongly than
`precedence`. -/
def expression (precedence : Int) : Parse Expr :=
  unlimited fun limit => expressionWithin limit precedence

/-- A condition: an expression in brackets behind the current token. -/
def condition : Parse Expr :=
  unlimited conditionWithin

end WhileLang.Parse
