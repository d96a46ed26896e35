import WhileLang.Parse.Expression

/-!
Parsing of statements, blocks and programs. Each parser starts on the first token
of what it reads and ends on the first token behind it. A statement that is
rejected is left out, and reading goes on behind the token it ended on.
-/

namespace WhileLang.Parse

/-- An expression as a statement. -/
def expressionStatementWithin (limit : Nat) : Parse Stmt := do
  let token ← current
  let value ← expressionWithin limit 0
  advance
  pure (.expression token value)

/-- An assignment to the current token. -/
def assignmentWithin (limit : Nat) : Parse Stmt := do
  let token ← current
  expect .assign
  advance
  let value ← expressionWithin limit 0
  advance
  pure (.assign token ⟨token, token.lexeme⟩ value)

/-- Behind the word `print`, the values to be printed. -/
def printWithin (limit : Nat) : Parse Stmt := do
  let token ← current
  let values ← expressionsWithin limit
  advance
  pure (.print token values)

/-- Is this a token at which the statements of a block end? An `else` is left to
the statement around the block. -/
def endsBlock (kind : Token.Kind) : Bool :=
  kind = .braceClose || kind = .endOfInput || kind = .elseWord

/-- Takes the closing brace of a block, if there is one. Of the blocks that are
open at the end of input the outermost one complains. -/
def closeBlock : Parse Unit := do
  let token ← current
  let outermost ← inOutermostBlock
  if token.kind = .braceClose then do
    advance
    leaveBlock
  else if token.kind = .endOfInput ∧ outermost then do
    note (.unexpected token)
    leaveBlock
  else
    leaveBlock

/-- Goes on behind a statement of a block that was rejected. A closing brace is
the block's own and stays. -/
def recover : Parse Unit := do
  let token ← current
  if token.kind = .braceClose then pure () else advance

mutual

/-- A statement. A name begins an assignment, but inside a block only if the
assignment sign follows. -/
def statementWithin : Nat → Bool → Parse Stmt
  | 0, _ => reject
  | limit + 1, inBlock => do
      let token ← current
      match token.kind with
      | .identifier => do
          let following ← next
          if inBlock ∧ following.kind ≠ .assign then
            expressionStatementWithin limit
          else
            assignmentWithin limit
      | .ifWord => do
          let truth ← conditionWithin limit
          let first ← blockWithin limit
          let following ← current
          if following.kind = .elseWord then do
            advance
            let second ← blockWithin limit
            pure (.ifElse token truth first second)
          else
            pure (.ifThen token truth first)
      | .whileWord => do
          let truth ← conditionWithin limit
          let body ← blockWithin limit
          pure (.whileDo token truth body)
      | .printWord => printWithin limit
      | _ => expressionStatementWithin limit

/-- A block, which begins with a brace. -/
def blockWithin : Nat → Parse Stmt
  | 0 => reject
  | limit + 1 => do
      let token ← current
      if token.kind = .braceOpen then do
        advance
        enterBlock
        let items ← itemsWithin limit
        closeBlock
        pure (.block token items)
      else
        refuse token

/-- The statements of a block. -/
def itemsWithin : Nat → Parse (List Stmt)
  | 0 => reject
  | limit + 1 => do
      let token ← current
      if endsBlock token.kind then
        pure []
      else do
        match ← attempt (statementWithin limit true) with
        | some item => do
            (item :: ·) <$> itemsWithin limit
        | none => do
            recover
            itemsWithin limit

end

/-- The statements up to the end of input. -/
def programWithin : Nat → Parse Program
  | 0 => reject
  | limit + 1 => do
      let token ← current
      if token.kind = .endOfInput then
        pure []
      else do
        match ← attempt (statementWithin limit false) with
        | some item => do
            note (.parsed item)
            (item :: ·) <$> programWithin limit
        | none => do
            advance
            programWithin limit

/-! ## Without a limit -/

/-- A statement, inside or outside of a block. -/
def statement (inBlock : Bool) : Parse Stmt :=
  unlimited fun limit => statementWithin limit inBlock

/-- A block. -/
def block : Parse Stmt :=
  unlimited blockWithin

/-- A program. -/
def program : Parse Program :=
  unlimited programWithin

end WhileLang.Parse
