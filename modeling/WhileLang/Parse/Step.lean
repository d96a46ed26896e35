import WhileLang.Stmt
import WhileLang.Token.Feed

/-!
Steps of parsing. A parser sees two tokens, the current one and the next, and
leaves notices of what it meets. It accepts with a value, or rejects what it was
to read and leaves the rest to its caller, or breaks for good. Main statements:
how the parts of a sequence of steps make up its verdict, state and notices.
-/

namespace WhileLang

namespace Parse

/-- Where a parser stands: the two tokens it sees, those to come, and how many
blocks are open. -/
structure State where
  current : Token
  next : Token
  pending : Feed
  depth : Int
deriving DecidableEq, Repr

/-- What a parser leaves notice of: a token that came into sight, one that was
not expected, and a finished statement outside all blocks. -/
inductive Notice where
  | pulled (token : Token)
  | unexpected (token : Token)
  | parsed (statement : Stmt)
deriving DecidableEq, Repr

/-- Why no step can succeed any more: the text is at fault, or a token that is
no operator stands where one was demanded. -/
inductive Breakage where
  | lexical (fault : LexicalFault)
  | noOperator (kind : Token.Kind)
deriving DecidableEq, Repr

/-- How a step comes out. -/
inductive Verdict (α : Type) where
  | accepted (value : α)
  | rejected
  | broken (breakage : Breakage)
deriving DecidableEq, Repr

/-- The outcome of a step, where it leaves the parser, and its notices. -/
structure Step (α : Type) where
  verdict : Verdict α
  state : State
  notices : List Notice
deriving DecidableEq, Repr

end Parse

/-- A parser of values. -/
def Parse (α : Type) : Type :=
  Parse.State → Parse.Step α

namespace Parse

variable {α β : Type}

/-- Accepts without looking at anything. -/
def accept (value : α) : Parse α :=
  fun state => ⟨.accepted value, state, []⟩

/-- Rejects without a notice. -/
def reject : Parse α :=
  fun state => ⟨.rejected, state, []⟩

/-- Breaks. -/
def stop (breakage : Breakage) : Parse α :=
  fun state => ⟨.broken breakage, state, []⟩

/-- One parser after another; the second is chosen by the value of the first. -/
def andThen (first : Parse α) (second : α → Parse β) : Parse β :=
  fun state =>
    match first state with
    | ⟨.accepted value, after, notices⟩ =>
        let last := second value after
        ⟨last.verdict, last.state, notices ++ last.notices⟩
    | ⟨.rejected, after, notices⟩ => ⟨.rejected, after, notices⟩
    | ⟨.broken breakage, after, notices⟩ => ⟨.broken breakage, after, notices⟩

/-- Applies a function to the value of a parser. -/
def mapValue (change : α → β) (parser : Parse α) : Parse β :=
  fun state =>
    match parser state with
    | ⟨.accepted value, after, notices⟩ =>
        ⟨.accepted (change value), after, notices⟩
    | ⟨.rejected, after, notices⟩ => ⟨.rejected, after, notices⟩
    | ⟨.broken breakage, after, notices⟩ => ⟨.broken breakage, after, notices⟩

instance : Monad Parse where
  map := mapValue
  pure := accept
  bind := andThen

/-- Turns a rejection into the acceptance of nothing. -/
def attempt (parser : Parse α) : Parse (Option α) :=
  fun state =>
    match parser state with
    | ⟨.accepted value, after, notices⟩ => ⟨.accepted (some value), after, notices⟩
    | ⟨.rejected, after, notices⟩ => ⟨.accepted none, after, notices⟩
    | ⟨.broken breakage, after, notices⟩ => ⟨.broken breakage, after, notices⟩

/-- The current token. -/
def current : Parse Token :=
  fun state => ⟨.accepted state.current, state, []⟩

/-- The next token. -/
def next : Parse Token :=
  fun state => ⟨.accepted state.next, state, []⟩

/-- Leaves a notice. -/
def note (notice : Notice) : Parse Unit :=
  fun state => ⟨.accepted (), state, [notice]⟩

/-- Rejects, with the notice that a token was not expected. -/
def refuse (token : Token) : Parse α :=
  fun state => ⟨.rejected, state, [.unexpected token]⟩

/-- Makes the next token the current one and pulls another. If the text is at
fault the token that was next is all that remains in sight. -/
def advance : Parse Unit :=
  fun state =>
    match state.pending.pull with
    | .ok (token, pending) =>
        ⟨.accepted (), ⟨state.next, token, pending, state.depth⟩, [.pulled token]⟩
    | .error fault =>
        ⟨.broken (.lexical fault),
          ⟨state.next, state.next, state.pending, state.depth⟩, []⟩

/-- Advances to the next token if it is of a given kind, and refuses it
otherwise. -/
def expect (kind : Token.Kind) : Parse Unit := do
  let token ← next
  if token.kind = kind then advance else refuse token

/-- Counts one more open block. -/
def enterBlock : Parse Unit :=
  fun state => ⟨.accepted (), { state with depth := state.depth + 1 }, []⟩

/-- Counts one open block less, also where none is open. -/
def leaveBlock : Parse Unit :=
  fun state => ⟨.accepted (), { state with depth := state.depth - 1 }, []⟩

/-- Is there exactly one open block? -/
def inOutermostBlock : Parse Bool :=
  fun state => ⟨.accepted (state.depth = 1), state, []⟩

/-- The tokens that were not expected, in the order of the notices. -/
def unexpectedTokens (notices : List Notice) : List Token :=
  notices.filterMap fun
    | .unexpected token => some token
    | _ => none

/-- The tokens that came into sight, in the order of the notices. -/
def pulledTokens (notices : List Notice) : List Token :=
  notices.filterMap fun
    | .pulled token => some token
    | _ => none

/-- The complaint about a token that was not expected. -/
def complaint (token : Token) : String :=
  "Syntax error, didn't expect " ++ token.lexeme

/-- The complaints among some notices. -/
def diagnostics (notices : List Notice) : List String :=
  (unexpectedTokens notices).map complaint

/-! ## Sequences of steps -/

theorem bind_accepted
    {first : Parse α} {second : α → Parse β}
    {state after : State} {value : α} {notices : List Notice}
    (accepted : first state = ⟨.accepted value, after, notices⟩) :
    (first >>= second) state =
      ⟨(second value after).verdict, (second value after).state,
        notices ++ (second value after).notices⟩ := by
  show andThen first second state = _
  simp [andThen, accepted]

theorem bind_rejected
    {first : Parse α} {second : α → Parse β}
    {state after : State} {notices : List Notice}
    (rejected : first state = ⟨.rejected, after, notices⟩) :
    (first >>= second) state = ⟨.rejected, after, notices⟩ := by
  show andThen first second state = _
  simp [andThen, rejected]

theorem bind_broken
    {first : Parse α} {second : α → Parse β}
    {state after : State} {breakage : Breakage} {notices : List Notice}
    (broken : first state = ⟨.broken breakage, after, notices⟩) :
    (first >>= second) state = ⟨.broken breakage, after, notices⟩ := by
  show andThen first second state = _
  simp [andThen, broken]

@[simp] theorem bind_current (second : Token → Parse β) (state : State) :
    (current >>= second) state = second state.current state := by
  show andThen current second state = _
  simp [andThen, current]

@[simp] theorem bind_next (second : Token → Parse β) (state : State) :
    (next >>= second) state = second state.next state := by
  show andThen next second state = _
  simp [andThen, next]

theorem map_eq_bind (change : α → β) (parser : Parse α) :
    change <$> parser = parser >>= fun value => pure (change value) := by
  funext state
  show mapValue change parser state =
    andThen parser (fun value => accept (change value)) state
  unfold mapValue andThen accept
  split <;> simp_all

@[simp] theorem unexpectedTokens_append (before after : List Notice) :
    unexpectedTokens (before ++ after) =
      unexpectedTokens before ++ unexpectedTokens after := by
  simp [unexpectedTokens]

@[simp] theorem pulledTokens_append (before after : List Notice) :
    pulledTokens (before ++ after) =
      pulledTokens before ++ pulledTokens after := by
  simp [pulledTokens]

end Parse

end WhileLang
