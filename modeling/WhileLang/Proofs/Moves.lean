import WhileLang.Proofs.Progress

/-!
What parsing can do to the state of a parser. Main statements: whatever a parser reads,
it moves by pulling tokens, by complaining of tokens in its window and by opening and
closing blocks, and so it neither skips a token nor reads one twice.
-/

namespace WhileLang.Parse

variable {α β : Type}
variable {state middle after : State} {token : Token} {notices : List Notice}

/-- The moves of a parser, with the notices they leave. -/
inductive Moves : State → List Notice → State → Prop
  | refl (state : State) : Moves state [] state
  | trans {source middle target : State} {earlier later : List Notice} :
      Moves source earlier middle →
      Moves middle later target →
      Moves source (earlier ++ later) target
  | pull {state : State} {token : Token} {pending : Feed} :
      state.pending.pull = .ok (token, pending) →
      Moves state [.pulled token] ⟨state.next, token, pending, state.depth⟩
  | halt {state : State} {fault : LexicalFault} :
      state.pending.pull = .error fault →
      Moves state [] ⟨state.next, state.next, state.pending, state.depth⟩
  | complain {state : State} {token : Token} :
      token = state.current ∨ token = state.next →
      Moves state [.unexpected token] state
  | finish (state : State) (item : Stmt) : Moves state [.parsed item] state
  | nest (state : State) (depth : Int) : Moves state [] { state with depth }

/-! ## Steps that are made of moves -/

/-- A step leads from a state by moves, and has the notices they leave. -/
def Moved (state : State) (step : Step α) : Prop :=
  Moves state step.notices step.state

namespace Moved

theorem pure (value : α) (state : State) :
    Moved state ((Pure.pure value : Parse α) state) :=
  .refl state

theorem reject (state : State) :
    Moved state ((Parse.reject : Parse α) state) :=
  .refl state

theorem stop (breakage : Breakage) (state : State) :
    Moved state ((Parse.stop breakage : Parse α) state) :=
  .refl state

theorem refuse_current (state : State) :
    Moved state ((Parse.refuse state.current : Parse α) state) :=
  .complain (.inl rfl)

theorem refuse_next (state : State) :
    Moved state ((Parse.refuse state.next : Parse α) state) :=
  .complain (.inr rfl)

theorem note_unexpected (state : State) :
    Moved state (Parse.note (.unexpected state.current) state) :=
  .complain (.inl rfl)

theorem note_parsed (item : Stmt) (state : State) :
    Moved state (Parse.note (.parsed item) state) :=
  .finish state item

theorem enterBlock (state : State) : Moved state (Parse.enterBlock state) :=
  .nest state _

theorem leaveBlock (state : State) : Moved state (Parse.leaveBlock state) :=
  .nest state _

theorem advance (state : State) : Moved state (Parse.advance state) := by
  unfold Moved Parse.advance
  split
  · rename_i pulled
    exact .pull pulled
  · rename_i failed
    exact .halt failed

theorem expect (kind : Token.Kind) (state : State) :
    Moved state (Parse.expect kind state) := by
  rw [Parse.expect, bind_next]
  split
  · exact advance state
  · exact refuse_next state

theorem bind
    {first : Parse α} {second : α → Parse β}
    (moved : Moved state (first state))
    (further : ∀ value after, Moved after (second value after)) :
    Moved state ((first >>= second) state) := by
  rcases start : first state with ⟨verdict, after, notices⟩
  rw [start] at moved
  cases verdict with
  | accepted value =>
      rw [bind_accepted start]
      exact moved.trans (further value after)
  | rejected =>
      rw [bind_rejected start]
      exact moved
  | broken breakage =>
      rw [bind_broken start]
      exact moved

theorem map
    {change : α → β} {parser : Parse α}
    (moved : Moved state (parser state)) :
    Moved state ((change <$> parser) state) := by
  rw [map_eq_bind]
  exact moved.bind fun value after => pure (change value) after

theorem attempt
    {parser : Parse α}
    (moved : Moved state (parser state)) :
    Moved state (Parse.attempt parser state) := by
  unfold Parse.attempt
  rcases start : parser state with ⟨verdict, after, notices⟩
  rw [start] at moved
  cases verdict <;> exact moved

theorem bind_advance
    {second : Parse β}
    (further : ∀ after, Moved after (second after)) :
    Moved state ((do Parse.advance; second : Parse β) state) :=
  (advance state).bind fun _ after => further after

end Moved

/-! ## Expressions -/

/-- A parser that moves, wherever it starts. -/
def Orderly (parser : Parse α) : Prop :=
  ∀ state, Moved state (parser state)

theorem orderly_advance : Orderly advance := Moved.advance

theorem orderly_expect (kind : Token.Kind) : Orderly (expect kind) :=
  Moved.expect kind

theorem moved_literal (state : State) :
    Moved state (literal state.current state) := by
  unfold literal
  cases Numeral.readWord state.current.lexeme with
  | ok value => exact .pure _ state
  | error fault => exact .refuse_current state

theorem orderly_expressionWithin (limit : Nat) :
    (∀ precedence, Orderly (expressionWithin limit precedence)) ∧
      Orderly (operandWithin limit) ∧
        ∀ precedence left, Orderly (operationsWithin limit precedence left) := by
  induction limit with
  | zero =>
      exact ⟨fun _ state => .reject state, fun state => .reject state,
        fun _ _ state => .reject state⟩
  | succ limit inductionHypothesis =>
      obtain ⟨expression, operand, operations⟩ := inductionHypothesis
      refine ⟨?_, ?_, ?_⟩
      · intro precedence state
        rw [expressionWithin]
        apply (operand state).bind
        intro value after
        rw [bind_next]
        split
        · exact .refuse_next after
        · exact operations precedence value after
      · intro state
        rw [operandWithin_succ]
        split
        · exact .pure _ state
        · exact moved_literal state
        · apply Moved.bind_advance
          intro middle
          apply (expression 0 middle).bind
          intro inner after
          exact (Moved.expect .bracketClose after).bind fun _ last => .pure inner last
        · exact .refuse_current state
      · intro precedence left state
        rw [operationsWithin, bind_next]
        split
        · apply Moved.bind_advance
          intro middle
          apply Moved.bind_advance
          intro start
          apply (expression _ start).bind
          intro right after
          cases Operator.ofKind? state.next.kind with
          | none => exact .stop _ after
          | some operator => exact operations precedence _ after
        · exact .pure left state

theorem orderly_conditionWithin (limit : Nat) : Orderly (conditionWithin limit) := by
  intro state
  rw [conditionWithin]
  apply (Moved.expect .bracketOpen state).bind
  intro _ opening
  apply Moved.bind_advance
  intro start
  apply ((orderly_expressionWithin limit).1 0 start).bind
  intro truth after
  apply (Moved.expect .bracketClose after).bind
  intro _ closing
  exact .bind_advance fun last => .pure truth last

theorem orderly_expressionsWithin (limit : Nat) :
    Orderly (expressionsWithin limit) := by
  induction limit with
  | zero => exact fun state => .reject state
  | succ limit inductionHypothesis =>
      intro state
      rw [expressionsWithin]
      apply Moved.bind_advance
      intro start
      apply ((orderly_expressionWithin limit).1 0 start).bind
      intro value after
      rw [bind_next]
      split
      · apply Moved.bind_advance
        intro comma
        exact (inductionHypothesis comma).map
      · exact .pure [value] after

/-! ## Statements -/

theorem orderly_expressionStatementWithin (limit : Nat) :
    Orderly (expressionStatementWithin limit) := by
  intro state
  rw [expressionStatementWithin, bind_current]
  apply ((orderly_expressionWithin limit).1 0 state).bind
  intro value after
  exact .bind_advance fun last => .pure _ last

theorem orderly_assignmentWithin (limit : Nat) :
    Orderly (assignmentWithin limit) := by
  intro state
  rw [assignmentWithin, bind_current]
  apply (Moved.expect .assign state).bind
  intro _ sign
  apply Moved.bind_advance
  intro start
  apply ((orderly_expressionWithin limit).1 0 start).bind
  intro value after
  exact .bind_advance fun last => .pure _ last

theorem orderly_printWithin (limit : Nat) : Orderly (printWithin limit) := by
  intro state
  rw [printWithin, bind_current]
  apply (orderly_expressionsWithin limit state).bind
  intro values after
  exact .bind_advance fun last => .pure _ last

theorem orderly_recover : Orderly recover := by
  intro state
  rw [recover, bind_current]
  split
  · exact .pure () state
  · exact .advance state

theorem orderly_closeBlock : Orderly closeBlock := by
  intro state
  rw [closeBlock_eq]
  split
  · exact .bind_advance fun last => .leaveBlock last
  · split
    · exact (Moved.note_unexpected state).bind fun _ last => .leaveBlock last
    · exact .leaveBlock state

theorem orderly_statementWithin_succ
    {limit : Nat} {inBlock : Bool}
    (block : Orderly (blockWithin limit)) :
    Orderly (statementWithin (limit + 1) inBlock) := by
  intro state
  rw [statementWithin_succ]
  split
  · split
    · exact orderly_expressionStatementWithin limit state
    · exact orderly_assignmentWithin limit state
  · apply (orderly_conditionWithin limit state).bind
    intro truth start
    apply (block start).bind
    intro first after
    rw [bind_current]
    split
    · apply Moved.bind_advance
      intro other
      exact (block other).bind fun second last => .pure _ last
    · exact .pure _ after
  · apply (orderly_conditionWithin limit state).bind
    intro truth start
    exact (block start).bind fun body last => .pure _ last
  · exact orderly_printWithin limit state
  · exact orderly_expressionStatementWithin limit state

theorem orderly_blockWithin_succ
    {limit : Nat}
    (items : Orderly (itemsWithin limit)) :
    Orderly (blockWithin (limit + 1)) := by
  intro state
  rw [blockWithin, bind_current]
  split
  · apply Moved.bind_advance
    intro opening
    apply (Moved.enterBlock opening).bind
    intro _ start
    apply (items start).bind
    intro inner after
    exact (orderly_closeBlock after).bind fun _ last => .pure _ last
  · exact .refuse_current state

theorem orderly_itemsWithin_succ
    {limit : Nat}
    (statement : Orderly (statementWithin limit true))
    (items : Orderly (itemsWithin limit)) :
    Orderly (itemsWithin (limit + 1)) := by
  intro state
  rw [itemsWithin, bind_current]
  split
  · exact .pure [] state
  · apply (statement state).attempt.bind
    intro item? after
    cases item? with
    | some item => exact (items after).map
    | none => exact (orderly_recover after).bind fun _ last => items last

theorem orderly_statementWithin (limit : Nat) :
    (∀ inBlock, Orderly (statementWithin limit inBlock)) ∧
      Orderly (blockWithin limit) ∧ Orderly (itemsWithin limit) := by
  induction limit with
  | zero =>
      exact ⟨fun _ state => .reject state, fun state => .reject state,
        fun state => .reject state⟩
  | succ limit inductionHypothesis =>
      obtain ⟨statement, block, items⟩ := inductionHypothesis
      exact ⟨fun _ => orderly_statementWithin_succ block,
        orderly_blockWithin_succ items,
        orderly_itemsWithin_succ (statement true) items⟩

theorem orderly_programWithin (limit : Nat) : Orderly (programWithin limit) := by
  induction limit with
  | zero => exact fun state => .reject state
  | succ limit inductionHypothesis =>
      intro state
      rw [programWithin, bind_current]
      split
      · exact .pure [] state
      · apply ((orderly_statementWithin limit).1 false state).attempt.bind
        intro item? after
        cases item? with
        | some item =>
            apply (Moved.note_parsed item after).bind
            intro _ last
            exact (inductionHypothesis last).map
        | none => exact .bind_advance inductionHypothesis

theorem orderly_opening : Orderly Parser.opening := by
  intro state
  rw [Parser.opening]
  exact .bind_advance fun last => .advance last

/-! ## Without a limit -/

theorem orderly_unlimited
    {parser : Nat → Parse α}
    (orderly : ∀ limit, Orderly (parser limit)) :
    Orderly (unlimited parser) :=
  fun state => orderly state.bound state

theorem orderly_program : Orderly Parse.program :=
  orderly_unlimited orderly_programWithin

/-! ## What moves keep -/

theorem Feed.pull_eq_ok
    {feed pending : Feed}
    (pulled : feed.pull = .ok (token, pending)) :
    (feed.tokens = token :: pending.tokens ∧ pending.fault? = feed.fault?) ∨
      (token = Token.endOfInput ∧ pending = feed ∧ feed.tokens = [] ∧
        feed.fault? = none) := by
  obtain ⟨tokens, fault?⟩ := feed
  cases tokens with
  | cons first rest =>
      cases pulled
      exact .inl ⟨rfl, rfl⟩
  | nil =>
      cases fault? with
      | none =>
          cases pulled
          exact .inr ⟨rfl, rfl, rfl, rfl⟩
      | some fault => cases pulled

/-- The tokens that are pulled, and those still to be pulled, are the ones that were
to be pulled before, and behind them the end of input. -/
theorem Moves.pulled_append (moves : Moves state notices after) :
    ∃ count,
      pulledTokens notices ++ after.pending.tokens =
        state.pending.tokens ++ List.replicate count Token.endOfInput := by
  induction moves with
  | refl state => exact ⟨0, (List.append_nil _).symm⟩
  | @trans _ _ _ _ _ _ _ earlierHypothesis laterHypothesis =>
      obtain ⟨earlierCount, earlierSame⟩ := earlierHypothesis
      obtain ⟨laterCount, laterSame⟩ := laterHypothesis
      refine ⟨earlierCount + laterCount, ?_⟩
      rw [pulledTokens_append, List.append_assoc, laterSame, ← List.append_assoc,
        earlierSame, List.append_assoc, List.replicate_append_replicate]
  | pull pulled =>
      rcases Feed.pull_eq_ok pulled with ⟨shape, _⟩ | ⟨rfl, rfl, shape, _⟩
      · exact ⟨0, by rw [shape, List.replicate_zero, List.append_nil]; rfl⟩
      · exact ⟨1, by rw [shape]; rfl⟩
  | halt _ => exact ⟨0, (List.append_nil _).symm⟩
  | complain _ => exact ⟨0, (List.append_nil _).symm⟩
  | finish state item => exact ⟨0, (List.append_nil _).symm⟩
  | nest state depth => exact ⟨0, (List.append_nil _).symm⟩

/-- Without a fault, the tokens that were in the window and those that are pulled end
with the two that are in it afterwards. -/
theorem Moves.window
    (moves : Moves state notices after)
    (faultless : state.pending.fault? = none) :
    after.pending.fault? = none ∧
      ∃ passed,
        state.current :: state.next :: pulledTokens notices =
          passed ++ [after.current, after.next] := by
  induction moves with
  | refl state => exact ⟨faultless, [], rfl⟩
  | @trans source middle target _ _ _ _ earlierHypothesis laterHypothesis =>
      obtain ⟨middleFaultless, earlier, earlierSame⟩ := earlierHypothesis faultless
      obtain ⟨targetFaultless, later, laterSame⟩ := laterHypothesis middleFaultless
      refine ⟨targetFaultless, earlier ++ later, ?_⟩
      rw [pulledTokens_append, ← List.cons_append, ← List.cons_append, earlierSame,
        List.append_assoc, List.append_assoc, ← laterSame]
      rfl
  | pull pulled =>
      rcases Feed.pull_eq_ok pulled with ⟨_, sameFault⟩ | ⟨_, rfl, _, _⟩
      · exact ⟨sameFault.trans faultless, [_], rfl⟩
      · exact ⟨faultless, [_], rfl⟩
  | @halt state fault failed =>
      rcases shape : state.pending with ⟨_ | ⟨first, rest⟩, fault?⟩
      · rw [shape] at faultless failed
        rw [show fault? = none from faultless] at failed
        cases failed
      · rw [shape] at failed
        cases failed
  | complain _ => exact ⟨faultless, [], rfl⟩
  | finish state item => exact ⟨faultless, [], rfl⟩
  | nest state depth => exact ⟨faultless, [], rfl⟩

end WhileLang.Parse
