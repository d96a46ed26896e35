import WhileLang.Proofs.Progress

/-!
Parsing without a limit. What the parsers do is written down as routines that call
one another, and a run of a routine is a finite tree of calls, as large as it may
be. Main statements: from a state there is at most one run, and what a parser does
under a limit that covers the tokens is a run.
-/

namespace WhileLang.Parse

variable {α β : Type}

/-! ## Routines -/

/-- The parsers that call themselves or one another. -/
inductive Routine : Type → Type
  | expression (precedence : Int) : Routine Expr
  | operand : Routine Expr
  | operations (precedence : Int) (left : Expr) : Routine Expr
  | expressions : Routine (List Expr)
  | statement (inBlock : Bool) : Routine Stmt
  | block : Routine Stmt
  | items : Routine (List Stmt)
  | program : Routine Program

/-- What is to be done: a step that calls nothing, a call, a statement that may be
rejected, or one thing after another. -/
inductive Code : Type → Type 1
  | step {α : Type} (parser : Parse α) : Code α
  | call {α : Type} (routine : Routine α) : Code α
  | attempt (code : Code Stmt) : Code (Option Stmt)
  | andThen {α β : Type} (first : Code α) (second : α → Code β) : Code β

namespace Code

instance : Monad Code where
  pure value := .step (pure value)
  bind := .andThen

def condition : Code Expr := do
  step (expect .bracketOpen)
  step advance
  let truth ← call (.expression 0)
  step (expect .bracketClose)
  step advance
  pure truth

def expressionStatement : Code Stmt := do
  let token ← step current
  let value ← call (.expression 0)
  step advance
  pure (.expression token value)

def assignment : Code Stmt := do
  let token ← step current
  step (expect .assign)
  step advance
  let value ← call (.expression 0)
  step advance
  pure (.assign token ⟨token, token.lexeme⟩ value)

def print : Code Stmt := do
  let token ← step current
  let values ← call .expressions
  step advance
  pure (.print token values)

end Code

open Code in
/-- What a routine does. -/
def Routine.code : {α : Type} → Routine α → Code α
  | _, .expression precedence => do
      let operand ← call .operand
      let following ← step next
      if following.kind = .integer then
        step (refuse following)
      else
        call (.operations precedence operand)
  | _, .operand => do
      let token ← step current
      match token.kind with
      | .identifier => pure (.ident token token.lexeme)
      | .integer => step (literal token)
      | .bracketOpen => do
          step advance
          let inner ← call (.expression 0)
          step (expect .bracketClose)
          pure inner
      | _ => step (refuse token)
  | _, .operations precedence left => do
      let sign ← step next
      if precedence < sign.kind.precedence then do
        step advance
        step advance
        let right ← call (.expression sign.kind.precedence)
        match Operator.ofKind? sign.kind with
        | none => step (stop (.noOperator sign.kind))
        | some operator =>
            call (.operations precedence (.binary sign left operator right))
      else
        pure left
  | _, .expressions => do
      step advance
      let value ← call (.expression 0)
      let following ← step next
      if following.kind = .comma then do
        step advance
        let others ← call .expressions
        pure (value :: others)
      else
        pure [value]
  | _, .statement inBlock => do
      let token ← step current
      match token.kind with
      | .identifier => do
          let following ← step next
          if inBlock ∧ following.kind ≠ .assign then
            expressionStatement
          else
            assignment
      | .ifWord => do
          let truth ← Code.condition
          let first ← call .block
          let following ← step current
          if following.kind = .elseWord then do
            step advance
            let second ← call .block
            pure (.ifElse token truth first second)
          else
            pure (.ifThen token truth first)
      | .whileWord => do
          let truth ← Code.condition
          let body ← call .block
          pure (.whileDo token truth body)
      | .printWord => print
      | _ => expressionStatement
  | _, .block => do
      let token ← step current
      if token.kind = .braceOpen then do
        step advance
        step enterBlock
        let items ← call .items
        step closeBlock
        pure (.block token items)
      else
        step (refuse token)
  | _, .items => do
      let token ← step current
      if endsBlock token.kind then
        pure []
      else do
        match ← Code.attempt (call (.statement true)) with
        | some item => do
            let others ← call .items
            pure (item :: others)
        | none => do
            step recover
            call .items
  | _, .program => do
      let token ← step current
      if token.kind = .endOfInput then
        pure []
      else do
        match ← Code.attempt (call (.statement false)) with
        | some item => do
            step (note (.parsed item))
            let others ← call .program
            pure (item :: others)
        | none => do
            step advance
            call .program

/-! ## Runs -/

/-- What is done from a state, with all calls carried out. -/
inductive Runs : {α : Type} → Code α → State → Step α → Prop
  | step {α : Type} {parser : Parse α} {state : State} :
      Runs (.step parser) state (parser state)
  | call {α : Type} {routine : Routine α} {state : State} {step : Step α} :
      Runs routine.code state step →
      Runs (.call routine) state step
  | attempt {code : Code Stmt} {state : State} {step : Step Stmt} :
      Runs code state step →
      Runs (.attempt code) state (Parse.attempt (fun _ => step) state)
  | accepted {α β : Type} {first : Code α} {second : α → Code β}
      {state after : State} {value : α} {notices : List Notice} {last : Step β} :
      Runs first state ⟨.accepted value, after, notices⟩ →
      Runs (second value) after last →
      Runs (first.andThen second) state
        ⟨last.verdict, last.state, notices ++ last.notices⟩
  | rejected {α β : Type} {first : Code α} {second : α → Code β}
      {state after : State} {notices : List Notice} :
      Runs first state ⟨.rejected, after, notices⟩ →
      Runs (first.andThen second) state ⟨.rejected, after, notices⟩
  | broken {α β : Type} {first : Code α} {second : α → Code β}
      {state after : State} {breakage : Breakage} {notices : List Notice} :
      Runs first state ⟨.broken breakage, after, notices⟩ →
      Runs (first.andThen second) state ⟨.broken breakage, after, notices⟩

/-- There is one way to run. -/
theorem Runs.unique
    {code : Code α} {state : State} {step other : Step α}
    (runs : Runs code state step)
    (runsToo : Runs code state other) :
    step = other := by
  induction runs with
  | step =>
      cases runsToo
      rfl
  | call _ inductionHypothesis =>
      cases runsToo with
      | call inner => exact inductionHypothesis inner
  | attempt _ inductionHypothesis =>
      cases runsToo with
      | attempt inner => rw [inductionHypothesis inner]
  | accepted _ _ firstHypothesis secondHypothesis =>
      cases runsToo with
      | accepted first second =>
          cases firstHypothesis first
          rw [secondHypothesis second]
      | rejected first => cases firstHypothesis first
      | broken first => cases firstHypothesis first
  | rejected _ inductionHypothesis =>
      cases runsToo with
      | accepted first _ => cases inductionHypothesis first
      | rejected first =>
          cases inductionHypothesis first
          rfl
      | broken first => cases inductionHypothesis first
  | broken _ inductionHypothesis =>
      cases runsToo with
      | accepted first _ => cases inductionHypothesis first
      | rejected first => cases inductionHypothesis first
      | broken first =>
          cases inductionHypothesis first
          rfl

variable {fault? : Option LexicalFault} {depth : Int} {limit : Nat} {tokens : List Token}

theorem runs_current
    {second : Token → Code β} {state : State} {step : Step β}
    (runs : Runs (second state.current) state step) :
    Runs (Code.step current >>= second) state step :=
  @Runs.accepted _ _ (.step current) second _ _ _ _ _ .step runs

theorem runs_next
    {second : Token → Code β} {state : State} {step : Step β}
    (runs : Runs (second state.next) state step) :
    Runs (Code.step next >>= second) state step :=
  @Runs.accepted _ _ (.step next) second _ _ _ _ _ .step runs

/-- The second of two things is done where the first one leads. -/
theorem Leads.runs_bind
    {first : Parse α} {second : α → Parse β}
    {code : Code α} {further : α → Code β} {between : α → List Token → Prop}
    (leads : Leads fault? tokens between (first (.seeing tokens fault? depth)))
    (runs :
      Runs code (.seeing tokens fault? depth) (first (.seeing tokens fault? depth)))
    (runsBehind :
      ∀ value rest depth, Later fault? tokens rest → between value rest →
        Runs (further value) (.seeing rest fault? depth)
          (second value (.seeing rest fault? depth))) :
    Runs (code >>= further) (.seeing tokens fault? depth)
      ((first >>= second) (.seeing tokens fault? depth)) := by
  generalize start : first (.seeing tokens fault? depth) = step at leads runs
  cases leads with
  | accepted later holds =>
      rw [bind_accepted start]
      exact .accepted runs (runsBehind _ _ _ later holds)
  | rejected _ =>
      rw [bind_rejected start]
      exact .rejected runs
  | broken _ =>
      rw [bind_broken start]
      exact .broken runs

/-- A value may be changed behind a run. -/
theorem runs_map
    {change : α → β} {parser : Parse α} {code : Code α} {state : State}
    (runs : Runs code state (parser state)) :
    Runs (code >>= fun value => pure (change value)) state
      ((change <$> parser) state) := by
  rw [map_eq_bind]
  rcases start : parser state with ⟨verdict, after, notices⟩
  rw [start] at runs
  cases verdict with
  | accepted value =>
      rw [bind_accepted start]
      exact .accepted runs .step
  | rejected =>
      rw [bind_rejected start]
      exact .rejected runs
  | broken breakage =>
      rw [bind_broken start]
      exact .broken runs

/-- What a routine does under a limit is a run, wherever the limit covers the tokens
and `slack` more. -/
def Halts (routine : Routine α) (parser : Nat → Parse α) (slack limit : Nat) : Prop :=
  ∀ (tokens : List Token) (fault? : Option LexicalFault) (depth : Int),
    2 * tokens.length + slack ≤ limit →
    Runs (.call routine) (.seeing tokens fault? depth)
      (parser limit (.seeing tokens fault? depth))

theorem halts_zero
    {routine : Routine α} {parser : Nat → Parse α} {slack : Nat}
    (positive : 0 < slack) :
    Halts routine parser slack 0 := by
  intro tokens fault? depth covers
  omega

theorem halts_succ
    {routine : Routine α} {parser : Nat → Parse α} {slack limit : Nat}
    (runs :
      ∀ (tokens : List Token) (fault? : Option LexicalFault) (depth : Int),
        2 * tokens.length + slack ≤ limit + 1 →
        Runs routine.code (.seeing tokens fault? depth)
          (parser (limit + 1) (.seeing tokens fault? depth))) :
    Halts routine parser slack (limit + 1) :=
  fun tokens fault? depth covers => .call (runs tokens fault? depth covers)

theorem two_le_length_of_kind
    {kind : Token.Kind}
    (next : (tokens.tail.headD Token.endOfInput).kind = kind)
    (notEnd : kind ≠ .endOfInput) :
    2 ≤ tokens.length := by
  have nonempty := List.length_pos_iff.mpr (ne_nil_of_kind_headD next notEnd)
  rw [List.length_tail] at nonempty
  omega

/-! ## Expressions -/

section Expressions

variable {precedence : Int}

theorem halts_expressionWithin_succ
    (operand : Halts .operand operandWithin 1 limit)
    (operations :
      ∀ precedence left, 0 ≤ precedence →
        Halts (.operations precedence left) (operationsWithin · precedence left) 1 limit)
    (nonnegative : 0 ≤ precedence) :
    Halts (.expression precedence) (expressionWithin · precedence) 2 (limit + 1) := by
  apply halts_succ
  intro tokens fault? depth covers
  rw [expressionWithin, Routine.code]
  apply ((visible_expressionWithin limit).2.1 _ _ _).runs_bind
    (operand _ _ _ (by omega))
  intro value rest depth later _
  have shorter := later.length_le
  rw [bind_next]
  apply runs_next
  split
  · exact .step
  · exact operations precedence value nonnegative _ _ _ (by omega)

theorem halts_operandWithin_succ
    (expression : ∀ precedence, 0 ≤ precedence →
      Halts (.expression precedence) (expressionWithin · precedence) 2 limit) :
    Halts .operand operandWithin 1 (limit + 1) := by
  apply halts_succ
  intro tokens fault? depth covers
  rw [operandWithin_succ, Routine.code]
  apply runs_current
  cases kind : (State.seeing tokens fault? depth).current.kind with
  | bracketOpen =>
      have nonempty :=
        List.length_pos_iff.mpr (ne_nil_of_kind_headD kind (by decide))
      apply Leads.advance.runs_bind .step
      rintro _ _ depth later rfl
      have shorter := List.length_tail (l := tokens)
      apply ((visible_expressionWithin limit).1 0 (by decide) _ _ _).runs_bind
        (expression 0 (by decide) _ _ _ (by omega))
      intro inner rest depth _ _
      apply (Leads.expect .bracketClose).runs_bind .step
      intros
      exact .step
  | _ => exact .step

theorem halts_operationsWithin_succ
    {left : Expr}
    (expression : ∀ precedence, 0 ≤ precedence →
      Halts (.expression precedence) (expressionWithin · precedence) 2 limit)
    (operations :
      ∀ precedence left, 0 ≤ precedence →
        Halts (.operations precedence left) (operationsWithin · precedence left) 1 limit)
    (nonnegative : 0 ≤ precedence) :
    Halts (.operations precedence left) (operationsWithin · precedence left) 1
      (limit + 1) := by
  apply halts_succ
  intro tokens fault? depth covers
  rw [operationsWithin, Routine.code, bind_next]
  apply runs_next
  split
  · rename_i stronger
    -- What binds is not the end of input, so there are two tokens to step over.
    have enough : 2 ≤ tokens.length := by
      apply two_le_length_of_kind rfl
      intro atEnd
      rw [next_seeing, atEnd] at stronger
      exact absurd stronger (by simp [Token.Kind.precedence]; omega)
    apply Leads.advance.runs_bind .step
    rintro _ _ depth _ rfl
    apply Leads.advance.runs_bind .step
    rintro _ _ depth _ rfl
    have shorter := List.length_tail (l := tokens)
    have shorterStill := List.length_tail (l := tokens.tail)
    apply ((visible_expressionWithin limit).1 _ (by omega) _ _ _).runs_bind
      (expression _ (by omega) _ _ _ (by omega))
    intro right rest depth later _
    have rightShorter := later.length_le
    cases Operator.ofKind? _ with
    | none => exact .step
    | some operator => exact operations _ _ nonnegative _ _ _ (by omega)
  · exact .step

/-- Two steps down, the tokens of an expression are fewer by one. -/
theorem halts_expressionWithin (limit : Nat) :
    (∀ precedence, 0 ≤ precedence →
      Halts (.expression precedence) (expressionWithin · precedence) 2 limit) ∧
    Halts .operand operandWithin 1 limit ∧
    ∀ precedence left, 0 ≤ precedence →
      Halts (.operations precedence left) (operationsWithin · precedence left) 1 limit := by
  induction limit with
  | zero =>
      exact ⟨fun _ _ => halts_zero (by decide), halts_zero (by decide),
        fun _ _ _ => halts_zero (by decide)⟩
  | succ limit inductionHypothesis =>
      obtain ⟨expression, operand, operations⟩ := inductionHypothesis
      exact ⟨fun _ => halts_expressionWithin_succ operand operations,
        halts_operandWithin_succ expression,
        fun _ _ => halts_operationsWithin_succ expression operations⟩

end Expressions

theorem runs_conditionWithin
    (covers : 2 * tokens.length + 2 ≤ limit) :
    Runs Code.condition (.seeing tokens fault? depth)
      (conditionWithin limit (.seeing tokens fault? depth)) := by
  rw [conditionWithin, Code.condition]
  apply (Leads.expect .bracketOpen).runs_bind .step
  intro _ rest depth signLater _
  apply Leads.advance.runs_bind .step
  intro _ rest depth nextLater _
  have shorter := (signLater.trans nextLater).length_le
  apply ((visible_expressionWithin limit).1 0 (by decide) _ _ _).runs_bind
    ((halts_expressionWithin limit).1 0 (by decide) _ _ _ (by omega))
  intro truth rest depth _ _
  apply (Leads.expect .bracketClose).runs_bind .step
  intro _ rest depth _ _
  apply Leads.advance.runs_bind .step
  intros
  exact .step

/-- The values to be printed are behind a token, so that a smaller limit covers
them. -/
theorem runs_expressionsWithin (limit : Nat) :
    ∀ (tokens : List Token) (fault? : Option LexicalFault) (depth : Int), tokens ≠ [] →
      2 * tokens.length + 1 ≤ limit →
      Runs (.call .expressions) (.seeing tokens fault? depth)
        (expressionsWithin limit (.seeing tokens fault? depth)) := by
  induction limit with
  | zero =>
      intros
      omega
  | succ limit inductionHypothesis =>
      intro tokens fault? depth nonempty covers
      have positive := List.length_pos_iff.mpr nonempty
      rw [expressionsWithin]
      apply Runs.call
      rw [Routine.code]
      apply Leads.advance.runs_bind .step
      rintro _ _ depth _ rfl
      have shorter := List.length_tail (l := tokens)
      apply ((visible_expressionWithin limit).1 0 (by decide) _ _ _).runs_bind
        ((halts_expressionWithin limit).1 0 (by decide) _ _ _ (by omega))
      intro value rest depth later _
      have restShorter := later.length_le
      rw [bind_next]
      apply runs_next
      split
      · rename_i comma
        apply Leads.advance.runs_bind .step
        rintro _ _ depth _ rfl
        have tailShorter := List.length_tail (l := rest)
        have more : rest.tail ≠ [] := ne_nil_of_kind_headD comma (by decide)
        exact runs_map (inductionHypothesis _ _ _ more (by omega))
      · exact .step

/-! ## Statements -/

theorem runs_expressionStatementWithin
    (covers : 2 * tokens.length + 2 ≤ limit) :
    Runs Code.expressionStatement (.seeing tokens fault? depth)
      (expressionStatementWithin limit (.seeing tokens fault? depth)) := by
  rw [expressionStatementWithin, Code.expressionStatement, bind_current]
  apply runs_current
  apply ((visible_expressionWithin limit).1 0 (by decide) _ _ _).runs_bind
    ((halts_expressionWithin limit).1 0 (by decide) _ _ _ covers)
  intro value rest depth _ _
  apply Leads.advance.runs_bind .step
  intros
  exact .step

theorem runs_assignmentWithin
    (covers : 2 * tokens.length + 2 ≤ limit) :
    Runs Code.assignment (.seeing tokens fault? depth)
      (assignmentWithin limit (.seeing tokens fault? depth)) := by
  rw [assignmentWithin, Code.assignment, bind_current]
  apply runs_current
  apply (Leads.expect .assign).runs_bind .step
  intro _ rest depth signLater _
  apply Leads.advance.runs_bind .step
  intro _ rest depth nextLater _
  have shorter := (signLater.trans nextLater).length_le
  apply ((visible_expressionWithin limit).1 0 (by decide) _ _ _).runs_bind
    ((halts_expressionWithin limit).1 0 (by decide) _ _ _ (by omega))
  intro value rest depth _ _
  apply Leads.advance.runs_bind .step
  intros
  exact .step

theorem runs_printWithin
    (nonempty : tokens ≠ [])
    (covers : 2 * tokens.length + 1 ≤ limit) :
    Runs Code.print (.seeing tokens fault? depth)
      (printWithin limit (.seeing tokens fault? depth)) := by
  rw [printWithin, Code.print, bind_current]
  apply runs_current
  apply (visible_expressionsWithin limit _ _ _).runs_bind
    (runs_expressionsWithin limit _ _ _ nonempty covers)
  intro values rest depth _ _
  apply Leads.advance.runs_bind .step
  intros
  exact .step

/-- A rejected statement of a list is left together with a token, unless it took
one. -/
theorem leads_recover_lt
    {rest : List Token}
    (later : Later fault? tokens rest)
    (continues : endsBlock (tokens.headD Token.endOfInput).kind = false) :
    Leads fault? rest (fun _ final => final.length < tokens.length)
      (recover (.seeing rest fault? depth)) := by
  by_cases same : rest.length = tokens.length
  · obtain rfl := later.suffix.eq_of_length same
    have nonempty : rest ≠ [] := by
      rintro rfl
      cases continues
    rw [recover, bind_current]
    split
    · rename_i closing
      rw [current_seeing] at closing
      rw [closing] at continues
      cases continues
    · exact .advance_lt (Later.refl rest) nonempty
  · apply leads_recover.weaken
    intro _ final finalLater _
    have shorter := later.length_le
    have finalShorter := finalLater.length_le
    omega

theorem leads_attempt_statement (limit : Nat) (inBlock : Bool) :
    Leads fault? tokens
      (fun item? rest => ∀ item, item? = some item → rest.length < tokens.length)
      (attempt (statementWithin limit inBlock) (.seeing tokens fault? depth)) :=
  ((shortens_statementWithin limit).1 inBlock _ _ _).attempt
    (fun _ _ shorter _ _ => shorter) (fun _ => nofun)

theorem halts_statementWithin_succ
    {inBlock : Bool}
    (block : Halts .block blockWithin 3 limit) :
    Halts (.statement inBlock) (statementWithin · inBlock) 3 (limit + 1) := by
  have blockLeads := (shortens_statementWithin limit).2.1
  apply halts_succ
  intro tokens fault? depth covers
  rw [statementWithin_succ, Routine.code]
  apply runs_current
  cases kind : (State.seeing tokens fault? depth).current.kind with
  | identifier =>
      apply runs_next
      split
      · exact runs_expressionStatementWithin (by omega)
      · exact runs_assignmentWithin (by omega)
  | ifWord =>
      apply (shortens_conditionWithin limit _ _ _).runs_bind
        (runs_conditionWithin (by omega))
      intro truth rest depth _ shorter
      apply (blockLeads _ _ _).runs_bind (block _ _ _ (by omega))
      intro first rest depth firstLater _
      have firstShorter := firstLater.length_le
      rw [bind_current]
      apply runs_current
      split
      · apply Leads.advance.runs_bind .step
        intro _ rest depth elseLater _
        have elseShorter := elseLater.length_le
        apply (blockLeads _ _ _).runs_bind (block _ _ _ (by omega))
        intros
        exact .step
      · exact .step
  | whileWord =>
      apply (shortens_conditionWithin limit _ _ _).runs_bind
        (runs_conditionWithin (by omega))
      intro truth rest depth _ shorter
      apply (blockLeads _ _ _).runs_bind (block _ _ _ (by omega))
      intros
      exact .step
  | printWord =>
      have nonempty : tokens ≠ [] := ne_nil_of_kind_headD kind (by decide)
      exact runs_printWithin nonempty (by omega)
  | _ => exact runs_expressionStatementWithin (by omega)

theorem halts_blockWithin_succ
    (items : Halts .items itemsWithin 4 limit) :
    Halts .block blockWithin 3 (limit + 1) := by
  apply halts_succ
  intro tokens fault? depth covers
  rw [blockWithin, Routine.code, bind_current]
  apply runs_current
  split
  · rename_i opening
    have positive :=
      List.length_pos_iff.mpr (ne_nil_of_kind_headD opening (by decide))
    apply Leads.advance.runs_bind .step
    rintro _ _ depth _ rfl
    have shorter := List.length_tail (l := tokens)
    apply Leads.enterBlock.runs_bind .step
    rintro _ _ depth _ rfl
    apply ((shortens_statementWithin limit).2.2 _ _ _).runs_bind
      (items _ _ _ (by omega))
    intro inner rest depth _ _
    apply leads_closeBlock.runs_bind .step
    intros
    exact .step
  · exact .step

theorem halts_itemsWithin_succ
    (statement : Halts (.statement true) (statementWithin · true) 3 limit)
    (items : Halts .items itemsWithin 4 limit) :
    Halts .items itemsWithin 4 (limit + 1) := by
  apply halts_succ
  intro tokens fault? depth covers
  rw [itemsWithin, Routine.code, bind_current]
  apply runs_current
  split
  · exact .step
  · rename_i continues
    rw [current_seeing, Bool.not_eq_true] at continues
    apply (leads_attempt_statement limit true).runs_bind
      (.attempt (statement _ _ _ (by omega)))
    intro item? rest depth later taken
    cases item? with
    | some item =>
        have shorter := taken item rfl
        exact runs_map (items _ _ _ (by omega))
    | none =>
        apply (leads_recover_lt later continues).runs_bind .step
        intro _ rest depth _ shorter
        exact items _ _ _ (by omega)

/-- The steps down from a list of statements are its statements, and theirs are
blocks, which begin with a token of their own. -/
theorem halts_statementWithin (limit : Nat) :
    (∀ inBlock, Halts (.statement inBlock) (statementWithin · inBlock) 3 limit) ∧
    Halts .block blockWithin 3 limit ∧ Halts .items itemsWithin 4 limit := by
  induction limit with
  | zero =>
      exact ⟨fun _ => halts_zero (by decide), halts_zero (by decide),
        halts_zero (by decide)⟩
  | succ limit inductionHypothesis =>
      obtain ⟨statement, block, items⟩ := inductionHypothesis
      exact ⟨fun _ => halts_statementWithin_succ block, halts_blockWithin_succ items,
        halts_itemsWithin_succ (statement true) items⟩

theorem leads_advance_lt
    {rest : List Token}
    (later : Later fault? tokens rest)
    (continues : (tokens.headD Token.endOfInput).kind ≠ .endOfInput) :
    Leads fault? rest (fun _ final => final.length < tokens.length)
      (advance (.seeing rest fault? depth)) := by
  have nonempty : tokens ≠ [] := ne_nil_of_kind_headD rfl continues
  apply Leads.advance.weaken
  rintro _ _ _ rfl
  have positive := List.length_pos_iff.mpr nonempty
  have shorter := later.length_le
  rw [List.length_tail]
  omega

theorem halts_programWithin (limit : Nat) : Halts .program programWithin 4 limit := by
  induction limit with
  | zero => exact halts_zero (by decide)
  | succ limit inductionHypothesis =>
      apply halts_succ
      intro tokens fault? depth covers
      rw [programWithin, Routine.code, bind_current]
      apply runs_current
      split
      · exact .step
      · rename_i continues
        rw [current_seeing] at continues
        apply (leads_attempt_statement limit false).runs_bind
          (.attempt ((halts_statementWithin limit).1 false _ _ _ (by omega)))
        intro item? rest depth later taken
        cases item? with
        | some item =>
            have shorter := taken item rfl
            apply (Leads.note _).runs_bind .step
            rintro _ _ depth _ rfl
            exact runs_map (inductionHypothesis _ _ _ (by omega))
        | none =>
            apply (leads_advance_lt later continues).runs_bind .step
            intro _ rest depth _ shorter
            exact inductionHypothesis _ _ _ (by omega)

end WhileLang.Parse
