import WhileLang.Proofs.Window

/-!
Progress of the parsers. Main statements: under any limit each parser leads to a
later place among the tokens, never behind a faultless text, and a statement that is
accepted has taken a token.
-/

namespace WhileLang.Parse

variable {fault? : Option LexicalFault} {depth : Int} {tokens : List Token}

theorem ne_nil_of_kind_headD
    {kind : Token.Kind}
    (head : (tokens.headD Token.endOfInput).kind = kind)
    (notEnd : kind ≠ .endOfInput) :
    tokens ≠ [] := by
  rintro rfl
  exact notEnd head.symm

/-- A parser that never leaves the end of input behind a value. -/
def Visible {α : Type} (parser : Parse α) : Prop :=
  ∀ (tokens : List Token) (fault? : Option LexicalFault) (depth : Int),
    Leads fault? tokens (fun _ rest => rest ≠ [])
      (parser (.seeing tokens fault? depth))

theorem visible_literal
    {token : Token}
    (nonempty : tokens ≠ []) :
    Leads fault? tokens (fun _ rest => rest ≠ [])
      (literal token (.seeing tokens fault? depth)) := by
  unfold literal
  cases Numeral.readWord token.lexeme with
  | ok value => exact .pure nonempty
  | error fault => exact .refuse token

theorem ofKind?_ne_none
    {precedence : Int} {kind : Token.Kind}
    (nonnegative : 0 ≤ precedence)
    (stronger : precedence < kind.precedence) :
    Operator.ofKind? kind ≠ none := by
  have positive : 0 < kind.precedence := by omega
  have found := (Token.Kind.precedence_pos_iff kind).mp positive
  exact Option.isSome_iff_ne_none.mp found

/-- What an operand is, is decided by the current token. -/
theorem operandWithin_succ (limit : Nat) (state : State) :
    operandWithin (limit + 1) state =
      match state.current.kind with
      | .identifier =>
          (pure (.ident state.current state.current.lexeme) : Parse Expr) state
      | .integer => literal state.current state
      | .bracketOpen =>
          (do
            advance
            let inner ← expressionWithin limit 0
            expect .bracketClose
            pure inner : Parse Expr) state
      | _ => (refuse state.current : Parse Expr) state := by
  rw [operandWithin, bind_current]
  cases state.current.kind <;> rfl

/-- Expressions, operands and further operations end on their last token. -/
theorem visible_expressionWithin (limit : Nat) :
    (∀ precedence : Int, 0 ≤ precedence →
      Visible (expressionWithin limit precedence)) ∧
    Visible (operandWithin limit) ∧
    (∀ precedence : Int, 0 ≤ precedence →
      ∀ (left : Expr) (tokens : List Token) (fault? : Option LexicalFault)
        (depth : Int), tokens ≠ [] →
        Leads fault? tokens (fun _ rest => rest ≠ [])
          (operationsWithin limit precedence left
            (.seeing tokens fault? depth))) := by
  induction limit with
  | zero =>
      exact ⟨fun _ _ _ _ _ => .reject, fun _ _ _ => .reject,
        fun _ _ _ _ _ _ _ => .reject⟩
  | succ limit inductionHypothesis =>
      obtain ⟨expression, operand, operations⟩ := inductionHypothesis
      refine ⟨?_, ?_, ?_⟩
      · intro precedence nonnegative tokens fault? depth
        rw [expressionWithin]
        apply (operand tokens fault? depth).bind
        intro value rest depth _ nonempty
        rw [bind_next]
        split
        · exact .refuse _
        · exact operations precedence nonnegative value rest fault? depth nonempty
      · intro tokens fault? depth
        rw [operandWithin_succ, current_seeing]
        split
        · rename_i kind
          exact .pure (ne_nil_of_kind_headD kind (by decide))
        · rename_i kind
          exact visible_literal (ne_nil_of_kind_headD kind (by decide))
        · apply Leads.advance.bind
          intro _ rest depth _ _
          apply (expression 0 (by decide) rest fault? depth).bind
          intro inner rest depth _ _
          apply (Leads.expect .bracketClose).bind
          rintro _ _ depth _ ⟨closing, rfl⟩
          exact .pure (ne_nil_of_kind_headD closing (by decide))
        · exact .refuse _
      · intro precedence nonnegative left tokens fault? depth nonempty
        rw [operationsWithin, bind_next]
        split
        · rename_i stronger
          apply Leads.advance.bind
          intro _ rest depth _ _
          apply Leads.advance.bind
          intro _ rest depth _ _
          apply (expression _ (by omega) rest fault? depth).bind
          intro right rest depth _ nonempty
          cases found : Operator.ofKind? _ with
          | none => exact absurd found (ofKind?_ne_none nonnegative stronger)
          | some operator =>
              exact operations precedence nonnegative _ rest fault? depth nonempty
        · exact .pure nonempty

/-! ## Statements -/

/-- A parser that has taken a token whenever it accepts. -/
def Shortens {α : Type} (parser : Parse α) : Prop :=
  ∀ (tokens : List Token) (fault? : Option LexicalFault) (depth : Int),
    Leads fault? tokens (fun _ rest => rest.length < tokens.length)
      (parser (.seeing tokens fault? depth))

/-- To step off the last token of an expression takes it. -/
theorem Leads.advance_lt
    {rest : List Token}
    (later : Later fault? tokens rest)
    (nonempty : rest ≠ []) :
    Leads fault? rest (fun _ final => final.length < tokens.length)
      (Parse.advance (.seeing rest fault? depth)) := by
  apply advance.weaken
  rintro _ _ _ rfl
  have positive := List.length_pos_iff.mpr nonempty
  have shorter := later.length_le
  rw [List.length_tail]
  omega

theorem Leads.advance_pure_lt
    {α : Type} {value : α} {rest : List Token}
    (later : Later fault? tokens rest)
    (nonempty : rest ≠ []) :
    Leads fault? rest (fun _ final => final.length < tokens.length)
      ((do Parse.advance; Pure.pure value : Parse α)
        (.seeing rest fault? depth)) :=
  (advance_lt later nonempty).bind fun _ _ _ _ shorter => pure shorter

theorem shortens_expressionStatementWithin (limit : Nat) :
    Shortens (expressionStatementWithin limit) := by
  intro tokens fault? depth
  rw [expressionStatementWithin, bind_current]
  apply ((visible_expressionWithin limit).1 0 (by decide) _ _ _).bind
  intro value rest depth later nonempty
  exact .advance_pure_lt later nonempty

theorem shortens_assignmentWithin (limit : Nat) :
    Shortens (assignmentWithin limit) := by
  intro tokens fault? depth
  rw [assignmentWithin, bind_current]
  apply (Leads.expect .assign).bind
  intro _ rest depth signLater _
  apply Leads.advance.bind
  intro _ rest depth nextLater _
  apply ((visible_expressionWithin limit).1 0 (by decide) _ _ _).bind
  intro value rest depth valueLater nonempty
  exact .advance_pure_lt ((signLater.trans nextLater).trans valueLater) nonempty

theorem visible_expressionsWithin (limit : Nat) :
    Visible (expressionsWithin limit) := by
  induction limit with
  | zero => exact fun _ _ _ => .reject
  | succ limit inductionHypothesis =>
      intro tokens fault? depth
      rw [expressionsWithin]
      apply Leads.advance.bind
      intro _ rest depth _ _
      apply ((visible_expressionWithin limit).1 0 (by decide) _ _ _).bind
      intro value rest depth _ nonempty
      rw [bind_next]
      split
      · apply Leads.advance.bind
        intro _ rest depth _ _
        exact (inductionHypothesis rest fault? depth).map fun _ _ => id
      · exact .pure nonempty

theorem shortens_printWithin (limit : Nat) :
    Shortens (printWithin limit) := by
  intro tokens fault? depth
  rw [printWithin, bind_current]
  apply (visible_expressionsWithin limit _ _ _).bind
  intro values rest depth later nonempty
  exact .advance_pure_lt later nonempty

theorem shortens_conditionWithin (limit : Nat) :
    Shortens (conditionWithin limit) := by
  intro tokens fault? depth
  rw [conditionWithin]
  apply (Leads.expect .bracketOpen).bind
  intro _ rest depth openingLater _
  apply Leads.advance.bind
  intro _ rest depth nextLater _
  apply ((visible_expressionWithin limit).1 0 (by decide) _ _ _).bind
  intro truth rest depth truthLater _
  apply (Leads.expect .bracketClose).bind
  rintro _ _ depth closingLater ⟨closing, rfl⟩
  have later := (openingLater.trans nextLater).trans truthLater
  exact .advance_pure_lt (later.trans closingLater)
    (ne_nil_of_kind_headD closing (by decide))

/-- What a statement is, is decided by the current token, and if that is a name
by the next one too. -/
theorem statementWithin_succ (limit : Nat) (inBlock : Bool) (state : State) :
    statementWithin (limit + 1) inBlock state =
      match state.current.kind with
      | .identifier =>
          if inBlock ∧ state.next.kind ≠ .assign then
            expressionStatementWithin limit state
          else
            assignmentWithin limit state
      | .ifWord =>
          (do
            let truth ← conditionWithin limit
            let first ← blockWithin limit
            let following ← current
            if following.kind = .elseWord then do
              advance
              let second ← blockWithin limit
              pure (.ifElse state.current truth first second)
            else
              pure (.ifThen state.current truth first) : Parse Stmt) state
      | .whileWord =>
          (do
            let truth ← conditionWithin limit
            let body ← blockWithin limit
            pure (.whileDo state.current truth body) : Parse Stmt) state
      | .printWord => printWithin limit state
      | _ => expressionStatementWithin limit state := by
  rw [statementWithin, bind_current]
  cases state.current.kind <;> try rfl
  show (next >>= fun following =>
    if inBlock ∧ following.kind ≠ .assign then
      expressionStatementWithin limit
    else
      assignmentWithin limit) state = _
  rw [bind_next]
  split <;> rfl

theorem leads_recover :
    Leads fault? tokens (fun _ _ => True)
      (recover (.seeing tokens fault? depth)) := by
  rw [recover, bind_current]
  split
  · exact .pure trivial
  · exact Leads.advance.weaken fun _ _ _ _ => trivial

/-- How a block ends is decided by the current token, and at the end of input by
the depth. -/
theorem closeBlock_eq (state : State) :
    closeBlock state =
      if state.current.kind = .braceClose then
        (do advance; leaveBlock : Parse Unit) state
      else if state.current.kind = .endOfInput ∧ state.depth = 1 then
        (do note (.unexpected state.current); leaveBlock : Parse Unit) state
      else
        leaveBlock state := by
  rw [closeBlock, bind_current, bind_inOutermostBlock]
  simp only [decide_eq_true_eq]
  split
  · rfl
  · split <;> rfl

theorem leads_closeBlock :
    Leads fault? tokens (fun _ _ => True)
      (closeBlock (.seeing tokens fault? depth)) := by
  rw [closeBlock_eq]
  have leave (rest : List Token) (depth : Int) :
      Leads fault? rest (fun _ _ => True)
        (leaveBlock (.seeing rest fault? depth)) :=
    Leads.leaveBlock.weaken fun _ _ _ _ => trivial
  split
  · exact Leads.advance.bind fun _ rest depth _ _ => leave rest depth
  · split
    · exact (Leads.note _).bind fun _ rest depth _ _ => leave rest depth
    · exact leave tokens depth

/-- A parser that leads on, whether or not it takes a token. -/
def Passes {α : Type} (parser : Parse α) : Prop :=
  ∀ (tokens : List Token) (fault? : Option LexicalFault) (depth : Int),
    Leads fault? tokens (fun _ _ => True) (parser (.seeing tokens fault? depth))

theorem shortens_statementWithin_succ
    {limit : Nat} {inBlock : Bool}
    (block : Passes (blockWithin limit)) :
    Shortens (statementWithin (limit + 1) inBlock) := by
  intro tokens fault? depth
  rw [statementWithin_succ]
  split
  · split
    · exact shortens_expressionStatementWithin limit _ _ _
    · exact shortens_assignmentWithin limit _ _ _
  · apply (shortens_conditionWithin limit _ _ _).bind
    intro truth rest depth _ shorter
    apply (block rest fault? depth).bind
    intro first rest depth firstLater _
    rw [bind_current]
    have firstShorter := firstLater.length_le
    split
    · apply Leads.advance.bind
      intro _ rest depth elseLater _
      apply (block rest fault? depth).bind
      intro second rest depth secondLater _
      have secondShorter := (elseLater.trans secondLater).length_le
      exact .pure (by omega)
    · exact .pure (by omega)
  · apply (shortens_conditionWithin limit _ _ _).bind
    intro truth rest depth _ shorter
    apply (block rest fault? depth).bind
    intro body rest depth bodyLater _
    have bodyShorter := bodyLater.length_le
    exact .pure (by omega)
  · exact shortens_printWithin limit _ _ _
  · exact shortens_expressionStatementWithin limit _ _ _

theorem passes_blockWithin_succ
    {limit : Nat}
    (items : Passes (itemsWithin limit)) :
    Passes (blockWithin (limit + 1)) := by
  intro tokens fault? depth
  rw [blockWithin, bind_current]
  split
  · apply Leads.advance.bind
    intro _ rest depth _ _
    apply Leads.enterBlock.bind
    intro _ rest depth _ _
    apply (items rest fault? depth).bind
    intro inner rest depth _ _
    exact leads_closeBlock.bind fun _ _ _ _ _ => .pure trivial
  · exact .refuse _

theorem passes_itemsWithin_succ
    {limit : Nat}
    (statement : Shortens (statementWithin limit true))
    (items : Passes (itemsWithin limit)) :
    Passes (itemsWithin (limit + 1)) := by
  intro tokens fault? depth
  rw [itemsWithin, bind_current]
  split
  · exact .pure trivial
  · apply (statement tokens fault? depth).attempt_true.bind
    intro item? rest depth _ _
    cases item? with
    | some item => exact (items rest fault? depth).map fun _ _ => id
    | none =>
        apply leads_recover.bind
        intro _ rest depth _ _
        exact items rest fault? depth

/-- Statements take tokens, and blocks and their statements lead on. -/
theorem shortens_statementWithin (limit : Nat) :
    (∀ inBlock, Shortens (statementWithin limit inBlock)) ∧
      Passes (blockWithin limit) ∧ Passes (itemsWithin limit) := by
  induction limit with
  | zero =>
      exact ⟨fun _ _ _ _ => .reject, fun _ _ _ => .reject, fun _ _ _ => .reject⟩
  | succ limit inductionHypothesis =>
      obtain ⟨statement, block, items⟩ := inductionHypothesis
      exact ⟨fun _ => shortens_statementWithin_succ block,
        passes_blockWithin_succ items,
        passes_itemsWithin_succ (statement true) items⟩

end WhileLang.Parse
