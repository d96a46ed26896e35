import WhileLang.Proofs.Limit

/-!
Parsers without a limit. Main statements: no parser reaches the limit it is given,
and the equations that make each parser out of the others.
-/

namespace WhileLang.Parse

/-- An operand. -/
def operand : Parse Expr :=
  unlimited operandWithin

/-- Further operations on a left side that is already read. -/
def operations (precedence : Int) (left : Expr) : Parse Expr :=
  unlimited fun limit => operationsWithin limit precedence left

/-- Expressions with commas between them, each behind the current token. -/
def expressions : Parse (List Expr) :=
  unlimited expressionsWithin

/-- The statements of a block. -/
def items : Parse (List Stmt) :=
  unlimited itemsWithin

variable {fault? : Option LexicalFault} {depth : Int} {limit : Nat} {tokens : List Token}
variable {precedence : Int}

theorem covers_bound
    (tokens : List Token) (fault? : Option LexicalFault) (depth : Int) :
    2 * tokens.length + 4 ≤ (State.seeing tokens fault? depth).bound := by
  have shorter := List.length_drop (i := 2) (l := tokens)
  simp only [State.bound, State.seeing]
  omega

/-- A limit that covers the tokens is as good as the bound of the state. -/
theorem Agree.at_bound
    {α : Type} {parser : Nat → Parse α} {slack : Nat}
    (agree : Agree parser slack limit)
    (small : slack ≤ 4)
    (covers : 2 * tokens.length + slack ≤ limit) :
    parser limit (.seeing tokens fault? depth) =
      parser (State.seeing tokens fault? depth).bound
        (.seeing tokens fault? depth) := by
  have enough := covers_bound tokens fault? depth
  exact agree _ _ _ _ covers (by omega)

theorem expressionWithin_eq
    (nonnegative : 0 ≤ precedence)
    (covers : 2 * tokens.length + 2 ≤ limit) :
    expressionWithin limit precedence (.seeing tokens fault? depth) =
      expression precedence (.seeing tokens fault? depth) :=
  (Agree.of_halts (fun limit => (halts_expressionWithin limit).1 precedence nonnegative)
    limit).at_bound (by decide) covers

theorem operandWithin_eq
    (covers : 2 * tokens.length + 1 ≤ limit) :
    operandWithin limit (.seeing tokens fault? depth) =
      operand (.seeing tokens fault? depth) :=
  (Agree.of_halts (fun limit => (halts_expressionWithin limit).2.1) limit).at_bound
    (by decide) covers

theorem operationsWithin_eq
    {left : Expr}
    (nonnegative : 0 ≤ precedence)
    (covers : 2 * tokens.length + 1 ≤ limit) :
    operationsWithin limit precedence left (.seeing tokens fault? depth) =
      operations precedence left (.seeing tokens fault? depth) :=
  (Agree.of_halts
    (fun limit => (halts_expressionWithin limit).2.2 precedence left nonnegative)
    limit).at_bound (by decide) covers

theorem expressionsWithin_eq
    (nonempty : tokens ≠ [])
    (covers : 2 * tokens.length + 1 ≤ limit) :
    expressionsWithin limit (.seeing tokens fault? depth) =
      expressions (.seeing tokens fault? depth) := by
  have enough := covers_bound tokens fault? depth
  exact expressionsWithin_agree _ _ _ _ _ nonempty covers (by omega)

theorem conditionWithin_eq
    (covers : 2 * tokens.length + 2 ≤ limit) :
    conditionWithin limit (.seeing tokens fault? depth) =
      condition (.seeing tokens fault? depth) :=
  (agree_conditionWithin limit).at_bound (by decide) covers

theorem statementWithin_eq
    {inBlock : Bool}
    (covers : 2 * tokens.length + 3 ≤ limit) :
    statementWithin limit inBlock (.seeing tokens fault? depth) =
      statement inBlock (.seeing tokens fault? depth) :=
  (Agree.of_halts (fun limit => (halts_statementWithin limit).1 inBlock) limit).at_bound
    (by decide) covers

theorem blockWithin_eq
    (covers : 2 * tokens.length + 3 ≤ limit) :
    blockWithin limit (.seeing tokens fault? depth) =
      block (.seeing tokens fault? depth) :=
  (Agree.of_halts (fun limit => (halts_statementWithin limit).2.1) limit).at_bound
    (by decide) covers

theorem itemsWithin_eq
    (covers : 2 * tokens.length + 4 ≤ limit) :
    itemsWithin limit (.seeing tokens fault? depth) =
      items (.seeing tokens fault? depth) :=
  (Agree.of_halts (fun limit => (halts_statementWithin limit).2.2) limit).at_bound
    (by decide) covers

theorem programWithin_eq
    (covers : 2 * tokens.length + 4 ≤ limit) :
    programWithin limit (.seeing tokens fault? depth) =
      program (.seeing tokens fault? depth) :=
  (Agree.of_halts halts_programWithin limit).at_bound (by decide) covers

/-! ## Expressions -/

/-- An expression is an operand, which no integer follows, and operations on it. -/
theorem expression_seeing (nonnegative : 0 ≤ precedence) :
    expression precedence (.seeing tokens fault? depth) =
      (do
        let value ← operand
        let following ← next
        if following.kind = .integer then
          refuse following
        else
          operations precedence value : Parse Expr)
        (.seeing tokens fault? depth) := by
  have covers : 2 * tokens.length + 2 ≤ 2 * tokens.length + 2 + 1 := by omega
  rw [← expressionWithin_eq nonnegative covers, expressionWithin]
  refine ((visible_expressionWithin _).2.1 _ _ _).bind_congr
    (operandWithin_eq (by omega)) ?_
  intro value rest depth later _
  have shorter := later.length_le
  rw [bind_next, bind_next]
  split
  · rfl
  · exact operationsWithin_eq nonnegative (by omega)

theorem operand_name
    {token : Token}
    (name : token.kind = .identifier) :
    operand (.seeing (token :: tokens) fault? depth) =
      ⟨.accepted (.ident token token.lexeme),
        .seeing (token :: tokens) fault? depth, []⟩ := by
  rw [← operandWithin_eq (Nat.le_refl _), operandWithin_succ, current_seeing,
    List.headD_cons, name]
  rfl

theorem operand_integer
    {token : Token}
    (integer : token.kind = .integer) :
    operand (.seeing (token :: tokens) fault? depth) =
      literal token (.seeing (token :: tokens) fault? depth) := by
  rw [← operandWithin_eq (Nat.le_refl _), operandWithin_succ, current_seeing,
    List.headD_cons, integer]

theorem operand_brackets
    {token : Token}
    (opening : token.kind = .bracketOpen) :
    operand (.seeing (token :: tokens) fault? depth) =
      (do
        advance
        let inner ← expression 0
        expect .bracketClose
        pure inner : Parse Expr) (.seeing (token :: tokens) fault? depth) := by
  rw [← operandWithin_eq (Nat.le_refl _), operandWithin_succ, current_seeing,
    List.headD_cons, opening]
  apply Leads.advance.bind_congr rfl
  rintro _ _ depth _ rfl
  refine ((visible_expressionWithin _).1 0 (by decide) _ _ _).bind_congr
    (expressionWithin_eq (by decide) ?_) ?_
  · rw [List.length_cons]
    omega
  · intros
    rfl

theorem operand_other
    (noName : (tokens.headD Token.endOfInput).kind ≠ .identifier)
    (noInteger : (tokens.headD Token.endOfInput).kind ≠ .integer)
    (noBracket : (tokens.headD Token.endOfInput).kind ≠ .bracketOpen) :
    operand (.seeing tokens fault? depth) =
      ⟨.rejected, .seeing tokens fault? depth,
        [.unexpected (tokens.headD Token.endOfInput)]⟩ := by
  rw [← operandWithin_eq (Nat.le_refl _), operandWithin_succ, current_seeing]
  split
  · exact absurd ‹_› noName
  · exact absurd ‹_› noInteger
  · exact absurd ‹_› noBracket
  · rfl

theorem operations_seeing
    {left : Expr}
    (nonnegative : 0 ≤ precedence) :
    operations precedence left (.seeing tokens fault? depth) =
      (do
        let sign ← next
        if precedence < sign.kind.precedence then do
          advance
          advance
          let right ← expression sign.kind.precedence
          match Operator.ofKind? sign.kind with
          | none => stop (.noOperator sign.kind)
          | some operator =>
              operations precedence (.binary sign left operator right)
        else
          pure left : Parse Expr) (.seeing tokens fault? depth) := by
  have covers : 2 * tokens.length + 1 ≤ 2 * tokens.length + 2 + 1 := by omega
  rw [← operationsWithin_eq nonnegative covers, operationsWithin, bind_next,
    bind_next]
  split
  · apply Leads.advance.bind_congr rfl
    intro _ rest depth signLater _
    apply Leads.advance.bind_congr rfl
    intro _ rest depth operandLater _
    have shorter := (signLater.trans operandLater).length_le
    refine ((visible_expressionWithin _).1 _ (by omega) _ _ _).bind_congr
      (expressionWithin_eq (by omega) (by omega)) ?_
    intro right rest depth rightLater _
    have rightShorter := rightLater.length_le
    cases Operator.ofKind? _ with
    | none => rfl
    | some operator => exact operationsWithin_eq nonnegative (by omega)
  · rfl

theorem condition_seeing :
    condition (.seeing tokens fault? depth) =
      (do
        expect .bracketOpen
        advance
        let truth ← expression 0
        expect .bracketClose
        advance
        pure truth : Parse Expr) (.seeing tokens fault? depth) := by
  have covers : 2 * tokens.length + 2 ≤ 2 * tokens.length + 2 := by omega
  rw [← conditionWithin_eq covers, conditionWithin]
  apply (Leads.expect .bracketOpen).bind_congr rfl
  intro _ rest depth signLater _
  apply Leads.advance.bind_congr rfl
  intro _ rest depth nextLater _
  have shorter := (signLater.trans nextLater).length_le
  refine ((visible_expressionWithin _).1 0 (by decide) _ _ _).bind_congr
    (expressionWithin_eq (by decide) (by omega)) ?_
  intros
  rfl

theorem expressions_seeing (nonempty : tokens ≠ []) :
    expressions (.seeing tokens fault? depth) =
      (do
        advance
        let value ← expression 0
        let following ← next
        if following.kind = .comma then do
          advance
          (value :: ·) <$> expressions
        else
          pure [value] : Parse (List Expr)) (.seeing tokens fault? depth) := by
  have covers : 2 * tokens.length + 1 ≤ 2 * tokens.length + 2 + 1 := by omega
  rw [← expressionsWithin_eq nonempty covers, expressionsWithin]
  apply Leads.advance.bind_congr rfl
  intro _ rest depth nextLater _
  have shorter := nextLater.length_le
  refine ((visible_expressionWithin _).1 0 (by decide) _ _ _).bind_congr
    (expressionWithin_eq (by decide) (by omega)) ?_
  intro value rest depth later _
  have restShorter := later.length_le
  rw [bind_next, bind_next]
  split
  · rename_i comma
    apply Leads.advance.bind_congr rfl
    rintro _ _ depth tailLater rfl
    have tailShorter := tailLater.length_le
    exact Leads.map_congr
      (expressionsWithin_eq (ne_nil_of_kind_headD comma (by decide)) (by omega))
  · rfl

/-! ## Statements -/

/-- Is a statement that begins with tokens of these kinds an expression? -/
def IsBare (inBlock : Bool) (first second : Token.Kind) : Prop :=
  (first = .identifier → inBlock = true ∧ second ≠ .assign) ∧
    first ≠ .ifWord ∧ first ≠ .whileWord ∧ first ≠ .printWord

variable {inBlock : Bool}

theorem statement_bare
    {first : Token}
    (bare : IsBare inBlock first.kind (tokens.headD Token.endOfInput).kind) :
    statement inBlock (.seeing (first :: tokens) fault? depth) =
      (do
        let value ← expression 0
        advance
        pure (.expression first value) : Parse Stmt)
        (.seeing (first :: tokens) fault? depth) := by
  have asExpression :
      expressionStatementWithin (2 * (first :: tokens).length + 2)
          (.seeing (first :: tokens) fault? depth) =
        (do
          let value ← expression 0
          advance
          pure (.expression first value) : Parse Stmt)
          (.seeing (first :: tokens) fault? depth) := by
    rw [expressionStatementWithin, bind_current]
    refine ((visible_expressionWithin _).1 0 (by decide) _ _ _).bind_congr
      (expressionWithin_eq (by decide) (by omega)) ?_
    intros
    rfl
  obtain ⟨name, noIf, noWhile, noPrint⟩ := bare
  rw [← statementWithin_eq (Nat.le_refl _), statementWithin_succ, current_seeing,
    next_seeing, List.headD_cons, List.tail_cons]
  split
  · rename_i isName
    rw [if_pos (name isName), asExpression]
  · exact absurd ‹_› noIf
  · exact absurd ‹_› noWhile
  · exact absurd ‹_› noPrint
  · exact asExpression

theorem statement_assign
    {name : Token}
    (isName : name.kind = .identifier)
    (assigned : inBlock = true → (tokens.headD Token.endOfInput).kind = .assign) :
    statement inBlock (.seeing (name :: tokens) fault? depth) =
      (do
        expect .assign
        advance
        let value ← expression 0
        advance
        pure (.assign name ⟨name, name.lexeme⟩ value) : Parse Stmt)
        (.seeing (name :: tokens) fault? depth) := by
  rw [← statementWithin_eq (Nat.le_refl _), statementWithin_succ, current_seeing,
    next_seeing, List.headD_cons, List.tail_cons, isName]
  dsimp only
  rw [if_neg (fun both => both.2 (assigned both.1)), assignmentWithin, bind_current]
  apply (Leads.expect .assign).bind_congr rfl
  intro _ rest depth signLater _
  apply Leads.advance.bind_congr rfl
  intro _ rest depth nextLater _
  have shorter := (signLater.trans nextLater).length_le
  refine ((visible_expressionWithin _).1 0 (by decide) _ _ _).bind_congr
    (expressionWithin_eq (by decide) (by omega)) ?_
  intros
  rfl

theorem statement_print
    {word : Token}
    (isPrint : word.kind = .printWord) :
    statement inBlock (.seeing (word :: tokens) fault? depth) =
      (do
        let values ← expressions
        advance
        pure (.print word values) : Parse Stmt)
        (.seeing (word :: tokens) fault? depth) := by
  rw [← statementWithin_eq (Nat.le_refl _), statementWithin_succ, current_seeing,
    List.headD_cons, isPrint]
  dsimp only
  rw [printWithin, bind_current]
  refine (visible_expressionsWithin _ _ _ _).bind_congr
    (expressionsWithin_eq (List.cons_ne_nil _ _) (by omega)) ?_
  intros
  rfl

theorem statement_while
    {word : Token}
    (isWhile : word.kind = .whileWord) :
    statement inBlock (.seeing (word :: tokens) fault? depth) =
      (do
        let truth ← condition
        let body ← block
        pure (.whileDo word truth body) : Parse Stmt)
        (.seeing (word :: tokens) fault? depth) := by
  rw [← statementWithin_eq (Nat.le_refl _), statementWithin_succ, current_seeing,
    List.headD_cons, isWhile]
  dsimp only
  refine (shortens_conditionWithin _ _ _ _).bind_congr
    (conditionWithin_eq (by omega)) ?_
  intro truth rest depth _ shorter
  refine ((shortens_statementWithin _).2.1 _ _ _).bind_congr
    (blockWithin_eq (by omega)) ?_
  intros
  rfl

theorem statement_if
    {word : Token}
    (isIf : word.kind = .ifWord) :
    statement inBlock (.seeing (word :: tokens) fault? depth) =
      (do
        let truth ← condition
        let first ← block
        let following ← current
        if following.kind = .elseWord then do
          advance
          let second ← block
          pure (.ifElse word truth first second)
        else
          pure (.ifThen word truth first) : Parse Stmt)
        (.seeing (word :: tokens) fault? depth) := by
  rw [← statementWithin_eq (Nat.le_refl _), statementWithin_succ, current_seeing,
    List.headD_cons, isIf]
  dsimp only
  refine (shortens_conditionWithin _ _ _ _).bind_congr
    (conditionWithin_eq (by omega)) ?_
  intro truth rest depth _ shorter
  refine ((shortens_statementWithin _).2.1 _ _ _).bind_congr
    (blockWithin_eq (by omega)) ?_
  intro first rest depth firstLater _
  have firstShorter := firstLater.length_le
  rw [bind_current, bind_current]
  split
  · apply Leads.advance.bind_congr rfl
    intro _ rest depth elseLater _
    have elseShorter := elseLater.length_le
    refine ((shortens_statementWithin _).2.1 _ _ _).bind_congr
      (blockWithin_eq (by omega)) ?_
    intros
    rfl
  · rfl

/-! ## Blocks and programs -/

theorem block_seeing :
    block (.seeing tokens fault? depth) =
      (do
        let token ← current
        if token.kind = .braceOpen then do
          advance
          enterBlock
          let inner ← items
          closeBlock
          pure (.block token inner)
        else
          refuse token : Parse Stmt) (.seeing tokens fault? depth) := by
  have covers : 2 * tokens.length + 3 ≤ 2 * tokens.length + 2 + 1 := by omega
  rw [← blockWithin_eq covers, blockWithin, bind_current, bind_current]
  split
  · rename_i opening
    have positive :=
      List.length_pos_iff.mpr (ne_nil_of_kind_headD opening (by decide))
    apply Leads.advance.bind_congr rfl
    rintro _ _ depth _ rfl
    have shorter := List.length_tail (l := tokens)
    apply Leads.enterBlock.bind_congr rfl
    rintro _ _ depth _ rfl
    refine ((shortens_statementWithin _).2.2 _ _ _).bind_congr
      (itemsWithin_eq (by omega)) ?_
    intros
    rfl
  · rfl

theorem items_seeing :
    items (.seeing tokens fault? depth) =
      (do
        let token ← current
        if endsBlock token.kind then
          pure []
        else do
          match ← attempt (statement true) with
          | some item => (item :: ·) <$> items
          | none => do
              recover
              items : Parse (List Stmt)) (.seeing tokens fault? depth) := by
  have covers : 2 * tokens.length + 4 ≤ 2 * tokens.length + 3 + 1 := by omega
  rw [← itemsWithin_eq covers, itemsWithin, bind_current, bind_current]
  split
  · rfl
  · rename_i continues
    rw [current_seeing, Bool.not_eq_true] at continues
    refine (leads_attempt_statement _ true).bind_congr
      (attempt_congr (statementWithin_eq (by omega))) ?_
    intro item? rest depth later taken
    cases item? with
    | some item =>
        have shorter := taken item rfl
        exact Leads.map_congr (itemsWithin_eq (by omega))
    | none =>
        apply (leads_recover_lt later continues).bind_congr rfl
        intro _ rest depth _ shorter
        exact itemsWithin_eq (by omega)

theorem items_seeing_cons
    {first : Token}
    (continues : ¬ endsBlock first.kind = true) :
    items (.seeing (first :: tokens) fault? depth) =
      (do
        match ← attempt (statement true) with
        | some item => (item :: ·) <$> items
        | none => do
            recover
            items : Parse (List Stmt)) (.seeing (first :: tokens) fault? depth) := by
  rw [items_seeing, bind_current, current_seeing, List.headD_cons]
  exact congrFun (if_neg continues) _

theorem program_seeing :
    program (.seeing tokens fault? depth) =
      (do
        let token ← current
        if token.kind = .endOfInput then
          pure []
        else do
          match ← attempt (statement false) with
          | some item => do
              note (.parsed item)
              (item :: ·) <$> program
          | none => do
              advance
              program : Parse Program) (.seeing tokens fault? depth) := by
  have covers : 2 * tokens.length + 4 ≤ 2 * tokens.length + 3 + 1 := by omega
  rw [← programWithin_eq covers, programWithin, bind_current, bind_current]
  split
  · rfl
  · rename_i continues
    rw [current_seeing] at continues
    refine (leads_attempt_statement _ false).bind_congr
      (attempt_congr (statementWithin_eq (by omega))) ?_
    intro item? rest depth later taken
    cases item? with
    | some item =>
        have shorter := taken item rfl
        apply (Leads.note _).bind_congr rfl
        rintro _ _ depth _ rfl
        exact Leads.map_congr (programWithin_eq (by omega))
    | none =>
        apply (leads_advance_lt later continues).bind_congr rfl
        intro _ rest depth _ shorter
        exact programWithin_eq (by omega)

end WhileLang.Parse
