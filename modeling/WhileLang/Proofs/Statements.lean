import WhileLang.Proofs.Expressions

/-!
Statements are parsed by their grammar. Main statement: what a derivation makes a
statement, a block or the statements of one is accepted as such, wherever the
token ahead settles that it ends there.
-/

namespace WhileLang.Grammar

open Parse

variable {depth : Int} {inBlock : Bool} {before after : List Token} {item : Stmt}

/-! ## What settles an end -/

/-- What the tokens before and behind a statement must be for it to end there. -/
def Settled (inBlock : Bool) (before after : List Token) : Stmt → Prop
  | .expression _ _ =>
      (ahead after).precedence = 0 ∧
        IsBare inBlock (ahead before) (ahead before.tail)
  | .assign _ _ _ => (ahead after).precedence = 0
  | .print _ _ => (ahead after).precedence = 0 ∧ ahead after ≠ .comma
  | _ => True

/-- A kind of token that has no part in the statement before it. -/
structure Quiet (inBlock : Bool) (kind : Token.Kind) : Prop where
  precedence : kind.precedence = 0
  noComma : kind ≠ .comma
  noAssign : inBlock = true → kind ≠ .assign

theorem BeginsStatement.quiet
    {kind : Token.Kind}
    (begins : BeginsStatement kind) :
    Quiet inBlock kind := by
  rcases begins with (rfl | rfl | rfl) | rfl | rfl | rfl
  all_goals exact ⟨rfl, by decide, fun _ => by decide⟩

theorem BeginsStatement.continues
    {kind : Token.Kind}
    (begins : BeginsStatement kind) :
    ¬ endsBlock kind = true := by
  rcases begins with (rfl | rfl | rfl) | rfl | rfl | rfl
  all_goals decide

theorem quiet_of_endsBlock
    {kind : Token.Kind}
    (ends : endsBlock kind = true) :
    Quiet inBlock kind := by
  cases kind <;> cases ends
  all_goals exact ⟨rfl, by decide, fun _ => by decide⟩

/-- Behind a name that begins an expression there is an operator, unless the name
is all of it. -/
theorem Expression.second
    {level : Nat} {value : Expr}
    (derivation : Expression level before after value)
    (name : ahead before = .identifier) :
    before.tail = after ∨ 0 < (ahead before.tail).precedence := by
  induction derivation with
  | name _ _ _ => exact .inl rfl
  | literal _ literal _ =>
      exact absurd (literal.kind.symm.trans name) (by decide)
  | brackets _ opening _ _ _ _ =>
      exact absurd (opening.symm.trans name) (by decide)
  | tighter _ _ inductionHypothesis => exact inductionHypothesis name
  | @operation level sign _ before middle after _ _ member left _
      leftHypothesis _ =>
      have signed : 0 < sign.kind.precedence := by
        have spelled := ((mem_operators_iff _ _ _).mp member).1
        rw [Token.Kind.precedence_pos_iff, spelled]
        rfl
      rcases leftHypothesis name with whole | stronger
      · right
        rw [whole]
        exact signed
      · exact .inr stronger

theorem Statement.settled
    (derivation : Statement inBlock before after item)
    (quiet : item.endsInExpression = true → Quiet inBlock (ahead after)) :
    Settled inBlock before after item := by
  cases derivation with
  | @expression _ first before after value derivation outside =>
      have quiet := quiet rfl
      refine ⟨quiet.precedence, ?_, ?_, ?_, ?_⟩
      · intro name
        have inside : inBlock = true := by
          cases inBlock with
          | false => exact absurd name (outside rfl)
          | true => rfl
        refine ⟨inside, fun assigned => ?_⟩
        rcases derivation.second name with whole | stronger
        · rw [whole] at assigned
          exact quiet.noAssign inside assigned
        · rw [assigned] at stronger
          exact absurd stronger (by decide)
      · rcases derivation.begins with kind | kind | kind
        all_goals
          rw [kind]
          decide
      · rcases derivation.begins with kind | kind | kind
        all_goals
          rw [kind]
          decide
      · rcases derivation.begins with kind | kind | kind
        all_goals
          rw [kind]
          decide
  | assign _ _ _ => exact (quiet rfl).precedence
  | print _ _ => exact ⟨(quiet rfl).precedence, (quiet rfl).noComma⟩
  | ifThen _ _ _ _ => trivial
  | ifElse _ _ _ _ _ => trivial
  | whileDo _ _ _ => trivial

theorem Statements.quiet
    {items : List Stmt}
    (derivation : Statements inBlock before after items)
    (quiet : Quiet inBlock (ahead after)) :
    Quiet inBlock (ahead before) := by
  cases derivation with
  | nil => exact quiet
  | cons item _ => exact item.begins.quiet

theorem Statements.quiet_next
    {first : Stmt} {others : List Stmt}
    (derivation : Statements inBlock before after others)
    (quiet :
      (first :: others).getLast?.any Stmt.endsInExpression = true →
        Quiet inBlock (ahead after)) :
    first.endsInExpression = true → Quiet inBlock (ahead before) := by
  cases derivation with
  | nil => exact quiet
  | cons item _ => exact fun _ => item.begins.quiet

theorem quiet_of_cons
    {kind : Token.Kind} {first : Stmt} {others : List Stmt}
    (quiet :
      (first :: others).getLast?.any Stmt.endsInExpression = true →
        Quiet inBlock kind) :
    others.getLast?.any Stmt.endsInExpression = true → Quiet inBlock kind := by
  cases others with
  | nil => nofun
  | cons second rest => rwa [List.getLast?_cons_cons] at quiet

/-! ## Parts of statements -/

theorem Condition.report_condition
    {word : Token} {truth : Expr}
    (derivation : Condition before after truth) :
    (condition (.seeing (word :: before) none depth)).report =
      ⟨.accepted truth, .seeing after none depth, []⟩ := by
  cases derivation with
  | @brackets opening closing _ _ _ opens inner closes =>
      have settled : (ahead (closing :: after)).precedence = 0 := by
        simp [ahead, closes, Token.Kind.precedence]
      obtain ⟨last, read⟩ := inner.report_whole depth settled
      rw [condition_seeing, report_bind (report_expect opens),
        report_bind report_advance, report_bind read,
        report_bind (report_expect closes), report_bind report_advance]
      rfl

theorem Values.report_expressions
    {word : Token} {values : List Expr}
    (derivation : Values before after values)
    (depth : Int)
    (settled : (ahead after).precedence = 0)
    (noComma : ahead after ≠ .comma) :
    ∃ last,
      (expressions (.seeing (word :: before) none depth)).report =
        ⟨.accepted values, .seeing (last :: after) none depth, []⟩ := by
  induction derivation generalizing word with
  | @last before after value derivation =>
      obtain ⟨last, read⟩ := derivation.report_whole depth settled
      refine ⟨last, ?_⟩
      have noMore :
          (State.seeing (last :: after) none depth).next.kind ≠ .comma :=
        noComma
      rw [expressions_seeing (List.cons_ne_nil _ _), report_bind report_advance,
        report_bind read, bind_next, if_neg noMore]
      rfl
  | @more comma before middle after value values derivation isComma _
      inductionHypothesis =>
      have atComma : (ahead (comma :: middle)).precedence = 0 := by
        simp [ahead, isComma, Token.Kind.precedence]
      obtain ⟨last, read⟩ := derivation.report_whole depth atComma
      obtain ⟨final, rest⟩ := inductionHypothesis settled noComma
      refine ⟨final, ?_⟩
      rw [expressions_seeing (List.cons_ne_nil _ _), report_bind report_advance,
        report_bind read, bind_next, next_seeing, List.tail_cons,
        List.headD_cons, if_pos isComma, report_bind report_advance]
      exact report_map rest

theorem report_enterBlock :
    (enterBlock (.seeing before none depth)).report =
      ⟨.accepted (), .seeing before none (depth + 1), []⟩ := rfl

theorem report_leaveBlock :
    (leaveBlock (.seeing after none (depth + 1))).report =
      ⟨.accepted (), .seeing after none depth, []⟩ := by
  show Report.mk (.accepted ()) (State.seeing after none (depth + 1 - 1)) [] = _
  rw [Int.add_sub_cancel]

/-- A block is left at its own brace, which is taken. -/
theorem report_closeBlock
    {closing : Token}
    (closes : closing.kind = .braceClose) :
    (closeBlock (.seeing (closing :: after) none (depth + 1))).report =
      ⟨.accepted (), .seeing after none depth, []⟩ := by
  rw [closeBlock_eq, current_seeing, List.headD_cons, if_pos closes,
    report_bind report_advance]
  exact report_leaveBlock

/-- A block is left at an `else`, which stays. -/
theorem report_closeBlock_of_else
    (elseAhead : ahead after = .elseWord) :
    (closeBlock (.seeing after none (depth + 1))).report =
      ⟨.accepted (), .seeing after none depth, []⟩ := by
  have kind :
      (State.seeing after none (depth + 1)).current.kind = .elseWord := elseAhead
  rw [closeBlock_eq, kind, if_neg nofun, if_neg nofun]
  exact report_leaveBlock

/-! ## Completeness -/

mutual

theorem Statement.report_statement
    {inBlock : Bool} {before after : List Token} {item : Stmt} (depth : Int) :
    Statement inBlock before after item →
    Settled inBlock before after item →
    (statement inBlock (.seeing before none depth)).report =
      ⟨.accepted item, .seeing after none depth, []⟩
  | @Statement.expression _ first before _ _ value _, ⟨settled, bare⟩ => by
      obtain ⟨last, read⟩ := value.report_whole depth settled
      have bare :
          IsBare inBlock first.kind (before.headD Token.endOfInput).kind := bare
      rw [statement_bare bare, report_bind read, report_bind report_advance]
      rfl
  | @Statement.assign _ _ sign before _ _ name isSign value, settled => by
      obtain ⟨last, read⟩ := value.report_whole depth settled
      have assigned :
          inBlock = true →
            ((sign :: before).headD Token.endOfInput).kind = .assign :=
        fun _ => isSign
      rw [statement_assign name assigned, report_bind (report_expect isSign),
        report_bind report_advance, report_bind read, report_bind report_advance]
      rfl
  | .print word values, ⟨settled, noComma⟩ => by
      obtain ⟨last, read⟩ :=
        values.report_expressions depth settled noComma
      rw [statement_print word, report_bind read, report_bind report_advance]
      rfl
  | .ifThen word condition first noElse, _ => by
      have left : (State.seeing after none depth).current.kind ≠ .elseWord :=
        noElse
      rw [statement_if word, report_bind condition.report_condition,
        report_bind (first.report_block depth), bind_current, if_neg left]
      rfl
  | .ifElse word condition first other second, _ => by
      rw [statement_if word, report_bind condition.report_condition,
        report_bind (first.report_block depth), bind_current, current_seeing,
        List.headD_cons, if_pos other, report_bind report_advance,
        report_bind (second.report_block depth)]
      rfl
  | .whileDo word condition body, _ => by
      rw [statement_while word, report_bind condition.report_condition,
        report_bind (body.report_block depth)]
      rfl

theorem Block.report_block
    {before after : List Token} {item : Stmt} (depth : Int) :
    Block before after item →
    (block (.seeing before none depth)).report =
      ⟨.accepted item, .seeing after none depth, []⟩
  | @Block.closed _ last _ _ _ opening inner closing => by
      have ends : endsBlock (ahead (last :: after)) = true := by
        rw [ahead_cons, closing]
        rfl
      rw [block_seeing, bind_current, current_seeing, List.headD_cons,
        if_pos opening, report_bind report_advance,
        report_bind report_enterBlock, report_bind (inner.report_items (depth + 1) ends),
        report_bind (report_closeBlock closing)]
      rfl
  | .left opening inner elseAhead => by
      have ends : endsBlock (ahead after) = true := by
        rw [elseAhead]
        rfl
      rw [block_seeing, bind_current, current_seeing, List.headD_cons,
        if_pos opening, report_bind report_advance,
        report_bind report_enterBlock, report_bind (inner.report_items (depth + 1) ends),
        report_bind (report_closeBlock_of_else elseAhead)]
      rfl

theorem Statements.report_items
    {before after : List Token} {list : List Stmt} (depth : Int)
    (ends : endsBlock (ahead after) = true) :
    Statements true before after list →
    (items (.seeing before none depth)).report =
      ⟨.accepted list, .seeing after none depth, []⟩
  | .nil => by
      have atEnd :
          endsBlock (State.seeing before none depth).current.kind = true := ends
      rw [items_seeing, bind_current, if_pos atEnd]
      rfl
  | .cons item others => by
      have continues :
          ¬ endsBlock (State.seeing before none depth).current.kind = true :=
        item.begins.continues
      have settled := item.settled fun _ => others.quiet (quiet_of_endsBlock ends)
      have read := report_attempt (item.report_statement depth settled)
      rw [items_seeing, bind_current, if_neg continues, report_bind read]
      exact report_map (others.report_items depth ends)

end

end WhileLang.Grammar
