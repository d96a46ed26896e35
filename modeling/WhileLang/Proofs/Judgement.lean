import WhileLang.Proofs.Statements

/-!
What the parser says of any tokens. Main statement: of a statement, of a block and
of the statements of one there is a derivation, or the parser complains, or the
input ends inside a block that is open around them.
-/

namespace WhileLang.Grammar

open Parse

variable {α : Type} {depth : Int} {inBlock : Bool} {tokens : List Token}

/-! ## Expressions and conditions -/

theorem decided_whole
    (spelled : ∀ token ∈ tokens, token.Spelled)
    (depth : Int) :
    (∃ after value,
      Expression 1 tokens after value ∧ (ahead after).precedence = 0) ∨
    (expression 0 (.seeing tokens none depth)).Complains := by
  have decided : Decided depth 0 tokens := decided_expression spelled 0
  rcases decided with
    ⟨after, value, derivation, loose⟩ | refuses
  · exact .inl ⟨after, value, derivation, Nat.le_zero.mp loose⟩
  · exact .inr refuses.complains

theorem Spelled.of_suffix
    {rest : List Token}
    (spelled : ∀ token ∈ tokens, token.Spelled)
    (suffix : rest <:+ tokens) :
    ∀ token ∈ rest, token.Spelled :=
  fun token member => spelled token (suffix.subset member)

theorem decided_condition
    (word : Token)
    (spelled : ∀ token ∈ tokens, token.Spelled)
    (depth : Int) :
    (∃ after truth, Condition tokens after truth) ∨
    (condition (.seeing (word :: tokens) none depth)).Complains := by
  rw [condition_seeing]
  by_cases opens : ahead tokens = .bracketOpen
  · obtain _ | ⟨opening, inside⟩ := tokens
    · cases opens
    have isOpening : opening.kind = .bracketOpen := opens
    rcases decided_whole
        (Spelled.of_suffix spelled (List.suffix_cons opening inside)) depth with
      ⟨rest, truth, derivation, settled⟩ | complains
    · obtain ⟨last, read⟩ := derivation.report_whole depth settled
      by_cases closes : ahead rest = .bracketClose
      · obtain _ | ⟨closing, after⟩ := rest
        · cases closes
        exact .inl ⟨after, truth, .brackets isOpening derivation closes⟩
      · refine .inr ?_
        apply complains_bind_of_quiet (report_expect isOpening)
        apply complains_bind_of_quiet report_advance
        apply complains_bind_of_quiet read
        exact complains_bind (complains_expect closes)
    · refine .inr ?_
      apply complains_bind_of_quiet (report_expect isOpening)
      apply complains_bind_of_quiet report_advance
      exact complains_bind complains
  · exact .inr (complains_bind (complains_expect opens))

theorem decided_values
    (word : Token)
    (spelled : ∀ token ∈ tokens, token.Spelled)
    (depth : Int) :
    (∃ after values,
      Values tokens after values ∧ (ahead after).precedence = 0 ∧
        ahead after ≠ .comma) ∨
    (expressions (.seeing (word :: tokens) none depth)).Complains := by
  induction size : tokens.length using Nat.strongRecOn generalizing word tokens with
  | ind length inductionHypothesis =>
      rw [expressions_seeing (List.cons_ne_nil _ _)]
      rcases decided_whole spelled depth with
        ⟨rest, value, derivation, settled⟩ | complains
      · obtain ⟨last, read⟩ := derivation.report_whole depth settled
        by_cases isComma : ahead rest = .comma
        · obtain _ | ⟨comma, middle⟩ := rest
          · cases isComma
          rw [ahead_cons] at isComma
          have suffix := derivation.suffix
          have shorter : middle.length < length := by
            have lengths := suffix.length_le
            rw [List.length_cons, List.length_tail] at lengths
            omega
          have spelledBehind :=
            Spelled.of_suffix spelled
              (((List.suffix_cons comma middle).trans suffix).trans
                (List.tail_suffix _))
          rcases inductionHypothesis middle.length shorter comma spelledBehind rfl with
            ⟨after, values, others, settledBehind, noComma⟩ | complains
          · exact .inl ⟨after, value :: values, .more derivation isComma others,
              settledBehind, noComma⟩
          · refine .inr ?_
            apply complains_bind_of_quiet report_advance
            apply complains_bind_of_quiet read
            rw [bind_next, next_seeing, List.tail_cons, List.headD_cons,
              if_pos isComma]
            apply complains_bind_of_quiet report_advance
            exact complains_map complains
        · exact .inl ⟨rest, [value], .last derivation, settled, isComma⟩
      · refine .inr ?_
        apply complains_bind_of_quiet report_advance
        exact complains_bind complains

/-! ## Statements and blocks -/

/-- What is found out about tokens by parsing them: that a derivation exists, or
that a token is not expected, or that the input ends inside an open block. -/
inductive Judged
    (parser : Parse α) (depth : Int) (tokens : List Token) (derivable : Prop) :
    Prop
  | derived : derivable → Judged parser depth tokens derivable
  | complains :
      (parser (.seeing tokens none depth)).Complains →
      Judged parser depth tokens derivable
  | unfinished {value : α} :
      0 < depth →
      (parser (.seeing tokens none depth)).report =
        ⟨.accepted value, .seeing [] none depth, []⟩ →
      Judged parser depth tokens derivable

def JudgedStatement (inBlock : Bool) (depth : Int) (tokens : List Token) : Prop :=
  Judged (statement inBlock) depth tokens
    (∃ after item,
      Statement inBlock tokens after item ∧ Settled inBlock tokens after item)

def JudgedBlock (depth : Int) (tokens : List Token) : Prop :=
  Judged block depth tokens (∃ after item, Block tokens after item)

def JudgedItems (depth : Int) (tokens : List Token) : Prop :=
  Judged items depth tokens
    (∃ after list,
      Statements true tokens after list ∧
        (ahead after = .braceClose ∨ ahead after = .elseWord))

theorem judged_bare
    {first : Token}
    (spelled : ∀ token ∈ first :: tokens, token.Spelled)
    (depth : Int)
    (bare : IsBare inBlock first.kind (ahead tokens)) :
    JudgedStatement inBlock depth (first :: tokens) := by
  rcases decided_whole spelled depth with
    ⟨after, value, derivation, settled⟩ | complains
  · refine .derived ⟨after, _, .expression derivation ?_, settled, bare⟩
    intro outside name
    rw [(bare.1 name).1] at outside
    cases outside
  · refine .complains ?_
    rw [statement_bare bare]
    exact complains_bind complains

theorem judged_assign
    {name : Token}
    (spelled : ∀ token ∈ name :: tokens, token.Spelled)
    (depth : Int)
    (isName : name.kind = .identifier)
    (assigned : inBlock = true → ahead tokens = .assign) :
    JudgedStatement inBlock depth (name :: tokens) := by
  by_cases isAssign : ahead tokens = .assign
  · obtain _ | ⟨sign, middle⟩ := tokens
    · cases isAssign
    rw [ahead_cons] at isAssign
    have suffix := (List.suffix_cons sign middle).trans (List.suffix_cons name _)
    rcases decided_whole (Spelled.of_suffix spelled suffix) depth with
      ⟨after, value, derivation, settled⟩ | complains
    · exact .derived ⟨after, _, .assign isName isAssign derivation, settled⟩
    · refine .complains ?_
      rw [statement_assign isName assigned]
      apply complains_bind_of_quiet (report_expect isAssign)
      apply complains_bind_of_quiet report_advance
      exact complains_bind complains
  · refine .complains ?_
    rw [statement_assign isName assigned]
    exact complains_bind (complains_expect isAssign)

theorem judged_print
    {word : Token}
    (spelled : ∀ token ∈ word :: tokens, token.Spelled)
    (depth : Int)
    (isPrint : word.kind = .printWord) :
    JudgedStatement inBlock depth (word :: tokens) := by
  rcases decided_values word
      (Spelled.of_suffix spelled (List.suffix_cons word tokens)) depth with
    ⟨after, values, derivation, settled, noComma⟩ | complains
  · exact .derived ⟨after, _, .print isPrint derivation, settled, noComma⟩
  · refine .complains ?_
    rw [statement_print isPrint]
    exact complains_bind complains

theorem judged_while
    {word : Token}
    (spelled : ∀ token ∈ word :: tokens, token.Spelled)
    (depth : Int)
    (isWhile : word.kind = .whileWord)
    (blocks : ∀ middle, middle <:+ tokens → JudgedBlock depth middle) :
    JudgedStatement inBlock depth (word :: tokens) := by
  rcases decided_condition word
      (Spelled.of_suffix spelled (List.suffix_cons word tokens)) depth with
    ⟨middle, truth, condition⟩ | complains
  · rcases blocks middle condition.suffix with
      ⟨after, body, derivation⟩ | complains | @⟨body, inside, read⟩
    · exact .derived ⟨after, _, .whileDo isWhile condition derivation, trivial⟩
    · refine .complains ?_
      rw [statement_while isWhile]
      apply complains_bind_of_quiet condition.report_condition
      exact complains_bind complains
    · apply @Judged.unfinished _ _ _ _ _ (.whileDo word truth body) inside
      rw [statement_while isWhile, report_bind condition.report_condition,
        report_bind read]
      rfl
  · refine .complains ?_
    rw [statement_while isWhile]
    exact complains_bind complains

theorem judged_if
    {word : Token}
    (spelled : ∀ token ∈ word :: tokens, token.Spelled)
    (depth : Int)
    (isIf : word.kind = .ifWord)
    (blocks : ∀ middle, middle <:+ tokens → JudgedBlock depth middle) :
    JudgedStatement inBlock depth (word :: tokens) := by
  rcases decided_condition word
      (Spelled.of_suffix spelled (List.suffix_cons word tokens)) depth with
    ⟨middle, truth, condition⟩ | complains
  · rcases blocks middle condition.suffix with
      ⟨rest, first, derivation⟩ | complains | @⟨first, inside, read⟩
    · by_cases elseAhead : ahead rest = .elseWord
      · obtain _ | ⟨other, rest⟩ := rest
        · cases elseAhead
        rw [ahead_cons] at elseAhead
        have suffix :=
          ((List.suffix_cons other rest).trans derivation.suffix).trans
            condition.suffix
        rcases blocks rest suffix with
          ⟨after, second, secondDerivation⟩ | complains | @⟨second, inside, read⟩
        · exact .derived ⟨after, _,
            .ifElse isIf condition derivation elseAhead secondDerivation, trivial⟩
        · refine .complains ?_
          rw [statement_if isIf]
          apply complains_bind_of_quiet condition.report_condition
          apply complains_bind_of_quiet (derivation.report_block depth)
          rw [bind_current, current_seeing, List.headD_cons, if_pos elseAhead]
          apply complains_bind_of_quiet report_advance
          exact complains_bind complains
        · refine @Judged.unfinished _ _ _ _ _ (.ifElse word truth first second)
            inside ?_
          rw [statement_if isIf, report_bind condition.report_condition,
            report_bind (derivation.report_block depth), bind_current,
            current_seeing, List.headD_cons, if_pos elseAhead,
            report_bind report_advance, report_bind read]
          rfl
      · exact .derived ⟨rest, _, .ifThen isIf condition derivation elseAhead,
          trivial⟩
    · refine .complains ?_
      rw [statement_if isIf]
      apply complains_bind_of_quiet condition.report_condition
      exact complains_bind complains
    · apply @Judged.unfinished _ _ _ _ _ (.ifThen word truth first) inside
      have atEnd : (State.seeing [] none depth).current.kind ≠ .elseWord :=
        nofun
      rw [statement_if isIf, report_bind condition.report_condition,
        report_bind read, bind_current, if_neg atEnd]
      rfl
  · refine .complains ?_
    rw [statement_if isIf]
    exact complains_bind complains

theorem judged_items_nil (inside : 0 < depth) : JudgedItems depth [] := by
  apply @Judged.unfinished _ _ _ _ _ [] inside
  rw [items_seeing]
  rfl

/-- Which statement it is, is told by its first token, and if that is a name by the
second one. -/
theorem judged_statement
    {first : Token}
    (spelled : ∀ token ∈ first :: tokens, token.Spelled)
    (inBlock : Bool)
    (depth : Int)
    (blocks : ∀ middle, middle <:+ tokens → JudgedBlock depth middle) :
    JudgedStatement inBlock depth (first :: tokens) := by
  by_cases isIf : first.kind = .ifWord
  · exact judged_if spelled depth isIf blocks
  by_cases isWhile : first.kind = .whileWord
  · exact judged_while spelled depth isWhile blocks
  by_cases isPrint : first.kind = .printWord
  · exact judged_print spelled depth isPrint
  by_cases assigns :
      first.kind = .identifier ∧ (inBlock = true → ahead tokens = .assign)
  · exact judged_assign spelled depth assigns.1 assigns.2
  · refine judged_bare spelled depth ⟨fun name => ?_, isIf, isWhile, isPrint⟩
    by_contra assigned
    exact assigns ⟨name, fun inside => by
      by_contra other
      exact assigned ⟨inside, other⟩⟩

/-- What is complained of where the input ends inside a block: the end of input, but
only outside of all blocks around that block. -/
def unclosed (depth : Int) : List Token :=
  if depth = 0 then [Token.endOfInput] else []

theorem unclosed_of_ne (inside : depth ≠ 0) : unclosed depth = [] :=
  if_neg inside

/-- Of the blocks that are open at the end of input the outermost complains. -/
theorem report_closeBlock_of_end :
    (closeBlock (.seeing [] none (depth + 1))).report =
      ⟨.accepted (), .seeing [] none depth, unclosed depth⟩ := by
  rw [closeBlock_eq]
  by_cases outermost : depth = 0
  · rw [outermost]
    rfl
  · have inside : ¬ (State.seeing [] none (depth + 1)).depth = 1 := by
      show ¬ depth + 1 = 1
      omega
    rw [if_neg nofun, if_neg fun complains => inside complains.2,
      unclosed_of_ne outermost]
    exact report_leaveBlock

theorem complains_closeBlock :
    (closeBlock (.seeing [] none 1)).Complains := by
  have closed := @report_closeBlock_of_end 0
  rw [Int.zero_add] at closed
  rw [Step.Complains, closed]
  exact List.cons_ne_nil _ _

theorem judged_block
    (nonnegative : 0 ≤ depth)
    (inside : JudgedItems (depth + 1) tokens.tail) :
    JudgedBlock depth tokens := by
  by_cases opens : ahead tokens = .braceOpen
  · obtain _ | ⟨opening, rest⟩ := tokens
    · cases opens
    rw [ahead_cons] at opens
    have enter :
        block (.seeing (opening :: rest) none depth) =
          (do
            advance
            enterBlock
            let inner ← items
            closeBlock
            pure (.block opening inner) : Parse Stmt)
            (.seeing (opening :: rest) none depth) := by
      rw [block_seeing, bind_current, current_seeing, List.headD_cons, if_pos opens]
    rcases inside with
      ⟨after, list, derivation, closes | elseAhead⟩ | complains | @⟨list, _, read⟩
    · obtain _ | ⟨closing, after⟩ := after
      · cases closes
      exact .derived ⟨after, _, .closed opens derivation closes⟩
    · exact .derived ⟨after, _, .left opens derivation elseAhead⟩
    · refine .complains ?_
      rw [enter]
      apply complains_bind_of_quiet report_advance
      apply complains_bind_of_quiet report_enterBlock
      exact complains_bind complains
    · by_cases outermost : depth = 0
      · subst outermost
        refine .complains ?_
        rw [enter]
        apply complains_bind_of_quiet report_advance
        apply complains_bind_of_quiet report_enterBlock
        apply complains_bind_of_quiet read
        exact complains_bind complains_closeBlock
      · have inner :
            (items (.seeing rest none (depth + 1))).report =
              ⟨.accepted list, .seeing [] none (depth + 1), []⟩ :=
          read
        have closed := @report_closeBlock_of_end depth
        rw [unclosed_of_ne outermost] at closed
        refine @Judged.unfinished _ _ _ _ _ (.block opening list) (by omega) ?_
        rw [enter, report_bind report_advance, report_bind report_enterBlock,
          report_bind inner, report_bind closed]
        rfl
  · refine .complains ?_
    have other : (State.seeing tokens none depth).current.kind ≠ .braceOpen := opens
    rw [block_seeing, bind_current, if_neg other]
    exact List.cons_ne_nil _ _

theorem judged_items
    {first : Token}
    (statement : JudgedStatement true depth (first :: tokens))
    (more : ∀ middle, middle <:+ tokens → JudgedItems depth middle)
    (isToken : first.kind ≠ .endOfInput) :
    JudgedItems depth (first :: tokens) := by
  by_cases ends : endsBlock first.kind = true
  · refine .derived ⟨first :: tokens, [], .nil, ?_⟩
    rw [ahead_cons]
    generalize first.kind = kind at ends isToken
    cases kind <;> cases ends
    · exact .inr rfl
    · exact .inl rfl
    · exact absurd rfl isToken
  have start := @items_seeing_cons none depth tokens first ends
  rcases statement with
    ⟨middle, item, derivation, settled⟩ | complains | @⟨item, inside, read⟩
  · have read :=
      report_attempt (derivation.report_statement depth settled)
    rcases more middle derivation.suffix with
      ⟨after, list, others, stops⟩ | complains | @⟨list, inside, rest⟩
    · exact .derived ⟨after, item :: list, .cons derivation others, stops⟩
    · refine .complains ?_
      rw [start]
      apply complains_bind_of_quiet read
      exact complains_map complains
    · apply @Judged.unfinished _ _ _ _ _ (item :: list) inside
      rw [start, report_bind read]
      exact report_map rest
  · refine .complains ?_
    rw [start]
    exact complains_bind (complains_attempt complains)
  · apply @Judged.unfinished _ _ _ _ _ [item] inside
    rw [start, report_bind (report_attempt read)]
    apply report_map
    rw [items_seeing]
    rfl

/-- Blocks and the statements of blocks are judged together: each asks for the
other on fewer tokens. -/
theorem judged_block_and_items
    (spelled : ∀ token ∈ tokens, token.Spelled)
    (nonnegative : 0 ≤ depth) :
    JudgedBlock depth tokens ∧ JudgedItems (depth + 1) tokens := by
  induction size : tokens.length using Nat.strongRecOn generalizing depth tokens with
  | ind length inductionHypothesis =>
      have inside : 0 < depth + 1 := by omega
      cases tokens with
      | nil => exact ⟨judged_block nonnegative (judged_items_nil inside),
          judged_items_nil inside⟩
      | cons first rest =>
          have behind (middle : List Token) (suffix : middle <:+ rest)
              {depth : Int} (nonnegative : 0 ≤ depth) :
              JudgedBlock depth middle ∧ JudgedItems (depth + 1) middle := by
            have shorter : middle.length < length := by
              have lengths := suffix.length_le
              rw [List.length_cons] at size
              omega
            exact inductionHypothesis middle.length shorter
              (Spelled.of_suffix spelled (suffix.trans (List.suffix_cons _ _)))
              nonnegative rfl
          have isToken : first.kind ≠ .endOfInput :=
            (Token.kind_of_spelled (spelled first List.mem_cons_self)).1
          refine ⟨judged_block nonnegative
            (behind rest (List.suffix_refl _) nonnegative).2, ?_⟩
          refine judged_items ?_ ?_ isToken
          · exact judged_statement spelled true (depth + 1)
              fun middle suffix => (behind middle suffix (Int.le_of_lt inside)).1
          · exact fun middle suffix => (behind middle suffix nonnegative).2

end WhileLang.Grammar
