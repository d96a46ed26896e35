import WhileLang.Proofs.Reading
import WhileLang.Proofs.Stratified

/-!
What goes wrong inside a block stays inside it. A parser is confined by a closing
brace if it comes to the same end whatever stands behind the brace, and before it.
Main statement: what is read of a loop whose block has no other braces in it is told
by the block alone, with its complaints, and behind the loop reading goes on as if
from the start.
-/

namespace WhileLang.Parse

variable {α β : Type}

/-- A parser that stops before a closing brace, and in the same way whatever stands
behind the brace. -/
inductive Confined
    (closing : Token) (depth : Int) (inside : List Token)
    (good : List Token → Prop) (parser : Parse α) : Prop
  | accepted {value : α} {rest complaints : List Token} :
      rest <:+ inside →
      good rest →
      (∀ behind,
        (parser (.seeing (inside ++ closing :: behind) none depth)).report =
          ⟨.accepted value, .seeing (rest ++ closing :: behind) none depth,
            complaints⟩) →
      Confined closing depth inside good parser
  | rejected {rest complaints : List Token} :
      rest <:+ inside →
      (∀ behind,
        (parser (.seeing (inside ++ closing :: behind) none depth)).report =
          ⟨.rejected, .seeing (rest ++ closing :: behind) none depth, complaints⟩) →
      Confined closing depth inside good parser

variable {closing : Token} {depth : Int} {inside : List Token}

theorem headD_append_cons (inside : List Token) (closing : Token) (behind : List Token) :
    (inside ++ closing :: behind).headD Token.endOfInput = inside.headD closing := by
  cases inside <;> rfl

theorem headD_tail_append_cons
    (nonempty : inside ≠ []) (behind : List Token) :
    (inside ++ closing :: behind).tail.headD Token.endOfInput =
      inside.tail.headD closing := by
  rw [List.tail_append_of_ne_nil nonempty, headD_append_cons]

namespace Confined

variable {good : List Token → Prop}

/-- What does the same as a confined parser is confined. -/
theorem of_eq
    {parser parser' : Parse β}
    (confined : Confined closing depth inside good parser')
    (same :
      ∀ behind,
        parser (.seeing (inside ++ closing :: behind) none depth) =
          parser' (.seeing (inside ++ closing :: behind) none depth)) :
    Confined closing depth inside good parser := by
  cases confined with
  | accepted suffix holds read =>
      exact .accepted suffix holds fun behind =>
        (congrArg Step.report (same behind)).trans (read behind)
  | rejected suffix read =>
      exact .rejected suffix fun behind =>
        (congrArg Step.report (same behind)).trans (read behind)

theorem weaken
    {stronger : List Token → Prop} {parser : Parse β}
    (confined : Confined closing depth inside stronger parser)
    (weaker : ∀ rest, rest <:+ inside → stronger rest → good rest) :
    Confined closing depth inside good parser := by
  cases confined with
  | accepted suffix holds read => exact .accepted suffix (weaker _ suffix holds) read
  | rejected suffix read => exact .rejected suffix read

theorem pure
    {value : β}
    (holds : good inside) :
    Confined closing depth inside good (Pure.pure value : Parse β) :=
  .accepted (List.suffix_refl inside) holds fun _ => rfl

theorem refuse (token : Token) :
    Confined closing depth inside good (Parse.refuse token : Parse β) :=
  .rejected (List.suffix_refl inside) fun _ => rfl

theorem bind
    {first : Parse α} {second : α → Parse β} {between : List Token → Prop}
    (confined : Confined closing depth inside between first)
    (further :
      ∀ value rest, rest <:+ inside → between rest →
        Confined closing depth rest good (second value)) :
    Confined closing depth inside good (first >>= second) := by
  cases confined with
  | @accepted value rest _ suffix holds read =>
      cases further value rest suffix holds with
      | accepted furtherSuffix holds readBehind =>
          exact .accepted (furtherSuffix.trans suffix) holds fun behind =>
            report_bind_append (read behind) (readBehind behind)
      | rejected furtherSuffix readBehind =>
          exact .rejected (furtherSuffix.trans suffix) fun behind =>
            report_bind_append (read behind) (readBehind behind)
  | rejected suffix read =>
      exact .rejected suffix fun behind => report_bind_rejected (read behind)

theorem bind_current
    {second : Token → Parse β}
    (confined : Confined closing depth inside good (second (inside.headD closing))) :
    Confined closing depth inside good (current >>= second) := by
  apply confined.of_eq
  intro behind
  rw [Parse.bind_current, current_seeing, headD_append_cons]

theorem bind_next
    {second : Token → Parse β}
    (nonempty : inside ≠ [])
    (confined :
      Confined closing depth inside good (second (inside.tail.headD closing))) :
    Confined closing depth inside good (next >>= second) := by
  apply confined.of_eq
  intro behind
  rw [Parse.bind_next, next_seeing, headD_tail_append_cons nonempty]

theorem advance (nonempty : inside ≠ []) :
    Confined closing depth inside (· = inside.tail) Parse.advance := by
  have read (behind : List Token) :
      (Parse.advance (.seeing (inside ++ closing :: behind) none depth)).report =
        ⟨.accepted (), .seeing (inside.tail ++ closing :: behind) none depth, []⟩ := by
    rw [advance_seeing, List.tail_append_of_ne_nil nonempty]
    rfl
  exact .accepted (List.tail_suffix inside) rfl read

theorem advance_pure
    {value : β} {rest : List Token}
    (nonempty : rest ≠ [])
    (holds : good rest.tail) :
    Confined closing depth rest good
      (do Parse.advance; Pure.pure value : Parse β) := by
  apply (advance nonempty).bind
  rintro _ _ _ rfl
  exact pure holds

/-- To step off the last token of an expression takes it. -/
theorem advance_pure_lt
    {value : β} {rest : List Token}
    (suffix : rest <:+ inside)
    (visible : rest ≠ []) :
    Confined closing depth rest (·.length < inside.length)
      (do Parse.advance; Pure.pure value : Parse β) := by
  have shorter := suffix.length_le
  have positive := List.length_pos_iff.mpr visible
  have taken := List.length_tail (l := rest)
  exact advance_pure visible (by omega)

/-- What is expected, if it is no brace, is found inside or not at all. -/
theorem expect
    {kind : Token.Kind}
    (nonempty : inside ≠ [])
    (other : closing.kind ≠ kind) :
    Confined closing depth inside (fun rest => rest = inside.tail ∧ rest ≠ [])
      (Parse.expect kind) := by
  apply bind_next nonempty
  split
  · rename_i met
    apply (advance nonempty).weaken
    rintro _ _ rfl
    refine ⟨rfl, fun atEnd => ?_⟩
    rw [atEnd] at met
    exact other met
  · exact refuse _

theorem map
    {change : α → β} {parser : Parse α} {between : List Token → Prop}
    (confined : Confined closing depth inside between parser)
    (changed : ∀ rest, between rest → good rest) :
    Confined closing depth inside good (change <$> parser) := by
  rw [map_eq_bind]
  exact confined.bind fun value rest _ holds => pure (changed rest holds)

end Confined

/-! ## Expressions -/

section Expressions

variable (closes : closing.kind = .braceClose)

include closes

theorem exists_cons_of_headD
    {kind : Token.Kind}
    (head : (inside.headD closing).kind = kind)
    (other : kind ≠ .braceClose) :
    ∃ token others, inside = token :: others ∧ token.kind = kind := by
  cases inside with
  | nil => exact absurd (head.symm.trans closes) other
  | cons token others => exact ⟨token, others, rfl, head⟩

theorem confined_operand
    (expression :
      ∀ rest : List Token, rest.length < inside.length →
        Confined closing depth rest (· ≠ []) (expression 0)) :
    Confined closing depth inside (· ≠ []) operand := by
  by_cases name : (inside.headD closing).kind = .identifier
  · obtain ⟨token, others, rfl, name⟩ := exists_cons_of_headD closes name (by decide)
    have confined :
        Confined closing depth (token :: others) (· ≠ [])
          (pure (.ident token token.lexeme) : Parse Expr) :=
      .pure (List.cons_ne_nil _ _)
    exact confined.of_eq fun behind => operand_name name
  by_cases integer : (inside.headD closing).kind = .integer
  · obtain ⟨token, others, rfl, integer⟩ :=
      exists_cons_of_headD closes integer (by decide)
    have confined :
        Confined closing depth (token :: others) (· ≠ []) (literal token) := by
      unfold literal
      cases Numeral.readWord token.lexeme with
      | ok value => exact .pure (List.cons_ne_nil _ _)
      | error fault => exact .refuse token
    exact confined.of_eq fun behind => operand_integer integer
  by_cases bracket : (inside.headD closing).kind = .bracketOpen
  · obtain ⟨opening, others, rfl, bracket⟩ :=
      exists_cons_of_headD closes bracket (by decide)
    apply Confined.of_eq _ fun behind => operand_brackets bracket
    apply (Confined.advance (List.cons_ne_nil _ _)).bind
    rintro _ _ _ rfl
    apply (expression _ (Nat.lt_succ_self _)).bind
    intro inner rest _ visible
    apply (Confined.expect visible (by simp [closes])).bind
    rintro _ _ _ ⟨rfl, visible⟩
    exact .pure visible
  · have confined :
        Confined closing depth inside (· ≠ [])
          (refuse (inside.headD closing) : Parse Expr) :=
      .refuse _
    apply confined.of_eq
    intro behind
    have head := headD_append_cons inside closing behind
    rw [← head] at name integer bracket ⊢
    exact operand_other name integer bracket

theorem confined_operations
    {precedence : Int}
    (expression :
      ∀ (precedence : Int) (rest : List Token), 0 ≤ precedence →
        rest.length < inside.length →
        Confined closing depth rest (· ≠ []) (expression precedence))
    (nonnegative : 0 ≤ precedence)
    (left : Expr)
    (nonempty : inside ≠ []) :
    Confined closing depth inside (· ≠ [])
      (operations precedence left) := by
  induction size : inside.length using Nat.strongRecOn generalizing left inside with
  | ind length inductionHypothesis =>
      apply Confined.of_eq _ fun behind => operations_seeing nonnegative
      apply Confined.bind_next nonempty
      split
      · rename_i stronger
        have more : inside.tail ≠ [] := by
          intro atEnd
          rw [atEnd, List.headD_nil, closes] at stronger
          simp [Token.Kind.precedence] at stronger
          omega
        have positive := List.length_pos_iff.mpr more
        have shorter := List.length_tail (l := inside)
        have shorterStill := List.length_tail (l := inside.tail)
        apply (Confined.advance nonempty).bind
        rintro _ _ _ rfl
        apply (Confined.advance more).bind
        rintro _ _ _ rfl
        apply (expression _ inside.tail.tail (by omega) (by omega)).bind
        intro right rest suffix visible
        have rightShorter := suffix.length_le
        cases found : Operator.ofKind? _ with
        | none => exact absurd found (ofKind?_ne_none nonnegative stronger)
        | some operator =>
            refine inductionHypothesis rest.length (by omega) ?_ _ visible rfl
            intro precedence final nonnegative finalShorter
            exact expression precedence final nonnegative (by omega)
      · exact .pure nonempty

theorem confined_expression
    {precedence : Int}
    (nonnegative : 0 ≤ precedence)
    (inside : List Token) :
    Confined closing depth inside (· ≠ []) (expression precedence) := by
  -- Brackets and right sides take tokens, so that what is inside them is shorter.
  induction size : inside.length using Nat.strongRecOn
    generalizing precedence inside with
  | ind length inductionHypothesis =>
      have expression (precedence : Int) (rest : List Token)
          (nonnegative : 0 ≤ precedence) (shorter : rest.length < length) :
          Confined closing depth rest (· ≠ [])
            (Parse.expression precedence) :=
        inductionHypothesis rest.length shorter nonnegative rest rfl
      apply Confined.of_eq _ fun behind => expression_seeing nonnegative
      apply (confined_operand closes
        fun rest shorter => expression 0 rest (by decide) (by omega)).bind
      intro value rest suffix visible
      have restShorter := suffix.length_le
      apply Confined.bind_next visible
      split
      · exact .refuse _
      · apply confined_operations closes _ nonnegative value visible
        intro precedence final nonnegative shorter
        exact expression precedence final nonnegative (by omega)

theorem confined_condition (nonempty : inside ≠ []) :
    Confined closing depth inside (fun _ => True) condition := by
  apply Confined.of_eq _ fun behind => condition_seeing
  apply (Confined.expect nonempty (by simp [closes])).bind
  rintro _ _ _ ⟨rfl, more⟩
  apply (Confined.advance more).bind
  rintro _ _ _ rfl
  apply (confined_expression closes (by decide) _).bind
  intro truth rest _ visible
  apply (Confined.expect visible (by simp [closes])).bind
  rintro _ _ _ ⟨rfl, more⟩
  exact .advance_pure more trivial

theorem confined_expressions (nonempty : inside ≠ []) :
    Confined closing depth inside (· ≠ []) expressions := by
  induction size : inside.length using Nat.strongRecOn generalizing inside with
  | ind length inductionHypothesis =>
      have positive := List.length_pos_iff.mpr nonempty
      have shorter := List.length_tail (l := inside)
      have append (behind : List Token) : inside ++ closing :: behind ≠ [] :=
        List.append_ne_nil_of_left_ne_nil nonempty _
      apply Confined.of_eq _ fun behind => expressions_seeing (append behind)
      apply (Confined.advance nonempty).bind
      rintro _ _ _ rfl
      apply (confined_expression closes (by decide) _).bind
      intro value rest suffix visible
      have restShorter := suffix.length_le
      apply Confined.bind_next visible
      split
      · rename_i comma
        obtain ⟨token, others, shape, _⟩ := exists_cons_of_headD closes comma (by decide)
        have more : rest.tail ≠ [] := shape ▸ List.cons_ne_nil _ _
        have tailShorter := List.length_tail (l := rest)
        apply (Confined.advance visible).bind
        rintro _ _ _ rfl
        exact (inductionHypothesis _ (by omega) more rfl).map fun _ => id
      · exact .pure visible

end Expressions

/-! ## Statements -/

/-- Tokens that neither open nor close a block. Like the tokens of any text they do
not have the end of input among them. -/
def Plain (tokens : List Token) : Prop :=
  ∀ token ∈ tokens,
    token.kind ≠ .braceOpen ∧ token.kind ≠ .braceClose ∧ token.kind ≠ .elseWord ∧
      token.kind ≠ .endOfInput

theorem Plain.of_suffix
    {rest : List Token}
    (plain : Plain inside)
    (suffix : rest <:+ inside) :
    Plain rest :=
  fun token member => plain token (suffix.subset member)

section Statements

variable (closes : closing.kind = .braceClose) (plain : Plain inside)

include closes plain

/-- There is no block inside. -/
theorem confined_block {good : List Token → Prop} :
    Confined closing depth inside good block := by
  have noBrace : (inside.headD closing).kind ≠ .braceOpen := by
    cases inside with
    | nil => exact fun opens => absurd (opens.symm.trans closes) (by decide)
    | cons first others => exact (plain first List.mem_cons_self).1
  apply Confined.of_eq _ fun behind => block_seeing
  apply Confined.bind_current
  rw [if_neg noBrace]
  exact .refuse _

/-- What needs a block behind a condition is rejected. -/
theorem confined_conditional
    {further : Expr → Stmt → Parse Stmt} {good : List Token → Prop}
    (nonempty : inside ≠ []) :
    Confined closing depth inside good
      (do
        let truth ← condition
        let body ← block
        further truth body) := by
  apply (confined_condition closes nonempty).bind
  intro truth rest suffix _
  have noBlock : Confined closing depth rest (fun _ => False) block :=
    confined_block closes (plain.of_suffix suffix)
  exact noBlock.bind fun _ _ _ never => never.elim

theorem confined_statement (nonempty : inside ≠ []) :
    Confined closing depth inside (·.length < inside.length) (statement true) := by
  obtain ⟨first, others, rfl⟩ := List.exists_cons_of_ne_nil nonempty
  -- The second token decides on an assignment. If the first is the last one inside,
  -- the second is the brace.
  have second (behind : List Token) := headD_append_cons others closing behind
  by_cases isIf : first.kind = .ifWord
  · exact (confined_conditional closes plain nonempty).of_eq fun behind =>
      statement_if isIf
  by_cases isWhile : first.kind = .whileWord
  · exact (confined_conditional closes plain nonempty).of_eq fun behind =>
      statement_while isWhile
  by_cases isPrint : first.kind = .printWord
  · apply Confined.of_eq _ fun behind => statement_print isPrint
    apply (confined_expressions closes nonempty).bind
    exact fun values rest suffix visible => .advance_pure_lt suffix visible
  by_cases assigns : first.kind = .identifier ∧ (others.headD closing).kind = .assign
  · obtain ⟨isName, isAssign⟩ := assigns
    apply Confined.of_eq _ fun behind =>
      statement_assign isName fun _ => (congrArg Token.kind (second behind)).trans isAssign
    apply (Confined.expect nonempty (by simp [closes])).bind
    rintro _ _ signSuffix ⟨rfl, more⟩
    apply (Confined.advance more).bind
    rintro _ _ nextSuffix rfl
    apply (confined_expression closes (by decide) _).bind
    intro value rest suffix visible
    exact .advance_pure_lt ((suffix.trans nextSuffix).trans signSuffix) visible
  · have bare (behind : List Token) :
        IsBare true first.kind
          ((others ++ closing :: behind).headD Token.endOfInput).kind := by
      refine ⟨fun name => ⟨rfl, fun assigned => assigns ⟨name, ?_⟩⟩, isIf, isWhile,
        isPrint⟩
      rwa [← second behind]
    apply Confined.of_eq _ fun behind => statement_bare (bare behind)
    apply (confined_expression closes (by decide) _).bind
    exact fun value rest suffix visible => .advance_pure_lt suffix visible

end Statements

/-- A statement that is rejected is left for a later place inside. -/
theorem exists_report_recover
    {rest : List Token}
    (closes : closing.kind = .braceClose)
    (plain : Plain inside)
    (nonempty : inside ≠ [])
    (suffix : rest <:+ inside)
    (depth : Int) :
    ∃ final, final.length < inside.length ∧ final <:+ inside ∧
      ∀ behind,
        (recover (.seeing (rest ++ closing :: behind) none depth)).report =
          ⟨.accepted (), .seeing (final ++ closing :: behind) none depth, []⟩ := by
  have positive := List.length_pos_iff.mpr nonempty
  cases rest with
  | nil =>
      refine ⟨[], positive, List.nil_suffix, fun behind => ?_⟩
      rw [recover, bind_current, current_seeing, List.nil_append, List.headD_cons,
        if_pos closes]
      rfl
  | cons first others =>
      have noBrace : first.kind ≠ .braceClose :=
        (plain first (suffix.subset List.mem_cons_self)).2.1
      refine ⟨others, suffix.length_le, (List.suffix_cons first others).trans suffix,
        fun behind => ?_⟩
      rw [recover, bind_current, current_seeing, List.cons_append, List.headD_cons,
        if_neg noBrace, report_advance]

/-- What the statements of a block are, and what is complained of, is told by the
tokens inside. -/
theorem exists_report_items
    (closes : closing.kind = .braceClose)
    (plain : Plain inside)
    (depth : Int) :
    ∃ list complaints, ∀ behind,
      (items (.seeing (inside ++ closing :: behind) none depth)).report =
        ⟨.accepted list, .seeing (closing :: behind) none depth, complaints⟩ := by
  induction size : inside.length using Nat.strongRecOn generalizing inside with
  | ind length inductionHypothesis =>
      cases inside with
      | nil =>
          refine ⟨[], [], fun behind => ?_⟩
          have atEnd : endsBlock closing.kind = true := by
            rw [closes]
            rfl
          rw [List.nil_append, items_seeing, bind_current, current_seeing,
            List.headD_cons, if_pos atEnd]
          rfl
      | cons first others =>
          have continues : ¬ endsBlock first.kind = true := by
            have kinds := plain first List.mem_cons_self
            simp [endsBlock, kinds]
          have nonempty : first :: others ≠ [] := List.cons_ne_nil _ _
          have opened (behind : List Token) :=
            @items_seeing_cons none depth (others ++ closing :: behind) first continues
          have statement :
              Confined closing depth (first :: others)
                (·.length < (first :: others).length) (statement true) :=
            confined_statement closes plain nonempty
          -- Either way something is taken: by the statement, or in going on behind it.
          cases statement with
          | @accepted item rest complaints suffix shorter read =>
              obtain ⟨list, more, readBehind⟩ :=
                inductionHypothesis rest.length (by omega) (plain.of_suffix suffix) rfl
              simp only [List.cons_append] at read
              refine ⟨item :: list, complaints ++ more, fun behind => ?_⟩
              rw [List.cons_append, opened]
              exact report_bind_append (report_attempt (read behind))
                (report_map (readBehind behind))
          | @rejected rest complaints suffix read =>
              obtain ⟨final, shorter, further, recovered⟩ :=
                exists_report_recover closes plain nonempty suffix depth
              obtain ⟨list, more, readBehind⟩ :=
                inductionHypothesis final.length (by omega) (plain.of_suffix further) rfl
              simp only [List.cons_append] at read
              refine ⟨list, complaints ++ more, fun behind => ?_⟩
              rw [List.cons_append, opened]
              apply report_bind_append (report_attempt_rejected (read behind))
              exact (report_bind (recovered behind)).trans (readBehind behind)

end WhileLang.Parse

namespace WhileLang.Reading

open Parse Grammar

/-- The tokens of a loop, and others behind it. -/
def loop (condition inside rest : List Token) : List Token :=
  .fixed .whileWord :: .fixed .bracketOpen :: (condition ++
    .fixed .bracketClose :: .fixed .braceOpen :: (inside ++
      .fixed .braceClose :: rest))

variable {inside : List Token}

theorem exists_report_block
    (plain : Plain inside)
    (depth : Int) :
    ∃ list complaints, ∀ rest,
      (block
          (.seeing (.fixed .braceOpen :: (inside ++ .fixed .braceClose :: rest)) none
            depth)).report =
        ⟨.accepted (.block (.fixed .braceOpen) list), .seeing rest none depth,
          complaints⟩ := by
  obtain ⟨list, complaints, read⟩ :=
    @exists_report_items (.fixed .braceClose) _ rfl plain (depth + 1)
  refine ⟨list, complaints, fun rest => ?_⟩
  have closed :
      ((do closeBlock; pure (.block (.fixed .braceOpen) list) : Parse Stmt)
          (.seeing (.fixed .braceClose :: rest) none (depth + 1))).report =
        ⟨.accepted (.block (.fixed .braceOpen) list), .seeing rest none depth, []⟩ :=
    report_bind (report_closeBlock rfl)
  rw [block_seeing, bind_current, current_seeing, List.headD_cons,
    if_pos (Token.kind_fixed .braceOpen), report_bind report_advance,
    report_bind report_enterBlock, report_bind_append (read rest) closed,
    List.append_nil]

/-- A loop is parsed to its own brace, whatever stands inside. -/
theorem exists_report_while
    (plain : Plain inside)
    (depth : Int) :
    ∃ list complaints, ∀ condition truth rest,
      Stratified 1 condition truth →
      (statement false (.seeing (loop condition inside rest) none depth)).report =
        ⟨.accepted
            (.whileDo (.fixed .whileWord) truth (.block (.fixed .braceOpen) list)),
          .seeing rest none depth, complaints⟩ := by
  obtain ⟨list, complaints, read⟩ := exists_report_block plain depth
  refine ⟨list, complaints, fun condition truth rest derivation => ?_⟩
  have bracketed :
      Condition
        (.fixed .bracketOpen :: (condition ++ .fixed .bracketClose ::
          .fixed .braceOpen :: (inside ++ .fixed .braceClose :: rest)))
        (.fixed .braceOpen :: (inside ++ .fixed .braceClose :: rest)) truth :=
    .brackets rfl (derivation.expression (by simp)) rfl
  have joined :
      ((do
          let body ← block
          pure (.whileDo (.fixed .whileWord) truth body) : Parse Stmt)
        (.seeing (.fixed .braceOpen :: (inside ++ .fixed .braceClose :: rest)) none
          depth)).report =
        ⟨.accepted
            (.whileDo (.fixed .whileWord) truth (.block (.fixed .braceOpen) list)),
          .seeing rest none depth, complaints⟩ := by
    rw [← List.append_nil complaints]
    exact report_bind_append (read rest) rfl
  rw [loop, statement_while rfl, report_bind bracketed.report_condition, joined]

/-- Behind a loop reading goes on as if from the start. -/
theorem exists_ofTokens_loop (plain : Plain inside) :
    ∃ list complaints, ∀ condition truth rest,
      (∀ token ∈ condition, token.Spelled) →
      Whole condition truth →
      ∃ program,
        (ofFeed (Feed.ofTokens rest)).statements = .ok program ∧
        (ofFeed (Feed.ofTokens (loop condition inside rest))).statements =
          .ok (.whileDo (.fixed .whileWord) truth (.block (.fixed .braceOpen) list) ::
            program) ∧
        (ofFeed (Feed.ofTokens (loop condition inside rest))).diagnostics =
          complaints ++ (ofFeed (Feed.ofTokens rest)).diagnostics := by
  obtain ⟨list, complaints, read⟩ := exists_report_while plain 0
  refine ⟨list, complaints.map complaint, fun condition truth rest spelled whole => ?_⟩
  obtain ⟨program, after, notices, accepted⟩ := exists_accepted_of_tokens rest
  have readRest :
      (step (Feed.ofTokens rest)).report =
        ⟨.accepted program, after, unexpectedTokens notices⟩ :=
    congrArg Step.report accepted
  have readLoop :
      (step (Feed.ofTokens (loop condition inside rest))).report =
        ⟨.accepted
            (.whileDo (.fixed .whileWord) truth (.block (.fixed .braceOpen) list) ::
              program),
          after, complaints ++ unexpectedTokens notices⟩ := by
    have continues :
        (State.seeing (loop condition inside rest) none 0).current.kind ≠
          .endOfInput :=
      nofun
    have noted :
        (note (.parsed (.whileDo (.fixed .whileWord) truth
            (.block (.fixed .braceOpen) list))) (.seeing rest none 0)).report =
          ⟨.accepted (), .seeing rest none 0, []⟩ := rfl
    rw [report_step, program_seeing, bind_current, if_neg continues]
    apply report_bind_append
      (report_attempt (read condition truth rest (whole.stratified spelled)))
    exact (report_bind noted).trans (report_map (report_step.symm.trans readRest))
  obtain ⟨statementsRest, complainedRest⟩ := ofFeed_of_accepted readRest
  obtain ⟨statements, complained⟩ := ofFeed_of_accepted readLoop
  refine ⟨program, statementsRest, statements, ?_⟩
  rw [Reading.diagnostics, Reading.diagnostics, Parse.diagnostics, Parse.diagnostics,
    complained, complainedRest, List.map_append]

/-- A block with a condition that is not closed, and a statement that breaks off at the
brace. -/
theorem exists_ofTokens_loop_of_malformed :
    ∃ list complaints program,
      (ofFeed (Feed.ofTokens [.fixed .printWord, ⟨.identifier, "x"⟩])).statements =
        .ok program ∧
      (ofFeed (Feed.ofTokens
        (loop [⟨.identifier, "x"⟩]
          [.fixed .whileWord, .fixed .bracketOpen, ⟨.integer, "1"⟩,
            ⟨.identifier, "y"⟩, .fixed .assign]
          [.fixed .printWord, ⟨.identifier, "x"⟩]))).statements =
        .ok (.whileDo (.fixed .whileWord) (.ident ⟨.identifier, "x"⟩ "x")
          (.block (.fixed .braceOpen) list) :: program) ∧
      (ofFeed (Feed.ofTokens
        (loop [⟨.identifier, "x"⟩]
          [.fixed .whileWord, .fixed .bracketOpen, ⟨.integer, "1"⟩,
            ⟨.identifier, "y"⟩, .fixed .assign]
          [.fixed .printWord, ⟨.identifier, "x"⟩]))).diagnostics =
        complaints ++
          (ofFeed (Feed.ofTokens
            [.fixed .printWord, ⟨.identifier, "x"⟩])).diagnostics := by
  obtain ⟨list, complaints, read⟩ :=
    @exists_ofTokens_loop
      [.fixed .whileWord, .fixed .bracketOpen, ⟨.integer, "1"⟩, ⟨.identifier, "y"⟩,
        .fixed .assign]
      (by unfold Plain; decide)
  have whole : Whole [⟨.identifier, "x"⟩] (.ident ⟨.identifier, "x"⟩ "x") :=
    ⟨⟨.identifier, "x"⟩, by rw [Step.report, Report.mk.injEq]; decide +kernel⟩
  exact ⟨list, complaints, read _ _ _ (by unfold Token.Spelled; decide +kernel) whole⟩

end WhileLang.Reading
