import WhileLang.Proofs.Grammar
import WhileLang.Proofs.Report

/-!
Expressions are parsed by their grammar. Main statements: what a derivation makes
an expression is accepted as that expression, and where there is no derivation the
parser complains of exactly one token.
-/

namespace WhileLang.Grammar

open Parse

variable {depth : Int} {level : Nat} {before after : List Token} {value : Expr}
variable {precedence : Int}

/-! ## Steps of the parser -/

/-- Nothing is added to an expression before a token that binds no more strongly
than required. -/
theorem operations_settled
    {last : Token}
    (nonnegative : 0 ≤ precedence)
    (loose : ((ahead after).precedence : Int) ≤ precedence) :
    (operations precedence value (.seeing (last :: after) none depth)).report =
      ⟨.accepted value, .seeing (last :: after) none depth, []⟩ := by
  have weak :
      ¬ precedence <
        ((State.seeing (last :: after) none depth).next.kind.precedence : Int) :=
    Int.not_lt.mpr loose
  rw [operations_seeing nonnegative, bind_next, if_neg weak]
  rfl

theorem operations_step
    {last sign : Token} {operator : Operator} {middle rest : List Token}
    {left right : Expr}
    (nonnegative : 0 ≤ precedence)
    (stronger : precedence < sign.kind.precedence)
    (spelled : Operator.ofKind? sign.kind = some operator)
    (read :
      (expression sign.kind.precedence (.seeing middle none depth)).report =
        ⟨.accepted right, .seeing rest none depth, []⟩) :
    (operations precedence left
        (.seeing (last :: sign :: middle) none depth)).report =
      (operations precedence (.binary sign left operator right)
        (.seeing rest none depth)).report := by
  rw [operations_seeing nonnegative, bind_next, next_seeing, List.tail_cons,
    List.headD_cons, if_pos stronger, report_bind report_advance,
    report_bind report_advance, report_bind read, spelled]

theorem expression_of_operand
    {last : Token}
    (nonnegative : 0 ≤ precedence)
    (read :
      (operand (.seeing before none depth)).report =
        ⟨.accepted value, .seeing (last :: after) none depth, []⟩)
    (calm : ahead after ≠ .integer) :
    (expression precedence (.seeing before none depth)).report =
      (operations precedence value
        (.seeing (last :: after) none depth)).report := by
  rw [expression_seeing nonnegative, report_bind read, bind_next]
  exact congrArg Step.report (congrFun (if_neg calm) _)

theorem operand_of_brackets
    {opening last closing : Token} {rest : List Token}
    (opens : opening.kind = .bracketOpen)
    (read :
      (expression 0 (.seeing before none depth)).report =
        ⟨.accepted value, .seeing (last :: closing :: rest) none depth, []⟩)
    (closes : closing.kind = .bracketClose) :
    (operand (.seeing (opening :: before) none depth)).report =
      ⟨.accepted value, .seeing (closing :: rest) none depth, []⟩ := by
  rw [operand_brackets opens, report_bind report_advance, report_bind read,
    report_bind (report_expect closes)]
  rfl

theorem operand_of_literal
    {token : Token} {number : Int}
    (literal : token.Literal number) :
    (operand (.seeing (token :: after) none depth)).report =
      ⟨.accepted (.literal token number),
        .seeing (token :: after) none depth, []⟩ := by
  rw [operand_integer literal.kind, Parse.literal, literal.readWord]
  rfl

/-! ## Completeness -/

/-- A derivation is followed up to the last token of the expression, where there may
be more operations to come. -/
theorem Expression.report_continues
    (derivation : Expression level before after value)
    (loose : (ahead after).precedence ≤ level) :
    ∃ last, ∀ precedence : Int, 0 ≤ precedence → precedence < level →
      (expression precedence (.seeing before none depth)).report =
        (operations precedence value
          (.seeing (last :: after) none depth)).report := by
  induction derivation with
  | @name _ token after _ kind calm =>
      refine ⟨token, fun precedence nonnegative _ => ?_⟩
      refine expression_of_operand nonnegative ?_ calm
      rw [operand_name kind]
      rfl
  | @literal _ token _ _ _ literal calm =>
      refine ⟨token, fun precedence nonnegative _ => ?_⟩
      exact expression_of_operand nonnegative (operand_of_literal literal) calm
  | @brackets _ _ closing _ after inner _ opens _ closes calm inductionHypothesis =>
      have noOperator : (ahead (closing :: after)).precedence = 0 := by
        simp [ahead, closes, Token.Kind.precedence]
      have settled : ((ahead (closing :: after)).precedence : Int) ≤ 0 := by
        omega
      obtain ⟨last, continues⟩ := inductionHypothesis (by omega)
      refine ⟨closing, fun precedence nonnegative _ => ?_⟩
      have read :=
        (continues 0 (by decide) (by decide)).trans
          (operations_settled (by decide) settled)
      exact expression_of_operand nonnegative
        (operand_of_brackets opens read closes) calm
  | tighter _ _ inductionHypothesis =>
      obtain ⟨last, continues⟩ := inductionHypothesis (by omega)
      exact ⟨last, fun precedence nonnegative weaker =>
        continues precedence nonnegative (by omega)⟩
  | @operation level sign operator _ middle after left right member _ _
      leftHypothesis rightHypothesis =>
      obtain ⟨spelled, strength⟩ := (mem_operators_iff _ _ _).mp member
      have signAhead : (ahead (sign :: middle)).precedence = level := strength
      obtain ⟨_, leftContinues⟩ := leftHypothesis (by omega)
      obtain ⟨last, rightContinues⟩ := rightHypothesis (by omega)
      refine ⟨last, fun precedence nonnegative weaker => ?_⟩
      rw [leftContinues precedence nonnegative weaker]
      apply operations_step nonnegative (by omega) spelled
      rw [rightContinues _ (by omega) (by omega)]
      exact operations_settled (by omega) (by omega)

/-- What a derivation makes an expression is accepted as that expression, if no
operation is to be added to it. -/
theorem Expression.report_expression
    (derivation : Expression (level + 1) before after value)
    (loose : (ahead after).precedence ≤ level) :
    ∃ last,
      (expression level (.seeing before none depth)).report =
        ⟨.accepted value, .seeing (last :: after) none depth, []⟩ := by
  obtain ⟨last, continues⟩ := derivation.report_continues (by omega)
  refine ⟨last, ?_⟩
  rw [continues level (by omega) (by omega)]
  exact operations_settled (by omega) (by omega)

theorem Expression.suffix (derivation : Expression level before after value) :
    after <:+ before.tail := by
  obtain ⟨consumed, last, rfl, _⟩ := derivation.ends
  cases consumed with
  | nil => exact List.suffix_refl _
  | cons first rest => exact ⟨rest ++ [last], by simp⟩

/-- The same for whole expressions. -/
theorem Expression.report_whole
    (derivation : Expression 1 before after value)
    (depth : Int)
    (settled : (ahead after).precedence = 0) :
    ∃ last,
      (expression 0 (.seeing before none depth)).report =
        ⟨.accepted value, .seeing (last :: after) none depth, []⟩ :=
  derivation.report_expression (Nat.le_of_eq settled)

/-! ## Soundness -/

/-- Some expression of a level begins with the tokens, and what is behind it binds
less. -/
def Derivable (level : Nat) (tokens : List Token) : Prop :=
  ∃ after value,
    Expression (level + 1) tokens after value ∧ (ahead after).precedence ≤ level

/-- The tokens are those of an expression of some level, or the parser refuses
one. -/
def Decided (depth : Int) (level : Nat) (tokens : List Token) : Prop :=
  Derivable level tokens ∨
    Refuses (Parse.expression level) (.seeing tokens none depth)

variable {tokens : List Token}

theorem refuses_operations
    {last sign : Token} {middle : List Token} {left : Expr}
    (nonnegative : 0 ≤ precedence)
    (stronger : precedence < sign.kind.precedence)
    (refuses :
      Refuses (Parse.expression sign.kind.precedence)
        (.seeing middle none depth)) :
    Refuses (operations precedence left)
      (.seeing (last :: sign :: middle) none depth) := by
  obtain ⟨after, token, report⟩ := refuses
  refine ⟨after, token, ?_⟩
  rw [operations_seeing nonnegative, bind_next, next_seeing, List.tail_cons,
    List.headD_cons, if_pos stronger, report_bind report_advance,
    report_bind report_advance, report_bind_rejected report]

/-- Operations are added to a left side one after another. -/
theorem decided_operations
    {base level : Nat} {last : Token} {rest : List Token} {left : Expr}
    (further : ∀ level middle, middle <:+ rest.tail → Decided depth level middle)
    (derivation : Expression level tokens rest left)
    (lower : base < level)
    (loose : (ahead rest).precedence ≤ level) :
    Derivable base tokens ∨
      Refuses (operations base left) (.seeing (last :: rest) none depth) := by
  -- The left side grows by one operation at a time, and its level falls to that of
  -- the last operator, so both change along the tokens that are left.
  induction size : rest.length using Nat.strongRecOn
    generalizing level last rest left with
  | ind length inductionHypothesis =>
      by_cases settled : (ahead rest).precedence ≤ base
      · exact .inl ⟨rest, left, derivation.loosen lower, settled⟩
      · obtain _ | ⟨sign, middle⟩ := rest
        · exact absurd (Nat.zero_le _) settled
        · have stronger : base < sign.kind.precedence := Nat.not_le.mp settled
          obtain ⟨operator, spelled⟩ :=
            Option.isSome_iff_exists.mp
              ((Token.Kind.precedence_pos_iff sign.kind).mp (by omega))
          rcases further sign.kind.precedence middle (List.suffix_refl _) with
            ⟨after, right, rightDerivation, rightLoose⟩ | refuses
          · obtain ⟨final, read⟩ := rightDerivation.report_expression rightLoose
            have joined :
                Expression sign.kind.precedence tokens after
                  (.binary sign left operator right) :=
              .operation ((mem_operators_iff _ _ _).mpr ⟨spelled, rfl⟩)
                (derivation.loosen loose) rightDerivation
            have suffix := rightDerivation.suffix.trans (List.tail_suffix _)
            have shorter : after.length < length := by
              have lengths := suffix.length_le
              rw [List.length_cons] at size
              omega
            have furtherBehind :
                ∀ level final, final <:+ after.tail → Decided depth level final :=
              fun level final behind =>
                further level final
                  ((behind.trans (List.tail_suffix _)).trans suffix)
            rcases inductionHypothesis after.length shorter furtherBehind joined
                stronger rightLoose rfl with derivable | refuses
            · exact .inl derivable
            · exact .inr
                (refuses.of_report_eq
                  (operations_step (by omega) (by omega) spelled read))
          · exact .inr (refuses_operations (by omega) (by omega) refuses)

theorem refuses_brackets
    {opening : Token}
    (opens : opening.kind = .bracketOpen)
    (refuses : Refuses (Parse.expression 0) (.seeing tokens none depth)) :
    Refuses operand (.seeing (opening :: tokens) none depth) := by
  obtain ⟨after, token, report⟩ := refuses
  refine ⟨after, token, ?_⟩
  rw [operand_brackets opens, report_bind report_advance,
    report_bind_rejected report]

theorem refuses_unclosed
    {opening last : Token}
    (opens : opening.kind = .bracketOpen)
    (read :
      (Parse.expression 0 (.seeing tokens none depth)).report =
        ⟨.accepted value, .seeing (last :: after) none depth, []⟩)
    (unclosed : ahead after ≠ .bracketClose) :
    Refuses operand (.seeing (opening :: tokens) none depth) := by
  refine ⟨.seeing (last :: after) none depth, after.headD Token.endOfInput, ?_⟩
  rw [operand_brackets opens, report_bind report_advance, report_bind read,
    report_bind_rejected (report_expect_of_ne unclosed)]

/-- An operand is read, and unless an integer follows it has a derivation, or the
parser refuses one. -/
theorem operand_outcome
    (spelled : ∀ token ∈ tokens, token.Spelled)
    (further : ∀ level middle, middle <:+ tokens.tail → Decided depth level middle) :
    (∃ last after value,
      (operand (.seeing tokens none depth)).report =
        ⟨.accepted value, .seeing (last :: after) none depth, []⟩ ∧
      (ahead after ≠ .integer →
        ∀ level, 6 < level → Expression level tokens after value)) ∨
    Refuses operand (.seeing tokens none depth) := by
  by_cases name : ahead tokens = .identifier
  · obtain _ | ⟨token, rest⟩ := tokens
    · cases name
    have isName : token.kind = .identifier := name
    refine .inl ⟨token, rest, .ident token token.lexeme, ?_,
      fun calm level high => .name high isName calm⟩
    rw [operand_name isName]
    rfl
  by_cases integer : ahead tokens = .integer
  · obtain _ | ⟨token, rest⟩ := tokens
    · cases integer
    have isInteger : token.kind = .integer := integer
    cases reading : Numeral.readWord token.lexeme with
    | ok number =>
        have literal :=
          Token.literal_of_readWord (spelled token List.mem_cons_self) isInteger
            reading
        exact .inl ⟨token, rest, _, operand_of_literal literal,
          fun calm level high => .literal high literal calm⟩
    | error fault =>
        refine .inr ⟨.seeing (token :: rest) none depth, token, ?_⟩
        rw [operand_integer isInteger, literal, reading]
        rfl
  by_cases bracket : ahead tokens = .bracketOpen
  · obtain _ | ⟨opening, inside⟩ := tokens
    · cases bracket
    rcases further 0 inside (List.suffix_refl _) with
      ⟨rest, inner, derivation, loose⟩ | refuses
    · obtain ⟨last, read⟩ := derivation.report_expression loose
      by_cases closes : ahead rest = .bracketClose
      · obtain _ | ⟨closing, after⟩ := rest
        · cases closes
        exact .inl ⟨closing, after, inner,
          operand_of_brackets bracket read closes,
          fun calm level high => .brackets high bracket derivation closes calm⟩
      · exact .inr (refuses_unclosed bracket read closes)
    · exact .inr (refuses_brackets bracket refuses)
  · refine .inr ⟨.seeing tokens none depth, tokens.headD Token.endOfInput, ?_⟩
    rw [operand_other name integer bracket]
    rfl

/-- Either the tokens begin with an expression of a level, or the parser refuses one
with a single complaint. -/
theorem decided_expression
    (spelled : ∀ token ∈ tokens, token.Spelled)
    (level : Nat) :
    Decided depth level tokens := by
  induction size : tokens.length using Nat.strongRecOn generalizing level tokens with
  | ind length inductionHypothesis =>
      by_cases empty : tokens = []
      · subst empty
        refine .inr ⟨.seeing [] none depth, Token.endOfInput, ?_⟩
        rw [expression_seeing (by omega)]
        apply report_bind_rejected
        rw [operand_other (by decide) (by decide) (by decide)]
        rfl
      have further :
          ∀ level middle, middle <:+ tokens.tail → Decided depth level middle := by
        intro level middle behind
        have positive := List.length_pos_iff.mpr empty
        have shorter := behind.length_le
        rw [List.length_tail] at shorter
        refine inductionHypothesis middle.length (by omega) ?_ level rfl
        intro token member
        exact spelled token
          ((behind.trans (List.tail_suffix _)).subset member)
      rcases operand_outcome spelled further with
        ⟨last, after, value, read, derivation⟩ | ⟨rest, token, report⟩
      · by_cases integer : ahead after = .integer
        · refine .inr ⟨.seeing (last :: after) none depth,
            after.headD Token.endOfInput, ?_⟩
          have isInteger :
              (State.seeing (last :: after) none depth).next.kind = .integer :=
            integer
          rw [expression_seeing (by omega), report_bind read, bind_next,
            if_pos isInteger]
          rfl
        · have loose := precedence_le (ahead after)
          have behind :
              ∀ level middle, middle <:+ after.tail → Decided depth level middle := by
            intro level middle later
            exact further level middle
              ((later.trans (List.tail_suffix _)).trans
                (derivation integer 7 (by decide)).suffix)
          have lower : level < 7 + level := by omega
          rcases decided_operations behind
              (derivation integer (7 + level) (by omega)) lower
              (by omega) with derivable | refuses
          · exact .inl derivable
          · have nonnegative : (0 : Int) ≤ level := by omega
            exact .inr
              (refuses.of_report_eq
                (expression_of_operand nonnegative read integer))
      · refine .inr ⟨rest, token, ?_⟩
        rw [expression_seeing (by omega), report_bind_rejected report]

end WhileLang.Grammar
