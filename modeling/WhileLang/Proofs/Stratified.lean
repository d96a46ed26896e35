import Mathlib.Data.List.Chain
import WhileLang.Proofs.Expressions
import WhileLang.Proofs.Tally

/-!
The grammar of expressions, over their own tokens alone. Main statement: from any
tokens on, an expression is accepted with some token as its last one if and only if
the tokens up to that one derive it, no integer follows an operand, and what comes
behind binds no more strongly than required. Only one token and one tree can be
meant.
-/

namespace WhileLang.Grammar

open Parse

/-- Expressions by level, as they are written. The operators of a level group to the
left; behind the last level there are names, integers and bracketed expressions. -/
inductive Stratified : Nat → List Token → Expr → Prop
  | name {level : Nat} {token : Token} :
      6 < level →
      token.kind = .identifier →
      Stratified level [token] (.ident token token.lexeme)
  | literal {level : Nat} {token : Token} {value : Int} :
      6 < level →
      token.Literal value →
      Stratified level [token] (.literal token value)
  | brackets {level : Nat} {opening closing : Token} {tokens : List Token}
      {inner : Expr} :
      6 < level →
      opening.kind = .bracketOpen →
      Stratified 1 tokens inner →
      closing.kind = .bracketClose →
      Stratified level (opening :: tokens ++ [closing]) inner
  | tighter {level : Nat} {tokens : List Token} {value : Expr} :
      level ≤ 6 →
      Stratified (level + 1) tokens value →
      Stratified level tokens value
  | operation {level : Nat} {sign : Token} {operator : Operator}
      {before behind : List Token} {left right : Expr} :
      (sign.kind, operator) ∈ operators level →
      Stratified level before left →
      Stratified (level + 1) behind right →
      Stratified level (before ++ sign :: behind) (.binary sign left operator right)

/-- No operand ends with the first token if the second is an integer. -/
def Apart (first second : Token) : Prop :=
  EndsOperand first.kind → second.kind ≠ .integer

/-- The tokens up to the one at a place are all of an expression whose operators
outside brackets bind more strongly than `precedence`. -/
structure Spans (precedence : Nat) (tokens : List Token) (last : Nat) (value : Expr) :
    Prop where
  inside : last < tokens.length
  derived : Stratified (precedence + 1) (tokens.take (last + 1)) value
  apart : (tokens.take (last + 2)).IsChain Apart
  loose : (ahead (tokens.drop (last + 1))).precedence ≤ precedence

variable {level precedence : Nat} {depth : Int} {value : Expr}
variable {tokens before after : List Token}

/-! ## With and without the tokens behind -/

theorem sign_ne_integer
    {sign : Token} {operator : Operator}
    (member : (sign.kind, operator) ∈ operators level) :
    sign.kind ≠ .integer ∧ ¬ EndsOperand sign.kind := by
  have spelled := ((mem_operators_iff _ _ _).mp member).1
  generalize sign.kind = kind at spelled ⊢
  cases kind <;> cases spelled <;> decide

theorem Expression.stratified
    (derivation : Expression level before after value) :
    ∃ tokens, before = tokens ++ after ∧ Stratified level tokens value := by
  induction derivation with
  | name high kind _ => exact ⟨_, rfl, .name high kind⟩
  | literal high literal _ => exact ⟨_, rfl, .literal high literal⟩
  | brackets high opening _ closing _ inductionHypothesis =>
      obtain ⟨tokens, rfl, inner⟩ := inductionHypothesis
      exact ⟨_, by simp, .brackets high opening inner closing⟩
  | tighter low _ inductionHypothesis =>
      obtain ⟨tokens, rfl, tight⟩ := inductionHypothesis
      exact ⟨tokens, rfl, .tighter low tight⟩
  | operation member _ _ leftHypothesis rightHypothesis =>
      obtain ⟨front, rfl, left⟩ := leftHypothesis
      obtain ⟨back, rfl, right⟩ := rightHypothesis
      exact ⟨_, by simp, .operation member left right⟩

theorem Stratified.expression
    (derivation : Stratified level tokens value)
    (calm : ahead after ≠ .integer) :
    Expression level (tokens ++ after) after value := by
  induction derivation generalizing after with
  | name high kind => exact .name high kind calm
  | literal high literal => exact .literal high literal calm
  | @brackets _ _ closing tokens _ high opening _ closes inductionHypothesis =>
      have inner : Expression 1 (tokens ++ closing :: after) (closing :: after) _ :=
        inductionHypothesis (by simp [closes])
      rw [List.append_assoc]
      exact .brackets high opening inner closes calm
  | tighter low _ inductionHypothesis => exact .tighter low (inductionHypothesis calm)
  | @operation _ sign _ before behind _ _ member _ _ leftHypothesis rightHypothesis =>
      have left : Expression _ (before ++ sign :: (behind ++ after)) _ _ :=
        leftHypothesis (sign_ne_integer member).1
      rw [List.append_assoc]
      exact .operation member left (rightHypothesis calm)

/-! ## Operands and integers -/

/-- An expression ends with an operand. -/
theorem Stratified.endsOperand (derivation : Stratified level tokens value) :
    ∃ last ∈ tokens.getLast?, EndsOperand last.kind := by
  have whole : Expression level (tokens ++ []) [] value :=
    derivation.expression (by decide)
  obtain ⟨front, last, shape, ends⟩ := whole.ends
  rw [List.append_nil] at shape
  exact ⟨last, by simp [shape], ends⟩

/-- In an expression each operand is followed by an operator or a bracket. -/
theorem Stratified.apart (derivation : Stratified level tokens value) :
    tokens.IsChain Apart := by
  induction derivation with
  | name _ _ => exact .singleton _
  | literal _ _ => exact .singleton _
  | @brackets _ opening closing tokens _ _ opens _ closes inductionHypothesis =>
      have noOperand : ¬ EndsOperand opening.kind := by
        rw [opens]
        decide
      have noInteger : closing.kind ≠ .integer := by
        rw [closes]
        decide
      rw [List.cons_append, List.isChain_cons, List.isChain_append]
      refine ⟨fun _ _ ends => absurd ends noOperand, inductionHypothesis,
        .singleton _, ?_⟩
      intro _ _ next member _
      obtain rfl : closing = next := by simpa using member
      exact noInteger
  | tighter _ _ inductionHypothesis => exact inductionHypothesis
  | @operation _ sign _ before behind _ _ member _ _ leftHypothesis rightHypothesis =>
      obtain ⟨noInteger, noOperand⟩ := sign_ne_integer member
      rw [List.isChain_append, List.isChain_cons]
      refine ⟨leftHypothesis, ⟨fun _ _ ends => absurd ends noOperand, rightHypothesis⟩,
        ?_⟩
      intro _ _ next member _
      obtain rfl : sign = next := by simpa using member
      exact noInteger

/-- The token behind an expression is no integer if it is apart from the last one of
the expression. -/
theorem Stratified.apart_append_iff (derivation : Stratified level tokens value) :
    (tokens ++ after.take 1).IsChain Apart ↔ ahead after ≠ .integer := by
  obtain ⟨last, member, ends⟩ := derivation.endsOperand
  cases after with
  | nil =>
      rw [List.take_nil, List.append_nil]
      exact ⟨fun _ => by decide, fun _ => derivation.apart⟩
  | cons first rest =>
      rw [List.take_succ_cons, List.take_zero, List.isChain_append, ahead_cons]
      constructor
      · intro ⟨_, _, apart⟩
        exact apart last member first rfl ends
      · intro noInteger
        refine ⟨derivation.apart, .singleton _, ?_⟩
        intro _ _ next found _
        obtain rfl : first = next := by simpa using found
        exact noInteger

theorem spans_append_iff
    {last : Nat}
    (size : tokens.length = last + 1) :
    Spans precedence (tokens ++ after) last value ↔
      Stratified (precedence + 1) tokens value ∧ ahead after ≠ .integer ∧
        (ahead after).precedence ≤ precedence := by
  have whole : (tokens ++ after).take (last + 1) = tokens := List.take_left' size
  have behind : (tokens ++ after).drop (last + 1) = after := List.drop_left' size
  have further : (tokens ++ after).take (last + 2) = tokens ++ after.take 1 := by
    rw [List.take_append, size, List.take_of_length_le (by omega)]
    congr
    omega
  constructor
  · rintro ⟨inside, derived, apart, loose⟩
    rw [whole] at derived
    rw [further] at apart
    rw [behind] at loose
    exact ⟨derived, derived.apart_append_iff.mp apart, loose⟩
  · rintro ⟨derived, noInteger, loose⟩
    refine ⟨?_, ?_, ?_, ?_⟩
    · rw [List.length_append]
      omega
    · rwa [whole]
    · rw [further]
      exact derived.apart_append_iff.mpr noInteger
    · rwa [behind]

/-! ## What a parser sees -/

/-- Tokens before the end of input. -/
def Proper (tokens : List Token) : Prop :=
  ∀ token ∈ tokens, token.kind ≠ .endOfInput

theorem Proper.of_spelled
    (spelled : ∀ token ∈ tokens, token.Spelled) :
    Proper tokens :=
  fun token member => (Token.kind_of_spelled (spelled token member)).1

theorem Proper.of_suffix
    (proper : Proper tokens)
    (suffix : after <:+ tokens) :
    Proper after :=
  fun token member => proper token (suffix.subset member)

theorem Proper.eq_of_headD
    (proper : Proper before)
    (properToo : Proper after)
    (head : before.headD Token.endOfInput = after.headD Token.endOfInput)
    (tail : before.tail = after.tail) :
    before = after := by
  cases before with
  | nil =>
      cases after with
      | nil => rfl
      | cons first rest =>
          obtain rfl : Token.endOfInput = first := head
          exact absurd rfl (properToo _ List.mem_cons_self)
  | cons first rest =>
      cases after with
      | nil =>
          obtain rfl : first = Token.endOfInput := head
          exact absurd rfl (proper _ List.mem_cons_self)
      | cons other others =>
          obtain rfl : first = other := head
          exact congrArg (first :: ·) tail

/-- A parser that sees the same has the same tokens to read. -/
theorem Proper.eq_of_seeing
    {other : Int}
    (proper : Proper before)
    (properToo : Proper after)
    (same : State.seeing before none depth = .seeing after none other) :
    before = after := by
  simp only [State.seeing, State.mk.injEq, Feed.mk.injEq] at same
  obtain ⟨current, next, ⟨pending, _⟩, _⟩ := same
  have tails : before.tail = after.tail := by
    apply (proper.of_suffix (List.tail_suffix _)).eq_of_headD
      (properToo.of_suffix (List.tail_suffix _)) next
    simpa only [← List.drop_one, List.drop_drop] using pending
  exact proper.eq_of_headD properToo current tails

/-- At no two places a parser sees the same. -/
theorem Proper.place_unique
    {place other : Nat}
    (proper : Proper tokens)
    (inside : place < tokens.length)
    (same :
      State.seeing (tokens.drop other) none depth =
        .seeing (tokens.drop place) none depth) :
    other = place := by
  have dropped :=
    (proper.of_suffix (List.drop_suffix _ _)).eq_of_seeing
      (proper.of_suffix (List.drop_suffix _ _)) same
  have lengths := congrArg List.length dropped
  rw [List.length_drop, List.length_drop] at lengths
  omega

/-- What a derivation makes an expression is accepted up to its last token. -/
theorem Expression.report_at_suffix
    (proper : Proper before)
    (derivation : Expression (precedence + 1) before after value)
    (loose : (ahead after).precedence ≤ precedence)
    (depth : Int) :
    ∃ last,
      (expression precedence (.seeing before none depth)).report =
        ⟨.accepted value, .seeing (last :: after) none depth, []⟩ ∧
      last :: after <:+ before := by
  obtain ⟨last, read⟩ := derivation.report_expression loose
  refine ⟨last, read, ?_⟩
  have reads := reads_expression (Int.natCast_nonneg precedence) before depth
  generalize expression precedence (.seeing before none depth) = step at read reads
  cases reads with
  | @accepted other rest notices holds =>
      obtain ⟨suffix, visible, _⟩ := holds
      simp only [Step.report, Report.mk.injEq] at read
      have same : State.seeing rest none depth = .seeing (last :: after) none depth :=
        read.2.1
      have properRest := proper.of_suffix suffix
      have properLast : Proper (last :: after) := by
        have found : rest.headD Token.endOfInput = last := congrArg State.current same
        cases rest with
        | nil => exact absurd rfl visible
        | cons first others =>
            obtain rfl : first = last := found
            intro token member
            rcases List.mem_cons.mp member with rfl | behind
            · exact properRest token List.mem_cons_self
            · exact proper token
                ((derivation.suffix.trans (List.tail_suffix _)).subset behind)
      rw [← properRest.eq_of_seeing properLast same]
      exact suffix
  | rejected _ => cases congrArg Report.verdict read

/-! ## Expressions by place -/

theorem Spans.report_expression
    {last : Nat}
    (proper : Proper tokens)
    (spans : Spans precedence tokens last value)
    (depth : Int) :
    (expression precedence (.seeing tokens none depth)).report =
      ⟨.accepted value, .seeing (tokens.drop last) none depth, []⟩ := by
  have inside := spans.inside
  have shape := List.take_append_drop (last + 1) tokens
  have size : (tokens.take (last + 1)).length = last + 1 := by
    rw [List.length_take]
    omega
  rw [← shape, spans_append_iff size] at spans
  obtain ⟨derived, noInteger, loose⟩ := spans
  have derivation := derived.expression noInteger
  rw [shape] at derivation
  obtain ⟨final, read, suffix⟩ := derivation.report_at_suffix proper loose depth
  have place : tokens.length - (tokens.length - (last + 1) + 1) = last := by omega
  have dropped := List.suffix_iff_eq_drop.mp suffix
  rw [List.length_cons, List.length_drop, place] at dropped
  rw [read, dropped]

theorem exists_spans
    {after : State} {complaints : List Token}
    (spelled : ∀ token ∈ tokens, token.Spelled)
    (read :
      (expression precedence (.seeing tokens none depth)).report =
        ⟨.accepted value, after, complaints⟩) :
    complaints = [] ∧ ∃ last, after = .seeing (tokens.drop last) none depth ∧
      Spans precedence tokens last value := by
  have proper := Proper.of_spelled spelled
  have decided : Decided depth precedence tokens :=
    decided_expression spelled precedence
  rcases decided with ⟨behind, other, derivation, loose⟩ | ⟨_, _, refused⟩
  · obtain ⟨final, found, suffix⟩ := derivation.report_at_suffix proper loose depth
    rw [read, Report.mk.injEq, Verdict.accepted.injEq] at found
    obtain ⟨rfl, rfl, rfl⟩ := found
    obtain ⟨taken, rfl, derived⟩ := derivation.stratified
    have shorter := suffix.length_le
    rw [List.length_cons, List.length_append] at shorter
    refine ⟨rfl, taken.length - 1, ?_, ?_⟩
    · have place :
          (taken ++ behind).length - (final :: behind).length = taken.length - 1 := by
        rw [List.length_append, List.length_cons]
        omega
      rw [List.suffix_iff_eq_drop.mp suffix, place]
    · rw [spans_append_iff (by omega)]
      exact ⟨derived, derivation.calm, loose⟩
  · rw [read] at refused
    cases congrArg Report.verdict refused

/-- Tokens that are an expression from the first to the last, without a complaint. -/
def Whole (tokens : List Token) (value : Expr) : Prop :=
  ∃ last,
    (Parse.expression 0 (.seeing tokens none 0)).report =
      ⟨.accepted value, .seeing [last] none 0, []⟩

theorem Whole.stratified
    (spelled : ∀ token ∈ tokens, token.Spelled)
    (whole : Whole tokens value) :
    Stratified 1 tokens value := by
  obtain ⟨final, read⟩ := whole
  have proper := Proper.of_spelled spelled
  obtain ⟨_, last, same, inside, derived, _, _⟩ := @exists_spans 0 0 _ _ _ _ spelled read
  -- Behind the last token there is the end of input, which no token is.
  have next : Token.endOfInput = (tokens.drop (last + 1)).headD Token.endOfInput := by
    rw [← List.tail_drop]
    exact congrArg State.next same
  have behind : tokens.drop (last + 1) = [] := by
    cases shape : tokens.drop (last + 1) with
    | nil => rfl
    | cons first others =>
        rw [shape] at next
        have member : first ∈ tokens :=
          List.mem_of_mem_drop (shape ▸ List.mem_cons_self)
        exact absurd (congrArg Token.kind next).symm (proper first member)
  have shape := List.take_append_drop (last + 1) tokens
  rw [behind, List.append_nil] at shape
  rwa [shape] at derived

/-- Parsing by precedence is parsing by levels. -/
theorem report_expression_iff_spans
    (spelled : ∀ token ∈ tokens, token.Spelled)
    (precedence : Nat) (depth : Int) :
    (∀ last value,
      (expression precedence (.seeing tokens none depth)).report =
          ⟨.accepted value, .seeing (tokens.drop last) none depth, []⟩ ↔
        Spans precedence tokens last value) ∧
    (∀ value after complaints,
      (expression precedence (.seeing tokens none depth)).report =
          ⟨.accepted value, after, complaints⟩ →
        complaints = [] ∧ ∃ last, after = .seeing (tokens.drop last) none depth) ∧
    (∀ last value last' value',
      Spans precedence tokens last value → Spans precedence tokens last' value' →
        last = last' ∧ value = value') := by
  have proper := Proper.of_spelled spelled
  refine ⟨fun last value => ⟨fun read => ?_, fun spans => ?_⟩, ?_, ?_⟩
  · obtain ⟨_, last', same, spans⟩ := exists_spans spelled read
    rw [proper.place_unique spans.inside same]
    exact spans
  · exact spans.report_expression proper depth
  · intro value after complaints read
    obtain ⟨silent, last, same, _⟩ := exists_spans spelled read
    exact ⟨silent, last, same⟩
  · intro last value last' value' spans spans'
    have same :=
      (spans.report_expression proper depth).symm.trans
        (spans'.report_expression proper depth)
    rw [Report.mk.injEq, Verdict.accepted.injEq] at same
    exact ⟨proper.place_unique spans'.inside same.2.1, same.1⟩

/-- The comparison behind the difference does not belong to it. -/
theorem spans_difference :
    Spans 4
      [⟨.identifier, "x"⟩, ⟨.minus, "-"⟩, ⟨.integer, "1"⟩, ⟨.minus, "-"⟩,
        ⟨.bracketOpen, "("⟩, ⟨.identifier, "y"⟩, ⟨.bracketClose, ")"⟩, ⟨.less, "<"⟩,
        ⟨.identifier, "x"⟩]
      6
      (.binary ⟨.minus, "-"⟩
        (.binary ⟨.minus, "-"⟩ (.ident ⟨.identifier, "x"⟩ "x") .sub
          (.literal ⟨.integer, "1"⟩ 1))
        .sub (.ident ⟨.identifier, "y"⟩ "y")) :=
  ((report_expression_iff_spans (by unfold Token.Spelled; decide +kernel) 4 0).1 _ _).mp
    (by rw [Step.report, Report.mk.injEq]; decide +kernel)

end WhileLang.Grammar
