import WhileLang.Proofs.Decimal
import WhileLang.Stmt

/-!
The grammar, with one token of lookahead. A rule relates the tokens before a piece
of a program, those that are left behind it, and its tree. Main statements: how a
piece begins and ends, and that of the tokens behind it only the first counts, and
of that only the kind.
-/

namespace WhileLang

/-- The statements that end with an expression; the others end with a block. -/
def Stmt.endsInExpression : Stmt → Bool
  | .expression .. => true
  | .assign .. => true
  | .print .. => true
  | _ => false

namespace Grammar

/-- The kind of the token ahead: that of the end of input if there is none. -/
def ahead (tokens : List Token) : Token.Kind :=
  (tokens.headD Token.endOfInput).kind

@[simp] theorem ahead_cons (first : Token) (rest : List Token) :
    ahead (first :: rest) = first.kind := rfl

/-- The operators of each level with the tokens that spell them, from those that
bind the least to those that bind the most. -/
def operators : Nat → List (Token.Kind × Operator)
  | 1 => [(.or, .or)]
  | 2 => [(.and, .and)]
  | 3 => [(.equal, .eq), (.notEqual, .ne)]
  | 4 => [(.less, .lt), (.greater, .gt), (.lessEqual, .le), (.greaterEqual, .ge)]
  | 5 => [(.plus, .add), (.minus, .sub)]
  | 6 => [(.star, .mul), (.slash, .div), (.percent, .mod)]
  | _ => []

/-- Expressions by level. The operators of a level group to the left, and their
right side is of the next level; behind the last level there are names, integers
and bracketed expressions, none of which an integer may follow. -/
inductive Expression : Nat → List Token → List Token → Expr → Prop
  | name {level : Nat} {token : Token} {after : List Token} :
      6 < level →
      token.kind = .identifier →
      ahead after ≠ .integer →
      Expression level (token :: after) after (.ident token token.lexeme)
  | literal {level : Nat} {token : Token} {after : List Token} {value : Int} :
      6 < level →
      token.Literal value →
      ahead after ≠ .integer →
      Expression level (token :: after) after (.literal token value)
  | brackets {level : Nat} {opening closing : Token}
      {before after : List Token} {inner : Expr} :
      6 < level →
      opening.kind = .bracketOpen →
      Expression 1 before (closing :: after) inner →
      closing.kind = .bracketClose →
      ahead after ≠ .integer →
      Expression level (opening :: before) after inner
  | tighter {level : Nat} {before after : List Token} {value : Expr} :
      level ≤ 6 →
      Expression (level + 1) before after value →
      Expression level before after value
  | operation {level : Nat} {sign : Token} {operator : Operator}
      {before middle after : List Token} {left right : Expr} :
      (sign.kind, operator) ∈ operators level →
      Expression level before (sign :: middle) left →
      Expression (level + 1) middle after right →
      Expression level before after (.binary sign left operator right)

/-- An expression in brackets, behind `if` or `while`. -/
inductive Condition : List Token → List Token → Expr → Prop
  | brackets {opening closing : Token} {before after : List Token} {truth : Expr} :
      opening.kind = .bracketOpen →
      Expression 1 before (closing :: after) truth →
      closing.kind = .bracketClose →
      Condition (opening :: before) after truth

/-- One or more expressions with commas between them, behind `print`. -/
inductive Values : List Token → List Token → List Expr → Prop
  | last {before after : List Token} {value : Expr} :
      Expression 1 before after value →
      Values before after [value]
  | more {comma : Token} {before middle after : List Token}
      {value : Expr} {values : List Expr} :
      Expression 1 before (comma :: middle) value →
      comma.kind = .comma →
      Values middle after values →
      Values before after (value :: values)

mutual

/-- A statement, inside or outside of all blocks. Outside, an expression that is
a statement does not begin with a name. -/
inductive Statement : Bool → List Token → List Token → Stmt → Prop
  | expression {inBlock : Bool} {first : Token} {before after : List Token}
      {value : Expr} :
      Expression 1 (first :: before) after value →
      (inBlock = false → first.kind ≠ .identifier) →
      Statement inBlock (first :: before) after (.expression first value)
  | assign {inBlock : Bool} {name sign : Token} {before after : List Token}
      {value : Expr} :
      name.kind = .identifier →
      sign.kind = .assign →
      Expression 1 before after value →
      Statement inBlock (name :: sign :: before) after
        (.assign name ⟨name, name.lexeme⟩ value)
  | print {inBlock : Bool} {word : Token} {before after : List Token}
      {values : List Expr} :
      word.kind = .printWord →
      Values before after values →
      Statement inBlock (word :: before) after (.print word values)
  | ifThen {inBlock : Bool} {word : Token} {before middle after : List Token}
      {truth : Expr} {first : Stmt} :
      word.kind = .ifWord →
      Condition before middle truth →
      Block middle after first →
      ahead after ≠ .elseWord →
      Statement inBlock (word :: before) after (.ifThen word truth first)
  | ifElse {inBlock : Bool} {word other : Token}
      {before middle rest after : List Token} {truth : Expr}
      {first second : Stmt} :
      word.kind = .ifWord →
      Condition before middle truth →
      Block middle (other :: rest) first →
      other.kind = .elseWord →
      Block rest after second →
      Statement inBlock (word :: before) after (.ifElse word truth first second)
  | whileDo {inBlock : Bool} {word : Token} {before middle after : List Token}
      {truth : Expr} {body : Stmt} :
      word.kind = .whileWord →
      Condition before middle truth →
      Block middle after body →
      Statement inBlock (word :: before) after (.whileDo word truth body)

/-- A block ends with its own brace, which it takes, or at an `else`, which it
leaves. -/
inductive Block : List Token → List Token → Stmt → Prop
  | closed {opening closing : Token} {before after : List Token}
      {items : List Stmt} :
      opening.kind = .braceOpen →
      Statements true before (closing :: after) items →
      closing.kind = .braceClose →
      Block (opening :: before) after (.block opening items)
  | left {opening : Token} {before after : List Token} {items : List Stmt} :
      opening.kind = .braceOpen →
      Statements true before after items →
      ahead after = .elseWord →
      Block (opening :: before) after (.block opening items)

/-- Statements in a row. -/
inductive Statements : Bool → List Token → List Token → List Stmt → Prop
  | nil {inBlock : Bool} {tokens : List Token} :
      Statements inBlock tokens tokens []
  | cons {inBlock : Bool} {before middle after : List Token}
      {item : Stmt} {items : List Stmt} :
      Statement inBlock before middle item →
      Statements inBlock middle after items →
      Statements inBlock before after (item :: items)

end

/-- A program is statements outside of all blocks, up to the end of input. -/
def Derives (tokens : List Token) (program : Program) : Prop :=
  Statements false tokens [] program

/-! ## Levels -/

theorem precedence_le (kind : Token.Kind) : kind.precedence ≤ 6 := by
  cases kind <;> decide

theorem operators_correct :
    ∀ level < 7, ∀ row ∈ operators level,
      Operator.ofKind? row.1 = some row.2 ∧ row.1.precedence = level := by
  decide

theorem operators_of_lt {level : Nat} (high : 6 < level) :
    operators level = [] := by
  unfold operators
  split <;> first | omega | rfl

theorem mem_operators_iff
    (kind : Token.Kind) (operator : Operator) (level : Nat) :
    (kind, operator) ∈ operators level ↔
      Operator.ofKind? kind = some operator ∧ kind.precedence = level := by
  constructor
  · intro member
    by_cases high : 6 < level
    · rw [operators_of_lt high] at member
      cases member
    · exact operators_correct level (by omega) _ member
  · rintro ⟨spelled, rfl⟩
    cases kind <;> cases spelled <;> decide

/-- What is an expression of a level is one of each level that binds less. -/
theorem Expression.loosen
    {lower : Nat} {before after : List Token} {value : Expr} :
    ∀ {level : Nat},
      Expression level before after value →
      lower ≤ level →
      Expression lower before after value := by
  intro level
  induction level with
  | zero =>
      intro tight below
      obtain rfl : lower = 0 := by omega
      exact tight
  | succ level inductionHypothesis =>
      intro tight below
      by_cases same : lower = level + 1
      · subst lower
        exact tight
      · refine inductionHypothesis ?_ (by omega)
        by_cases low : level ≤ 6
        · exact .tighter low tight
        · -- Behind the last level there are operands alone.
          cases tight with
          | name _ kind calm => exact .name (by omega) kind calm
          | literal _ literal calm => exact .literal (by omega) literal calm
          | brackets _ opening inner closing calm =>
              exact .brackets (by omega) opening inner closing calm
          | tighter below _ => omega
          | operation member _ _ =>
              rw [operators_of_lt (by omega)] at member
              cases member

/-! ## How an expression begins and ends -/

/-- An operand ends with a token of this kind. -/
def EndsOperand (kind : Token.Kind) : Prop :=
  kind = .identifier ∨ kind = .integer ∨ kind = .bracketClose

/-- An expression begins with a token of this kind. -/
def BeginsExpression (kind : Token.Kind) : Prop :=
  kind = .identifier ∨ kind = .integer ∨ kind = .bracketOpen

instance : DecidablePred EndsOperand := fun _ =>
  inferInstanceAs (Decidable (_ ∨ _))

instance : DecidablePred BeginsExpression := fun _ =>
  inferInstanceAs (Decidable (_ ∨ _))

variable {level : Nat} {before after : List Token} {value : Expr}

theorem Expression.begins (derivation : Expression level before after value) :
    BeginsExpression (ahead before) := by
  induction derivation with
  | name _ kind _ => exact .inl kind
  | literal _ literal _ => exact .inr (.inl literal.kind)
  | brackets _ opening _ _ _ _ => exact .inr (.inr opening)
  | tighter _ _ inductionHypothesis => exact inductionHypothesis
  | operation _ _ _ leftHypothesis _ => exact leftHypothesis

theorem Expression.calm (derivation : Expression level before after value) :
    ahead after ≠ .integer := by
  induction derivation with
  | name _ _ calm => exact calm
  | literal _ _ calm => exact calm
  | brackets _ _ _ _ calm _ => exact calm
  | tighter _ _ inductionHypothesis => exact inductionHypothesis
  | operation _ _ _ _ rightHypothesis => exact rightHypothesis

/-- An expression is taken off the front of the tokens, up to the end of its last
operand. -/
theorem Expression.ends (derivation : Expression level before after value) :
    ∃ consumed last,
      before = consumed ++ last :: after ∧ EndsOperand last.kind := by
  induction derivation with
  | @name _ token _ _ kind _ => exact ⟨[], token, rfl, .inl kind⟩
  | @literal _ token _ _ _ literal _ =>
      exact ⟨[], token, rfl, .inr (.inl literal.kind)⟩
  | @brackets _ opening closing _ after _ _ _ _ closingKind _ inductionHypothesis =>
      obtain ⟨consumed, last, rfl, _⟩ := inductionHypothesis
      exact ⟨opening :: consumed ++ [last], closing, by simp,
        .inr (.inr closingKind)⟩
  | tighter _ _ inductionHypothesis => exact inductionHypothesis
  | @operation _ sign _ _ _ _ _ _ _ _ _ leftHypothesis rightHypothesis =>
      obtain ⟨front, operand, rfl, _⟩ := leftHypothesis
      obtain ⟨back, last, rfl, ends⟩ := rightHypothesis
      exact ⟨front ++ operand :: sign :: back, last, by simp, ends⟩

/-- The tokens behind an expression matter only in that an integer cannot come
first. -/
theorem Expression.append
    (derivation : Expression level before after value)
    (behind : List Token)
    (calm : ahead (after ++ behind) ≠ .integer) :
    Expression level (before ++ behind) (after ++ behind) value := by
  induction derivation with
  | name high kind _ => exact .name high kind calm
  | literal high literal _ => exact .literal high literal calm
  | brackets high opening _ closing _ inductionHypothesis =>
      refine .brackets high opening (inductionHypothesis ?_) closing calm
      simp [ahead, closing]
  | tighter low _ inductionHypothesis =>
      exact .tighter low (inductionHypothesis calm)
  | operation member left _ leftHypothesis rightHypothesis =>
      refine .operation member (leftHypothesis ?_) (rightHypothesis calm)
      exact left.calm

theorem Condition.append
    {truth : Expr}
    (derivation : Condition before after truth)
    (behind : List Token) :
    Condition (before ++ behind) (after ++ behind) truth := by
  cases derivation with
  | brackets opening inner closing =>
      exact .brackets opening (inner.append behind (by simp [ahead, closing]))
        closing

theorem Values.calm
    {values : List Expr}
    (derivation : Values before after values) :
    ahead after ≠ .integer := by
  induction derivation with
  | last value => exact value.calm
  | more _ _ _ inductionHypothesis => exact inductionHypothesis

theorem Values.ends
    {values : List Expr}
    (derivation : Values before after values) :
    ∃ consumed last,
      before = consumed ++ last :: after ∧ EndsOperand last.kind := by
  induction derivation with
  | last value => exact value.ends
  | @more comma _ _ _ _ _ value _ _ inductionHypothesis =>
      obtain ⟨front, operand, rfl, _⟩ := value.ends
      obtain ⟨back, last, rfl, ends⟩ := inductionHypothesis
      exact ⟨front ++ operand :: comma :: back, last, by simp, ends⟩

theorem Values.append
    {values : List Expr}
    (derivation : Values before after values)
    (behind : List Token)
    (calm : ahead (after ++ behind) ≠ .integer) :
    Values (before ++ behind) (after ++ behind) values := by
  induction derivation with
  | last value => exact .last (value.append behind calm)
  | more value comma _ inductionHypothesis =>
      refine .more (value.append behind ?_) comma (inductionHypothesis calm)
      exact value.calm

/-! ## How a statement begins and ends -/

/-- A statement begins with a token of this kind. -/
def BeginsStatement (kind : Token.Kind) : Prop :=
  BeginsExpression kind ∨ kind = .printWord ∨ kind = .ifWord ∨ kind = .whileWord

instance : DecidablePred BeginsStatement := fun _ =>
  inferInstanceAs (Decidable (_ ∨ _))

theorem BeginsStatement.ne
    {kind other : Token.Kind}
    (begins : BeginsStatement kind)
    (outside : ¬ BeginsStatement other) :
    kind ≠ other := by
  rintro rfl
  exact outside begins

theorem Statement.begins
    {inBlock : Bool} {item : Stmt}
    (derivation : Statement inBlock before after item) :
    BeginsStatement (ahead before) := by
  cases derivation with
  | expression value _ => exact .inl value.begins
  | assign name _ _ => exact .inl (.inl name)
  | print word _ => exact .inr (.inl word)
  | ifThen word _ _ _ => exact .inr (.inr (.inl word))
  | ifElse word _ _ _ _ => exact .inr (.inr (.inl word))
  | whileDo word _ _ => exact .inr (.inr (.inr word))

/-- A statement that ends with an expression ends with its last operand. -/
theorem Statement.ends
    {inBlock : Bool} {item : Stmt}
    (derivation : Statement inBlock before after item)
    (open_ : item.endsInExpression = true) :
    ∃ consumed last,
      before = consumed ++ last :: after ∧ EndsOperand last.kind := by
  cases derivation with
  | expression value _ => exact value.ends
  | @assign _ name sign _ _ _ _ _ value =>
      obtain ⟨consumed, last, rfl, ends⟩ := value.ends
      exact ⟨name :: sign :: consumed, last, rfl, ends⟩
  | @print _ word _ _ _ _ values =>
      obtain ⟨consumed, last, rfl, ends⟩ := values.ends
      exact ⟨word :: consumed, last, rfl, ends⟩
  | ifThen _ _ _ _ => cases open_
  | ifElse _ _ _ _ _ => cases open_
  | whileDo _ _ _ => cases open_

theorem Condition.suffix
    {truth : Expr}
    (derivation : Condition before after truth) :
    after <:+ before := by
  cases derivation with
  | @brackets opening closing _ _ _ _ inner _ =>
      obtain ⟨consumed, last, rfl, _⟩ := inner.ends
      exact ⟨opening :: consumed ++ [last, closing], by simp⟩

mutual

/-- What a statement leaves is the end of the tokens. -/
theorem Statement.suffix
    {inBlock : Bool} {before after : List Token} {item : Stmt} :
    Statement inBlock before after item → after <:+ before.tail
  | .expression value _ => by
      obtain ⟨consumed, last, equality, _⟩ := value.ends
      cases consumed with
      | nil =>
          cases equality
          exact List.suffix_refl _
      | cons first rest =>
          cases equality
          exact ⟨rest ++ [last], by simp⟩
  | @Statement.assign _ _ sign _ _ _ _ _ value => by
      obtain ⟨consumed, last, rfl, _⟩ := value.ends
      exact ⟨sign :: consumed ++ [last], by simp⟩
  | .print _ values => by
      obtain ⟨consumed, last, rfl, _⟩ := values.ends
      exact ⟨consumed ++ [last], by simp⟩
  | .ifThen _ condition first _ => first.suffix.trans condition.suffix
  | .ifElse _ condition first _ second =>
      (second.suffix.trans (List.suffix_cons _ _)).trans
        (first.suffix.trans condition.suffix)
  | .whileDo _ condition body => body.suffix.trans condition.suffix

theorem Block.suffix
    {before after : List Token} {item : Stmt} :
    Block before after item → after <:+ before
  | .closed _ items _ =>
      ((List.suffix_cons _ _).trans items.suffix).trans (List.suffix_cons _ _)
  | .left _ items _ => items.suffix.trans (List.suffix_cons _ _)

theorem Statements.suffix
    {inBlock : Bool} {before after : List Token} {items : List Stmt} :
    Statements inBlock before after items → after <:+ before
  | .nil => List.suffix_refl _
  | .cons item items =>
      (items.suffix.trans item.suffix).trans (List.tail_suffix _)

end

/-- Statements the last of which ends with an expression end with its last
operand. -/
theorem Statements.ends
    {inBlock : Bool} {before after : List Token} {items : List Stmt}
    (open_ : items.getLast?.any Stmt.endsInExpression = true) :
    Statements inBlock before after items →
    ∃ consumed last,
      before = consumed ++ last :: after ∧ EndsOperand last.kind
  | .nil => by cases open_
  | @Statements.cons _ _ middle _ first others item derivation => by
      cases others with
      | nil =>
          cases derivation with
          | nil => exact item.ends open_
      | cons second rest =>
          rw [List.getLast?_cons_cons] at open_
          obtain ⟨consumed, last, rfl, ends⟩ := derivation.ends open_
          obtain ⟨front, parts⟩ := item.suffix.trans (List.tail_suffix before)
          exact ⟨front ++ consumed, last, by simp [← parts], ends⟩

/-! ## Tokens behind a program -/

/-- Tokens that may come behind a piece of a program without having a part in it:
where nothing else is left behind the piece, they begin neither with an `else`
nor, if it ends in an expression, with an integer. -/
structure Separate (openEnded : Bool) (after behind : List Token) : Prop where
  calm : after = [] → openEnded = true → ahead behind ≠ .integer
  noElse : after = [] → ahead behind ≠ .elseWord

theorem ahead_append_of_ne_nil
    {tokens : List Token} (behind : List Token)
    (nonempty : tokens ≠ []) :
    ahead (tokens ++ behind) = ahead tokens := by
  cases tokens with
  | nil => exact absurd rfl nonempty
  | cons _ _ => rfl

theorem Separate.ahead_ne_integer
    {openEnded : Bool} {behind : List Token}
    (separate : Separate openEnded after behind)
    (isOpen : openEnded = true)
    (calm : ahead after ≠ .integer) :
    ahead (after ++ behind) ≠ .integer := by
  by_cases empty : after = []
  · subst after
    exact separate.calm rfl isOpen
  · rwa [ahead_append_of_ne_nil behind empty]

theorem Separate.ahead_ne_else
    {openEnded : Bool} {behind : List Token}
    (separate : Separate openEnded after behind)
    (noElse : ahead after ≠ .elseWord) :
    ahead (after ++ behind) ≠ .elseWord := by
  by_cases empty : after = []
  · subst after
    exact separate.noElse rfl
  · rwa [ahead_append_of_ne_nil behind empty]

theorem separate_cons
    (openEnded : Bool) (first : Token) (rest behind : List Token) :
    Separate openEnded (first :: rest) behind :=
  ⟨nofun, nofun⟩

theorem Statements.eq_nil
    {inBlock : Bool} {items : List Stmt}
    (derivation : Statements inBlock [] after items) :
    items = [] ∧ after = [] := by
  cases derivation with
  | nil => exact ⟨rfl, rfl⟩
  | cons item _ =>
      rcases item.begins with (start | start | start) | start | start | start <;>
        cases start

theorem Separate.of_cons
    {inBlock : Bool} {middle behind : List Token}
    {first : Stmt} {others : List Stmt}
    (separate :
      Separate ((first :: others).getLast?.any Stmt.endsInExpression)
        after behind)
    (derivation : Statements inBlock middle after others)
    (nonempty : middle ≠ []) :
    Separate (others.getLast?.any Stmt.endsInExpression) after behind := by
  cases others with
  | nil =>
      cases derivation with
      | nil =>
          exact ⟨fun absent => absurd absent nonempty,
            fun absent => absurd absent nonempty⟩
  | cons second rest =>
      rwa [List.getLast?_cons_cons] at separate

mutual

theorem Statement.append
    {inBlock : Bool} {before after : List Token} {item : Stmt}
    (behind : List Token)
    (separate : Separate item.endsInExpression after behind) :
    Statement inBlock before after item →
    Statement inBlock (before ++ behind) (after ++ behind) item
  | .expression value outside =>
      .expression
        (value.append behind (separate.ahead_ne_integer rfl value.calm)) outside
  | .assign name sign value =>
      .assign name sign
        (value.append behind (separate.ahead_ne_integer rfl value.calm))
  | .print word values =>
      .print word
        (values.append behind (separate.ahead_ne_integer rfl values.calm))
  | .ifThen word condition first noElse =>
      .ifThen word (condition.append behind) (first.append behind separate)
        (separate.ahead_ne_else noElse)
  | .ifElse word condition first other second =>
      .ifElse word (condition.append behind)
        (first.append behind (separate_cons false _ _ behind)) other
        (second.append behind separate)
  | .whileDo word condition body =>
      .whileDo word (condition.append behind) (body.append behind separate)

theorem Block.append
    {before after : List Token} {item : Stmt}
    (behind : List Token)
    (separate : Separate false after behind) :
    Block before after item →
    Block (before ++ behind) (after ++ behind) item
  | .closed opening items closing =>
      .closed opening
        (items.append behind (separate_cons _ _ _ behind)) closing
  | .left opening items elseAhead => by
      have nonempty : after ≠ [] := by
        rintro rfl
        exact absurd elseAhead (by decide)
      refine .left opening (items.append behind ?_) ?_
      · exact ⟨fun empty => absurd empty nonempty,
          fun empty => absurd empty nonempty⟩
      · rwa [ahead_append_of_ne_nil behind nonempty]

theorem Statements.append
    {inBlock : Bool} {before after : List Token} {items : List Stmt}
    (behind : List Token)
    (separate :
      Separate (items.getLast?.any Stmt.endsInExpression) after behind) :
    Statements inBlock before after items →
    Statements inBlock (before ++ behind) (after ++ behind) items
  | .nil => .nil
  | @Statements.cons _ _ middle _ first others item items => by
      -- Only the last of the statements may have the end of the tokens behind it.
      by_cases empty : middle = []
      · subst middle
        obtain ⟨rfl, rfl⟩ := items.eq_nil
        exact .cons (item.append behind separate) .nil
      · refine .cons (item.append behind ?_) (items.append behind ?_)
        · exact ⟨fun absent => absurd absent empty,
            fun absent => absurd absent empty⟩
        · exact separate.of_cons items empty

end

end Grammar

end WhileLang
