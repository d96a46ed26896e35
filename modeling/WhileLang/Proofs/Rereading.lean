import WhileLang.Proofs.Relabel
import WhileLang.Proofs.Rendering
import WhileLang.Proofs.Reading

/-!
Derivations from the tokens of a tree's text. Main statements: if no number on its
own follows a statement that ends in an expression, and no name on its own is a
statement outside of all blocks, the tokens derive the tree up to its labels; and if
they derive anything, there is no such number.
-/

namespace WhileLang

/-! ## Statements that run into their neighbours -/

def Expr.isName : Expr → Bool
  | .ident .. => true
  | _ => false

def Expr.isNumber : Expr → Bool
  | .literal .. => true
  | _ => false

namespace Stmt

/-- A statement that is nothing but a name. -/
def isBareName : Stmt → Bool
  | .expression _ value => value.isName
  | _ => false

/-- A statement that is nothing but a number. -/
def isBareNumber : Stmt → Bool
  | .expression _ value => value.isNumber
  | _ => false

/-- Statements in a row none of which ends in an expression with a number on its own
behind it. -/
def Apart (items : List Stmt) : Prop :=
  items.IsChain fun item next =>
    ¬ (item.endsInExpression = true ∧ next.isBareNumber = true)

mutual

/-- The lists of statements inside a statement. -/
def lists : Stmt → List (List Stmt)
  | .expression .. => []
  | .assign .. => []
  | .block _ items => items :: listsEach items
  | .ifThen _ _ first => first.lists
  | .ifElse _ _ first second => first.lists ++ second.lists
  | .whileDo _ _ body => body.lists
  | .print .. => []
  | .bare _ => []
  | .sequence items => items :: listsEach items
  | .foreign _ => []

/-- The lists of statements inside the statements of a list. -/
def listsEach : List Stmt → List (List Stmt)
  | [] => []
  | item :: rest => item.lists ++ listsEach rest

end

end Stmt

/-- The lists of statements of a program: its own, and those of its blocks. -/
def Program.lists (program : Program) : List (List Stmt) :=
  program :: Stmt.listsEach program

/-- The labels that the tree of a text gets when it is read. -/
def Relabelling.reread : Relabelling where
  literal token value := ⟨token.kind, toString value⟩
  expression _ value := value.tokens.headD Token.endOfInput

open Grammar

variable {value : Expr} {item : Stmt} {items : List Stmt}
variable {after : List Token} {inBlock : Bool}

/-! ## First tokens -/

theorem Expr.Parsed.first (parsed : value.Parsed) :
    ∃ first rest,
      value.tokens = first :: rest ∧ BeginsExpression first.kind ∧
        (first.kind = .identifier → value.isName = true) ∧
        (first.kind = .integer → value.isNumber = true) := by
  cases parsed with
  | name kind _ =>
      refine ⟨_, _, rfl, .inl kind, fun _ => rfl, fun integer => ?_⟩
      exact absurd (kind.symm.trans integer) (by decide)
  | literal _ => exact ⟨_, _, rfl, .inr (.inl rfl), nofun, fun _ => rfl⟩
  | operation _ _ _ _ => exact ⟨_, _, rfl, .inr (.inr rfl), nofun, nofun⟩

theorem Stmt.Parsed.begins (parsed : item.Parsed) :
    BeginsStatement (ahead (item.tokens ++ after)) := by
  cases parsed with
  | expression value =>
      obtain ⟨first, rest, shape, begins, _⟩ := value.first
      rw [Stmt.tokens, shape]
      exact .inl begins
  | assign name _ _ => exact .inl (.inl name)
  | print _ => exact .inr (.inl rfl)
  | ifThen _ _ => exact .inr (.inr (.inl rfl))
  | ifElse _ _ _ => exact .inr (.inr (.inl rfl))
  | whileDo _ _ => exact .inr (.inr (.inr rfl))

/-- Only a number on its own begins with an integer. -/
theorem Stmt.Parsed.ahead_ne_integer
    (parsed : item.Parsed)
    (other : item.isBareNumber = false) :
    ahead (item.tokens ++ after) ≠ .integer := by
  cases parsed with
  | expression value =>
      obtain ⟨first, rest, shape, _, _, number⟩ := value.first
      rw [Stmt.tokens, shape]
      intro integer
      have isNumber := number integer
      rw [Stmt.isBareNumber, isNumber] at other
      cases other
  | assign name _ _ =>
      intro integer
      exact absurd (name.symm.trans integer) (by decide)
  | print _ => nofun
  | ifThen _ _ => nofun
  | ifElse _ _ _ => nofun
  | whileDo _ _ => nofun

/-! ## Derivations of trees -/

theorem ahead_fixed_ne
    {kind other : Token.Kind} (after : List Token)
    (different : kind ≠ other) :
    ahead (.fixed kind :: after) ≠ other :=
  different

/-- In brackets an operation is an operand, whatever its operator. -/
theorem Grammar.Expression.bracketed
    {sign : Token} {operator : Operator} {before middle : List Token}
    {left right : Expr}
    (spelled : Operator.ofKind? sign.kind = some operator)
    (leftDerivation : Expression 7 before (sign :: middle) left)
    (rightDerivation : Expression 7 middle (.fixed .bracketClose :: after) right)
    (calm : ahead after ≠ .integer) :
    Expression 7 (.fixed .bracketOpen :: before) after
      (.binary sign left operator right) := by
  have member := (mem_operators_iff sign.kind operator _).mpr ⟨spelled, rfl⟩
  have strength := precedence_le sign.kind
  have positive : 0 < sign.kind.precedence := by
    rw [Token.Kind.precedence_pos_iff, spelled]
    rfl
  have inner :=
    Expression.operation member (leftDerivation.loosen (by omega))
      (rightDerivation.loosen (by omega))
  exact .brackets (by decide) (Token.kind_fixed .bracketOpen)
    (inner.loosen positive) (Token.kind_fixed .bracketClose) calm

theorem Expr.Parsed.expression
    (parsed : value.Parsed)
    (calm : ahead after ≠ .integer) :
    Expression 7 (value.tokens ++ after) after (value.relabel .reread) := by
  induction parsed generalizing after with
  | name kind _ => exact .name (by decide) kind calm
  | @literal token value literal =>
      have rewritten : Relabelling.reread.literal token value = .number value := by
        show Token.mk token.kind (toString value) = _
        rw [literal.kind, Token.number]
      rw [Expr.relabel, rewritten]
      exact .literal (by decide)
        (Token.literal_number literal.natural literal.small) calm
  | @operation sign left right operator spelled _ _ _ leftHypothesis
      rightHypothesis =>
      have noInteger : sign.kind ≠ .integer := by
        intro integer
        rw [integer] at spelled
        cases spelled
      have rightDerivation :
          Expression 7 (right.tokens ++ .fixed .bracketClose :: after)
            (.fixed .bracketClose :: after) (right.relabel .reread) :=
        rightHypothesis (ahead_fixed_ne after (by decide))
      have leftDerivation :
          Expression 7
            (left.tokens ++ sign :: (right.tokens ++ .fixed .bracketClose :: after))
            (sign :: (right.tokens ++ .fixed .bracketClose :: after))
            (left.relabel .reread) :=
        leftHypothesis noInteger
      have bracketed := leftDerivation.bracketed spelled rightDerivation calm
      simpa [Expr.tokens, Expr.relabel] using bracketed

theorem Expr.Parsed.condition
    (parsed : value.Parsed) :
    Condition (value.conditionTokens ++ after) after (value.relabel .reread) := by
  have inner : Expression 7 (value.tokens ++ .fixed .bracketClose :: after)
      (.fixed .bracketClose :: after) (value.relabel .reread) :=
    parsed.expression (ahead_fixed_ne after (by decide))
  have bracketed :=
    Condition.brackets (Token.kind_fixed .bracketOpen)
      (inner.loosen (by decide : 1 ≤ 7)) rfl
  simpa [Expr.conditionTokens] using bracketed

theorem Expr.values
    (first : Expr) (rest : List Expr)
    (parsed : ∀ value ∈ first :: rest, value.Parsed)
    (calm : ahead after ≠ .integer) :
    Values (Expr.tokensEach (first :: rest) ++ after) after
      ((first :: rest).map (Expr.relabel .reread)) := by
  induction rest generalizing first with
  | nil =>
      have only := parsed first List.mem_cons_self
      exact .last ((only.expression calm).loosen (by decide))
  | cons second rest inductionHypothesis =>
      obtain ⟨firstParsed, others⟩ := List.forall_mem_cons.mp parsed
      have further := inductionHypothesis second others
      have front :
          Expression 7
            (first.tokens ++ .fixed .comma ::
              (Expr.tokensEach (second :: rest) ++ after))
            (.fixed .comma :: (Expr.tokensEach (second :: rest) ++ after))
            (first.relabel .reread) :=
        firstParsed.expression (ahead_fixed_ne _ (by decide))
      have joined :=
        Values.more (front.loosen (by decide : 1 ≤ 7)) (Token.kind_fixed .comma) further
      simpa [Expr.tokensEach] using joined

theorem Grammar.Statements.ahead_ne_else
    {before : List Token}
    (derivation : Statements inBlock before after items)
    (noElse : ahead after ≠ .elseWord) :
    ahead before ≠ .elseWord := by
  cases derivation with
  | nil => exact noElse
  | cons item _ =>
      intro atElse
      exact item.begins.continues (by rw [atElse]; rfl)

/-- Behind a statement that ends in an expression there is no integer. -/
theorem Stmt.Apart.calm
    (apart : Stmt.Apart (item :: items))
    (parsed : Stmt.ParsedEach items)
    (calm : ahead after ≠ .integer)
    (open_ : item.endsInExpression = true) :
    ahead (Stmt.tokensEach items ++ after) ≠ .integer := by
  cases parsed with
  | nil => exact calm
  | @cons next rest parsed _ =>
      have separate := List.isChain_cons_cons.mp apart
      have other : next.isBareNumber = false := by
        rw [← Bool.not_eq_true]
        exact fun number => separate.1 ⟨open_, number⟩
      rw [Stmt.tokensEach, List.append_assoc]
      exact parsed.ahead_ne_integer other

mutual

theorem Stmt.Parsed.derivation
    {inBlock : Bool} {after : List Token} {item : Stmt}
    (apart : ∀ list ∈ item.lists, Stmt.Apart list)
    (outside : inBlock = false → item.isBareName = false)
    (calm : item.endsInExpression = true → ahead after ≠ .integer)
    (noElse : ahead after ≠ .elseWord) :
    item.Parsed →
    Statement inBlock (item.tokens ++ after) after (item.relabel .reread)
  | @Stmt.Parsed.expression token value parsed => by
      obtain ⟨first, rest, shape, _, name, _⟩ := parsed.first
      have derivation :=
        (parsed.expression (calm rfl)).loosen (by decide : 1 ≤ 7)
      have label : Relabelling.reread.expression token value = first := by
        show value.tokens.headD Token.endOfInput = first
        rw [shape, List.headD_cons]
      rw [Stmt.tokens, Stmt.relabel, label]
      rw [shape] at derivation ⊢
      -- Brackets are put around every operation, so that only a name on its own
      -- begins with one.
      refine .expression derivation fun outer isName => ?_
      have bare : value.isName = false := outside outer
      rw [name isName] at bare
      cases bare
  | .assign name _ parsed => by
      have derivation :=
        (parsed.expression (calm rfl)).loosen (by decide : 1 ≤ 7)
      exact .assign name (Token.kind_fixed .assign) derivation
  | .print values =>
      .print (Token.kind_fixed .printWord) (Expr.values _ _ values (calm rfl))
  | .ifThen condition first => by
      rw [Stmt.tokens, List.cons_append, List.append_assoc]
      exact .ifThen (Token.kind_fixed .ifWord) condition.condition
        (first.derivation apart) noElse
  | .ifElse condition first second => by
      rw [Stmt.lists, List.forall_mem_append] at apart
      rw [Stmt.tokens, List.cons_append, List.append_assoc, List.append_assoc]
      exact .ifElse (Token.kind_fixed .ifWord) condition.condition
        (first.derivation apart.1) (Token.kind_fixed .elseWord)
        (second.derivation apart.2)
  | .whileDo condition body => by
      rw [Stmt.tokens, List.cons_append, List.append_assoc]
      exact .whileDo (Token.kind_fixed .whileWord) condition.condition
        (body.derivation apart)

theorem Stmt.ParsedBlock.derivation
    {after : List Token} {item : Stmt}
    (apart : ∀ list ∈ item.lists, Stmt.Apart list) :
    item.ParsedBlock →
    Block (item.tokens ++ after) after (item.relabel .reread)
  | .block items => by
      obtain ⟨own, further⟩ := List.forall_mem_cons.mp apart
      rw [Stmt.tokens, List.cons_append, List.append_assoc]
      exact .closed (Token.kind_fixed .braceOpen)
        (items.derivations own further nofun nofun nofun) rfl

/-- Statements in a row are read again, if each ends where the next one begins. -/
theorem Stmt.ParsedEach.derivations
    {inBlock : Bool} {after : List Token} {items : List Stmt}
    (apart : Stmt.Apart items)
    (further : ∀ list ∈ Stmt.listsEach items, Stmt.Apart list)
    (outside : inBlock = false → ∀ item ∈ items, item.isBareName = false)
    (calm : ahead after ≠ .integer)
    (noElse : ahead after ≠ .elseWord) :
    Stmt.ParsedEach items →
    Statements inBlock (Stmt.tokensEach items ++ after) after
      (Stmt.relabelEach .reread items)
  | .nil => .nil
  | .cons item rest => by
      obtain ⟨own, others⟩ := List.forall_mem_append.mp further
      have behind :=
        rest.derivations apart.of_cons others
          (fun outer => (List.forall_mem_cons.mp (outside outer)).2) calm noElse
      rw [Stmt.tokensEach, List.append_assoc]
      refine .cons ?_ behind
      exact item.derivation own
        (fun outer => (List.forall_mem_cons.mp (outside outer)).1)
        (apart.calm rest calm) (behind.ahead_ne_else noElse)

end

end WhileLang
