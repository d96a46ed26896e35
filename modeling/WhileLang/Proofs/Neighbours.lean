import Mathlib.Data.List.Chain
import WhileLang.Proofs.Grammar

/-!
Neighbouring tokens. Main statement: where statements are derived, no integer stands
directly behind the end of an operand, so that no statement that ends in an
expression has one behind it.
-/

namespace WhileLang.Grammar

/-- Tokens none of which is an integer directly behind the end of an operand. -/
def Spaced (tokens : List Token) : Prop :=
  tokens.IsChain fun token next =>
    ¬ (EndsOperand token.kind ∧ next.kind = .integer)

variable {first : Token} {before after rest : List Token}

theorem Spaced.cons
    (spaced : Spaced rest)
    (calm : EndsOperand first.kind → ahead rest ≠ .integer) :
    Spaced (first :: rest) := by
  cases rest with
  | nil => exact .singleton first
  | cons second others =>
      refine List.isChain_cons_cons.mpr ⟨?_, spaced⟩
      exact fun ⟨ends, integer⟩ => calm ends integer

theorem Spaced.cons_of_kind
    {kind : Token.Kind}
    (spaced : Spaced rest)
    (isKind : first.kind = kind)
    (inner : ¬ EndsOperand kind) :
    Spaced (first :: rest) := by
  refine spaced.cons fun ends => ?_
  rw [isKind] at ends
  exact absurd ends inner

theorem Spaced.tail (spaced : Spaced (first :: rest)) : Spaced rest :=
  List.IsChain.of_cons spaced

theorem Spaced.left (spaced : Spaced (before ++ after)) : Spaced before :=
  List.IsChain.left_of_append spaced

theorem Spaced.right (spaced : Spaced (before ++ after)) : Spaced after :=
  List.IsChain.right_of_append spaced

theorem Spaced.calm
    (spaced : Spaced (first :: rest))
    (ends : EndsOperand first.kind) :
    ahead rest ≠ .integer := by
  cases rest with
  | nil => nofun
  | cons second others =>
      intro integer
      exact (List.isChain_cons_cons.mp spaced).1 ⟨ends, integer⟩

theorem not_endsOperand_of_operator
    {kind : Token.Kind} {operator : Operator}
    (spelled : Operator.ofKind? kind = some operator) :
    ¬ EndsOperand kind := by
  rintro (rfl | rfl | rfl) <;> cases spelled

/-! ## Expressions -/

theorem Expression.spaced
    {level : Nat} {value : Expr}
    (derivation : Expression level before after value)
    (spaced : Spaced after) :
    Spaced before := by
  induction derivation with
  | name _ _ calm => exact spaced.cons fun _ => calm
  | literal _ _ calm => exact spaced.cons fun _ => calm
  | brackets _ opening _ _ calm inductionHypothesis =>
      have inner := inductionHypothesis (spaced.cons fun _ => calm)
      exact inner.cons_of_kind opening (by decide)
  | tighter _ _ inductionHypothesis => exact inductionHypothesis spaced
  | operation member _ _ leftHypothesis rightHypothesis =>
      have signed := ((mem_operators_iff _ _ _).mp member).1
      have behind := rightHypothesis spaced
      exact leftHypothesis
        (behind.cons_of_kind rfl (not_endsOperand_of_operator signed))

theorem Condition.spaced
    {truth : Expr}
    (derivation : Condition before after truth)
    (calm : ahead after ≠ .integer)
    (spaced : Spaced after) :
    Spaced before := by
  cases derivation with
  | brackets opening inner _ =>
      have inside := inner.spaced (spaced.cons fun _ => calm)
      exact inside.cons_of_kind opening (by decide)

theorem Values.spaced
    {values : List Expr}
    (derivation : Values before after values)
    (spaced : Spaced after) :
    Spaced before := by
  induction derivation with
  | last value => exact value.spaced spaced
  | more value comma _ inductionHypothesis =>
      have behind := inductionHypothesis spaced
      exact value.spaced (behind.cons_of_kind comma (by decide))

/-! ## Statements -/

theorem Block.calm
    {item : Stmt}
    (derivation : Block before after item) :
    ahead before ≠ .integer := by
  cases derivation with
  | closed opening _ _ =>
      intro integer
      exact absurd (opening.symm.trans integer) (by decide)
  | left opening _ _ =>
      intro integer
      exact absurd (opening.symm.trans integer) (by decide)

mutual

theorem Statement.spaced
    {inBlock : Bool} {before after : List Token} {item : Stmt}
    (spaced : Spaced after) :
    Statement inBlock before after item → Spaced before
  | .expression value _ => value.spaced spaced
  | .assign _ sign value => by
      have behind := (value.spaced spaced).cons_of_kind sign (by decide)
      refine behind.cons fun _ integer => ?_
      exact absurd (sign.symm.trans integer) (by decide)
  | .print word values => (values.spaced spaced).cons_of_kind word (by decide)
  | .ifThen word condition first _ => by
      have inside := condition.spaced first.calm (first.spaced spaced)
      exact inside.cons_of_kind word (by decide)
  | .ifElse word condition first other second => by
      have further := (second.spaced spaced).cons_of_kind other (by decide)
      have inside := condition.spaced first.calm (first.spaced further)
      exact inside.cons_of_kind word (by decide)
  | .whileDo word condition body => by
      have inside := condition.spaced body.calm (body.spaced spaced)
      exact inside.cons_of_kind word (by decide)

theorem Block.spaced
    {before after : List Token} {item : Stmt}
    (spaced : Spaced after) :
    Block before after item → Spaced before
  | .closed opening items closing => by
      have inside := items.spaced (spaced.cons_of_kind closing (by decide))
      exact inside.cons_of_kind opening (by decide)
  | .left opening items _ => (items.spaced spaced).cons_of_kind opening (by decide)

/-- An integer behind the end of an operand is no part of a derivation. -/
theorem Statements.spaced
    {inBlock : Bool} {before after : List Token} {items : List Stmt}
    (spaced : Spaced after) :
    Statements inBlock before after items → Spaced before
  | .nil => spaced
  | .cons item others => item.spaced (others.spaced spaced)

end

end WhileLang.Grammar
