import Mathlib.Data.Int.ModEq
import WhileLang.Proofs.Completion

/-!
Folding and the arithmetic of the integers. Main statement: sums, differences and products
of numbers of any size have the value of their exact result, folded once, and so has a
number that is put together again from its quotient and its remainder.
-/

namespace WhileLang

/-! ## Congruence -/

namespace Word

variable {first second number word : Int}

theorem wrap_modEq (number : Int) : wrap number ≡ number [ZMOD 2 ^ 32] := by
  unfold Int.ModEq wrap least count
  omega

/-- A number is folded to the one word that it is congruent to. -/
theorem eq_wrap_iff :
    word = wrap number ↔
      -2 ^ 31 ≤ word ∧ word ≤ 2 ^ 31 - 1 ∧ word ≡ number [ZMOD 2 ^ 32] := by
  have congruent := wrap_modEq number
  obtain ⟨lower, upper⟩ := wrap_inRange number
  unfold least at lower
  unfold greatest at upper
  constructor
  · rintro rfl
    exact ⟨lower, upper, congruent⟩
  · rintro ⟨above, below, same⟩
    have remainders : word % 2 ^ 32 = wrap number % 2 ^ 32 := same.trans congruent.symm
    omega

theorem wrap_congr
    (same : first ≡ second [ZMOD 2 ^ 32]) :
    wrap first = wrap second := by
  obtain ⟨lower, upper, congruent⟩ := eq_wrap_iff.mp (rfl : wrap first = wrap first)
  exact eq_wrap_iff.mpr ⟨lower, upper, congruent.trans same⟩

/-- A remainder is smaller than the divisor, and on the dividend's side of zero. -/
theorem exists_remainder
    (first : Int)
    (nonzero : second ≠ 0) :
    ∃ rest, remainder first second = .ok rest ∧
      rest.natAbs < second.natAbs ∧ (rest = 0 ∨ rest.sign = first.sign) := by
  refine ⟨first.tmod second, remainder_of_ne_zero nonzero, natAbs_tmod_lt nonzero, ?_⟩
  by_cases divides : second ∣ first
  · exact .inl (Int.tmod_eq_zero_of_dvd divides)
  · have side := Int.sign_tmod first second
    rw [if_neg divides] at side
    exact .inr side

example : remainder (-7) 2 = .ok (-1) := by decide

end Word

/-! ## The operators of a ring -/

namespace Operator

variable {operator : Operator} {operation : Int → Int → Int}
variable {left right leftNumber rightNumber : Int}

/-- What the operators of a ring do to the integers. -/
def ringOperation? : Operator → Option (Int → Int → Int)
  | .add => some (· + ·)
  | .sub => some (· - ·)
  | .mul => some (· * ·)
  | _ => none

theorem exists_ringOperation
    (ring : operator ∈ [.add, .sub, .mul]) :
    ∃ operation, operator.ringOperation? = some operation := by
  simp only [List.mem_cons, List.not_mem_nil, or_false] at ring
  rcases ring with rfl | rfl | rfl
  · exact ⟨_, rfl⟩
  · exact ⟨_, rfl⟩
  · exact ⟨_, rfl⟩

/-- Congruent operands have the same folded result. -/
theorem apply_of_modEq
    (ring : operator.ringOperation? = some operation)
    (leftSame : left ≡ leftNumber [ZMOD 2 ^ 32])
    (rightSame : right ≡ rightNumber [ZMOD 2 ^ 32]) :
    operator.apply left right = .ok (Word.wrap (operation leftNumber rightNumber)) := by
  cases operator with
  | add =>
      cases ring
      exact congrArg Except.ok (Word.wrap_congr (leftSame.add rightSame))
  | sub =>
      cases ring
      exact congrArg Except.ok (Word.wrap_congr (leftSame.sub rightSame))
  | mul =>
      cases ring
      exact congrArg Except.ok (Word.wrap_congr (leftSame.mul rightSame))
  | _ => cases ring

end Operator

namespace Expr

/-! ## Exact results -/

/-- The result of an expression when nothing in it is folded. There is none where a name
stands for no integer, or where an operator is not one of a ring. -/
def exactValue? (store : Store) : Expr → Option Int
  | .ident _ name =>
      match store.get? name with
      | some (.integer value) => some value
      | _ => none
  | .literal _ value => some value
  | .binary _ left operator right =>
      match operator.ringOperation?, left.exactValue? store, right.exactValue? store with
      | some operation, some leftNumber, some rightNumber =>
          some (operation leftNumber rightNumber)
      | _, _, _ => none
  | .foreign _ => none

/-- Sums, differences and products of literals, and of names that stand for integers. -/
inductive Polynomial (store : Store) : Expr → Prop
  | name {token : Token} {name : String} {value : Int} :
      store.get? name = some (.integer value) →
      Polynomial store (.ident token name)
  | literal (token : Token) (value : Int) :
      Polynomial store (.literal token value)
  | operation {token : Token} {left right : Expr} {operator : Operator} :
      operator ∈ [.add, .sub, .mul] →
      Polynomial store left →
      Polynomial store right →
      Polynomial store (.binary token left operator right)

/-- The value of an expression is congruent to a number. It need not be that number: some
of what it was computed from may have been folded. -/
def StandsFor (store : Store) (value : Expr) (number : Int) : Prop :=
  ∃ result, value.eval store = .ok result ∧ result ≡ number [ZMOD 2 ^ 32]

variable {store : Store} {token : Token} {value left right dividend divisor : Expr}
variable {operator : Operator} {operation : Int → Int → Int}
variable {number leftNumber rightNumber first second : Int}

theorem standsFor_of_eval
    (evaluated : value.eval store = .ok number) :
    value.StandsFor store number :=
  ⟨number, evaluated, rfl⟩

theorem standsFor_of_eval_wrap
    (evaluated : value.eval store = .ok (Word.wrap number)) :
    value.StandsFor store number :=
  ⟨Word.wrap number, evaluated, Word.wrap_modEq number⟩

/-- Whatever was folded on the two sides, the result is as if nothing had been. -/
theorem StandsFor.eval_binary
    (leftStands : left.StandsFor store leftNumber)
    (ring : operator.ringOperation? = some operation)
    (rightStands : right.StandsFor store rightNumber) :
    (binary token left operator right).eval store =
      .ok (Word.wrap (operation leftNumber rightNumber)) := by
  obtain ⟨leftResult, leftEval, leftSame⟩ := leftStands
  obtain ⟨rightResult, rightEval, rightSame⟩ := rightStands
  exact Expr.eval_binary leftEval rightEval
    (Operator.apply_of_modEq ring leftSame rightSame)

/-! ## Sums, differences and products -/

theorem exists_eval_binary
    (ring : operator ∈ [.add, .sub, .mul])
    (leftStands :
      ∃ number, left.exactValue? store = some number ∧ left.StandsFor store number)
    (rightStands :
      ∃ number, right.exactValue? store = some number ∧ right.StandsFor store number) :
    ∃ number, (binary token left operator right).exactValue? store = some number ∧
      (binary token left operator right).eval store = .ok (Word.wrap number) := by
  obtain ⟨operation, ring⟩ := Operator.exists_ringOperation ring
  obtain ⟨leftNumber, leftIs, leftStands⟩ := leftStands
  obtain ⟨rightNumber, rightIs, rightStands⟩ := rightStands
  refine ⟨operation leftNumber rightNumber, ?_, leftStands.eval_binary ring rightStands⟩
  rw [exactValue?, ring, leftIs, rightIs]

/-- A leaf is not folded, so that of any polynomial only congruence can be said. -/
theorem Polynomial.exists_standsFor
    (polynomial : value.Polynomial store) :
    ∃ number, value.exactValue? store = some number ∧ value.StandsFor store number := by
  induction polynomial with
  | @name _ _ number bound =>
      refine ⟨number, ?_, standsFor_of_eval (eval_ident bound)⟩
      rw [exactValue?, bound]
  | literal token number =>
      exact ⟨number, rfl, standsFor_of_eval (eval_literal token number)⟩
  | operation ring _ _ leftHypothesis rightHypothesis =>
      obtain ⟨number, is, evaluated⟩ :=
        exists_eval_binary ring leftHypothesis rightHypothesis
      exact ⟨number, is, standsFor_of_eval_wrap evaluated⟩

/-- An operation at the root folds what is left to fold. -/
theorem Polynomial.exists_eval
    (polynomial : (binary token left operator right).Polynomial store) :
    ∃ number, (binary token left operator right).exactValue? store = some number ∧
      (binary token left operator right).eval store = .ok (Word.wrap number) := by
  cases polynomial with
  | operation ring leftPolynomial rightPolynomial =>
      exact exists_eval_binary ring leftPolynomial.exists_standsFor
        rightPolynomial.exists_standsFor

/-! ## Quotients and remainders -/

/-- The quotient times the divisor, and the remainder: that is the dividend again, also
where the quotient or the product is no word. -/
theorem eval_quotient_and_remainder
    {plus star slash percent : Token}
    (dividendEval : dividend.eval store = .ok first)
    (divisorEval : divisor.eval store = .ok second)
    (nonzero : second ≠ 0) :
    (binary plus
        (binary star (binary slash dividend .div divisor) .mul divisor) .add
        (binary percent dividend .mod divisor)).eval store =
      .ok (Word.wrap first) := by
  have quotient :
      (binary slash dividend .div divisor).StandsFor store (first.tdiv second) :=
    standsFor_of_eval_wrap
      (eval_binary dividendEval divisorEval (Operator.apply_div nonzero))
  have product :
      (binary star (binary slash dividend .div divisor) .mul divisor).StandsFor store
        (first.tdiv second * second) :=
    standsFor_of_eval_wrap (quotient.eval_binary rfl (standsFor_of_eval divisorEval))
  have remainder :
      (binary percent dividend .mod divisor).StandsFor store (first.tmod second) :=
    standsFor_of_eval_wrap
      (eval_binary dividendEval divisorEval (Operator.apply_mod nonzero))
  rw [product.eval_binary rfl remainder, Int.tdiv_mul_add_tmod]

/-- Folding at each operation is not seen in the end. An expression of sums, differences
and products with at least one operation, over numbers of any size, has its exact result
folded once for its value, which is the one word that is congruent to the exact result. A
dividend put together again from its quotient and its remainder by a divisor other than
zero is the dividend, folded once; and the remainder is smaller than the divisor, and is
zero or has the sign of the dividend. -/
theorem eval_folds_once (store : Store) :
    (∀ (token : Token) (left right : Expr) (operator : Operator),
      (binary token left operator right).Polynomial store →
        ∃ number, (binary token left operator right).exactValue? store = some number ∧
          (binary token left operator right).eval store = .ok (Word.wrap number)) ∧
    (∀ number word : Int,
      word = Word.wrap number ↔
        -2 ^ 31 ≤ word ∧ word ≤ 2 ^ 31 - 1 ∧ word ≡ number [ZMOD 2 ^ 32]) ∧
    (∀ (plus star slash percent : Token) (dividend divisor : Expr) (first second : Int),
      dividend.eval store = .ok first →
      divisor.eval store = .ok second →
      second ≠ 0 →
        (binary plus
            (binary star (binary slash dividend .div divisor) .mul divisor) .add
            (binary percent dividend .mod divisor)).eval store =
          .ok (Word.wrap first)) ∧
    (∀ first second : Int,
      second ≠ 0 →
        ∃ rest, Word.remainder first second = .ok rest ∧
          rest.natAbs < second.natAbs ∧ (rest = 0 ∨ rest.sign = first.sign)) := by
  refine ⟨?_, ?_, ?_, ?_⟩
  · intro token left right operator polynomial
    exact polynomial.exists_eval
  · intro number word
    exact Word.eq_wrap_iff
  · intro plus star slash percent dividend divisor first second dividendEval divisorEval
      nonzero
    exact eval_quotient_and_remainder dividendEval divisorEval nonzero
  · intro first second nonzero
    exact Word.exists_remainder first nonzero

/-- Numbers far outside the words: a square less a number, a dividend put together again,
and a remainder. -/
theorem eval_folds_once_of_large :
    (binary ⟨.minus, "-"⟩
        (binary ⟨.star, "*"⟩ (ident ⟨.identifier, "x"⟩ "x") .mul
          (ident ⟨.identifier, "x"⟩ "x")) .sub
        (literal ⟨.integer, "4294967295"⟩ 4294967295)).eval
        (Store.ofList [("x", .integer (2 ^ 40 + 3))]) = .ok 10 ∧
      (binary ⟨.plus, "+"⟩
          (binary ⟨.star, "*"⟩
            (binary ⟨.slash, "/"⟩ (ident ⟨.identifier, "x"⟩ "x") .div
              (literal ⟨.integer, "7"⟩ 7)) .mul
            (literal ⟨.integer, "7"⟩ 7)) .add
          (binary ⟨.percent, "%"⟩ (ident ⟨.identifier, "x"⟩ "x") .mod
            (literal ⟨.integer, "7"⟩ 7))).eval
          (Store.ofList [("x", .integer (2 ^ 40 + 3))]) = .ok 3 ∧
      ∃ rest, Word.remainder (-2 ^ 40) 7 = .ok rest ∧ rest.natAbs < 7 ∧
        (rest = 0 ∨ rest.sign = -1) := by
  have bound :
      (Store.ofList [("x", .integer (2 ^ 40 + 3))]).get? "x" =
        some (.integer (2 ^ 40 + 3)) := by
    decide
  obtain ⟨folded, _, division, remainders⟩ :=
    eval_folds_once (Store.ofList [("x", .integer (2 ^ 40 + 3))])
  have root :
      (ident ⟨.identifier, "x"⟩ "x").Polynomial
        (Store.ofList [("x", .integer (2 ^ 40 + 3))]) :=
    .name bound
  have square := @Polynomial.operation _ ⟨.star, "*"⟩ _ _ .mul (by decide) root root
  have difference :=
    @Polynomial.operation _ ⟨.minus, "-"⟩ _ _ .sub (by decide) square
      (.literal ⟨.integer, "4294967295"⟩ 4294967295)
  obtain ⟨number, is, evaluated⟩ := folded _ _ _ _ difference
  cases is
  refine ⟨evaluated.trans (by decide), ?_, remainders _ _ (by decide)⟩
  exact (division _ _ _ _ _ _ _ _ (eval_ident bound) (eval_literal _ _) (by decide)).trans
    (by decide)

end Expr

end WhileLang
