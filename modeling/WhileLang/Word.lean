/-!
Words: the integers from `-2 ^ 31` to `2 ^ 31 - 1`, kept as unbounded integers
that arithmetic folds back into that range. Main statements: folding lands in
the range, and leaves a word as it is; quotients are rounded toward zero, and
remainders are what they leave.
-/

namespace WhileLang.Word

/-- Number of different words. -/
def count : Nat := 4294967296

/-- The smallest word. -/
def least : Int := -2147483648

/-- The largest word. -/
def greatest : Int := 2147483647

/-- An integer that is a word. -/
def InRange (value : Int) : Prop :=
  least ≤ value ∧ value ≤ greatest

instance : DecidablePred InRange :=
  fun value => inferInstanceAs (Decidable (least ≤ value ∧ value ≤ greatest))

/-- The word that differs from `value` by a multiple of `count`. -/
def wrap (value : Int) : Int :=
  (value - least) % count + least

/-- The word that stands for a truth value. -/
def ofBool (truth : Bool) : Int :=
  if truth then 1 else 0

/-- Exactly one is true; every other integer, two included, is false. -/
def isTrue (value : Int) : Bool :=
  value == 1

/-- The one way an integer division fails. -/
inductive DivisionFault where
  | zeroDivisor
deriving DecidableEq, Repr

/-- Wording of a failed division. -/
def DivisionFault.message : DivisionFault → String
  | .zeroDivisor => "integer division or modulo by zero"

/-- The quotient of the magnitudes, negated where just one of the two numbers is
negative. -/
def signedQuotient (dividend divisor : Int) : Int :=
  let magnitude : Int := dividend.natAbs / divisor.natAbs
  if dividend < 0 ↔ divisor < 0 then magnitude else -magnitude

/-- The quotient, rounded toward zero. -/
def quotient (dividend divisor : Int) : Except DivisionFault Int :=
  if divisor = 0 then .error .zeroDivisor else .ok (signedQuotient dividend divisor)

/-- What the rounded quotient leaves; it is zero or has the dividend's sign. -/
def remainder (dividend divisor : Int) : Except DivisionFault Int :=
  match quotient dividend divisor with
  | .ok quotient => .ok (dividend - divisor * quotient)
  | .error fault => .error fault

theorem wrap_inRange (value : Int) : InRange (wrap value) := by
  unfold InRange wrap least greatest count
  omega

theorem wrap_of_inRange
    {value : Int}
    (within : InRange value) :
    wrap value = value := by
  unfold InRange least greatest at within
  unfold wrap least count
  omega

/-- Folding is the remainder that is balanced around zero. -/
theorem wrap_eq_bmod (value : Int) : wrap value = value.bmod count := by
  have lower := Int.le_bmod (x := value) (m := count) (by decide)
  have upper := Int.bmod_lt (x := value) (m := count) (by decide)
  have congruent := Int.bmod_emod (x := value) (m := count)
  unfold wrap least
  unfold count at *
  omega

theorem signedQuotient_eq_tdiv (dividend divisor : Int) :
    signedQuotient dividend divisor = dividend.tdiv divisor := by
  unfold signedQuotient
  dsimp only
  by_cases negative : dividend < 0 <;> by_cases negativeDivisor : divisor < 0
  · rw [if_pos (by simp [negative, negativeDivisor]),
      Int.ofNat_natAbs_of_nonpos (by omega), Int.ofNat_natAbs_of_nonpos (by omega),
      ← Int.tdiv_eq_ediv_of_nonneg (by omega), Int.neg_tdiv_neg]
  · rw [if_neg (by simp [negative, negativeDivisor]),
      Int.ofNat_natAbs_of_nonpos (by omega), Int.natAbs_of_nonneg (by omega),
      ← Int.tdiv_eq_ediv_of_nonneg (by omega), Int.neg_tdiv, Int.neg_neg]
  · rw [if_neg (by simp [negative, negativeDivisor]),
      Int.natAbs_of_nonneg (by omega), Int.ofNat_natAbs_of_nonpos (by omega),
      ← Int.tdiv_eq_ediv_of_nonneg (by omega), Int.tdiv_neg, Int.neg_neg]
  · rw [if_pos (by simp [negative, negativeDivisor]),
      Int.natAbs_of_nonneg (by omega), Int.natAbs_of_nonneg (by omega),
      ← Int.tdiv_eq_ediv_of_nonneg (by omega)]

theorem quotient_of_ne_zero
    {dividend divisor : Int}
    (nonzero : divisor ≠ 0) :
    quotient dividend divisor = .ok (dividend.tdiv divisor) := by
  rw [quotient, if_neg nonzero, signedQuotient_eq_tdiv]

theorem remainder_of_ne_zero
    {dividend divisor : Int}
    (nonzero : divisor ≠ 0) :
    remainder dividend divisor = .ok (dividend.tmod divisor) := by
  rw [remainder, quotient_of_ne_zero nonzero, Int.tmod_def]

theorem natAbs_tmod_lt
    {dividend divisor : Int}
    (nonzero : divisor ≠ 0) :
    (dividend.tmod divisor).natAbs < divisor.natAbs := by
  rw [Int.natAbs_tmod]
  exact Nat.mod_lt _ (Int.natAbs_pos.mpr nonzero)

theorem ofBool_inRange (truth : Bool) : InRange (ofBool truth) := by
  cases truth <;> decide

end WhileLang.Word
