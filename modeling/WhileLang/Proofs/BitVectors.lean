import WhileLang.Proofs.Safety

/-!
Expressions on a machine with 32-bit registers in two's complement. Main statement: on a
store of words an expression has the value that the machine computes from the same
registers, and fails exactly where the machine is stopped.
-/

namespace WhileLang

/-! ## The machine -/

/-- The bits that stand for a truth value. -/
def Word.bitsOfBool (truth : Bool) : BitVec 32 :=
  if truth then 1#32 else 0#32

/-- What the machine makes of two operands. Division and comparison are signed; an
operand of a connective is true if it is one. -/
def Operator.applyBits :
    Operator → BitVec 32 → BitVec 32 → Except Failure (BitVec 32)
  | .add, left, right => .ok (left + right)
  | .sub, left, right => .ok (left - right)
  | .mul, left, right => .ok (left * right)
  | .div, left, right =>
      if right = 0#32 then .error (.fault .divisionByZero) else .ok (left.sdiv right)
  | .mod, left, right =>
      if right = 0#32 then .error (.fault .moduloByZero) else .ok (left.srem right)
  | .lt, left, right => .ok (Word.bitsOfBool (left.slt right))
  | .gt, left, right => .ok (Word.bitsOfBool (right.slt left))
  | .le, left, right => .ok (Word.bitsOfBool (left.sle right))
  | .ge, left, right => .ok (Word.bitsOfBool (right.sle left))
  | .eq, left, right => .ok (Word.bitsOfBool (left == right))
  | .ne, left, right => .ok (Word.bitsOfBool (left != right))
  | .and, left, right => .ok (Word.bitsOfBool (left == 1#32 && right == 1#32))
  | .or, left, right => .ok (Word.bitsOfBool (left == 1#32 || right == 1#32))
  | .unknown name, _, _ => .error (.misfit (.operator name))

/-- The value of an expression in the registers of the machine, each of which has a
name. -/
def Expr.evalBits (registers : String → Option (BitVec 32)) :
    Expr → Except Failure (BitVec 32)
  | .ident _ name =>
      match registers name with
      | some bits => .ok bits
      | none => .error (.fault (.unknownName name))
  | .literal _ value => .ok (BitVec.ofInt 32 value)
  | .binary _ left operator right =>
      match left.evalBits registers with
      | .error failure => .error failure
      | .ok leftBits =>
          match right.evalBits registers with
          | .error failure => .error failure
          | .ok rightBits => operator.applyBits leftBits rightBits
  | .foreign rendering => .error (.misfit (.expression rendering))

/-- The registers that hold what a store does. -/
def Store.registers (store : Store) (name : String) : Option (BitVec 32) :=
  match store.get? name with
  | some (.integer value) => some (BitVec.ofInt 32 value)
  | _ => none

/-- Why the machine is stopped, at an expression with some names: a divisor is zero, or
there is no register of a name. -/
inductive Failure.Stops
    (registers : String → Option (BitVec 32)) (names : List String) :
    Failure → Prop
  | divisionByZero : Stops registers names (.fault .divisionByZero)
  | moduloByZero : Stops registers names (.fault .moduloByZero)
  | noRegister {name : String} :
      name ∈ names →
      registers name = none →
      Stops registers names (.fault (.unknownName name))

/-! ## Words as bits -/

theorem Word.toInt_bitsOfBool (truth : Bool) :
    (Word.bitsOfBool truth).toInt = Word.ofBool truth := by
  cases truth <;> decide

theorem Word.toInt_ofInt
    {value : Int}
    (inRange : Word.InRange value) :
    (BitVec.ofInt 32 value).toInt = value := by
  rw [BitVec.toInt_ofInt]
  exact (Word.wrap_eq_bmod value).symm.trans (Word.wrap_of_inRange inRange)

theorem Word.toInt_inRange (bits : BitVec 32) : Word.InRange bits.toInt := by
  have lower := BitVec.le_toInt bits
  have upper := BitVec.toInt_lt (x := bits)
  unfold Word.InRange Word.least Word.greatest
  omega

theorem Word.beq_eq_toInt (left right : BitVec 32) :
    (left == right) = decide (left.toInt = right.toInt) := by
  rw [Bool.eq_iff_iff, beq_iff_eq, decide_eq_true_iff, BitVec.toInt_inj]

theorem Word.isTrue_toInt (bits : BitVec 32) :
    Word.isTrue bits.toInt = (bits == 1#32) := by
  rw [Word.beq_eq_toInt, Word.isTrue, BitVec.toInt_one (by decide)]
  rfl

theorem Word.toInt_ne_zero
    {bits : BitVec 32}
    (nonzero : bits ≠ 0#32) :
    bits.toInt ≠ 0 :=
  fun zero => nonzero (BitVec.toInt_inj.mp zero)

/-! ## The operators -/

/-- On words an operator does what the machine does. Only the sum, the difference, the
product and the quotient can leave the words and are folded back, the quotient at one
place: the least word divided by minus one. -/
theorem Operator.apply_toInt (operator : Operator) (left right : BitVec 32) :
    operator.apply left.toInt right.toInt =
      (operator.applyBits left right).map BitVec.toInt := by
  cases operator with
  | add =>
      have folded := Word.wrap_eq_bmod (left.toInt + right.toInt)
      exact congrArg Except.ok (folded.trans (BitVec.toInt_add left right).symm)
  | sub =>
      have folded := Word.wrap_eq_bmod (left.toInt - right.toInt)
      exact congrArg Except.ok (folded.trans BitVec.toInt_sub.symm)
  | mul =>
      have folded := Word.wrap_eq_bmod (left.toInt * right.toInt)
      exact congrArg Except.ok (folded.trans (BitVec.toInt_mul left right).symm)
  | div =>
      rw [Operator.applyBits]
      by_cases zero : right = 0#32
      · subst zero
        rfl
      · have folded := Word.wrap_eq_bmod (left.toInt.tdiv right.toInt)
        rw [if_neg zero, Operator.apply_div (Word.toInt_ne_zero zero)]
        exact congrArg Except.ok (folded.trans (BitVec.toInt_sdiv left right).symm)
  | mod =>
      rw [Operator.applyBits]
      by_cases zero : right = 0#32
      · subst zero
        rfl
      · rw [if_neg zero, Operator.apply_mod (Word.toInt_ne_zero zero),
          ← BitVec.toInt_srem]
        exact congrArg Except.ok (Word.wrap_of_inRange (Word.toInt_inRange _))
  | lt | gt | le | ge =>
      exact congrArg Except.ok (Word.toInt_bitsOfBool _).symm
  | eq =>
      rw [Operator.applyBits, Word.beq_eq_toInt]
      exact congrArg Except.ok (Word.toInt_bitsOfBool _).symm
  | ne =>
      rw [Operator.apply, Operator.applyBits, bne, Word.beq_eq_toInt, ← decide_not]
      exact congrArg Except.ok (Word.toInt_bitsOfBool _).symm
  | and | or =>
      rw [Operator.apply, Word.isTrue_toInt, Word.isTrue_toInt]
      exact congrArg Except.ok (Word.toInt_bitsOfBool _).symm
  | unknown name => rfl

example : Operator.div.apply Word.least (-1) = .ok Word.least := by decide

example : Operator.mod.apply Word.least (-1) = .ok 0 := by decide

/-! ## Refinement -/

variable {store : Store} {registers : String → Option (BitVec 32)}

theorem Store.Bounded.fetchInteger_eq
    (bounded : store.Bounded)
    (name : String) :
    store.fetchInteger name =
      match store.registers name with
      | some bits => .ok bits.toInt
      | none => .error (.fault (.unknownName name)) := by
  unfold Store.fetchInteger Store.fetch Store.registers
  cases found : store.get? name with
  | none => rfl
  | some value =>
      obtain ⟨word, rfl, inRange⟩ := bounded name value found
      dsimp only
      rw [Word.toInt_ofInt inRange]

theorem Operator.stops_of_applyBits
    {kind : Token.Kind} {operator : Operator} {left right : BitVec 32}
    {names : List String} {failure : Failure}
    (signed : Operator.ofKind? kind = some operator)
    (stopped : operator.applyBits left right = .error failure) :
    failure.Stops registers names := by
  cases operator with
  | div =>
      rw [Operator.applyBits] at stopped
      split at stopped
      · cases stopped
        exact .divisionByZero
      · cases stopped
  | mod =>
      rw [Operator.applyBits] at stopped
      split at stopped
      · cases stopped
        exact .moduloByZero
      · cases stopped
  | unknown name => cases kind <;> cases signed
  | _ => cases stopped

theorem Failure.Stops.of_subset
    {names others : List String} {failure : Failure}
    (stops : failure.Stops registers names)
    (subset : names ⊆ others) :
    failure.Stops registers others := by
  cases stops with
  | divisionByZero => exact .divisionByZero
  | moduloByZero => exact .moduloByZero
  | noRegister member absent => exact .noRegister (subset member) absent

/-- An expression that a parser builds stops the machine for no other reason. -/
theorem Expr.stops_of_evalBits
    {value : Expr} {failure : Failure}
    (parsed : value.Parsed)
    (stopped : value.evalBits registers = .error failure) :
    failure.Stops registers value.names := by
  induction parsed generalizing failure with
  | @name token _ _ =>
      rw [Expr.evalBits] at stopped
      split at stopped
      · cases stopped
      · rename_i absent
        cases stopped
        exact .noRegister List.mem_cons_self absent
  | literal _ => cases stopped
  | @operation sign left right operator signed _ _ _ leftHypothesis rightHypothesis =>
      rw [Expr.evalBits] at stopped
      split at stopped
      · rename_i atLeft
        cases stopped
        exact (leftHypothesis atLeft).of_subset (List.subset_append_left _ _)
      · split at stopped
        · rename_i atRight
          cases stopped
          exact (rightHypothesis atRight).of_subset (List.subset_append_right _ _)
        · exact Operator.stops_of_applyBits signed stopped

theorem Expr.eval_eq_map_evalBits
    {value : Expr}
    (bounded : store.Bounded)
    (parsed : value.Parsed) :
    value.eval store = (value.evalBits store.registers).map BitVec.toInt := by
  induction parsed with
  | name _ _ =>
      rw [Expr.eval, Expr.evalBits, bounded.fetchInteger_eq]
      split <;> rfl
  | literal literal => exact congrArg Except.ok (Word.toInt_ofInt literal.inRange).symm
  | @operation sign left right operator _ _ _ _ leftHypothesis rightHypothesis =>
      rw [Expr.eval, Expr.evalBits, leftHypothesis, rightHypothesis]
      cases left.evalBits store.registers with
      | error failure => rfl
      | ok leftBits =>
          cases right.evalBits store.registers with
          | error failure => rfl
          | ok rightBits => exact operator.apply_toInt leftBits rightBits

/-- On a store of words, the value of an expression that a parser builds is the one that
the machine computes from registers with the same contents, read as a signed number. The
expression fails where the machine is stopped, and in the same way: at a divisor that is
zero, or at a name that nothing is bound to. -/
theorem Expr.eval_refines_bits
    {value : Expr}
    (bounded : store.Bounded)
    (parsed : value.Parsed) :
    value.eval store = (value.evalBits store.registers).map BitVec.toInt ∧
      ∀ failure,
        value.eval store = .error failure ↔
          value.evalBits store.registers = .error failure ∧
            failure.Stops store.registers value.names := by
  have same := Expr.eval_eq_map_evalBits bounded parsed
  refine ⟨same, fun failure => ?_⟩
  rw [same]
  constructor
  · intro failed
    have stopped : value.evalBits store.registers = .error failure := by
      cases computed : value.evalBits store.registers with
      | error _ =>
          rw [computed] at failed
          cases failed
          rfl
      | ok _ =>
          rw [computed] at failed
          cases failed
    exact ⟨stopped, Expr.stops_of_evalBits parsed stopped⟩
  · rintro ⟨stopped, _⟩
    rw [stopped]
    rfl

/-- The least word divided by minus one, where the quotient is no word. -/
theorem Expr.eval_least_quotient :
    (Expr.binary ⟨.slash, "/"⟩ (.ident ⟨.identifier, "x"⟩ "x") .div
        (.binary ⟨.minus, "-"⟩ (.literal ⟨.integer, "0"⟩ 0) .sub
          (.literal ⟨.integer, "1"⟩ 1))).eval
      (Store.empty.set "x" (.integer Word.least)) = .ok Word.least := by
  have bounded : (Store.empty.set "x" (.integer Word.least)).Bounded :=
    Store.Bounded.empty.set "x" (by decide)
  have name : (Expr.ident ⟨.identifier, "x"⟩ "x").Parsed :=
    .name rfl (by unfold Token.Spelled; decide +kernel)
  have zero : (Expr.literal ⟨.integer, "0"⟩ 0).Parsed :=
    .literal ⟨rfl, by decide, by decide, by decide, by decide, by decide⟩
  have one : (Expr.literal ⟨.integer, "1"⟩ 1).Parsed :=
    .literal ⟨rfl, by decide, by decide, by decide, by decide, by decide⟩
  have slash : (Token.mk .slash "/").Spelled := by unfold Token.Spelled; decide +kernel
  have minus : (Token.mk .minus "-").Spelled := by unfold Token.Spelled; decide +kernel
  have divisor := @Expr.Parsed.operation _ _ _ .sub rfl minus zero one
  have parsed := @Expr.Parsed.operation _ _ _ .div rfl slash name divisor
  exact (Expr.eval_refines_bits bounded parsed).1.trans (by decide +kernel)

end WhileLang
