import WhileLang.Expr
import WhileLang.Failure
import WhileLang.Store
import WhileLang.Word

/-!
Values of expressions. An operation evaluates its left side, then its right
side, then applies the operator; no operator skips a side. Main statements: a
division fails where the divisor is zero, as a fault of the program, and nowhere
else; and what an operator gives is a word.
-/

namespace WhileLang

/-- Divides by a divisor that is looked at first: if it is zero, that is a fault of
the program, and nothing is divided. -/
def Operator.divide
    (fault : Fault) (division : Int → Int → Except Word.DivisionFault Int)
    (dividend divisor : Int) : Except Failure Int :=
  if divisor = 0 then
    .error (.fault fault)
  else
    match division dividend divisor with
    | .ok result => .ok (Word.wrap result)
    | .error failed => .error (.division failed)

/-- Applies an operator. Arithmetic folds its result into the words; comparisons
and connectives give one or zero. -/
def Operator.apply : Operator → Int → Int → Except Failure Int
  | .add, left, right => .ok (Word.wrap (left + right))
  | .sub, left, right => .ok (Word.wrap (left - right))
  | .mul, left, right => .ok (Word.wrap (left * right))
  | .div, left, right => divide .divisionByZero Word.quotient left right
  | .mod, left, right => divide .moduloByZero Word.remainder left right
  | .lt, left, right => .ok (Word.ofBool (left < right))
  | .gt, left, right => .ok (Word.ofBool (left > right))
  | .le, left, right => .ok (Word.ofBool (left ≤ right))
  | .ge, left, right => .ok (Word.ofBool (left ≥ right))
  | .eq, left, right => .ok (Word.ofBool (left = right))
  | .ne, left, right => .ok (Word.ofBool (left ≠ right))
  | .and, left, right => .ok (Word.ofBool (Word.isTrue left && Word.isTrue right))
  | .or, left, right => .ok (Word.ofBool (Word.isTrue left || Word.isTrue right))
  | .unknown name, _, _ => .error (.misfit (.operator name))

/-- Looks a name up. -/
def Store.fetch (store : Store) (name : String) : Except Fault Value :=
  match store.get? name with
  | some value => .ok value
  | none => .error (.unknownName name)

/-- Looks up a name that is to stand for an integer. -/
def Store.fetchInteger (store : Store) (name : String) : Except Failure Int :=
  match store.fetch name with
  | .ok (.integer value) => .ok value
  | .ok (.other typeName) => .error (.misfit (.value name typeName))
  | .error fault => .error (.fault fault)

/-- The value of an expression. -/
def Expr.eval (store : Store) : Expr → Except Failure Int
  | .ident _ name => store.fetchInteger name
  | .literal _ value => .ok value
  | .binary _ left operator right =>
      match left.eval store with
      | .error failure => .error failure
      | .ok leftValue =>
          match right.eval store with
          | .error failure => .error failure
          | .ok rightValue => operator.apply leftValue rightValue
  | .foreign rendering => .error (.misfit (.expression rendering))

theorem Operator.divide_zero
    (fault : Fault) (division : Int → Int → Except Word.DivisionFault Int)
    (dividend : Int) :
    divide fault division dividend 0 = .error (.fault fault) :=
  if_pos rfl

theorem Operator.divide_of_ne_zero
    {fault : Fault} {division : Int → Int → Except Word.DivisionFault Int}
    {dividend divisor result : Int}
    (nonzero : divisor ≠ 0)
    (divides : division dividend divisor = .ok result) :
    divide fault division dividend divisor = .ok (Word.wrap result) := by
  rw [divide, if_neg nonzero, divides]

theorem Operator.apply_div_zero (dividend : Int) :
    Operator.div.apply dividend 0 = .error (.fault .divisionByZero) :=
  divide_zero .divisionByZero Word.quotient dividend

theorem Operator.apply_mod_zero (dividend : Int) :
    Operator.mod.apply dividend 0 = .error (.fault .moduloByZero) :=
  divide_zero .moduloByZero Word.remainder dividend

theorem Operator.apply_div
    {dividend divisor : Int}
    (nonzero : divisor ≠ 0) :
    Operator.div.apply dividend divisor = .ok (Word.wrap (dividend.tdiv divisor)) :=
  divide_of_ne_zero nonzero (Word.quotient_of_ne_zero nonzero)

theorem Operator.apply_mod
    {dividend divisor : Int}
    (nonzero : divisor ≠ 0) :
    Operator.mod.apply dividend divisor = .ok (Word.wrap (dividend.tmod divisor)) :=
  divide_of_ne_zero nonzero (Word.remainder_of_ne_zero nonzero)

theorem Operator.inRange_of_apply
    {operator : Operator} {left right value : Int}
    (applied : operator.apply left right = .ok value) :
    Word.InRange value := by
  cases operator <;> simp only [Operator.apply] at applied
  case div | mod =>
    rw [divide] at applied
    split at applied
    · cases applied
    · split at applied
      · cases applied
        exact Word.wrap_inRange _
      · cases applied
  case unknown => cases applied
  case add | sub | mul =>
    cases applied
    exact Word.wrap_inRange _
  all_goals
    cases applied
    exact Word.ofBool_inRange _

end WhileLang
