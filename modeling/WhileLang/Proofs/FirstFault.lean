import WhileLang.Proofs.Tree
import WhileLang.Expr.Eval

/-!
Which fault an expression has. The nodes of an expression are its operands and
operations, each operation behind its two sides. Main statement: an expression that a
parser builds has a value exactly if its names are bound and no divisor is zero;
otherwise it fails with what is wrong at the first node at which something is, and no
connective keeps a node from being looked at.
-/

namespace WhileLang

/-- A store in which names stand for integers alone. -/
def Store.Integral (store : Store) : Prop :=
  ∀ name value, store.get? name = some value → ∃ number, value = .integer number

namespace Expr

/-! ## Nodes -/

/-- The nodes of an expression: those of the left side, those of the right side, and
the operation on them. -/
def postorder : Expr → List Expr
  | .ident token name => [.ident token name]
  | .literal token value => [.literal token value]
  | .binary token left operator right =>
      left.postorder ++ (right.postorder ++ [.binary token left operator right])
  | .foreign rendering => [.foreign rendering]

/-- What a node divides by. -/
def divisor? : Expr → Option Expr
  | .binary _ _ .div right => some right
  | .binary _ _ .mod right => some right
  | _ => none

/-- What is wrong at a node, apart from the nodes below it: nothing is bound to a name,
or the value of a divisor is zero. -/
def complaint? (store : Store) : Expr → Option String
  | .ident _ name =>
      if store.get? name = none then some ("Unknown identifier: " ++ name) else none
  | .binary _ _ .div right =>
      if right.eval store = .ok 0 then some "Division by zero" else none
  | .binary _ _ .mod right =>
      if right.eval store = .ok 0 then some "Modulo by zero" else none
  | _ => none

/-- What is wrong at the first node at which something is. -/
def firstComplaint? (store : Store) (value : Expr) : Option String :=
  value.postorder.findSome? (complaint? store)

variable {store : Store} {value node left right : Expr} {token : Token}
variable {operator : Operator} {result : Int} {name : String}

theorem firstComplaint?_binary :
    (binary token left operator right).firstComplaint? store =
      (left.firstComplaint? store).or
        ((right.firstComplaint? store).or
          ((binary token left operator right).complaint? store)) := by
  simp only [firstComplaint?, postorder, List.findSome?_append, List.findSome?_cons,
    List.findSome?_nil]
  cases (binary token left operator right).complaint? store <;> rfl

/-- The names in an expression are those at its nodes. -/
theorem mem_names_iff :
    name ∈ value.names ↔ ∃ token, ident token name ∈ value.postorder := by
  induction value with
  | ident token bound => simp [names, postorder, eq_comm]
  | literal token number => simp [names, postorder]
  | binary token left operator right leftHypothesis rightHypothesis =>
      simp only [names, postorder, List.mem_append, leftHypothesis, rightHypothesis,
        exists_or]
      simp
  | foreign rendering => simp [names, postorder]

/-- Where an expression has a value, its sides have values. -/
theorem exists_eval_sides
    (evaluated : (binary token left operator right).eval store = .ok result) :
    ∃ leftResult rightResult,
      left.eval store = .ok leftResult ∧ right.eval store = .ok rightResult := by
  rw [eval] at evaluated
  cases leftEval : left.eval store with
  | error failure =>
      rw [leftEval] at evaluated
      cases evaluated
  | ok leftResult =>
      cases rightEval : right.eval store with
      | error failure =>
          rw [leftEval, rightEval] at evaluated
          cases evaluated
      | ok rightResult => exact ⟨leftResult, rightResult, rfl, rfl⟩

/-- Where an expression has a value, each of its nodes has one. -/
theorem exists_eval_of_mem
    (evaluated : value.eval store = .ok result)
    (member : node ∈ value.postorder) :
    ∃ nodeResult, node.eval store = .ok nodeResult := by
  induction value generalizing result with
  | binary token left operator right leftHypothesis rightHypothesis =>
      obtain ⟨leftResult, rightResult, leftEval, rightEval⟩ :=
        exists_eval_sides evaluated
      rw [postorder, List.mem_append, List.mem_append, List.mem_singleton] at member
      rcases member with inLeft | inRight | rfl
      · exact leftHypothesis leftEval inLeft
      · exact rightHypothesis rightEval inRight
      · exact ⟨result, evaluated⟩
  | ident | literal | foreign =>
      rw [postorder, List.mem_singleton] at member
      exact ⟨result, member ▸ evaluated⟩

/-! ## Values and faults -/

/-- A value where nothing is wrong, or a fault in the words for what is wrong. -/
inductive Settles : Except Failure Int → Option String → Prop
  | value (result : Int) : Settles (.ok result) none
  | fault (fault : Fault) : Settles (.error (.fault fault)) (some fault.summary)

theorem settles_ident
    (integral : store.Integral)
    (token : Token) (name : String) :
    Settles ((ident token name).eval store)
      ((ident token name).firstComplaint? store) := by
  have only :
      (ident token name).firstComplaint? store =
        (ident token name).complaint? store := by
    rw [firstComplaint?, postorder, List.findSome?_singleton]
  rw [only, eval, complaint?, Store.fetchInteger, Store.fetch]
  cases found : store.get? name with
  | none => exact .fault (.unknownName name)
  | some value =>
      obtain ⟨number, rfl⟩ := integral name value found
      exact .value number

/-- An operator of the language fails at a divisor that is zero, and only there. -/
theorem settles_apply
    {kind : Token.Kind} {leftResult rightResult : Int}
    (signed : Operator.ofKind? kind = some operator)
    (rightEval : right.eval store = .ok rightResult) :
    Settles (operator.apply leftResult rightResult)
      ((binary token left operator right).complaint? store) := by
  have zero : right.eval store = .ok 0 ↔ rightResult = 0 := by
    rw [rightEval, Except.ok.injEq]
  cases operator with
  | div =>
      rw [complaint?]
      by_cases isZero : rightResult = 0
      · rw [if_pos (zero.mpr isZero), isZero, Operator.apply_div_zero]
        exact .fault .divisionByZero
      · rw [if_neg (mt zero.mp isZero), Operator.apply_div isZero]
        exact .value _
  | mod =>
      rw [complaint?]
      by_cases isZero : rightResult = 0
      · rw [if_pos (zero.mpr isZero), isZero, Operator.apply_mod_zero]
        exact .fault .moduloByZero
      · rw [if_neg (mt zero.mp isZero), Operator.apply_mod isZero]
        exact .value _
  | unknown name => cases kind <;> cases signed
  | add | sub | mul | lt | gt | le | ge | eq | ne | and | or => exact .value _

/-- The sides of an operation come first, the left one before the right one, whatever
the operator is. -/
theorem Parsed.settles_eval
    (parsed : value.Parsed)
    (integral : store.Integral) :
    Settles (value.eval store) (value.firstComplaint? store) := by
  induction parsed with
  | @name token _ _ => exact settles_ident integral token token.lexeme
  | literal _ => exact .value _
  | @operation sign left right operator signed _ _ _ leftHypothesis rightHypothesis =>
      rw [eval, firstComplaint?_binary]
      generalize left.eval store = leftEval at leftHypothesis ⊢
      generalize left.firstComplaint? store = leftComplaint? at leftHypothesis ⊢
      cases leftHypothesis with
      | fault fault => exact .fault fault
      | value leftResult =>
          generalize rightEval : right.eval store = outcome at rightHypothesis ⊢
          generalize right.firstComplaint? store = rightComplaint? at rightHypothesis ⊢
          cases rightHypothesis with
          | fault fault => exact .fault fault
          | value rightResult => exact settles_apply signed rightEval

/-- An expression has a value exactly if nothing is wrong at any node. -/
theorem Parsed.exists_eval_iff
    (parsed : value.Parsed)
    (integral : store.Integral) :
    (∃ result, value.eval store = .ok result) ↔
      ∀ node ∈ value.postorder, node.complaint? store = none := by
  rw [← List.findSome?_eq_none_iff, ← firstComplaint?]
  have settles := parsed.settles_eval integral
  generalize value.eval store = outcome at settles ⊢
  generalize value.firstComplaint? store = complaint? at settles ⊢
  cases settles with
  | value result => simp
  | fault fault => simp

/-- An expression that fails does so with what is wrong at the first node at which
something is. -/
theorem Parsed.first_of_eval_eq_error
    {failure : Failure}
    (parsed : value.Parsed)
    (integral : store.Integral)
    (failed : value.eval store = .error failure) :
    ∃ fault front node back,
      failure = .fault fault ∧
        value.postorder = front ++ node :: back ∧
          (∀ earlier ∈ front, earlier.complaint? store = none) ∧
            node.complaint? store = some fault.summary := by
  have settles := parsed.settles_eval integral
  rw [failed] at settles
  generalize complained : value.firstComplaint? store = complaint? at settles
  cases settles with
  | fault fault =>
      obtain ⟨front, node, back, nodes, here, quiet⟩ :=
        List.findSome?_eq_some_iff.mp complained
      exact ⟨fault, front, node, back, rfl, nodes, quiet, here⟩

/-! ## Names and divisors -/

/-- Names are bound, and divisors have values other than zero. -/
structure Faultless (store : Store) (value : Expr) : Prop where
  names : ∀ name ∈ value.names, store.get? name ≠ none
  divisors :
    ∀ node ∈ value.postorder, ∀ divisor, node.divisor? = some divisor →
      ∃ result, divisor.eval store = .ok result ∧ result ≠ 0

theorem Faultless.complaint?_eq_none
    (faultless : value.Faultless store)
    (member : node ∈ value.postorder) :
    node.complaint? store = none := by
  have nonzero {divisor : Expr} (divides : node.divisor? = some divisor) :
      divisor.eval store ≠ .ok 0 := by
    obtain ⟨result, evaluated, nonzero⟩ :=
      faultless.divisors node member divisor divides
    rw [evaluated]
    exact fun zero => nonzero (Except.ok.inj zero)
  cases node with
  | ident token name =>
      exact if_neg (faultless.names name (mem_names_iff.mpr ⟨token, member⟩))
  | literal | foreign => rfl
  | binary token left operator right =>
      cases operator with
      | div | mod => exact if_neg (nonzero rfl)
      | _ => rfl

/-- What divides is the right side of a quotient or of a remainder. -/
theorem exists_of_divisor?
    {divisor : Expr}
    (divides : node.divisor? = some divisor) :
    ∃ token left operator,
      node = binary token left operator divisor ∧ (operator = .div ∨ operator = .mod) := by
  cases node with
  | ident | literal | foreign => cases divides
  | binary token left operator right =>
      cases operator <;> cases divides
      · exact ⟨token, left, .div, rfl, .inl rfl⟩
      · exact ⟨token, left, .mod, rfl, .inr rfl⟩

theorem Faultless.of_eval
    (evaluated : value.eval store = .ok result)
    (quiet : ∀ node ∈ value.postorder, node.complaint? store = none) :
    value.Faultless store where
  names := by
    intro name member unbound
    obtain ⟨token, member⟩ := mem_names_iff.mp member
    have complained :
        (ident token name).complaint? store = some ("Unknown identifier: " ++ name) :=
      if_pos unbound
    rw [quiet _ member] at complained
    cases complained
  divisors := by
    intro node member divisor divides
    obtain ⟨token, left, operator, rfl, division⟩ := exists_of_divisor? divides
    obtain ⟨_, nodeEval⟩ := exists_eval_of_mem evaluated member
    obtain ⟨_, divisorResult, _, divisorEval⟩ := exists_eval_sides nodeEval
    refine ⟨divisorResult, divisorEval, ?_⟩
    rintro rfl
    have unquiet : (binary token left operator divisor).complaint? store ≠ none := by
      rcases division with rfl | rfl <;> simp [complaint?, divisorEval]
    exact unquiet (quiet _ member)

/-! ## Whole expressions -/

/-- Both sides of a connective are evaluated, whatever the left one comes to. -/
theorem eval_connective_eq_error_iff
    {failure : Failure}
    (connective : operator = .and ∨ operator = .or) :
    (binary token left operator right).eval store = .error failure ↔
      left.eval store = .error failure ∨
        (∃ leftResult, left.eval store = .ok leftResult) ∧
          right.eval store = .error failure := by
  have applies (leftResult rightResult : Int) :
      ∃ result, operator.apply leftResult rightResult = .ok result := by
    rcases connective with rfl | rfl <;> exact ⟨_, rfl⟩
  rw [eval]
  cases left.eval store with
  | error other => simp
  | ok leftResult =>
      cases right.eval store with
      | error other => simp
      | ok rightResult =>
          obtain ⟨result, applied⟩ := applies leftResult rightResult
          simp [applied]

/-- An expression that a parser builds has a value on a store of integers exactly if its
names are bound and its divisors have values other than zero. Otherwise it fails with
what is wrong at the first node, in the order of the nodes, at which something is. At a
connective, this is a fault of the left side, or of the right side where the left one
has a value, whatever that value is. -/
theorem eval_first_fault
    (parsed : value.Parsed)
    (integral : store.Integral) :
    ((∃ result, value.eval store = .ok result) ↔ value.Faultless store) ∧
      (∀ failure, value.eval store = .error failure →
        ∃ fault front node back,
          failure = .fault fault ∧
            value.postorder = front ++ node :: back ∧
              (∀ earlier ∈ front, earlier.complaint? store = none) ∧
                node.complaint? store = some fault.summary) ∧
        ∀ token left operator right,
          binary token left operator right ∈ value.postorder →
            operator = .and ∨ operator = .or →
              ∀ failure,
                (binary token left operator right).eval store = .error failure ↔
                  left.eval store = .error failure ∨
                    (∃ leftResult, left.eval store = .ok leftResult) ∧
                      right.eval store = .error failure := by
  refine ⟨⟨?_, ?_⟩, ?_, ?_⟩
  · intro ⟨result, evaluated⟩
    exact .of_eval evaluated ((parsed.exists_eval_iff integral).mp ⟨result, evaluated⟩)
  · intro faultless
    exact (parsed.exists_eval_iff integral).mpr
      fun node member => faultless.complaint?_eq_none member
  · intro failure failed
    exact parsed.first_of_eval_eq_error integral failed
  · intro token left operator right _ connective failure
    exact eval_connective_eq_error_iff connective

/-- Zero beside a division by zero, and behind them a name that nothing is bound to. -/
theorem eval_first_fault_division :
    ∃ front node back,
      (binary ⟨.plus, "+"⟩
          (.binary ⟨.and, "&&"⟩ (.literal ⟨.integer, "0"⟩ 0) .and
            (.binary ⟨.slash, "/"⟩ (.literal ⟨.integer, "1"⟩ 1) .div
              (.ident ⟨.identifier, "x"⟩ "x")))
          .add (.ident ⟨.identifier, "y"⟩ "y")).postorder = front ++ node :: back ∧
        (∀ earlier ∈ front,
          earlier.complaint? (Store.empty.set "x" (.integer 0)) = none) ∧
          node.complaint? (Store.empty.set "x" (.integer 0)) =
            some "Division by zero" := by
  have integral : (Store.empty.set "x" (.integer 0)).Integral := by
    intro name value found
    rw [Store.get?_set] at found
    split at found <;> cases found
    exact ⟨0, rfl⟩
  have x : (ident ⟨.identifier, "x"⟩ "x").Parsed :=
    .name rfl (by unfold Token.Spelled; decide +kernel)
  have y : (ident ⟨.identifier, "y"⟩ "y").Parsed :=
    .name rfl (by unfold Token.Spelled; decide +kernel)
  have zero : (literal ⟨.integer, "0"⟩ 0).Parsed :=
    .literal ⟨rfl, by decide, by decide, by decide, by decide, by decide⟩
  have one : (literal ⟨.integer, "1"⟩ 1).Parsed :=
    .literal ⟨rfl, by decide, by decide, by decide, by decide, by decide⟩
  have slash : (Token.mk .slash "/").Spelled := by unfold Token.Spelled; decide +kernel
  have both : (Token.mk .and "&&").Spelled := by unfold Token.Spelled; decide +kernel
  have plus : (Token.mk .plus "+").Spelled := by unfold Token.Spelled; decide +kernel
  have quotient := @Parsed.operation _ _ _ .div rfl slash one x
  have conjunction := @Parsed.operation _ _ _ .and rfl both zero quotient
  have sum := @Parsed.operation _ _ _ .add rfl plus conjunction y
  obtain ⟨fault, front, node, back, same, nodes, quiet, here⟩ :=
    (eval_first_fault sum integral).2.1 (.fault .divisionByZero) (by decide +kernel)
  cases same
  exact ⟨front, node, back, nodes, quiet, here⟩

end Expr

end WhileLang
