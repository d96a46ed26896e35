import WhileLang.Proofs.Lockstep

/-!
Statements that come to their end. Main statements: a rule for each construct by which
its execution ends, without a word on limits, and one for loops of which each round keeps
an invariant and lessens a number.
-/

namespace WhileLang

variable {machine between after : Machine} {value : Option Int}

/-! ## Printed values -/

namespace Machine

@[simp] theorem store_assign (machine : Machine) (name : String) (result : Int) :
    (machine.assign name result).store = machine.store.set name (.integer result) := rfl

@[simp] theorem store_print (machine : Machine) (result : Int) :
    (machine.print result).store = machine.store := rfl

@[simp] theorem printed_start (store : Store) : (start store).printed = [] := rfl

@[simp] theorem printed_assign (machine : Machine) (name : String) (result : Int) :
    (machine.assign name result).printed = machine.printed := by
  simp [printed, assign]

@[simp] theorem printed_print (machine : Machine) (result : Int) :
    (machine.print result).printed = machine.printed ++ [result] := by
  simp [printed, print]

theorem evaluate_of_eval
    {expression : Expr} {next : Int → Outcome} {result : Int}
    (evaluated : expression.eval machine.store = .ok result) :
    machine.evaluate expression next = next result := by
  rw [evaluate, evaluated]

/-- Printing does not change what is printed next. -/
theorem printEach_of_eval
    {expressions : List Expr} {results : List Int}
    (evaluated :
      List.Forall₂ (fun expression result => expression.eval machine.store = .ok result)
        expressions results) :
    machine.printEach expressions = ⟨.finished none, results.foldl print machine⟩ := by
  -- The relation is about the store of the machine, which is fixed by that.
  generalize stored : machine.store = store at evaluated
  induction evaluated generalizing machine with
  | nil => rfl
  | @cons _ result _ _ here _ inductionHypothesis =>
      rw [printEach, evaluate_of_eval (stored ▸ here)]
      exact @inductionHypothesis (machine.print result) stored

end Machine

/-! ## Values of expressions -/

namespace Expr

variable {store : Store} {token : Token} {left right : Expr} {operator : Operator}
variable {name : String} {leftResult rightResult result : Int}

theorem eval_ident
    (bound : store.get? name = some (.integer result)) :
    (ident token name).eval store = .ok result := by
  rw [eval, Store.fetchInteger, Store.fetch, bound]

theorem eval_literal (token : Token) (value : Int) :
    (literal token value).eval store = .ok value := rfl

theorem eval_binary
    (leftEval : left.eval store = .ok leftResult)
    (rightEval : right.eval store = .ok rightResult)
    (applied : operator.apply leftResult rightResult = .ok result) :
    (binary token left operator right).eval store = .ok result := by
  rw [eval, leftEval, rightEval]
  exact applied

end Expr

namespace Stmt

/-! ## Statements -/

/-- From some limit on, a statement comes to its end without a failure, with a value or
none, and leaves another machine. -/
def Completes
    (item : Stmt) (machine : Machine) (value : Option Int) (after : Machine) : Prop :=
  ∃ least, ∀ limit, least ≤ limit → item.exec limit machine = ⟨.finished value, after⟩

/-- From some limit on, statements in order come to their end without a failure. -/
def CompletesEach
    (items : List Stmt) (before : Option Int) (machine : Machine) (value : Option Int)
    (after : Machine) : Prop :=
  ∃ least, ∀ limit, least ≤ limit →
    execEach limit items before machine = ⟨.finished value, after⟩

theorem completesEach_nil (value : Option Int) (machine : Machine) :
    CompletesEach [] value machine value machine :=
  ⟨0, fun _ _ => by rw [execEach]⟩

theorem Completes.cons
    {item : Stmt} {rest : List Stmt} {before first : Option Int}
    (completes : item.Completes machine first between)
    (completesRest : CompletesEach rest first between value after) :
    CompletesEach (item :: rest) before machine value after := by
  obtain ⟨least, here⟩ := completes
  obtain ⟨leastRest, behind⟩ := completesRest
  refine ⟨max least leastRest, fun limit enough => ?_⟩
  rw [execEach, here limit (by omega)]
  exact behind limit (by omega)

theorem Completes.single
    {item : Stmt} {before : Option Int}
    (completes : item.Completes machine value after) :
    CompletesEach [item] before machine value after :=
  completes.cons (completesEach_nil value after)

theorem completes_block
    {token : Token} {items : List Stmt}
    (completes : CompletesEach items none machine value after) :
    (block token items).Completes machine value after := by
  obtain ⟨least, here⟩ := completes
  refine ⟨least, fun limit enough => ?_⟩
  rw [exec]
  exact here limit enough

theorem completes_assign
    {token : Token} {target : Target} {expression : Expr} {result : Int}
    (evaluated : expression.eval machine.store = .ok result) :
    (assign token target expression).Completes machine (some result)
      (machine.assign target.name result) :=
  ⟨0, fun _ _ => by rw [exec, Machine.evaluate_of_eval evaluated]⟩

theorem completes_print
    {token : Token} {expressions : List Expr} {results : List Int}
    (evaluated :
      List.Forall₂ (fun expression result => expression.eval machine.store = .ok result)
        expressions results) :
    (print token expressions).Completes machine none
      (results.foldl Machine.print machine) :=
  ⟨0, fun _ _ => by rw [exec, Machine.printEach_of_eval evaluated]⟩

section Branches

variable {token : Token} {condition : Expr} {first second : Stmt}

theorem completes_ifElse_first
    (truth : condition.eval machine.store = .ok 1)
    (completes : first.Completes machine value after) :
    (ifElse token condition first second).Completes machine value after := by
  obtain ⟨least, here⟩ := completes
  refine ⟨least, fun limit enough => ?_⟩
  rw [exec, Machine.evaluate_of_eval truth, if_pos rfl, here limit enough]

theorem completes_ifElse_second
    (truth : condition.eval machine.store = .ok 0)
    (completes : second.Completes machine value after) :
    (ifElse token condition first second).Completes machine value after := by
  obtain ⟨least, here⟩ := completes
  refine ⟨least, fun limit enough => ?_⟩
  rw [exec, Machine.evaluate_of_eval truth, if_neg (by decide), if_pos rfl,
    here limit enough]

end Branches

/-! ## Loops -/

section Loops

variable {token : Token} {condition : Expr} {body : Stmt} {truth : Int}

theorem completes_while_done
    (evaluated : condition.eval machine.store = .ok truth)
    (done : truth ≠ 1) :
    (whileDo token condition body).Completes machine none machine := by
  refine ⟨1, fun limit enough => ?_⟩
  obtain ⟨limit, rfl⟩ : ∃ fewer, limit = fewer + 1 := ⟨limit - 1, by omega⟩
  rw [exec, Machine.loop, Machine.evaluate_of_eval evaluated, if_neg done]

/-- A loop that ends under a limit does the same if its body has a greater one. -/
theorem loop_of_le
    {limit bodyLimit : Nat}
    (enough : limit ≤ bodyLimit)
    (ended :
      machine.loop condition (body.exec limit) limit = ⟨.finished value, after⟩) :
    machine.loop condition (body.exec bodyLimit) limit = ⟨.finished value, after⟩ := by
  have lockstep := Machine.lockstep_eq (condition.names ++ body.names)
  have followed :=
    lockstep.loop (List.subset_append_left _ _)
      (Stmt.followed_exec lockstep enough (List.subset_append_right _ _))
      (Nat.le_refl limit) (rfl : machine = machine)
  rw [ended] at followed
  generalize machine.loop condition (body.exec bodyLimit) limit = outcome at followed ⊢
  cases followed with
  | ended _ same => rw [same]

theorem completes_while_round
    {first : Option Int}
    (evaluated : condition.eval machine.store = .ok 1)
    (round : body.Completes machine first between)
    (completes : (whileDo token condition body).Completes between none after) :
    (whileDo token condition body).Completes machine none after := by
  obtain ⟨leastRound, here⟩ := round
  obtain ⟨least, behind⟩ := completes
  refine ⟨max leastRound (least + 1), fun limit enough => ?_⟩
  obtain ⟨limit, rfl⟩ : ∃ fewer, limit = fewer + 1 := ⟨limit - 1, by omega⟩
  have ended := behind limit (by omega)
  rw [exec] at ended
  rw [exec, Machine.loop, Machine.evaluate_of_eval evaluated, if_pos rfl,
    here (limit + 1) (by omega)]
  exact loop_of_le (Nat.le_succ limit) ended

/-- A loop ends if its condition always has a value and, where that is one, its body
ends, keeps an invariant and lessens a number; the invariant holds at the end, where the
condition is not one. -/
theorem exists_completes_while
    {invariant : Nat → Machine → Prop}
    (round :
      ∀ left machine, invariant left machine →
        ∃ truth, condition.eval machine.store = .ok truth ∧
          (truth = 1 → ∃ first between less,
            body.Completes machine first between ∧ less < left ∧ invariant less between))
    {left : Nat}
    (start : invariant left machine) :
    ∃ final less,
      (whileDo token condition body).Completes machine none final ∧
        invariant less final ∧ condition.eval final.store ≠ .ok 1 := by
  induction left using Nat.strongRecOn generalizing machine with
  | ind left inductionHypothesis =>
      obtain ⟨truth, evaluated, goesOn⟩ := round left machine start
      by_cases isOne : truth = 1
      · subst isOne
        obtain ⟨first, between, less, completes, fewer, kept⟩ := goesOn rfl
        obtain ⟨final, last, completesRest, holds⟩ :=
          inductionHypothesis less fewer kept
        exact ⟨final, last, completes_while_round evaluated completes completesRest,
          holds⟩
      · refine ⟨machine, left, completes_while_done evaluated isOne, start, ?_⟩
        rw [evaluated]
        exact fun one => isOne (Except.ok.inj one)

end Loops

end Stmt

end WhileLang
