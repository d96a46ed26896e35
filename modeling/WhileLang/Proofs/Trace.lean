import WhileLang.Run

/-!
The trace of a run. Main statement: execution reads the store alone, so that what
happened before a run stays at the front of its trace and changes nothing else.
-/

namespace WhileLang

/-- The same machine, with marks of what happened earlier. -/
def Machine.behind (earlier : Array Event) (machine : Machine) : Machine :=
  ⟨machine.store, earlier ++ machine.trace⟩

def Outcome.behind (earlier : Array Event) (outcome : Outcome) : Outcome :=
  ⟨outcome.ending, outcome.machine.behind earlier⟩

variable {earlier : Array Event} {machine : Machine}

namespace Machine

@[simp] theorem store_behind : (machine.behind earlier).store = machine.store := rfl

theorem assign_behind (name : String) (value : Int) :
    (machine.behind earlier).assign name value =
      (machine.assign name value).behind earlier := by
  simp [assign, behind, Array.push_append]

theorem print_behind (value : Int) :
    (machine.behind earlier).print value =
      (machine.print value).behind earlier := by
  simp [print, behind, Array.push_append]

theorem output_behind :
    (machine.behind earlier).output =
      (Machine.mk machine.store earlier).output ++ machine.output := by
  simp [output, printed, behind]

theorem evaluate_behind
    {value : Expr} {next next' : Int → Outcome}
    (same : ∀ result, next' result = (next result).behind earlier) :
    (machine.behind earlier).evaluate value next' =
      (machine.evaluate value next).behind earlier := by
  unfold evaluate
  rw [store_behind]
  cases value.eval machine.store with
  | error failure => rfl
  | ok result => exact same result

theorem printEach_behind (values : List Expr) (machine : Machine) :
    (machine.behind earlier).printEach values =
      (machine.printEach values).behind earlier := by
  induction values generalizing machine with
  | nil => rfl
  | cons value rest inductionHypothesis =>
      rw [printEach, printEach]
      refine evaluate_behind fun result => ?_
      rw [print_behind, inductionHypothesis]

theorem loop_behind
    {condition : Expr} {body : Machine → Outcome}
    (same : ∀ machine, body (machine.behind earlier) = (body machine).behind earlier)
    (limit : Nat) (machine : Machine) :
    (machine.behind earlier).loop condition body limit =
      (machine.loop condition body limit).behind earlier := by
  induction limit generalizing machine with
  | zero => rfl
  | succ limit inductionHypothesis =>
      rw [loop, loop]
      refine evaluate_behind fun truth => ?_
      split
      · rw [same]
        rcases body machine with ⟨ending, after⟩
        cases ending with
        | finished value => exact inductionHypothesis after
        | failed failure => rfl
        | unfinished => rfl
      · rfl

end Machine

namespace Stmt

mutual

theorem exec_behind (limit : Nat) (earlier : Array Event) :
    (item : Stmt) → (machine : Machine) →
    item.exec limit (machine.behind earlier) =
      (item.exec limit machine).behind earlier
  | .expression _ _, machine => by
      rw [exec, exec]
      exact Machine.evaluate_behind fun _ => rfl
  | .assign _ target _, machine => by
      rw [exec, exec]
      refine Machine.evaluate_behind fun result => ?_
      rw [Machine.assign_behind]
      rfl
  | .block _ items, machine => by
      rw [exec, exec]
      exact execEach_behind limit earlier items none machine
  | .ifThen _ _ first, machine => by
      rw [exec, exec]
      refine Machine.evaluate_behind fun truth => ?_
      split
      · exact exec_behind limit earlier first machine
      · rfl
  | .ifElse _ _ first second, machine => by
      rw [exec, exec]
      refine Machine.evaluate_behind fun truth => ?_
      split
      · exact exec_behind limit earlier first machine
      · split
        · exact exec_behind limit earlier second machine
        · rfl
  | .whileDo _ _ body, machine => by
      rw [exec, exec]
      exact Machine.loop_behind (exec_behind limit earlier body) limit machine
  | .print _ values, machine => by
      rw [exec, exec]
      exact Machine.printEach_behind values machine
  | .bare _, machine => by
      rw [exec, exec]
      exact Machine.evaluate_behind fun _ => rfl
  | .sequence items, machine => by
      rw [exec, exec]
      exact execEach_behind limit earlier items none machine
  | .foreign _, machine => by
      rw [exec, exec]
      rfl

theorem execEach_behind (limit : Nat) (earlier : Array Event) :
    (items : List Stmt) → (value : Option Int) → (machine : Machine) →
    execEach limit items value (machine.behind earlier) =
      (execEach limit items value machine).behind earlier
  | [], _, machine => by
      rw [execEach, execEach]
      rfl
  | item :: rest, _, machine => by
      rw [execEach, execEach, exec_behind limit earlier item machine]
      rcases item.exec limit machine with ⟨ending, after⟩
      cases ending with
      | finished value => exact execEach_behind limit earlier rest value after
      | failed failure => rfl
      | unfinished => rfl

end

/-- The value before a list of statements is lost, unless the list is empty. -/
theorem execEach_value
    {items : List Stmt}
    (nonempty : items ≠ [])
    (limit : Nat) (value value' : Option Int) (machine : Machine) :
    execEach limit items value machine = execEach limit items value' machine := by
  cases items with
  | nil => exact absurd rfl nonempty
  | cons item rest => rw [execEach, execEach]

end Stmt

end WhileLang
