import WhileLang.Expr.Eval
import WhileLang.Stmt

/-!
Execution of statements. A run may take every loop a limited number of times;
its end is then a value or none, a failure, or the mere fact that a limit was
reached. Main statement: running two lists of statements in a row is running the
list of both.
-/

namespace WhileLang

/-- What a run leaves a mark of. -/
inductive Event where
  | printed (value : Int)
  | bound (name : String) (value : Int)
deriving DecidableEq, Repr

/-- A store, and the marks of what happened so far, oldest first. -/
structure Machine where
  store : Store
  trace : Array Event
deriving Repr

/-- How a run ends. -/
inductive Ending where
  | finished (value : Option Int)
  | failed (failure : Failure)
  | unfinished
deriving DecidableEq, Repr

/-- The end of a run, and what it leaves behind. -/
structure Outcome where
  ending : Ending
  machine : Machine
deriving Repr

namespace Machine

/-- A machine before anything happened. -/
def start (store : Store) : Machine :=
  ⟨store, #[]⟩

/-- Binds a name. -/
def assign (machine : Machine) (name : String) (value : Int) : Machine :=
  ⟨machine.store.set name (.integer value), machine.trace.push (.bound name value)⟩

/-- Prints a value. -/
def print (machine : Machine) (value : Int) : Machine :=
  ⟨machine.store, machine.trace.push (.printed value)⟩

/-- The printed values, oldest first. -/
def printed (machine : Machine) : List Int :=
  machine.trace.toList.filterMap fun
    | .printed value => some value
    | .bound _ _ => none

/-- The printed text: every value and a space behind it. -/
def output (machine : Machine) : String :=
  String.join (machine.printed.map fun value => toString value ++ " ")

end Machine

/-- Evaluates an expression, and goes on with its value. -/
@[inline] def Machine.evaluate
    (machine : Machine) (value : Expr) (next : Int → Outcome) : Outcome :=
  match value.eval machine.store with
  | .error failure => ⟨.failed failure, machine⟩
  | .ok result => next result

/-- Prints the values of expressions, each before the next is evaluated. -/
def Machine.printEach : List Expr → Machine → Outcome
  | [], machine => ⟨.finished none, machine⟩
  | value :: rest, machine =>
      machine.evaluate value fun result => printEach rest (machine.print result)

/-- Runs a body as long as a condition is one, but at most `limit` times. -/
def Machine.loop
    (condition : Expr) (body : Machine → Outcome) :
    Nat → Machine → Outcome
  | 0, machine => ⟨.unfinished, machine⟩
  | limit + 1, machine =>
      machine.evaluate condition fun truth =>
        if truth = 1 then
          match body machine with
          | ⟨.finished _, after⟩ => loop condition body limit after
          | stopped => stopped
        else
          ⟨.finished none, machine⟩

namespace Stmt

mutual

/-- Runs a statement; every loop in it ends or comes to the limit. Only a
condition that is exactly one or zero chooses a branch. -/
def exec (limit : Nat) : Stmt → Machine → Outcome
  | .expression _ value, machine =>
      machine.evaluate value fun result => ⟨.finished (some result), machine⟩
  | .assign _ target value, machine =>
      machine.evaluate value fun result =>
        ⟨.finished (some result), machine.assign target.name result⟩
  | .block _ items, machine => execEach limit items none machine
  | .ifThen _ condition first, machine =>
      machine.evaluate condition fun truth =>
        if truth = 1 then first.exec limit machine
        else ⟨.finished none, machine⟩
  | .ifElse _ condition first second, machine =>
      machine.evaluate condition fun truth =>
        if truth = 1 then first.exec limit machine
        else if truth = 0 then second.exec limit machine
        else ⟨.finished none, machine⟩
  | .whileDo _ condition body, machine =>
      machine.loop condition (body.exec limit) limit
  | .print _ values, machine => machine.printEach values
  | .bare value, machine =>
      machine.evaluate value fun result => ⟨.finished (some result), machine⟩
  | .sequence items, machine => execEach limit items none machine
  | .foreign rendering, machine =>
      ⟨.failed (.misfit (.statement rendering)), machine⟩

/-- Runs statements in order. The value is that of the last one; `value` if
there are none. -/
def execEach (limit : Nat) : List Stmt → Option Int → Machine → Outcome
  | [], value, machine => ⟨.finished value, machine⟩
  | item :: rest, _, machine =>
      match item.exec limit machine with
      | ⟨.finished value, after⟩ => execEach limit rest value after
      | stopped => stopped

end

/-- Statements run in a row as two lists do what they do as one. -/
theorem execEach_append
    (limit : Nat) (front back : List Stmt) (value : Option Int)
    (machine : Machine) :
    execEach limit (front ++ back) value machine =
      match execEach limit front value machine with
      | ⟨.finished between, after⟩ => execEach limit back between after
      | stopped => stopped := by
  induction front generalizing value machine with
  | nil => simp [execEach]
  | cons item rest inductionHypothesis =>
      simp only [List.cons_append, execEach]
      rcases item.exec limit machine with ⟨ending, after⟩
      cases ending with
      | finished between => exact inductionHypothesis between after
      | failed failure => rfl
      | unfinished => rfl

end Stmt

/-- Runs a program. -/
def Program.exec (limit : Nat) (program : Program) (machine : Machine) : Outcome :=
  Stmt.execEach limit program none machine

end WhileLang
