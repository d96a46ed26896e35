import WhileLang.Reading
import WhileLang.Stmt.Exec

/-!
Runs of a text on a store. Nothing is executed unless the whole text is a
program.
-/

namespace WhileLang

/-- Why running a text gave no result. -/
inductive RunError where
  | source (error : SourceError)
  | failure (failure : Failure)
  | unfinished
deriving DecidableEq, Repr

/-- A run of a text: how it was read, its result, and what it left behind. -/
structure Run where
  reading : Reading
  result : Except RunError (Option Int)
  machine : Machine

/-- The result that the end of an execution stands for. -/
def Ending.result : Ending → Except RunError (Option Int)
  | .finished value => .ok value
  | .failed failure => .error (.failure failure)
  | .unfinished => .error .unfinished

namespace Run

/-- Runs a text on a store. -/
def ofText (limit : Nat) (store : Store) (text : String) : Run :=
  let reading := Reading.ofText text
  match reading.program with
  | .error error => ⟨reading, .error (.source error), Machine.start store⟩
  | .ok program =>
      let outcome := program.exec limit (Machine.start store)
      ⟨reading, outcome.ending.result, outcome.machine⟩

end Run

/-- How a text that is no program is reported. -/
def SourceError.message : SourceError → String
  | .broken (.lexical fault) => fault.message
  | .broken (.noOperator kind) => kind.name
  | .unexpected tokens => "\n".intercalate (tokens.map Parse.complaint)

end WhileLang
