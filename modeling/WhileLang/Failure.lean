import WhileLang.Word

/-!
The ways a run fails: faults of a program, trees or stores that no program text
gives rise to, and a division that nothing kept from failing.
-/

namespace WhileLang

/-- What a program itself can do wrong. -/
inductive Fault where
  | unknownName (name : String)
  | divisionByZero
  | moduloByZero
deriving DecidableEq, Repr

/-- A piece of a tree, or a value in a store, that evaluation has no rule for. -/
inductive Misfit where
  | value (name typeName : String)
  | expression (rendering : String)
  | statement (rendering : String)
  | operator (name : String)
deriving DecidableEq, Repr

/-- Why a run cannot go on. -/
inductive Failure where
  | fault (fault : Fault)
  | misfit (misfit : Misfit)
  | division (fault : Word.DivisionFault)
deriving DecidableEq, Repr

/-- What went wrong, in words. -/
def Fault.summary : Fault → String
  | .unknownName name => "Unknown identifier: " ++ name
  | .divisionByZero => "Division by zero"
  | .moduloByZero => "Modulo by zero"

/-- How a fault is reported. -/
def Fault.message (fault : Fault) : String :=
  "[Runtime error] " ++ fault.summary

/-- How a misfit is reported. -/
def Misfit.message : Misfit → String
  | .value name typeName =>
      "Unexpected value type for " ++ name ++ ": " ++ typeName
  | .expression rendering => "Unexpected expression type: " ++ rendering
  | .statement rendering => "Unexpected node type: " ++ rendering
  | .operator name => "Unexpected binary operator: " ++ name

/-- How a failure is reported. -/
def Failure.message : Failure → String
  | .fault cause => cause.message
  | .misfit cause => cause.message
  | .division cause => cause.message

end WhileLang
