import WhileLang.Command.Usage
import WhileLang.Text.Digit

/-!
Arguments of the command, told apart into flags and plain words. An abbreviation
that could stand for several flags is an error here, before any argument takes
effect.
-/

namespace WhileLang.Command

/-- The argument behind which every argument is plain. -/
def separator : String := "--"

/-- A single argument: a plain word, the separator behind which every argument is
plain, a flag with the text attached to it, or something that looks like a flag.
A short flag may be followed by more short flags. -/
inductive Argument where
  | plain (text : String)
  | separator
  | flag (flag : Flag) (short : Bool) (attached? : Option String)
  | unknown (text : String)
deriving DecidableEq, Repr

/-- Splits a text at its first equals sign. -/
def splitAtEquals (text : List Char) : List Char × Option String :=
  match text.dropWhile (· != '=') with
  | [] => (text, none)
  | _ :: attached => (text.takeWhile (· != '='), some (String.ofList attached))

/-- A minus, then digits with at most one point among them and a digit at the
end. A line end behind them does no harm. -/
def isNegativeNumber (text : List Char) : Bool :=
  let isDigit (character : Char) : Bool := (Text.digitValue? character).isSome
  match text with
  | '-' :: signless =>
      let number :=
        if signless.getLast? = some '\n' then signless.dropLast else signless
      let fraction := number.dropWhile isDigit
      if fraction.isEmpty then
        !number.isEmpty
      else
        fraction.head? == some '.' && !fraction.tail.isEmpty &&
          fraction.tail.all isDigit
  | _ => false

/-- The flags that an argument can stand for: a long one may be abbreviated, a
short one may have text attached. -/
def candidates (text : List Char) : List (String × Argument) :=
  match text with
  | '-' :: '-' :: _ =>
      let (abbreviation, attached?) := splitAtEquals text
      (spellings.filter fun spelling =>
          abbreviation.isPrefixOf spelling.1.toList).map fun spelling =>
        (spelling.1, .flag spelling.2 false attached?)
  | '-' :: letter :: attached =>
      let short := String.ofList ['-', letter]
      (spellings.filter (·.1 == short)).map fun spelling =>
        (spelling.1, .flag spelling.2 true (some (String.ofList attached)))
  | _ => []

/-- Is this spelling a short one? -/
def isShort (spelling : List Char) : Bool :=
  spelling.length == 2

/-- Tells what a single argument is, if it is not the separator. -/
def classify (argument : String) : Except UsageError Argument :=
  let text := argument.toList
  let (spelling, attached?) := splitAtEquals text
  if text.head? ≠ some '-' ∨ text.length = 1 then
    .ok (.plain argument)
  else
    match Flag.spelled? argument, Flag.spelled? (String.ofList spelling) with
    | some flag, _ => .ok (.flag flag (isShort text) none)
    | none, some flag => .ok (.flag flag (isShort spelling) attached?)
    | none, none =>
        match candidates text with
        | [] =>
            if isNegativeNumber text || text.contains ' ' then
              .ok (.plain argument)
            else
              .ok (.unknown argument)
        | [(_, found)] => .ok found
        | several => .error (.ambiguous argument (several.map (·.1)))

/-- Tells what each argument is. -/
def classifyAll : List String → Except UsageError (List Argument)
  | [] => .ok []
  | argument :: rest =>
      if argument = separator then
        .ok (.separator :: rest.map .plain)
      else do
        let first ← classify argument
        let others ← classifyAll rest
        return first :: others

end WhileLang.Command
