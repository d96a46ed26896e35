import WhileLang.Text.Blank
import WhileLang.Text.Digit
import WhileLang.Text.Quoted
import WhileLang.Word

/-!
Numerals: the integers a text can spell. A numeral is a run of decimal digits
of any script, in groups that single underscores join, behind at most one sign
and between white space. Main statement: what is read for a word is a word.
-/

namespace WhileLang.Numeral

/-- The most digits a numeral may have, leading zeros counted. -/
def digitLimit : Nat := 4300

/-- Why a text is no numeral, or none for a word. -/
inductive Fault where
  | malformed (text : String)
  | tooManyDigits (digits : Nat)
  | outOfRange (text : String)
deriving DecidableEq, Repr

/-- The most characters of a malformed text's quotation that a message shows. -/
def quotationLimit : Nat := 200

/-- Wording of a fault. -/
def Fault.message : Fault → String
  | .malformed text =>
      "invalid literal for int() with base 10: " ++
        String.ofList ((Text.quote text).toList.take quotationLimit)
  | .tooManyDigits digits =>
      "Exceeds the limit (4300 digits) for integer string conversion: value has " ++
        toString digits ++
        " digits; use sys.set_int_max_str_digits() to increase the limit"
  | .outOfRange text => "Integer literal out of range: " ++ text

/-- The character that may join two groups of digits. -/
def joiner : Char := '_'

/-- A decimal digit of any script. -/
def isDigit (character : Char) : Bool :=
  (Text.digitValue? character).isSome

/-- A character that can stand inside a run of digits. -/
def isRunCharacter (character : Char) : Bool :=
  isDigit character || character == joiner

/-- A run that has a digit at each end, and no two joiners side by side. -/
def isGrouped : List Char → Bool
  | [] => false
  | [character] => isDigit character
  | first :: second :: rest =>
      isDigit first &&
        if second = joiner then isGrouped rest else isGrouped (second :: rest)

/-- The number that a run of digits spells; joiners do not count. -/
def runValue (run : List Char) : Nat :=
  (run.filterMap Text.digitValue?).foldl (fun value digit => 10 * value + digit) 0

/-- Splits a sign off a text: whether it is a minus, and what follows. -/
def splitSign : List Char → Bool × List Char
  | '-' :: rest => (true, rest)
  | '+' :: rest => (false, rest)
  | text => (false, text)

/-- Reads a numeral. An ill-formed run comes first among the faults, then a
run that is too long, then anything but white space behind the run. -/
def read (text : String) : Except Fault Int :=
  let (negative, unsigned) := splitSign (text.toList.dropWhile Text.isWhiteSpace)
  let run := unsigned.takeWhile isRunCharacter
  let digits := run.countP isDigit
  if !isGrouped run then
    .error (.malformed text)
  else if digitLimit < digits then
    .error (.tooManyDigits digits)
  else if !(unsigned.dropWhile isRunCharacter).all Text.isWhiteSpace then
    .error (.malformed text)
  else
    .ok (if negative then -(runValue run : Int) else runValue run)

/-- Reads a numeral for a word. -/
def readWord (text : String) : Except Fault Int :=
  match read text with
  | .error fault => .error fault
  | .ok value =>
      if Word.InRange value then .ok value else .error (.outOfRange text)

theorem inRange_of_readWord
    {text : String} {value : Int}
    (reading : readWord text = .ok value) :
    Word.InRange value := by
  unfold readWord at reading
  split at reading
  · cases reading
  · split at reading
    · rename_i within
      cases reading
      exact within
    · cases reading

end WhileLang.Numeral
