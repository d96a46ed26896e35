/-!
Sample programs: the Collatz orbit of a number, a countdown, and the greatest
common divisor of two numbers.
-/

namespace WhileLang

/-- The sample programs, in the order of their names. -/
inductive Sample where
  | collatz
  | countdown
  | gcd
deriving DecidableEq, Repr

namespace Sample

/-- Every sample program, in the order of their names. -/
def all : List Sample :=
  [.collatz, .countdown, .gcd]

/-- The name of a sample program. -/
def name : Sample → String
  | .collatz => "collatz"
  | .countdown => "countdown"
  | .gcd => "gcd"

/-- The sample program with a given name. -/
def named? (name : String) : Option Sample :=
  all.find? (·.name == name)

/-- Prints each number of an orbit with the one that follows it. -/
def collatzText : String :=
  "\n".intercalate [
    "",
    "val = 104",
    "while (val >= 2) \x7b",
    "    if (val % 2 == 0) \x7b",
    "        next = val / 2",
    "    \x7d else \x7b",
    "\t\tnext = 3 * val + 1",
    "    \x7d",
    "\tprint val, next",
    "\tval = next",
    "\x7d",
    ""]

/-- Prints the numbers from five down to one. -/
def countdownText : String :=
  "\n".intercalate [
    "",
    "n = 5",
    "while (n > 0) \x7b",
    "    print n",
    "    n = n - 1",
    "\x7d",
    ""]

/-- Prints the greatest common divisor of two numbers. -/
def gcdText : String :=
  "\n".intercalate [
    "",
    "a = 1071",
    "b = 462",
    "while (b != 0) \x7b",
    "    t = b",
    "    b = a % b",
    "    a = t",
    "\x7d",
    "print a",
    ""]

/-- The text of a sample program. -/
def text : Sample → String
  | .collatz => collatzText
  | .countdown => countdownText
  | .gcd => gcdText

end Sample

end WhileLang
