import WhileLang.Text.Quoted

/-!
Lexical faults: a character at which no token starts. A fault is shown by an
excerpt of the text with a caret below the character.
-/

namespace WhileLang

/-- How many characters an excerpt has before the one it points at, and how many
from that one on. -/
def excerptReach : Nat := 10

/-- The end of a part of a text that is `length` long: a negative one is counted
from the end of the text. -/
def clampedEnd (length : Nat) (stop : Int) : Nat :=
  if stop < 0 then (length + stop).toNat else stop.toNat

/-- The text around an index, with an ellipsis on each side where it is cut. -/
def excerpt (code : List Char) (index : Int) : List Char :=
  let start : Int := max 0 (index - excerptReach)
  let stop : Int := min code.length (index + excerptReach)
  let ellipsis : List Char := ['.', '.', '.']
  (if 0 < start then ellipsis else []) ++
    ((code.take (clampedEnd code.length stop)).drop start.toNat ++
      if stop < code.length then ellipsis else [])

/-- The line below an excerpt, whose caret points at the index. -/
def excerptCaret (index : Int) : List Char :=
  let start : Int := max 0 (index - excerptReach)
  let column : Int := index - start + if 0 < start then 3 else 0
  List.replicate column.toNat ' ' ++ ['^']

/-- A complaint about one index of a text: a heading, the excerpt, the caret. -/
def excerptMessage (complaint : String) (code : List Char) (index : Int) : String :=
  "[Lexer error] " ++ complaint ++ "\n" ++
    String.ofList (excerpt code index) ++ "\n" ++
    String.ofList (excerptCaret index)

/-- A character that starts no token, the text it stands in, and where. -/
structure LexicalFault where
  character : Char
  code : List Char
  index : Nat
deriving DecidableEq, Repr

namespace LexicalFault

/-- The complaint about the character, which is quoted. -/
def complaint (fault : LexicalFault) : String :=
  "Invalid character found: " ++ Text.quote (String.singleton fault.character)

/-- The three lines that show a fault. -/
def message (fault : LexicalFault) : String :=
  excerptMessage fault.complaint fault.code fault.index

end LexicalFault

end WhileLang
