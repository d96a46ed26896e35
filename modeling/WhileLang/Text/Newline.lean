/-!
Lines of a text, and the margin before them. Main statement: an indented text is
written character by character.
-/

namespace WhileLang.Text

/-- Writes every line end, be it CR LF, a lone CR or a lone LF, as a LF. -/
def foldNewlines : List Char → List Char
  | [] => []
  | '\r' :: '\n' :: rest => '\n' :: foldNewlines rest
  | '\r' :: rest => '\n' :: foldNewlines rest
  | character :: rest => character :: foldNewlines rest

/-- Puts a character at the front of the first line. -/
def extendFirst (character : Char) : List (List Char) → List (List Char)
  | [] => [[character]]
  | first :: others => (character :: first) :: others

/-- The lines of a text without their ends, where `endsLine` says which
characters end one. An end at the very end opens no further line. -/
def linesBy (endsLine : Char → Bool) : List Char → List (List Char)
  | [] => []
  | character :: rest =>
      if endsLine character then
        [] :: linesBy endsLine rest
      else
        extendFirst character (linesBy endsLine rest)

/-- The characters that end a line: LF, CR, vertical tab, form feed, the three
upper information separators, next line, and the two Unicode separators. -/
def isLineEnd (character : Char) : Bool :=
  let code := character.toNat
  (10 ≤ code && code ≤ 13) || (0x1C ≤ code && code ≤ 0x1E) || code == 0x85 ||
    code == 0x2028 || code == 0x2029

/-- The lines of a text for a reader who stops at each LF only. -/
def inputLines (text : List Char) : List String :=
  (linesBy (· == '\n') text).map String.ofList

/-! ## Margins -/

/-- The margin of a nested line. -/
def margin : String := "    "

/-- What stands before a character: nothing, a character of the same line, a
carriage return, or another line end. -/
inductive Before where
  | nothing
  | character
  | carriageReturn
  | lineEnd
deriving DecidableEq, Repr

/-- What is written before a character that begins a line or goes on with one. -/
def Before.opening : Before → String
  | .nothing => margin
  | .character => ""
  | .carriageReturn => "\n" ++ margin
  | .lineEnd => "\n" ++ margin

/-- What stands before the character that follows a given one. -/
def Before.after (character : Char) : Before :=
  if character = '\r' then .carriageReturn
  else if isLineEnd character then .lineEnd
  else .character

/-- Writes a text with the margin before each of its lines, and LFs between them.
CR LF ends one line, and no line follows an end at the very end. -/
def indentFrom : Before → List Char → List Char
  | _, [] => []
  | before, character :: rest =>
      if before = .carriageReturn ∧ character = '\n' then
        indentFrom .lineEnd rest
      else
        before.opening.toList ++
          ((if isLineEnd character then [] else [character]) ++
            indentFrom (.after character) rest)

/-- One character of a text that is indented from its first to its last. -/
def indentStep (state : String × Before) (character : Char) : String × Before :=
  if state.2 = .carriageReturn ∧ character = '\n' then
    (state.1, .lineEnd)
  else
    let opened :=
      if state.2 = .character then state.1 else state.1 ++ state.2.opening
    (if isLineEnd character then opened else opened.push character,
      .after character)

/-- Puts the margin before every line of a text. -/
def indent (text : String) : String :=
  (text.foldl indentStep ("", .nothing)).1

theorem toList_foldl_indentStep
    (text : List Char) (written : String) (before : Before) :
    (text.foldl indentStep (written, before)).1.toList =
      written.toList ++ indentFrom before text := by
  induction text generalizing written before with
  | nil => simp [indentFrom]
  | cons character rest inductionHypothesis =>
      by_cases pair : before = .carriageReturn ∧ character = '\n'
      · simp [indentStep, indentFrom, pair, inductionHypothesis]
      · by_cases inside : before = .character <;>
          by_cases ends : isLineEnd character <;>
            simp [indentStep, indentFrom, pair, inside, ends,
              inductionHypothesis, Before.opening]

theorem toList_indent (text : String) :
    (indent text).toList = indentFrom .nothing text.toList := by
  simp [indent, String.foldl_eq_foldl_toList, toList_foldl_indentStep]

end WhileLang.Text
