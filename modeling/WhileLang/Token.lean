import WhileLang.Text.Digit

/-!
Tokens: the kinds of them, how each is spelled, and the longest one at the start
of a text. Main statements: a token read off a text leaves less of it, and its
lexeme and what it leaves are the text.
-/

namespace WhileLang

/-- The kinds of tokens. -/
inductive Token.Kind where
  | identifier
  | integer
  | whileWord
  | ifWord
  | elseWord
  | printWord
  | plus
  | minus
  | star
  | slash
  | percent
  | assign
  | equal
  | notEqual
  | less
  | greater
  | lessEqual
  | greaterEqual
  | and
  | or
  | comma
  | bracketOpen
  | bracketClose
  | braceOpen
  | braceClose
  | endOfInput
deriving DecidableEq, Repr

/-- A kind and the text that spells it. -/
structure Token where
  kind : Token.Kind
  lexeme : String
deriving DecidableEq, Repr

namespace Token

/-- The name a listing of tokens gives to a kind. -/
def Kind.name : Kind → String
  | .identifier => "IDENTIFIER"
  | .integer => "INTEGER"
  | .whileWord => "WHILE"
  | .ifWord => "IF"
  | .elseWord => "ELSE"
  | .printWord => "PRINT"
  | .plus => "PLUS"
  | .minus => "MINUS"
  | .star => "STAR"
  | .slash => "SLASH"
  | .percent => "PERCENT"
  | .assign => "ASSIGN"
  | .equal => "EQUAL"
  | .notEqual => "NOT_EQUAL"
  | .less => "LESS"
  | .greater => "GREATER"
  | .lessEqual => "LESS_EQUAL"
  | .greaterEqual => "GREATER_EQUAL"
  | .and => "AND"
  | .or => "OR"
  | .comma => "COMMA"
  | .bracketOpen => "BRACKET_OPEN"
  | .bracketClose => "BRACKET_CLOSE"
  | .braceOpen => "BRACE_OPEN"
  | .braceClose => "BRACE_CLOSE"
  | .endOfInput => "EOF"

/-- Every kind, in the order of their declaration. -/
def Kind.all : List Kind := [
  .identifier, .integer, .whileWord, .ifWord, .elseWord, .printWord, .plus,
  .minus, .star, .slash, .percent, .assign, .equal, .notEqual, .less, .greater,
  .lessEqual, .greaterEqual, .and, .or, .comma, .bracketOpen, .bracketClose,
  .braceOpen, .braceClose, .endOfInput]

/-- The kind with a given name. -/
def Kind.named? (name : String) : Option Kind :=
  Kind.all.find? (·.name == name)

/-- The token behind the last one of a text. -/
def endOfInput : Token := ⟨.endOfInput, "end of input"⟩

/-- How a listing shows a token. -/
def render (token : Token) : String :=
  "<" ++ token.kind.name ++ ">" ++ token.lexeme

/-! ## Spelling -/

/-- The kind of a run of letters: a keyword's own, or an identifier. -/
def Kind.ofWord (word : List Char) : Kind :=
  if word = ['w', 'h', 'i', 'l', 'e'] then .whileWord
  else if word = ['i', 'f'] then .ifWord
  else if word = ['e', 'l', 's', 'e'] then .elseWord
  else if word = ['p', 'r', 'i', 'n', 't'] then .printWord
  else .identifier

/-- The kind that a sign of one character spells. -/
def Kind.ofSign? : Char → Option Kind
  | '+' => some .plus
  | '-' => some .minus
  | '*' => some .star
  | '/' => some .slash
  | '%' => some .percent
  | ',' => some .comma
  | '(' => some .bracketOpen
  | ')' => some .bracketClose
  | '\x7b' => some .braceOpen
  | '\x7d' => some .braceClose
  | '=' => some .assign
  | '<' => some .less
  | '>' => some .greater
  | _ => none

/-- The kind that a sign of two characters spells. -/
def Kind.ofPair? : Char → Char → Option Kind
  | '=', '=' => some .equal
  | '!', '=' => some .notEqual
  | '<', '=' => some .lessEqual
  | '>', '=' => some .greaterEqual
  | '&', '&' => some .and
  | '|', '|' => some .or
  | _, _ => none

/-- The sign at the start of a text, and what follows it. A sign of two
characters is preferred to one of a single character. -/
def sign? : List Char → Option (Token × List Char)
  | [] => none
  | [first] =>
      (Kind.ofSign? first).map fun kind => (⟨kind, String.ofList [first]⟩, [])
  | first :: second :: rest =>
      match Kind.ofPair? first second with
      | some kind => some (⟨kind, String.ofList [first, second]⟩, rest)
      | none =>
          (Kind.ofSign? first).map fun kind =>
            (⟨kind, String.ofList [first]⟩, second :: rest)

/-- The longest token at the start of a text, and what follows it. -/
def first? (text : List Char) : Option (Token × List Char) :=
  match text with
  | [] => none
  | character :: _ =>
      if Text.isAsciiLetter character then
        let word := text.takeWhile Text.isAsciiLetter
        some (⟨Kind.ofWord word, String.ofList word⟩,
          text.dropWhile Text.isAsciiLetter)
      else if Text.isAsciiDigit character then
        let run := text.takeWhile Text.isAsciiDigit
        some (⟨.integer, String.ofList run⟩, text.dropWhile Text.isAsciiDigit)
      else
        sign? text

theorem lexeme_append_of_sign?
    {text rest : List Char} {token : Token}
    (found : sign? text = some (token, rest)) :
    token.lexeme.toList ++ rest = text := by
  unfold sign? at found
  split at found
  · cases found
  · obtain ⟨kind, _, equality⟩ := Option.map_eq_some_iff.mp found
    cases equality
    simp
  · split at found
    · cases found
      simp
    · obtain ⟨kind, _, equality⟩ := Option.map_eq_some_iff.mp found
      cases equality
      simp

/-- A token's lexeme and what follows it make up the text. -/
theorem lexeme_append_of_first?
    {text rest : List Char} {token : Token}
    (found : first? text = some (token, rest)) :
    token.lexeme.toList ++ rest = text := by
  unfold first? at found
  split at found
  · cases found
  · split at found
    · cases found
      simp [List.takeWhile_append_dropWhile]
    · split at found
      · cases found
        simp [List.takeWhile_append_dropWhile]
      · exact lexeme_append_of_sign? found

theorem lexeme_ne_nil_of_first?
    {text rest : List Char} {token : Token}
    (found : first? text = some (token, rest)) :
    token.lexeme.toList ≠ [] := by
  unfold first? at found
  split at found
  · cases found
  · split at found
    · rename_i letter
      cases found
      simp [letter]
    · split at found
      · rename_i digit
        cases found
        simp [digit]
      · unfold sign? at found
        split at found
        · cases found
        · obtain ⟨kind, _, equality⟩ := Option.map_eq_some_iff.mp found
          cases equality
          simp
        · split at found
          · cases found
            simp
          · obtain ⟨kind, _, equality⟩ := Option.map_eq_some_iff.mp found
            cases equality
            simp

/-- A token takes at least one character off the text. -/
theorem length_lt_of_first?
    {text rest : List Char} {token : Token}
    (found : first? text = some (token, rest)) :
    rest.length < text.length := by
  have parts := lexeme_append_of_first? found
  have nonempty := List.length_pos_iff.mpr (lexeme_ne_nil_of_first? found)
  have lengths := congrArg List.length parts
  rw [List.length_append] at lengths
  omega

end Token

end WhileLang
