import WhileLang.Lexer.Fault
import WhileLang.Token

/-!
The lexer: a cursor that reads one token after the other off a text. Main
statements: a read never makes the unread text longer, and one that finds a token
makes it shorter.
-/

namespace WhileLang

/-- A text and the part of it that is still unread. -/
structure Lexer where
  code : List Char
  rest : List Char
deriving DecidableEq, Repr

namespace Lexer

/-- A tab or a line end counts as a space. -/
def flatten (character : Char) : Char :=
  if character = '\t' ∨ character = '\r' ∨ character = '\n' then ' ' else character

/-- The cursor at the start of a text. -/
def ofText (text : String) : Lexer :=
  let code := text.toList.map flatten
  ⟨code, code⟩

/-- The number of characters that are read. -/
def position (lexer : Lexer) : Nat :=
  lexer.code.length - lexer.rest.length

/-- Reads the next token, behind any spaces. At the end of the text that is
always the end of input. On a fault the cursor stays on the character at fault,
so reading again fails again. -/
def next (lexer : Lexer) : Except LexicalFault Token × Lexer :=
  match lexer.rest.dropWhile (· == ' ') with
  | [] => (.ok Token.endOfInput, ⟨lexer.code, []⟩)
  | character :: others =>
      match Token.first? (character :: others) with
      | some (token, rest) => (.ok token, ⟨lexer.code, rest⟩)
      | none =>
          let stopped : Lexer := ⟨lexer.code, character :: others⟩
          (.error ⟨character, lexer.code, stopped.position⟩, stopped)

theorem code_next (lexer : Lexer) :
    lexer.next.2.code = lexer.code := by
  unfold next
  split
  · rfl
  · split <;> rfl

/-- A read that finds a token takes something off the unread text. -/
theorem length_rest_next_lt
    {lexer : Lexer} {token : Token}
    (found : lexer.next.1 = .ok token)
    (notEnd : token ≠ Token.endOfInput) :
    lexer.next.2.rest.length < lexer.rest.length := by
  have skipped := (List.dropWhile_suffix (l := lexer.rest) (· == ' ')).length_le
  unfold next at found ⊢
  split at found
  · cases found
    exact absurd rfl notEnd
  · rename_i character others remaining
    rw [remaining] at skipped
    split at found
    · rename_i first rest read
      have shorter := Token.length_lt_of_first? read
      show rest.length < lexer.rest.length
      omega
    · cases found

theorem length_rest_next_le (lexer : Lexer) :
    lexer.next.2.rest.length ≤ lexer.rest.length := by
  have skipped := (List.dropWhile_suffix (l := lexer.rest) (· == ' ')).length_le
  unfold next
  split
  · simp
  · rename_i character others remaining
    rw [remaining] at skipped
    split
    · rename_i token rest found
      have shorter := Token.length_lt_of_first? found
      show rest.length ≤ lexer.rest.length
      omega
    · exact skipped

end Lexer

end WhileLang
