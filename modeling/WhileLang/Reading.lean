import WhileLang.Parse.Operation

/-!
Reading of a text as a program. Reading goes on behind unexpected tokens, so that
all of them are found, but a text with any of them is no program.
-/

namespace WhileLang

open Parse

/-- Why a text is no program. -/
inductive SourceError where
  | broken (breakage : Breakage)
  | unexpected (tokens : List Token)
deriving DecidableEq, Repr

/-- What reading a text to its end yields: the statements that could be read,
unless the text is at fault, and the notices. -/
structure Reading where
  statements : Except Breakage Program
  notices : List Notice

namespace Reading

/-- Reads the tokens of a feed. -/
def ofFeed (feed : Feed) : Reading :=
  match (Parser.opening.andThen fun _ => Parse.program) (Parser.unopened feed) with
  | ⟨.accepted program, _, notices⟩ => ⟨.ok program, notices⟩
  | ⟨.rejected, _, notices⟩ => ⟨.ok [], notices⟩
  | ⟨.broken breakage, _, notices⟩ => ⟨.error breakage, notices⟩

/-- Reads a text. -/
def ofText (text : String) : Reading :=
  ofFeed (Feed.ofText text)

/-- The complaints about unexpected tokens. -/
def diagnostics (reading : Reading) : List String :=
  Parse.diagnostics reading.notices

/-- The program, if every token was expected. -/
def program (reading : Reading) : Except SourceError Program :=
  match reading.statements with
  | .error breakage => .error (.broken breakage)
  | .ok program =>
      match unexpectedTokens reading.notices with
      | [] => .ok program
      | token :: tokens => .error (.unexpected (token :: tokens))

end Reading

/-- The program that a text spells. -/
def Program.ofText (text : String) : Except SourceError Program :=
  (Reading.ofText text).program

end WhileLang
