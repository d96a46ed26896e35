import WhileLang.Run

/-!
The log of a run: the tokens that came into sight, the unexpected ones, the
finished statements, the start of the execution, and the bindings it makes.
-/

namespace WhileLang

/-- An entry of a log. -/
inductive LogEntry where
  | pulled (token : Token)
  | unexpected (token : Token)
  | parsed (statement : Stmt)
  | evaluating (count : Nat)
  | bound (name : String) (value : Int)
deriving DecidableEq, Repr

namespace LogEntry

/-- The line an entry is written as. -/
def line : LogEntry → String
  | .pulled token => "DEBUG cminus.lexer: Token " ++ token.render
  | .unexpected token => "DEBUG cminus.parser: " ++ Parse.complaint token
  | .parsed statement =>
      "DEBUG cminus.parser: Parsed statement: " ++ statement.render
  | .evaluating count =>
      "DEBUG cminus.cli: Evaluating " ++ toString count ++ " statement(s)"
  | .bound name value =>
      "DEBUG cminus.environment: " ++ name ++ " = " ++ toString value

/-- The entry for a notice of a parser; the end of input has none. -/
def ofNotice? : Parse.Notice → Option LogEntry
  | .pulled token =>
      if token.kind = .endOfInput then none else some (.pulled token)
  | .unexpected token => some (.unexpected token)
  | .parsed statement => some (.parsed statement)

/-- The entry for an event of an execution; a printed value has none. -/
def ofEvent? : Event → Option LogEntry
  | .bound name value => some (.bound name value)
  | .printed _ => none

/-- The text of a log. -/
def text (entries : List LogEntry) : String :=
  String.join (entries.map fun entry => entry.line ++ "\n")

end LogEntry

/-- The log of reading a text. -/
def Reading.log (reading : Reading) : List LogEntry :=
  reading.notices.filterMap LogEntry.ofNotice?

/-- The log of running a text; an execution is logged only if there is one. -/
def Run.log (run : Run) : List LogEntry :=
  match run.reading.program with
  | .error _ => run.reading.log
  | .ok program =>
      run.reading.log ++ .evaluating program.length ::
        run.machine.trace.toList.filterMap LogEntry.ofEvent?

/-- The log of listing the tokens of a feed. -/
def Feed.log (feed : Feed) : List LogEntry :=
  feed.tokens.map .pulled

end WhileLang
