import WhileLang.Log
import WhileLang.Text.Blank

/-!
Interactive sessions: lines of text that are run one after the other on one
store. A line that fails is reported and the session goes on, unless what failed
is nothing that a program can do. Each line is answered by one step, `reply`, and
a session is that step over and over.
-/

namespace WhileLang

/-- Where text is shown: whether that is a terminal, and what a terminal shows for
a message of failure. -/
structure Display where
  terminal : Bool
  emphasis : String → String

/-- What is shown for a message of failure. -/
def Display.failure (display : Display) (message : String) : String :=
  if display.terminal then display.emphasis message else message

/-- The message of a failure that is reported to whoever runs the text. -/
def RunError.report? : RunError → Option String
  | .source error => some error.message
  | .failure (.fault fault) => some fault.message
  | .failure (.misfit _) => none
  | .failure (.division _) => none
  | .unfinished => none

namespace Session

/-- How a session stands behind an answer: it goes on, it is over, or an error
breaks it off. -/
inductive Standing where
  | goesOn
  | over
  | broken (error : RunError)
deriving DecidableEq, Repr

/-- The error that breaks a session off. -/
def Standing.error? : Standing → Option RunError
  | .goesOn => none
  | .over => none
  | .broken error => some error

/-- The answer to a line: what is shown, the store it leaves, its log, and how the
session stands. -/
structure Reply where
  shown : String
  store : Store
  log : List LogEntry
  standing : Standing

/-- What a run printed, without the blanks at its end, on a line; nothing if it
printed nothing. -/
def printedLine (machine : Machine) : String :=
  if machine.output = "" then
    ""
  else
    Text.dropBlankEnd machine.output ++ "\n"

/-- The result of a run on a line; nothing if there is none. -/
def resultLine : Option Int → String
  | none => ""
  | some value => toString value ++ "\n"

/-- Answers a line that is not blank. -/
def answer (limit : Nat) (display : Display) (store : Store) (line : String) : Reply :=
  let run := Run.ofText limit store line
  let printed := printedLine run.machine
  match run.result with
  | .ok value =>
      ⟨printed ++ resultLine value, run.machine.store, run.log, .goesOn⟩
  | .error error =>
      match error.report? with
      | some message =>
          ⟨printed ++ display.failure message ++ "\n", run.machine.store, run.log,
            .goesOn⟩
      | none => ⟨"", run.machine.store, run.log, .broken error⟩

/-- One step of a session. A blank line is passed over, and the end of the lines
is answered by an empty line. -/
def reply
    (limit : Nat) (display : Display) (store : Store) : Option String → Reply
  | none => ⟨"\n", store, [], .over⟩
  | some line =>
      if Text.isBlankText line then
        ⟨"", store, [], .goesOn⟩
      else
        answer limit display store line

/-- A session so far: what was shown, how many lines were asked for, the store,
the log, and the error that broke it off if one did. -/
structure Transcript where
  shown : String
  prompts : Nat
  store : Store
  log : List LogEntry
  error? : Option RunError

/-- A session of a single step. Before the line is asked for, `prompt` is shown. -/
def Reply.transcript (prompt : String) (reply : Reply) : Transcript :=
  ⟨prompt ++ reply.shown, 1, reply.store, reply.log, reply.standing.error?⟩

/-- A session that goes on as another one. -/
def Transcript.append (first others : Transcript) : Transcript :=
  ⟨first.shown ++ others.shown, first.prompts + others.prompts, others.store,
    first.log ++ others.log, others.error?⟩

/-- Holds a session on some lines. -/
def hold (limit : Nat) (display : Display) (prompt : String) :
    List String → Store → Transcript
  | [], store => (reply limit display store none).transcript prompt
  | line :: lines, store =>
      let first := reply limit display store (some line)
      match first.standing with
      | .goesOn =>
          (first.transcript prompt).append
            (hold limit display prompt lines first.store)
      | .over => first.transcript prompt
      | .broken _ => first.transcript prompt

end Session

end WhileLang
