import WhileLang.Command.File
import WhileLang.Command.Options
import WhileLang.Session

/-!
What the command answers: an exit code, and what is written to the two output
streams.
-/

namespace WhileLang.Command

/-- The outcome of a command: its exit code, and what it writes to its output and
to its error stream. -/
structure Report where
  exitCode : Nat
  output : String
  errors : String
deriving DecidableEq, Repr

/-- What a refusal of the arguments reports. -/
def Refusal.report : Refusal → Report
  | .help => ⟨0, helpText, ""⟩
  | .usage error => ⟨2, "", usageText ++ "cminus: error: " ++ error.message ++ "\n"⟩

/-- Where the text of a program comes from. -/
inductive Source where
  | bundled (sample : Sample)
  | standardInput
  | file (path : String)
deriving DecidableEq, Repr

/-- The file that stands for standard input. -/
def standardInputName : String := "-"

/-- The source that the options name. A sample is run if none is named. -/
def Options.source (options : Options) : Source :=
  match options.file? with
  | none => .bundled (options.sample?.getD .collatz)
  | some path => if path = standardInputName then .standardInput else .file path

/-- The two streams that a command writes to. -/
structure Displays where
  output : Display
  errors : Display

/-- Bold red, in which a terminal shows a message of failure. -/
def boldRed (message : String) : String :=
  "\x1b[1m\x1b[31m" ++ message ++ "\x1b[0m"

/-- The displays of a command, where it is known which of them are terminals. -/
def Displays.ofTerminals (output errors : Bool) : Displays :=
  ⟨⟨output, boldRed⟩, ⟨errors, boldRed⟩⟩

/-- Everything outside the command that its answer depends on. -/
structure Surroundings where
  input : ByteArray
  directory : Directory
  displays : Displays

/-- The text at a source. -/
def Source.load (surroundings : Surroundings) : Source → Except FileError String
  | .bundled sample => .ok sample.text
  | .standardInput => decode surroundings.input
  | .file path => do
      let bytes ← surroundings.directory.read path
      decode bytes

/-- A message on a line. -/
def messageLine (display : Display) (message : String) : String :=
  display.failure message ++ "\n"

/-- The report of a text that is no program, behind the output and the log so
far. A text at fault is reported with the log, unexpected tokens with the
output. -/
def reportSourceError
    (displays : Displays) (log : String) (error : SourceError) : Report :=
  match error with
  | .broken _ => ⟨1, "", log ++ messageLine displays.errors error.message⟩
  | .unexpected _ => ⟨1, messageLine displays.output error.message, log⟩

/-- The log, if it is asked for. -/
def Options.logText (options : Options) (entries : List LogEntry) : String :=
  if options.verbose then LogEntry.text entries else ""

/-- Lists the tokens of a text, one on a line. -/
def listTokens (options : Options) (displays : Displays) (text : String) : Report :=
  let feed := Feed.ofText text
  let log := options.logText feed.log
  match feed.toList with
  | .error fault =>
      ⟨1, "", log ++ messageLine displays.errors fault.message⟩
  | .ok tokens =>
      ⟨0, String.join (tokens.map fun token => token.render ++ "\n"), log⟩

/-- Shows a text as the program it is read as. -/
def showProgram (options : Options) (displays : Displays) (text : String) : Report :=
  let reading := Reading.ofText text
  let log := options.logText reading.log
  match reading.program with
  | .error error => reportSourceError displays log error
  | .ok program => ⟨0, Program.render program ++ "\n", log⟩

/-- Runs a text on an empty store. -/
def runProgram
    (limit : Nat) (options : Options) (displays : Displays) (text : String) : Report :=
  let run := Run.ofText limit Store.empty text
  let log := options.logText run.log
  let output := run.machine.output ++ "\n"
  match run.result with
  | .ok _ => ⟨0, output, log⟩
  | .error (.source error) => reportSourceError displays log error
  | .error (.failure failure) =>
      ⟨1, output, log ++ messageLine displays.errors failure.message⟩
  | .error .unfinished => ⟨1, output, log⟩

/-- The prompt of a session. -/
def prompt : String := "> "

/-- Holds a session on the lines of a text. -/
def holdSession
    (limit : Nat) (options : Options) (displays : Displays) (text : String) : Report :=
  let lines := Text.inputLines text.toList
  let transcript := Session.hold limit displays.output prompt lines Store.empty
  let exitCode := if transcript.error?.isSome then 1 else 0
  ⟨exitCode, transcript.shown, options.logText transcript.log⟩

/-- Does with a text what the mode says. -/
def perform
    (limit : Nat) (options : Options) (displays : Displays) (text : String) : Report :=
  match options.mode with
  | .run => runProgram limit options displays text
  | .tokens => listTokens options displays text
  | .tree => showProgram options displays text
  | .session => holdSession limit options displays text

/-- Carries out the command. A session reads standard input, whatever source is
named. -/
def report
    (limit : Nat) (surroundings : Surroundings) (arguments : List String) :
    Except FileError Report :=
  match Options.ofArguments arguments with
  | .error refusal => .ok refusal.report
  | .ok options => do
      let source :=
        if options.mode = .session then Source.standardInput else options.source
      let text ← source.load surroundings
      return perform limit options surroundings.displays text

end WhileLang.Command
