import WhileLang.Command.Report

/-!
The command itself: it hands its arguments, its input and the terminals it writes
to over to the library, and writes out what the library answers.
-/

namespace WhileLang.Command

/-- How often a loop of a program may be taken. -/
def loopLimit : Nat := 1152921504606846976

/-- Writes out a report. -/
def Report.emit (report : Report) : IO UInt32 := do
  (← IO.getStdout).putStr report.output
  (← IO.getStderr).putStr report.errors
  return report.exitCode.toUInt32

/-- Writes out an error that ends the command with no report. -/
def abandon (message : String) : IO UInt32 := do
  (← IO.getStderr).putStr (message ++ "\n")
  return 1

/-- The bytes of a stream from here to its end. -/
partial def readToEnd (stream : IO.FS.Stream) (bytes : ByteArray) : IO ByteArray := do
  let chunk ← stream.read 65536
  if chunk.isEmpty then
    return bytes
  else
    readToEnd stream (bytes ++ chunk)

/-- The bytes of the file at a path. -/
def readFile (path : String) : IO (Except FileError ByteArray) := do
  try
    return .ok (← IO.FS.readBinFile path)
  catch
    | .noFileOrDirectory .. => return .error (.missing path)
    | .inappropriateType .. => return .error (.directory path)
    | error => throw error

/-- The text at a source. -/
def Source.fetch : Source → IO (Except FileError String)
  | .bundled sample => return .ok sample.text
  | .standardInput => return decode (← readToEnd (← IO.getStdin) ByteArray.empty)
  | .file path => return (← readFile (normalPath path)).bind decode

/-- The next line that is read, or none at the end, with those read behind it: what
the stream takes for one line may hold other line ends. -/
def nextLine : List String → IO (Option String × List String)
  | line :: pending => return (some line, pending)
  | [] => do
      let read ← (← IO.getStdin).getLine
      let lines := Text.inputLines (Text.foldNewlines read.toList)
      return (lines.head?, lines.tail)

/-- Holds a session on the lines that are read, one step after the other. -/
partial def converse
    (options : Options) (displays : Displays) (pending : List String) (store : Store) :
    IO UInt32 := do
  let output ← IO.getStdout
  output.putStr prompt
  output.flush
  let (line?, pending) ← nextLine pending
  let reply := Session.reply loopLimit displays.output store line?
  output.putStr reply.shown
  (← IO.getStderr).putStr (options.logText reply.log)
  match reply.standing with
  | .goesOn => converse options displays pending reply.store
  | .over => return 0
  | .broken _ => return 1

end WhileLang.Command

open WhileLang.Command

/-- Carries out the command. -/
def main (arguments : List String) : IO UInt32 := do
  let displays :=
    Displays.ofTerminals (← (← IO.getStdout).isTty) (← (← IO.getStderr).isTty)
  match Options.ofArguments arguments with
  | .error refusal => refusal.report.emit
  | .ok options =>
      if options.mode = .session then
        converse options displays [] WhileLang.Store.empty
      else
        match ← options.source.fetch with
        | .ok text => (perform loopLimit options displays text).emit
        | .error error => abandon (error.message?.getD "The text is not in UTF-8.")
