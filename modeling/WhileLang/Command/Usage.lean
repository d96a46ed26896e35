import WhileLang.Sample
import WhileLang.Text.Quoted

/-!
Usage of the command: its flags, what can be wrong with its arguments, and the
texts that explain it.
-/

namespace WhileLang.Command

/-- The flags of the command. -/
inductive Flag where
  | help
  | sample
  | tokens
  | tree
  | session
  | verbose
deriving DecidableEq, Repr

/-- How a flag is named in a complaint. -/
def Flag.title : Flag → String
  | .help => "-h/--help"
  | .sample => "--sample"
  | .tokens => "--tokens"
  | .tree => "--ast"
  | .session => "--repl"
  | .verbose => "-v/--verbose"

/-- The spellings of flags, in the order in which they are offered. -/
def spellings : List (String × Flag) := [
  ("-h", .help), ("--help", .help), ("--sample", .sample), ("--tokens", .tokens),
  ("--ast", .tree), ("--repl", .session), ("-v", .verbose),
  ("--verbose", .verbose)]

/-- The flag with a given spelling. -/
def Flag.spelled? (spelling : String) : Option Flag :=
  (spellings.find? (·.1 == spelling)).map (·.2)

/-- What is wrong with the arguments. -/
inductive UsageError where
  | ambiguous (argument : String) (candidates : List String)
  | unknownSample (name : String)
  | missingSample
  | ignoredText (flag : Flag) (text : String)
  | excluded (flag earlier : Flag)
  | unrecognized (arguments : List String)
  | fileAndSample
deriving DecidableEq, Repr

/-- Wording of a usage error. -/
def UsageError.message : UsageError → String
  | .ambiguous argument candidates =>
      "ambiguous option: " ++ argument ++ " could match " ++
        ", ".intercalate candidates
  | .unknownSample name =>
      "argument --sample: invalid choice: " ++ Text.quote name ++ " (choose from " ++
        ", ".intercalate (Sample.all.map fun sample => Text.quote sample.name) ++ ")"
  | .missingSample => "argument --sample: expected one argument"
  | .ignoredText flag text =>
      "argument " ++ flag.title ++ ": ignored explicit argument " ++ Text.quote text
  | .excluded flag earlier =>
      "argument " ++ flag.title ++ ": not allowed with argument " ++ earlier.title
  | .unrecognized arguments =>
      "unrecognized arguments: " ++ " ".intercalate arguments
  | .fileAndSample => "a file and --sample can not be used together"

/-- Why the arguments lead to no program: help was asked for, or they are
wrong. -/
inductive Refusal where
  | help
  | usage (error : UsageError)
deriving DecidableEq, Repr

/-! ## Help -/

/-- How the command is called. -/
def usageText : String :=
  "\n".intercalate [
    "usage: cminus [-h] [--sample \x7bcollatz,countdown,gcd\x7d]",
    "              [--tokens | --ast | --repl] [-v]",
    "              [file]",
    ""]

/-- What the command and its arguments do. -/
def helpText : String :=
  usageText ++ "\n".intercalate [
    "",
    "C-- interpreter",
    "",
    "positional arguments:",
    "  file                  source file to run, '-' reads standard input",
    "",
    "options:",
    "  -h, --help            show this help message and exit",
    "  --sample \x7bcollatz,countdown,gcd\x7d",
    "                        run a bundled sample program",
    "  --tokens              print the token stream instead of running",
    "  --ast                 print the parsed program instead of running",
    "  --repl                start an interactive session",
    "  -v, --verbose         enable debug logging",
    ""]

end WhileLang.Command
