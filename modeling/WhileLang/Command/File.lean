import WhileLang.Text.Newline
import WhileLang.Text.Quoted

/-!
Files named on the command line: the text of a path, the ways of not being able
to read it, and the text that the bytes of a file encode.
-/

namespace WhileLang.Command

/-- The steps of a path: what stands between its slashes, without empty steps and
steps that stay where they are. -/
def pathSteps (path : String) : List String :=
  ((Text.linesBy (· == '/') path.toList).map String.ofList).filter fun step =>
    step ≠ "" ∧ step ≠ "."

/-- The slashes that a path keeps at its front: two if it has just two there, and
one if it has more. -/
def pathRoot (path : String) : String :=
  match (path.toList.takeWhile (· == '/')).length with
  | 0 => ""
  | 2 => "//"
  | _ => "/"

/-- A path in its shortest spelling; the empty one is that of the directory the
command runs in. -/
def normalPath (path : String) : String :=
  let shortened := pathRoot path ++ "/".intercalate (pathSteps path)
  if shortened.isEmpty then "." else shortened

/-- Why a file cannot be read. The path is in its shortest spelling. -/
inductive FileError where
  | missing (path : String)
  | directory (path : String)
  | belowFile (path : String)
  | undecodable
deriving DecidableEq, Repr

/-- Wording of a file error; bytes that encode no text are not described. -/
def FileError.message? : FileError → Option String
  | .missing path =>
      some ("[Errno 2] No such file or directory: " ++ Text.quote path)
  | .directory path => some ("[Errno 21] Is a directory: " ++ Text.quote path)
  | .belowFile path => some ("[Errno 20] Not a directory: " ++ Text.quote path)
  | .undecodable => none

/-- The files of a directory, by their names. -/
abbrev Directory := List (String × ByteArray)

/-- Does one path, in its shortest spelling, lead through another? -/
def leadsThrough (path folder : String) : Bool :=
  (folder ++ "/").toList.isPrefixOf path.toList

/-- The bytes of the file at a path. A path is that of a directory if it leads
nowhere but up, or if the path of some file leads through it. -/
def Directory.read (directory : Directory) (path : String) :
    Except FileError ByteArray :=
  let shortest := normalPath path
  if (pathSteps path).all (· == "..") ∨
      directory.any fun (name, _) => leadsThrough name shortest then
    .error (.directory shortest)
  else
    match directory.find? (·.1 == shortest) with
    | some (_, bytes) => .ok bytes
    | none =>
        if directory.any fun (name, _) => leadsThrough shortest name then
          .error (.belowFile shortest)
        else
          .error (.missing shortest)

/-- The text that bytes encode in UTF-8, with its line ends folded. -/
def decode (bytes : ByteArray) : Except FileError String :=
  match String.fromUTF8? bytes with
  | some text => .ok (String.ofList (Text.foldNewlines text.toList))
  | none => .error .undecodable

end WhileLang.Command
