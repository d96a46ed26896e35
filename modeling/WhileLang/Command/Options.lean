import WhileLang.Command.Argument

/-!
Options of the command. The arguments take effect from left to right; those without
a meaning are complained about at the end, so that a request for help still counts.
-/

namespace WhileLang.Command

/-- What the command does with a program. -/
inductive Mode where
  | run
  | tokens
  | tree
  | session
deriving DecidableEq, Repr

/-- Everything the arguments decide. -/
structure Options where
  file? : Option String
  sample? : Option Sample
  mode : Mode
  verbose : Bool
deriving DecidableEq, Repr

/-- The options so far, and the arguments without a meaning. -/
structure Progress where
  options : Options
  extras : List String

/-- The flag that chooses a mode. -/
def Mode.flag? : Mode → Option Flag
  | .run => none
  | .tokens => some .tokens
  | .tree => some .tree
  | .session => some .session

/-- Chooses a mode; a second choice has to agree with the first. -/
def Options.choose (options : Options) (flag : Flag) (mode : Mode) :
    Except Refusal Options :=
  match options.mode.flag? with
  | none => .ok { options with mode }
  | some earlier =>
      if earlier = flag then .ok options
      else .error (.usage (.excluded flag earlier))

/-- The effect of a flag that stands alone. -/
def Options.setFlag (options : Options) : Flag → Except Refusal Options
  | .help => .error .help
  | .sample => .error (.usage .missingSample)
  | .tokens => options.choose .tokens .tokens
  | .tree => options.choose .tree .tree
  | .session => options.choose .session .session
  | .verbose => .ok { options with verbose := true }

/-- The effect of naming a sample. The separator, attached to the flag, names the
first of them. -/
def Options.setSample (options : Options) (name : String) :
    Except Refusal Options :=
  if name = separator then
    .ok { options with sample? := some .collatz }
  else
    match Sample.named? name with
    | some sample => .ok { options with sample? := some sample }
    | none => .error (.usage (.unknownSample name))

/-- The flags that a short flag and the letters behind it make up. -/
def cluster (flag : Flag) : List Char → Except Refusal (List Flag)
  | [] => .ok [flag]
  | letter :: letters =>
      match Flag.spelled? (String.ofList ['-', letter]) with
      | some following => do
          let flags ← cluster following letters
          return flag :: flags
      | none =>
          .error (.usage (.ignoredText flag (String.ofList (letter :: letters))))

/-- The effect of a flag and the text attached to it. -/
def Options.setAttached
    (options : Options) (flag : Flag) (short : Bool) (text : String) :
    Except Refusal Options :=
  if flag = .sample then
    options.setSample text
  else if short ∧ text ≠ "" then do
    let flags ← cluster flag text.toList
    flags.foldlM Options.setFlag options
  else
    .error (.usage (.ignoredText flag text))

/-- Sets an argument aside that has no meaning. -/
def Progress.setAside (progress : Progress) (text : String) : Progress :=
  { progress with extras := progress.extras ++ [text] }

/-- Lets arguments take effect. The first plain one is the file, together with a
separator directly before or behind it. -/
def consume : List Argument → Progress → Except Refusal Progress
  | [], progress => .ok progress
  | .plain text :: rest, progress =>
      if progress.options.file?.isSome then
        consume rest (progress.setAside text)
      else
        let options := { progress.options with file? := some text }
        match rest with
        | .separator :: others => consume others { progress with options }
        | others => consume others { progress with options }
  | .separator :: rest, progress =>
      if progress.options.file?.isSome then
        consume rest (progress.setAside separator)
      else
        consume rest progress
  | .unknown text :: rest, progress => consume rest (progress.setAside text)
  | .flag .sample _ none :: .plain name :: rest, progress => do
      let options ← progress.options.setSample name
      consume rest { progress with options }
  | .flag flag _ none :: rest, progress => do
      let options ← progress.options.setFlag flag
      consume rest { progress with options }
  | .flag flag short (some text) :: rest, progress => do
      let options ← progress.options.setAttached flag short text
      consume rest { progress with options }

/-- The options before any argument. -/
def Options.initial : Options :=
  ⟨none, none, .run, false⟩

/-- Reads the arguments of the command. -/
def Options.ofArguments (arguments : List String) : Except Refusal Options := do
  let classified ←
    match classifyAll arguments with
    | .ok classified => .ok classified
    | .error error => .error (.usage error)
  let progress ← consume classified ⟨Options.initial, []⟩
  if progress.extras ≠ [] then
    .error (.usage (.unrecognized progress.extras))
  else if progress.options.file?.isSome ∧ progress.options.sample?.isSome then
    .error (.usage .fileAndSample)
  else
    .ok progress.options

end WhileLang.Command
