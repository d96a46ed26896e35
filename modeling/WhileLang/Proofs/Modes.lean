import WhileLang.Command.Report
import WhileLang.Proofs.Composition
import WhileLang.Proofs.Moves
import WhileLang.Proofs.Tally

/-!
The modes of the command on one text. Main statements: a text is read to the fault
at which it is tokenized, or to its last token; and the listing of the tokens, the
showing of the program and its run fail together, in this order.
-/

namespace WhileLang

open Parse

variable {text : String} {tokens : List Token} {fault : LexicalFault}

/-! ## Tokens -/

namespace Reading

theorem moved_step (feed : Feed) : Moved (Parser.unopened feed) (step feed) :=
  (orderly_opening _).bind fun _ after => orderly_program after

/-- Reading goes on until the end of input fills the window. -/
theorem exists_step_ofTokens
    (proper : ∀ token ∈ tokens, token.kind ≠ .endOfInput) :
    ∃ program depth notices passed,
      step (Feed.ofTokens tokens) =
          ⟨.accepted program, .seeing [] none depth, notices⟩ ∧
        pulledTokens notices = passed ++ [Token.endOfInput, Token.endOfInput] := by
  obtain ⟨program, notices, read, _⟩ := exists_program_eq proper 0
  have moved := orderly_program (.seeing tokens none 0)
  rw [Moved, read] at moved
  obtain ⟨_, passed, window⟩ := moved.window rfl
  refine ⟨program, 0,
    .pulled (tokens.headD Token.endOfInput) ::
      .pulled (tokens.tail.headD Token.endOfInput) :: notices,
    passed, ?_, window⟩
  rw [step, bind_accepted (Parser.opening_ofTokens tokens), read]
  rfl

/-- By the end of a reading every token has been pulled, in order and once, and
behind them only the end of input. -/
theorem exists_pulledTokens_eq
    (proper : ∀ token ∈ tokens, token.kind ≠ .endOfInput) :
    ∃ count,
      pulledTokens (ofFeed (Feed.ofTokens tokens)).notices =
        tokens ++ [Token.endOfInput] ++ List.replicate count Token.endOfInput := by
  obtain ⟨program, depth, notices, passed, read, filled⟩ :=
    exists_step_ofTokens proper
  have moved := moved_step (Feed.ofTokens tokens)
  rw [Moved, read] at moved
  obtain ⟨count, pulled⟩ := moved.pulled_append
  have exactly :
      pulledTokens notices = tokens ++ List.replicate count Token.endOfInput :=
    (List.append_nil _).symm.trans pulled
  rw [ofFeed_eq, read]
  cases count with
  | zero =>
      rw [List.replicate_zero, List.append_nil, filled] at exactly
      have member : Token.endOfInput ∈ tokens := by simp [← exactly]
      exact absurd rfl (proper _ member)
  | succ count =>
      rw [List.replicate_succ, List.append_cons] at exactly
      exact ⟨count, exactly⟩

end Reading

/-- What is pulled while a text is read is what it is tokenized to, and behind that
only the end of input. -/
theorem Reading.pulledTokens_of_tokenize
    {all : List Token}
    (tokenizes : tokenize text = .ok all) :
    ∃ count,
      pulledTokens (Reading.ofText text).notices =
        all ++ List.replicate count Token.endOfInput := by
  have proper := Feed.proper_ofText text
  rw [Reading.ofText]
  rw [tokenize] at tokenizes
  generalize Feed.ofText text = feed at tokenizes proper
  obtain ⟨tokens, _ | fault⟩ := feed
  · cases tokenizes
    exact Reading.exists_pulledTokens_eq proper
  · cases tokenizes

/-! ## Reports -/

namespace Command

variable {limit : Nat} {options : Options} {displays : Displays}
variable {error : SourceError} {report : Report}

theorem showProgram_of_error
    (failed : Program.ofText text = .error error) :
    showProgram options displays text =
      reportSourceError displays
        (options.logText (Reading.ofText text).log) error := by
  rw [Program.ofText] at failed
  unfold showProgram
  dsimp only
  rw [failed]

/-- A run of what is no program is like showing it. -/
theorem runProgram_of_error
    (failed : Program.ofText text = .error error) :
    runProgram limit options displays text = showProgram options displays text := by
  have shown := @showProgram_of_error _ options displays _ failed
  have ran := Run.ofText_of_error failed limit Store.empty
  have log :
      (Run.ofText limit Store.empty text).log = (Reading.ofText text).log := by
    rw [Program.ofText] at failed
    rw [ran, Run.log, failed]
  rw [shown]
  unfold runProgram
  dsimp only
  rw [log, ran]

/-- The report of a fault: behind a log, if there is to be one, the message of the
fault alone. -/
structure Report.OfFault
    (options : Options) (displays : Displays) (fault : LexicalFault)
    (report : Report) : Prop where
  exitCode : report.exitCode = 1
  output : report.output = ""
  errors :
    ∃ log,
      report.errors = log ++ messageLine displays.errors fault.message ∧
        (options.verbose = false → log = "")

theorem Report.ofFault_log
    (fault : LexicalFault) (entries : List LogEntry) :
    Report.OfFault options displays fault
      ⟨1, "", options.logText entries ++
        messageLine displays.errors fault.message⟩ := by
  refine ⟨rfl, rfl, _, rfl, fun silent => ?_⟩
  rw [Options.logText, silent]
  rfl

/-- Without a log, a fault is reported in one way. -/
theorem Report.OfFault.eq
    {report' : Report}
    (silent : options.verbose = false)
    (ofFault : report.OfFault options displays fault)
    (ofFault' : report'.OfFault options displays fault) :
    report = report' := by
  obtain ⟨exitCode, output, log, errors, empty⟩ := ofFault
  obtain ⟨exitCode', output', log', errors', empty'⟩ := ofFault'
  rw [empty silent] at errors
  rw [empty' silent] at errors'
  obtain ⟨_, _, _⟩ := report
  obtain ⟨_, _, _⟩ := report'
  simp only [Report.mk.injEq]
  exact ⟨exitCode.trans exitCode'.symm, output.trans output'.symm,
    errors.trans errors'.symm⟩

theorem listTokens_of_tokenize
    {all : List Token}
    (tokenizes : tokenize text = .ok all) :
    (listTokens options displays text).exitCode = 0 ∧
      (listTokens options displays text).output =
        String.join (all.map fun token => token.render ++ "\n") := by
  rw [tokenize] at tokenizes
  unfold listTokens
  dsimp only
  rw [tokenizes]
  exact ⟨rfl, rfl⟩

theorem showProgram_of_program
    {program : Program}
    (accepted : Program.ofText text = .ok program) :
    (showProgram options displays text).exitCode = 0 := by
  rw [Program.ofText] at accepted
  unfold showProgram
  dsimp only
  rw [accepted]

/-- A fault is reported by the listing of tokens, the showing of a program and its
run. -/
theorem perform_of_fault
    {mode : Mode}
    (onText : mode ≠ .session)
    (atFault : tokenize text = .error fault) :
    (perform limit { options with mode } displays text).OfFault
      options displays fault := by
  have failed := (Program.ofText_eq_lexical_iff text fault).mpr atFault
  have shown : (showProgram options displays text).OfFault options displays fault := by
    rw [showProgram_of_error failed]
    exact Report.ofFault_log fault _
  cases mode with
  | tokens =>
      show (listTokens options displays text).OfFault options displays fault
      rw [tokenize] at atFault
      unfold listTokens
      dsimp only
      rw [atFault]
      exact Report.ofFault_log fault _
  | tree => exact shown
  | run =>
      show (runProgram limit options displays text).OfFault options displays fault
      rw [runProgram_of_error failed]
      exact shown
  | session => exact absurd rfl onText

/-- A text is read up to the fault at which it is tokenized, and if there is none
every token is pulled. At a fault the listing of the tokens, the showing of the
program and the run all fail, and report the fault alone; without one every token is
listed. So if the listing fails, the showing and the run do, and in the same way. If
the showing fails, so does the run, and on unexpected tokens in the same way and
before anything is executed. -/
theorem perform_modes (text : String) :
    (∀ fault,
      Program.ofText text = .error (.broken (.lexical fault)) ↔
        tokenize text = .error fault) ∧
    (∀ tokens, tokenize text = .ok tokens →
      ∃ count,
        pulledTokens (Reading.ofText text).notices =
          tokens ++ List.replicate count Token.endOfInput) ∧
    ∀ limit options displays,
      let report (mode : Mode) := perform limit { options with mode } displays text
      (∀ fault, tokenize text = .error fault →
        ∀ mode, mode ≠ .session → (report mode).OfFault options displays fault) ∧
      (∀ tokens, tokenize text = .ok tokens →
        (report .tokens).exitCode = 0 ∧
          (report .tokens).output =
            String.join (tokens.map fun token => token.render ++ "\n")) ∧
      ((report .tokens).exitCode = 1 →
        (∃ fault,
          tokenize text = .error fault ∧
            ∀ mode, mode ≠ .session →
              (report mode).OfFault options displays fault) ∧
        (options.verbose = false →
          report .tree = report .tokens ∧ report .run = report .tokens)) ∧
      ((report .tree).exitCode = 1 → (report .run).exitCode = 1) ∧
      (∀ tokens, Program.ofText text = .error (.unexpected tokens) →
        (report .tree).exitCode = 1 ∧
          (report .tree).output =
            messageLine displays.output ("\n".intercalate (tokens.map complaint)) ∧
          report .run = report .tree ∧
          ∀ store, (Run.ofText limit store text).machine = Machine.start store) ∧
      ((report .run).exitCode = 0 → (report .tree).exitCode = 0) ∧
      ((report .tree).exitCode = 0 → (report .tokens).exitCode = 0) := by
  refine ⟨Program.ofText_eq_lexical_iff text,
    fun tokens => Reading.pulledTokens_of_tokenize, ?_⟩
  intro limit options displays report
  have faulty {fault : LexicalFault} (atFault : tokenize text = .error fault) :
      ∀ mode, mode ≠ .session → (report mode).OfFault options displays fault :=
    fun mode onText => perform_of_fault onText atFault
  have listed {all : List Token} (tokenizes : tokenize text = .ok all) :
      (report .tokens).exitCode = 0 ∧
        (report .tokens).output =
          String.join (all.map fun token => token.render ++ "\n") :=
    listTokens_of_tokenize tokenizes
  have shown {program : Program} (accepted : Program.ofText text = .ok program) :
      (report .tree).exitCode = 0 :=
    showProgram_of_program accepted
  have refused {error : SourceError} (failed : Program.ofText text = .error error) :
      report .run = report .tree :=
    runProgram_of_error failed
  have refusal {error : SourceError} (failed : Program.ofText text = .error error) :
      report .tree =
        reportSourceError displays
          (options.logText (Reading.ofText text).log) error :=
    showProgram_of_error failed
  refine ⟨fun fault => faulty, fun all => listed, ?_, ?_, ?_, ?_, ?_⟩
  · intro exitCode
    rcases tokenizes : tokenize text with fault | all
    · have reports := faulty tokenizes
      refine ⟨⟨fault, rfl, reports⟩, fun silent => ⟨?_, ?_⟩⟩
      · exact (reports .tree nofun).eq silent (reports .tokens nofun)
      · exact (reports .run nofun).eq silent (reports .tokens nofun)
    · rw [(listed tokenizes).1] at exitCode
      cases exitCode
  · intro exitCode
    rcases read : Program.ofText text with error | program
    · rw [refused read]
      exact exitCode
    · rw [shown read] at exitCode
      cases exitCode
  · intro tokens read
    refine ⟨?_, ?_, refused read, fun store => ?_⟩
    · rw [refusal read]
      rfl
    · rw [refusal read]
      rfl
    · exact congrArg Run.machine (Run.ofText_of_error read limit store)
  · intro exitCode
    rcases read : Program.ofText text with error | program
    · rwa [← refused read]
    · exact shown read
  · intro exitCode
    rcases tokenizes : tokenize text with fault | all
    · rw [(faulty tokenizes .tree nofun).exitCode] at exitCode
      cases exitCode
    · exact (listed tokenizes).1

end Command

end WhileLang
