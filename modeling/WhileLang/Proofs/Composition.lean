import WhileLang.Proofs.Reading
import WhileLang.Proofs.Trace

/-!
Programs in a row. Main statement: a text behind a program is read as it is read
alone, if its first token has no part in the last statement before it, and the two
together do what they do one after the other.
-/

namespace WhileLang

open Parse Grammar

/-! ## Reading -/

/-- Tokens that can follow those of a program without having a part in it. -/
def Composable (front back : List Token) : Prop :=
  front = [] ∨
    (ahead back ≠ .elseWord ∧
      (front.getLast?.map Token.kind = some .braceClose ∨
        (ahead back ≠ .integer ∧ ahead back ≠ .comma ∧
          Operator.ofKind? (ahead back) = none)))

variable {front back : List Token} {program : Program}

/-- If the program ends with an expression, what follows ends that expression. -/
theorem Composable.ends_expression
    (composable : Composable front back)
    (derivation : Derives front program)
    (open_ : program.getLast?.any Stmt.endsInExpression = true) :
    ahead back ≠ .integer ∧ ahead back ≠ .comma ∧
      Operator.ofKind? (ahead back) = none := by
  obtain ⟨consumed, last, shape, ends⟩ := Statements.ends open_ derivation
  rcases composable with empty | ⟨_, closed | apart⟩
  · rw [empty] at shape
    exact absurd shape.symm (by simp)
  · have kind : last.kind = .braceClose := by
      rw [shape] at closed
      simpa using closed
    rcases ends with identifier | integer | bracket
    · exact absurd (kind.symm.trans identifier) (by decide)
    · exact absurd (kind.symm.trans integer) (by decide)
    · exact absurd (kind.symm.trans bracket) (by decide)
  · exact apart

theorem Composable.quiet
    (composable : Composable front back)
    (derivation : Derives front program)
    (open_ : program.getLast?.any Stmt.endsInExpression = true) :
    Quiet false (ahead back) := by
  obtain ⟨_, noComma, noOperator⟩ := composable.ends_expression derivation open_
  refine ⟨?_, noComma, nofun⟩
  by_contra positive
  have spelled :=
    (Token.Kind.precedence_pos_iff (ahead back)).mp (Nat.pos_of_ne_zero positive)
  rw [noOperator] at spelled
  cases spelled

/-- A program is still one when tokens are added behind it. -/
theorem Composable.statements
    (composable : Composable front back)
    (derivation : Derives front program) :
    Statements false (front ++ back) back program := by
  by_cases empty : front = []
  · subst empty
    obtain ⟨rfl, _⟩ := Statements.eq_nil derivation
    exact .nil
  · have noElse : ahead back ≠ .elseWord := by
      rcases composable with absent | ⟨noElse, _⟩
      · exact absurd absent empty
      · exact noElse
    exact Statements.append back
      ⟨fun _ open_ => (composable.ends_expression derivation open_).1,
        fun _ => noElse⟩
      derivation

/-- The statements of a program come first, and then what is read alone. -/
theorem Composable.report_step
    (composable : Composable front back)
    (derivation : Derives front program)
    {statements : Program} {after : State} {complaints : List Token}
    (read :
      (Reading.step (Feed.ofTokens back)).report =
        ⟨.accepted statements, after, complaints⟩) :
    (Reading.step (Feed.ofTokens (front ++ back))).report =
      ⟨.accepted (program ++ statements), after, complaints⟩ := by
  rw [Reading.report_step] at read ⊢
  rw [Statements.report_program 0 (composable.quiet derivation)
    (composable.statements derivation)]
  exact report_map read

/-! ## Running -/

/-- Two programs run in a row: the second one goes on where the first one ends, and
the value is its own unless it is empty. -/
theorem Program.exec_append
    (limit : Nat) (first second : Program) (store : Store) :
    Program.exec limit (first ++ second) (Machine.start store) =
      match first.exec limit (Machine.start store) with
      | ⟨.finished value, after⟩ =>
          if second = [] then
            ⟨.finished value, after⟩
          else
            (second.exec limit (Machine.start after.store)).behind after.trace
      | stopped => stopped := by
  rw [Program.exec, Stmt.execEach_append, Program.exec]
  rcases Stmt.execEach limit first none (Machine.start store) with ⟨ending, after⟩
  cases ending with
  | finished value =>
      dsimp only
      split
      · rename_i empty
        rw [empty, Stmt.execEach]
      · rename_i nonempty
        have continued : after = (Machine.start after.store).behind after.trace := by
          simp [Machine.behind, Machine.start]
        rw [Stmt.execEach_value nonempty limit value none]
        conv_lhs => rw [continued]
        exact Stmt.execEach_behind limit after.trace second none _
  | failed failure => rfl
  | unfinished => rfl

/-- Nothing is executed of a text that is no program. -/
theorem Run.ofText_of_error
    {text : String} {error : SourceError}
    (failed : Program.ofText text = .error error)
    (limit : Nat) (store : Store) :
    Run.ofText limit store text =
      ⟨Reading.ofText text, .error (.source error), Machine.start store⟩ := by
  rw [Program.ofText] at failed
  unfold Run.ofText
  dsimp only
  rw [failed]

theorem Run.ofText_eq
    {text : String}
    (accepted : Program.ofText text = .ok program)
    (limit : Nat) (store : Store) :
    Run.ofText limit store text =
      ⟨Reading.ofText text, (program.exec limit (Machine.start store)).ending.result,
        (program.exec limit (Machine.start store)).machine⟩ := by
  rw [Program.ofText] at accepted
  unfold Run.ofText
  dsimp only
  rw [accepted]

theorem Run.ofText_of_program
    {text : String}
    (accepted : Program.ofText text = .ok program)
    (limit : Nat) (store : Store) :
    (Run.ofText limit store text).result =
        (program.exec limit (Machine.start store)).ending.result ∧
      (Run.ofText limit store text).machine =
        (program.exec limit (Machine.start store)).machine := by
  rw [Run.ofText_eq accepted]
  exact ⟨rfl, rfl⟩

/-- A run that does what a first one does and then, unless that fails, what a second
one does on the store it leaves. -/
structure Run.Follows
    (first : Run) (second : Store → Run) (statements : Program) (both : Run) :
    Prop where
  result :
    ∀ value, first.result = .ok value →
      both.result =
        if statements = [] then .ok value
        else (second first.machine.store).result
  store :
    ∀ value, first.result = .ok value →
      both.machine.store = (second first.machine.store).machine.store
  output :
    ∀ value, first.result = .ok value →
      both.machine.output =
        first.machine.output ++ (second first.machine.store).machine.output
  failed :
    ∀ error, first.result = .error error →
      both.result = .error error ∧ both.machine = first.machine

theorem Run.Follows.of_failed
    {first both : Run} {second : Store → Run} {statements : Program}
    {error : RunError}
    (failed : first.result = .error error)
    (result : both.result = .error error)
    (machine : both.machine = first.machine) :
    Run.Follows first second statements both := by
  have unfinished (value : Option Int) : first.result ≠ .ok value := by
    rw [failed]
    nofun
  refine ⟨?_, ?_, ?_, ?_⟩
  · exact fun value finished => absurd finished (unfinished value)
  · exact fun value finished => absurd finished (unfinished value)
  · exact fun value finished => absurd finished (unfinished value)
  · intro error' same
    rw [failed] at same
    cases same
    exact ⟨result, machine⟩

theorem Run.Follows.of_finished
    {first both : Run} {second : Store → Run} {statements : Program}
    {value : Option Int}
    (finished : first.result = .ok value)
    (result :
      both.result =
        if statements = [] then .ok value
        else (second first.machine.store).result)
    (machine :
      both.machine =
        (second first.machine.store).machine.behind first.machine.trace) :
    Run.Follows first second statements both := by
  refine ⟨?_, ?_, ?_, ?_⟩
  · intro value' same
    rw [finished] at same
    cases same
    exact result
  · intro _ _
    rw [machine]
    rfl
  · intro _ _
    rw [machine, Machine.output_behind]
    rfl
  · intro error failed
    rw [finished] at failed
    cases failed

/-- The run of two programs in a row. -/
theorem Run.follows
    {first second both : String} {statements : Program}
    (firstRead : Program.ofText first = .ok program)
    (secondRead : Program.ofText second = .ok statements)
    (bothRead : Program.ofText both = .ok (program ++ statements))
    (limit : Nat) (store : Store) :
    Run.Follows (Run.ofText limit store first)
      (fun store => Run.ofText limit store second) statements
      (Run.ofText limit store both) := by
  obtain ⟨firstResult, firstMachine⟩ := Run.ofText_of_program firstRead limit store
  obtain ⟨bothResult, bothMachine⟩ := Run.ofText_of_program bothRead limit store
  rw [Program.exec_append] at bothResult bothMachine
  rcases ran : program.exec limit (Machine.start store) with ⟨ending, after⟩
  rw [ran] at firstResult firstMachine bothResult bothMachine
  cases ending with
  | finished value =>
      obtain ⟨secondResult, secondMachine⟩ :=
        Run.ofText_of_program secondRead limit after.store
      have stored := congrArg Machine.store firstMachine
      have traced := congrArg Machine.trace firstMachine
      dsimp only at bothResult bothMachine
      by_cases empty : statements = []
      · subst empty
        refine .of_finished firstResult bothResult ?_
        rw [bothMachine, stored, traced, secondMachine]
        simp [Program.exec, Stmt.execEach, Machine.behind, Machine.start]
      · rw [if_neg empty] at bothResult bothMachine
        refine .of_finished firstResult ?_ ?_
        · rw [bothResult, if_neg empty, stored, secondResult]
          rfl
        · rw [bothMachine, stored, traced, secondMachine]
          rfl
  | failed failure =>
      exact .of_failed firstResult bothResult (bothMachine.trans firstMachine.symm)
  | unfinished =>
      exact .of_failed firstResult bothResult (bothMachine.trans firstMachine.symm)

/-! ## Both -/

/-- A program and a text that can follow it, on a line of its own, are read and run
as the one and then the other. -/
theorem Program.ofText_append_line
    {first second : String}
    (accepted : Program.ofText first = .ok program)
    (firstTokens : tokenize first = .ok (front ++ [Token.endOfInput]))
    (secondTokens : tokenize second = .ok (back ++ [Token.endOfInput]))
    (composable : Composable front back) :
    (Reading.ofText (first ++ "\n" ++ second)).diagnostics =
        (Reading.ofText second).diagnostics ∧
      ∃ statements,
        (Reading.ofText second).statements = .ok statements ∧
        (Reading.ofText (first ++ "\n" ++ second)).statements =
          .ok (program ++ statements) ∧
        ((Reading.ofText second).diagnostics = [] →
          ∀ limit store,
            Run.Follows (Run.ofText limit store first)
              (fun store => Run.ofText limit store second) statements
              (Run.ofText limit store (first ++ "\n" ++ second))) := by
  have firstSpells := (tokenize_eq_ok_iff first front).mp firstTokens
  have secondSpells := (tokenize_eq_ok_iff second back).mp secondTokens
  have bothSpells := firstSpells.append_line secondSpells
  have derivation := (Program.ofText_eq_ok_iff_of_spells firstSpells).mp accepted
  obtain ⟨statements, state, notices, read⟩ := Reading.exists_accepted_of_tokens back
  have secondReport :
      (Reading.step (Feed.ofTokens back)).report =
        ⟨.accepted statements, state, unexpectedTokens notices⟩ := by
    rw [read]
    rfl
  have bothReport := composable.report_step derivation secondReport
  have secondFeed := (Feed.ofText_eq_ofTokens_iff second back).mpr secondSpells
  have bothFeed := (Feed.ofText_eq_ofTokens_iff _ _).mpr bothSpells
  obtain ⟨secondStatements, secondComplaints⟩ :=
    Reading.ofFeed_of_accepted secondReport
  obtain ⟨bothStatements, bothComplaints⟩ := Reading.ofFeed_of_accepted bothReport
  rw [← secondFeed] at secondStatements secondComplaints
  rw [← bothFeed] at bothStatements bothComplaints
  refine ⟨?_, statements, secondStatements, bothStatements, ?_⟩
  · exact congrArg (List.map complaint) (bothComplaints.trans secondComplaints.symm)
  · intro silent limit store
    have quiet : unexpectedTokens notices = [] := by
      rw [← secondComplaints]
      exact List.map_eq_nil_iff.mp silent
    rw [quiet] at secondReport bothReport
    refine Run.follows accepted ?_ ?_ limit store
    · rw [Program.ofText, Reading.ofText, secondFeed]
      exact Reading.program_of_accepted secondReport
    · rw [Program.ofText, Reading.ofText, bothFeed]
      exact Reading.program_of_accepted bothReport

/-- An assignment and, on the next line, the printing of what it assigned. -/
theorem Program.ofText_append_print :
    ∃ statements,
      (Reading.ofText "print x").statements = .ok statements ∧
      (Reading.ofText ("x = 1" ++ "\n" ++ "print x")).statements =
        .ok ([.assign ⟨.identifier, "x"⟩ ⟨⟨.identifier, "x"⟩, "x"⟩
          (.literal ⟨.integer, "1"⟩ 1)] ++ statements) ∧
      ((Reading.ofText "print x").diagnostics = [] →
        ∀ limit store,
          Run.Follows (Run.ofText limit store "x = 1")
            (fun store => Run.ofText limit store "print x") statements
            (Run.ofText limit store ("x = 1" ++ "\n" ++ "print x"))) :=
  (@Program.ofText_append_line
    [⟨.identifier, "x"⟩, ⟨.assign, "="⟩, ⟨.integer, "1"⟩]
    [⟨.printWord, "print"⟩, ⟨.identifier, "x"⟩]
    _ "x = 1" "print x" (by decide +kernel) (by decide +kernel) (by decide +kernel)
    (.inr ⟨by decide, .inr ⟨by decide, by decide, by decide⟩⟩)).2

end WhileLang
