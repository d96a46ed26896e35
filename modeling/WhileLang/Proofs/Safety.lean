import WhileLang.Proofs.Composition
import WhileLang.Proofs.Decomposition
import WhileLang.Proofs.Recovery
import WhileLang.Session

/-!
What a run of a text can come to. Main statements: on a store that holds words alone
a text has a result, is no program, or has one of three faults that a program can
have; and in whatever order texts are run, the store holds words alone.
-/

namespace WhileLang

variable {source : List Token}

/-! ## Stores and failures -/

/-- A store that holds words alone. -/
def Store.Bounded (store : Store) : Prop :=
  ∀ name value, store.get? name = some value →
    ∃ word, value = .integer word ∧ Word.InRange word

namespace Store.Bounded

theorem empty : Store.empty.Bounded := by
  intro name value found
  rw [Store.get?_empty] at found
  cases found

theorem set
    {store : Store} {word : Int}
    (bounded : store.Bounded)
    (name : String)
    (inRange : Word.InRange word) :
    (store.set name (.integer word)).Bounded := by
  intro other value found
  rw [Store.get?_set] at found
  split at found
  · cases found
    exact ⟨word, rfl, inRange⟩
  · exact bounded other value found

end Store.Bounded

/-- A fault that a program made of some tokens can have. -/
inductive Fault.Possible (source : List Token) : Fault → Prop
  | divisionByZero : Possible source .divisionByZero
  | moduloByZero : Possible source .moduloByZero
  | unknownName {name : String} :
      Token.mk .identifier name ∈ source →
      Possible source (.unknownName name)

/-- A failure that is a fault of a program, and not of a tree or a store. -/
inductive Failure.Possible (source : List Token) : Failure → Prop
  | fault {fault : Fault} :
      fault.Possible source →
      Possible source (.fault fault)

/-! ## Values -/

/-- A result that is a word, or a failure that is possible. -/
inductive Sound (source : List Token) : Except Failure Int → Prop
  | ok {value : Int} :
      Word.InRange value →
      Sound source (.ok value)
  | error {failure : Failure} :
      failure.Possible source →
      Sound source (.error failure)

theorem Operator.sound_apply
    {kind : Token.Kind} {operator : Operator}
    (signed : Operator.ofKind? kind = some operator)
    (left right : Int) :
    Sound source (operator.apply left right) := by
  rcases applied : operator.apply left right with failure | value
  · cases operator with
    | div =>
        by_cases zero : right = 0
        · rw [zero, Operator.apply_div_zero] at applied
          cases applied
          exact .error (.fault .divisionByZero)
        · rw [Operator.apply_div zero] at applied
          cases applied
    | mod =>
        by_cases zero : right = 0
        · rw [zero, Operator.apply_mod_zero] at applied
          cases applied
          exact .error (.fault .moduloByZero)
        · rw [Operator.apply_mod zero] at applied
          cases applied
    | unknown name => cases kind <;> cases signed
    | _ => cases applied
  · exact .ok (Operator.inRange_of_apply applied)

theorem Store.Bounded.sound_fetchInteger
    {store : Store} {name : String}
    (bounded : store.Bounded)
    (identifier : Token.mk .identifier name ∈ source) :
    Sound source (store.fetchInteger name) := by
  unfold Store.fetchInteger Store.fetch
  cases found : store.get? name with
  | none => exact .error (.fault (.unknownName identifier))
  | some value =>
      obtain ⟨word, rfl, inRange⟩ := bounded name value found
      exact .ok inRange

theorem Token.Literal.inRange
    {token : Token} {value : Int}
    (literal : token.Literal value) :
    Word.InRange value :=
  Numeral.inRange_of_readWord literal.readWord

theorem Expr.sound_eval
    {store : Store} {value : Expr}
    (bounded : store.Bounded)
    (parsed : value.Parsed)
    (named : Named source value.names) :
    Sound source (value.eval store) := by
  induction parsed with
  | @name token identifier _ =>
      exact bounded.sound_fetchInteger (named _ List.mem_cons_self)
  | literal literal => exact .ok literal.inRange
  | @operation sign left right operator signed _ _ _ leftHypothesis rightHypothesis =>
      obtain ⟨leftNamed, rightNamed⟩ := Named.append_iff.mp named
      have leftSound := leftHypothesis leftNamed
      have rightSound := rightHypothesis rightNamed
      rw [Expr.eval]
      generalize left.eval store = leftResult at leftSound ⊢
      generalize right.eval store = rightResult at rightSound ⊢
      cases leftSound with
      | error possible => exact .error possible
      | ok _ =>
          cases rightSound with
          | error possible => exact .error possible
          | ok _ => exact Operator.sound_apply signed _ _

/-! ## Outcomes -/

/-- A machine whose store holds words alone, and which has printed words alone. -/
structure Machine.Bounded (machine : Machine) : Prop where
  store : machine.store.Bounded
  printed : ∀ value ∈ machine.printed, Word.InRange value

namespace Machine.Bounded

variable {machine : Machine} {value : Int}

theorem start {store : Store} (bounded : store.Bounded) :
    (Machine.start store).Bounded :=
  ⟨bounded, nofun⟩

theorem assign
    (bounded : machine.Bounded)
    (name : String)
    (inRange : Word.InRange value) :
    (machine.assign name value).Bounded := by
  refine ⟨bounded.store.set name inRange, ?_⟩
  have samePrinted : (machine.assign name value).printed = machine.printed := by
    simp [Machine.assign, Machine.printed]
  rw [samePrinted]
  exact bounded.printed

theorem print
    (bounded : machine.Bounded)
    (inRange : Word.InRange value) :
    (machine.print value).Bounded := by
  refine ⟨bounded.store, ?_⟩
  have printed : (machine.print value).printed = machine.printed ++ [value] := by
    simp [Machine.print, Machine.printed]
  rw [printed]
  exact List.forall_mem_append.mpr
    ⟨bounded.printed, List.forall_mem_singleton.mpr inRange⟩

end Machine.Bounded

/-- An end of a run with no value or a word, with a possible failure, or at a
limit. -/
inductive Ending.Possible (source : List Token) : Ending → Prop
  | nothing : Possible source (.finished none)
  | value {value : Int} :
      Word.InRange value →
      Possible source (.finished (some value))
  | failed {failure : Failure} :
      failure.Possible source →
      Possible source (.failed failure)
  | unfinished : Possible source .unfinished

/-- An outcome that a program made of some tokens can have. -/
structure Outcome.Possible (source : List Token) (outcome : Outcome) : Prop where
  ending : outcome.ending.Possible source
  machine : outcome.machine.Bounded

namespace Machine

variable {machine : Machine} {condition value : Expr}

theorem possible_evaluate
    {next : Int → Outcome}
    (bounded : machine.Bounded)
    (built : value.Built source)
    (further : ∀ result, Word.InRange result → (next result).Possible source) :
    (machine.evaluate value next).Possible source := by
  have sound := Expr.sound_eval bounded.store built.parsed built.named
  unfold Machine.evaluate
  generalize value.eval machine.store = result at sound ⊢
  cases sound with
  | ok inRange => exact further _ inRange
  | error possible => exact ⟨.failed possible, bounded⟩

theorem possible_printEach
    {values : List Expr}
    (built : ∀ value ∈ values, value.Built source)
    (bounded : machine.Bounded) :
    (machine.printEach values).Possible source := by
  induction values generalizing machine with
  | nil => exact ⟨.nothing, bounded⟩
  | cons value rest inductionHypothesis =>
      obtain ⟨first, others⟩ := List.forall_mem_cons.mp built
      exact possible_evaluate bounded first fun result inRange =>
        inductionHypothesis others (bounded.print inRange)

/-- What every round of a loop keeps, the loop keeps. -/
theorem possible_loop
    {body : Machine → Outcome}
    (built : condition.Built source)
    (round : ∀ machine, machine.Bounded → (body machine).Possible source)
    (limit : Nat)
    (bounded : machine.Bounded) :
    (machine.loop condition body limit).Possible source := by
  induction limit generalizing machine with
  | zero => exact ⟨.unfinished, bounded⟩
  | succ limit inductionHypothesis =>
      refine possible_evaluate bounded built fun truth _ => ?_
      split
      · have possible := round machine bounded
        generalize body machine = outcome at possible ⊢
        obtain ⟨ending, after⟩ := outcome
        cases ending with
        | finished _ => exact inductionHypothesis possible.machine
        | failed _ => exact possible
        | unfinished => exact possible
      · exact ⟨.nothing, bounded⟩

end Machine

mutual

theorem Stmt.Parsed.possible_exec
    (limit : Nat) {item : Stmt} {machine : Machine}
    (named : Named source item.names)
    (bounded : machine.Bounded) :
    item.Parsed → (item.exec limit machine).Possible source
  | .expression parsed => by
      rw [Stmt.exec]
      exact Machine.possible_evaluate bounded ⟨parsed, named⟩ fun result inRange =>
        ⟨.value inRange, bounded⟩
  | .assign _ _ parsed => by
      have others := (List.forall_mem_cons.mp named).2
      rw [Stmt.exec]
      exact Machine.possible_evaluate bounded ⟨parsed, others⟩ fun result inRange =>
        ⟨.value inRange, bounded.assign _ inRange⟩
  | .print parsed => by
      rw [Stmt.exec]
      refine Machine.possible_printEach (fun value member => ?_) bounded
      exact ⟨parsed value member, fun name occurs =>
        named name (List.mem_flatMap.mpr ⟨value, member, occurs⟩)⟩
  | .ifThen truth first => by
      obtain ⟨truthNamed, firstNamed⟩ := Named.append_iff.mp named
      rw [Stmt.exec]
      refine Machine.possible_evaluate bounded ⟨truth, truthNamed⟩ fun result _ => ?_
      split
      · exact first.possible_exec limit firstNamed bounded
      · exact ⟨.nothing, bounded⟩
  | .ifElse truth first second => by
      obtain ⟨bothNamed, secondNamed⟩ := Named.append_iff.mp named
      obtain ⟨truthNamed, firstNamed⟩ := Named.append_iff.mp bothNamed
      rw [Stmt.exec]
      refine Machine.possible_evaluate bounded ⟨truth, truthNamed⟩ fun result _ => ?_
      split
      · exact first.possible_exec limit firstNamed bounded
      · split
        · exact second.possible_exec limit secondNamed bounded
        · exact ⟨.nothing, bounded⟩
  | .whileDo truth body => by
      obtain ⟨truthNamed, bodyNamed⟩ := Named.append_iff.mp named
      rw [Stmt.exec]
      exact Machine.possible_loop ⟨truth, truthNamed⟩
        (fun _ bounded => body.possible_exec limit bodyNamed bounded) limit bounded

theorem Stmt.ParsedBlock.possible_exec
    (limit : Nat) {item : Stmt} {machine : Machine}
    (named : Named source item.names)
    (bounded : machine.Bounded) :
    item.ParsedBlock → (item.exec limit machine).Possible source
  | .block items => by
      rw [Stmt.exec]
      exact items.possible_execEach limit named .nothing bounded

theorem Stmt.ParsedEach.possible_execEach
    (limit : Nat) {items : List Stmt} {value : Option Int} {machine : Machine}
    (named : Named source (Stmt.namesEach items))
    (possible : (Ending.finished value).Possible source)
    (bounded : machine.Bounded) :
    Stmt.ParsedEach items →
      (Stmt.execEach limit items value machine).Possible source
  | .nil => by
      rw [Stmt.execEach]
      exact ⟨possible, bounded⟩
  | @Stmt.ParsedEach.cons item rest first others => by
      obtain ⟨firstNamed, othersNamed⟩ := Named.append_iff.mp named
      have ran := first.possible_exec limit firstNamed bounded
      rw [Stmt.execEach]
      generalize item.exec limit machine = outcome at ran ⊢
      obtain ⟨ending, after⟩ := outcome
      cases ending with
      | finished between =>
          exact others.possible_execEach limit othersNamed ran.ending ran.machine
      | failed _ => exact ran
      | unfinished => exact ran

end

/-! ## Runs -/

section

variable {text : String} {store : Store}

theorem Reading.statements_of_program
    {program : Program}
    (accepted : Program.ofText text = .ok program) :
    (Reading.ofText text).statements = .ok program := by
  rw [Program.ofText, Reading.program] at accepted
  rcases read : (Reading.ofText text).statements with breakage | statements
  · rw [read] at accepted
    cases accepted
  · rw [read] at accepted
    dsimp only at accepted
    split at accepted
    · cases accepted
      rfl
    · cases accepted

/-- What a text that is a program comes to. -/
theorem Program.possible_exec
    {program : Program}
    (accepted : Program.ofText text = .ok program)
    (bounded : store.Bounded)
    (limit : Nat) :
    (program.exec limit (Machine.start store)).Possible
      (Feed.ofText text).tokens := by
  have built := Reading.built_of_statements (Reading.statements_of_program accepted)
  exact built.parsed.possible_execEach limit built.named .nothing
    (.start bounded)

/-- Whatever a text is, a run of it leaves a bounded machine. -/
theorem Run.bounded_ofText
    (bounded : store.Bounded)
    (limit : Nat) (text : String) :
    (Run.ofText limit store text).machine.Bounded ∧
      ∀ value, (Run.ofText limit store text).result = .ok (some value) →
        Word.InRange value := by
  rcases read : Program.ofText text with error | program
  · rw [Run.ofText_of_error read]
    exact ⟨.start bounded, nofun⟩
  · have possible := Program.possible_exec read bounded limit
    obtain ⟨result, machine⟩ := Run.ofText_of_program read limit store
    rw [result, machine]
    refine ⟨possible.machine, fun value finished => ?_⟩
    have ending := possible.ending
    generalize (program.exec limit (Machine.start store)).ending = ended
      at finished ending
    cases ending with
    | value inRange =>
        cases finished
        exact inRange
    | nothing | failed _ | unfinished => cases finished

/-- What a run of a text can come to: a value or none, the fault at which the text is
tokenized, unexpected tokens, or a fault of the program. -/
inductive Run.Expected (text : String) : Except RunError (Option Int) → Prop
  | value (value? : Option Int) : Expected text (.ok value?)
  | lexical {fault : LexicalFault} :
      tokenize text = .error fault →
      Expected text (.error (.source (.broken (.lexical fault))))
  | unexpected (first : Token) (others : List Token) :
      Expected text (.error (.source (.unexpected (first :: others))))
  | fault {fault : Fault} :
      fault.summary = "Division by zero" ∨
        fault.summary = "Modulo by zero" ∨
          (∃ name,
            Token.mk .identifier name ∈ (Feed.ofText text).tokens ∧
              fault.summary = "Unknown identifier: " ++ name) →
      Expected text (.error (.failure (.fault fault)))

theorem Fault.Possible.summary
    {fault : Fault}
    (possible : fault.Possible source) :
    fault.summary = "Division by zero" ∨
      fault.summary = "Modulo by zero" ∨
        ∃ name,
          Token.mk .identifier name ∈ source ∧
            fault.summary = "Unknown identifier: " ++ name := by
  cases possible with
  | divisionByZero => exact .inl rfl
  | moduloByZero => exact .inr (.inl rfl)
  | unknownName identifier => exact .inr (.inr ⟨_, identifier, rfl⟩)

theorem Program.exists_unexpected
    {tokens : List Token}
    (refused : Program.ofText text = .error (.unexpected tokens)) :
    ∃ first others, tokens = first :: others := by
  rw [Program.ofText, Reading.program] at refused
  split at refused
  · cases refused
  · split at refused
    · cases refused
    · cases refused
      exact ⟨_, _, rfl⟩

theorem Run.expected_ofText
    {limit : Nat}
    (bounded : store.Bounded)
    (terminates : (Run.ofText limit store text).result ≠ .error .unfinished) :
    Run.Expected text (Run.ofText limit store text).result := by
  rcases read : Program.ofText text with error | program
  · rw [Run.ofText_of_error read]
    cases error with
    | broken breakage =>
        obtain ⟨fault, rfl, atFault⟩ :=
          (Program.ofText_eq_broken_iff text breakage).mp read
        exact .lexical atFault
    | unexpected tokens =>
        obtain ⟨first, others, rfl⟩ := Program.exists_unexpected read
        exact .unexpected first others
  · have ending := (Program.possible_exec read bounded limit).ending
    have result := (Run.ofText_of_program read limit store).1
    rw [result] at terminates ⊢
    generalize (program.exec limit (Machine.start store)).ending = ended
      at terminates ending
    cases ending with
    | nothing => exact .value none
    | value _ => exact .value (some _)
    | failed possible =>
        cases possible with
        | fault possible => exact .fault possible.summary
    | unfinished => exact absurd rfl terminates

end

/-- Nothing that a text can be takes a parser or a run by surprise. The tokens of a
text are legal; whatever a parser of it is asked for, the trees it answers with are
made as derivations make them, also where there are unexpected tokens; and on a store
of words every run that ends comes to what it is expected to come to, and leaves a
store of words. -/
theorem Run.safe_ofText (text : String) :
    (∀ token ∈ (Feed.ofText text).tokens, token.kind.Legal token.lexeme.toList) ∧
    (∀ parser, Parser.Reachable (Feed.ofText text) parser →
      ∀ operation answer, (parser.perform operation).1 = .accepted answer →
        answer.Built (Feed.ofText text).tokens) ∧
    (∀ program, (Reading.ofText text).statements = .ok program →
      Stmt.BuiltEach (Feed.ofText text).tokens program) ∧
    ∀ limit store, store.Bounded →
      (Run.ofText limit store text).result ≠ .error .unfinished →
        Run.Expected text (Run.ofText limit store text).result ∧
          (Run.ofText limit store text).machine.store.Bounded := by
  refine ⟨?_, ?_, ?_, ?_⟩
  · intro token member
    have spelled := Feed.spelled_ofText text token member
    exact (Token.spelled?_eq_some_iff _ _).mp spelled
  · exact fun parser reachable operation answer answered => reachable.built answered
  · exact fun program read => Reading.built_of_statements read
  · intro limit store bounded terminates
    exact ⟨Run.expected_ofText bounded terminates,
      (Run.bounded_ofText bounded limit text).1.store⟩

/-- A division by what a store holds, behind an assignment to it. -/
theorem Run.safe_division :
    Run.Expected "x = 2147483647 + 1 print 1 / (x - x)"
        (.error (.failure (.fault .divisionByZero))) ∧
      (Run.ofText 0 (Store.empty.set "x" (.integer 7))
        "x = 2147483647 + 1 print 1 / (x - x)").machine.store.Bounded := by
  have bounded : (Store.empty.set "x" (.integer 7)).Bounded :=
    Store.Bounded.empty.set "x" (by decide)
  have result :
      (Run.ofText 0 (Store.empty.set "x" (.integer 7))
        "x = 2147483647 + 1 print 1 / (x - x)").result =
        .error (.failure (.fault .divisionByZero)) := by
    decide +kernel
  have safe :=
    (Run.safe_ofText "x = 2147483647 + 1 print 1 / (x - x)").2.2.2 0 _ bounded
      (by rw [result]; nofun)
  rwa [result] at safe

/-! ## Runs in a row -/

/-- The runs of some texts under limits, each on the store that the one before it
leaves. -/
def Run.inTurn (store : Store) : List (Nat × String) → List Run
  | [] => []
  | (limit, text) :: calls =>
      Run.ofText limit store text ::
        Run.inTurn (Run.ofText limit store text).machine.store calls

/-- In whatever order texts are run, and however each of the runs ends, the store
holds words alone, and nothing else is printed or comes of a run. -/
theorem Run.bounded_inTurn
    {store : Store}
    (bounded : store.Bounded)
    (calls : List (Nat × String)) :
    ∀ run ∈ Run.inTurn store calls,
      run.machine.store.Bounded ∧
        (∀ value ∈ run.machine.printed, Word.InRange value) ∧
          ∀ value, run.result = .ok (some value) → Word.InRange value := by
  induction calls generalizing store with
  | nil =>
      intro run member
      cases member
  | cons call calls inductionHypothesis =>
      obtain ⟨limit, text⟩ := call
      obtain ⟨machine, result⟩ := Run.bounded_ofText bounded limit text
      rw [Run.inTurn, List.forall_mem_cons]
      exact ⟨⟨machine.store, machine.printed, result⟩,
        inductionHypothesis machine.store⟩

/-- The least word divided by minus one, and a run that fails behind an assignment. -/
theorem Run.bounded_inTurn_quotient :
    Store.empty.Bounded ∧
      ∀ run ∈
        Run.inTurn Store.empty
          [(0, "x = 0 - 2147483647 - 1 print x / (0 - 1)"),
            (0, "x = x * x - 1 print 1 % 0")],
        run.machine.store.Bounded ∧
          (∀ value ∈ run.machine.printed, Word.InRange value) ∧
            ∀ value, run.result = .ok (some value) → Word.InRange value :=
  ⟨Store.Bounded.empty, Run.bounded_inTurn Store.Bounded.empty _⟩

end WhileLang
