import WhileLang.Proofs.Composition
import WhileLang.Proofs.Recovery

/-!
Runs that go in step. Main statements: a run that ends is followed to the same end by the
run of a related machine, under any limit that is no smaller, if the relation is kept by
what a run does to a machine; and a run of a text that ends is the same under every limit
that it does not come to.
-/

namespace WhileLang

/-! ## Relations of machines -/

/-- A relation of machines that agree on some names, which is kept when both do the
same. -/
structure Machine.Lockstep
    (names : List String) (related : Machine → Machine → Prop) : Prop where
  agree : ∀ {first second : Machine}, related first second →
    ∀ name ∈ names, second.store.get? name = first.store.get? name
  assign : ∀ {first second : Machine}, related first second →
    ∀ name value, related (first.assign name value) (second.assign name value)
  print : ∀ {first second : Machine}, related first second →
    ∀ value, related (first.print value) (second.print value)

/-- The same ending with related machines, unless the first run came to its limit; of
the second one nothing is said then. -/
inductive Outcome.Followed (related : Machine → Machine → Prop) :
    Outcome → Outcome → Prop
  | ended {first second : Machine} (ending : Ending) :
      related first second →
      Followed related ⟨ending, first⟩ ⟨ending, second⟩
  | unfinished (first : Machine) (second : Outcome) :
      Followed related ⟨.unfinished, first⟩ second

/-- The value of an expression depends on the names in it alone. -/
theorem Expr.eval_congr
    {value : Expr} {first second : Store}
    (agree : ∀ name ∈ value.names, second.get? name = first.get? name) :
    value.eval second = value.eval first := by
  induction value with
  | ident token name =>
      rw [Expr.eval, Expr.eval]
      unfold Store.fetchInteger Store.fetch
      rw [agree name List.mem_cons_self]
  | literal token value => rfl
  | binary token left operator right leftHypothesis rightHypothesis =>
      obtain ⟨leftAgree, rightAgree⟩ := List.forall_mem_append.mp agree
      rw [Expr.eval, Expr.eval, leftHypothesis leftAgree, rightHypothesis rightAgree]
  | foreign rendering => rfl

/-! ## Statements -/

section

variable {names : List String} {related : Machine → Machine → Prop}
variable {first second : Machine}

namespace Machine.Lockstep

theorem evaluate
    {value : Expr} {next next' : Int → Outcome}
    (lockstep : Lockstep names related)
    (covered : value.names ⊆ names)
    (start : related first second)
    (further : ∀ result, (next result).Followed related (next' result)) :
    (first.evaluate value next).Followed related (second.evaluate value next') := by
  have same : value.eval second.store = value.eval first.store :=
    Expr.eval_congr fun name member => lockstep.agree start name (covered member)
  unfold Machine.evaluate
  rw [same]
  cases value.eval first.store with
  | error failure => exact .ended _ start
  | ok result => exact further result

theorem printEach
    {values : List Expr}
    (lockstep : Lockstep names related)
    (covered : values.flatMap Expr.names ⊆ names)
    (start : related first second) :
    (first.printEach values).Followed related (second.printEach values) := by
  induction values generalizing first second with
  | nil => exact .ended _ start
  | cons value rest inductionHypothesis =>
      obtain ⟨coveredFirst, coveredRest⟩ := List.append_subset.mp covered
      refine lockstep.evaluate coveredFirst start fun result => ?_
      exact inductionHypothesis coveredRest (lockstep.print start result)

/-- What follows every round of a loop follows the loop. -/
theorem loop
    {condition : Expr} {body body' : Machine → Outcome}
    (lockstep : Lockstep names related)
    (covered : condition.names ⊆ names)
    (round : ∀ {first second}, related first second →
      (body first).Followed related (body' second))
    {limit limit' : Nat}
    (enough : limit ≤ limit')
    (start : related first second) :
    (first.loop condition body limit).Followed related
      (second.loop condition body' limit') := by
  induction limit generalizing limit' first second with
  | zero => exact .unfinished _ _
  | succ limit inductionHypothesis =>
      -- Where the first loop has a round left, the second one has a round left too.
      obtain ⟨limit', rfl⟩ : ∃ more, limit' = more + 1 :=
        Nat.exists_eq_succ_of_ne_zero (by omega)
      refine lockstep.evaluate covered start fun truth => ?_
      split
      · have followed := round start
        generalize body first = outcome at followed ⊢
        generalize body' second = outcome' at followed ⊢
        cases followed with
        | ended ending related =>
            cases ending with
            | finished value => exact inductionHypothesis (by omega) related
            | failed failure => exact .ended _ related
            | unfinished => exact .unfinished _ _
        | unfinished => exact .unfinished _ _
      · exact .ended _ start

end Machine.Lockstep

mutual

theorem Stmt.followed_exec
    (lockstep : Machine.Lockstep names related)
    {limit limit' : Nat}
    (enough : limit ≤ limit') :
    {item : Stmt} → item.names ⊆ names →
    {first second : Machine} → related first second →
      (item.exec limit first).Followed related (item.exec limit' second)
  | .expression _ _, covered, _, _, start => by
      rw [Stmt.exec, Stmt.exec]
      exact lockstep.evaluate covered start fun _ => .ended _ start
  | .assign _ target _, covered, _, _, start => by
      rw [Stmt.exec, Stmt.exec]
      refine lockstep.evaluate (List.cons_subset.mp covered).2 start fun result => ?_
      exact .ended _ (lockstep.assign start target.name result)
  | .block _ items, covered, _, _, start => by
      rw [Stmt.exec, Stmt.exec]
      exact Stmt.followed_execEach lockstep enough covered none start
  | .ifThen _ _ _, covered, _, _, start => by
      obtain ⟨coveredTruth, coveredFirst⟩ := List.append_subset.mp covered
      rw [Stmt.exec, Stmt.exec]
      refine lockstep.evaluate coveredTruth start fun truth => ?_
      split
      · exact Stmt.followed_exec lockstep enough coveredFirst start
      · exact .ended _ start
  | .ifElse _ _ _ _, covered, _, _, start => by
      obtain ⟨coveredBoth, coveredSecond⟩ := List.append_subset.mp covered
      obtain ⟨coveredTruth, coveredFirst⟩ := List.append_subset.mp coveredBoth
      rw [Stmt.exec, Stmt.exec]
      refine lockstep.evaluate coveredTruth start fun truth => ?_
      split
      · exact Stmt.followed_exec lockstep enough coveredFirst start
      · split
        · exact Stmt.followed_exec lockstep enough coveredSecond start
        · exact .ended _ start
  | .whileDo _ _ _, covered, _, _, start => by
      obtain ⟨coveredTruth, coveredBody⟩ := List.append_subset.mp covered
      rw [Stmt.exec, Stmt.exec]
      exact lockstep.loop coveredTruth
        (Stmt.followed_exec lockstep enough coveredBody) enough start
  | .print _ _, covered, _, _, start => by
      rw [Stmt.exec, Stmt.exec]
      exact lockstep.printEach covered start
  | .bare _, covered, _, _, start => by
      rw [Stmt.exec, Stmt.exec]
      exact lockstep.evaluate covered start fun _ => .ended _ start
  | .sequence items, covered, _, _, start => by
      rw [Stmt.exec, Stmt.exec]
      exact Stmt.followed_execEach lockstep enough covered none start
  | .foreign _, _, _, _, start => by
      rw [Stmt.exec, Stmt.exec]
      exact .ended _ start

theorem Stmt.followed_execEach
    (lockstep : Machine.Lockstep names related)
    {limit limit' : Nat}
    (enough : limit ≤ limit') :
    {items : List Stmt} → Stmt.namesEach items ⊆ names → (value : Option Int) →
    {first second : Machine} → related first second →
      (Stmt.execEach limit items value first).Followed related
        (Stmt.execEach limit' items value second)
  | [], _, _, _, _, start => by
      rw [Stmt.execEach, Stmt.execEach]
      exact .ended _ start
  | item :: rest, covered, _, first, second, start => by
      obtain ⟨coveredFirst, coveredRest⟩ := List.append_subset.mp covered
      have followed := Stmt.followed_exec lockstep enough coveredFirst start
      rw [Stmt.execEach, Stmt.execEach]
      generalize item.exec limit first = outcome at followed ⊢
      generalize item.exec limit' second = outcome' at followed ⊢
      cases followed with
      | ended ending related =>
          cases ending with
          | finished value =>
              exact Stmt.followed_execEach lockstep enough coveredRest value related
          | failed failure => exact .ended _ related
          | unfinished => exact .unfinished _ _
      | unfinished => exact .unfinished _ _

end

end

/-! ## Limits -/

section

variable {text : String} {store : Store} {program : Program}

theorem Machine.lockstep_eq (names : List String) :
    Machine.Lockstep names Eq where
  agree same _ _ := by rw [same]
  assign same _ _ := by rw [same]
  print same _ := by rw [same]

/-- A program that ends under a limit does the same under a greater one. -/
theorem Program.exec_of_le
    {limit limit' : Nat} {machine : Machine}
    (enough : limit ≤ limit')
    (ended : (program.exec limit machine).ending ≠ .unfinished) :
    program.exec limit' machine = program.exec limit machine := by
  have followed :=
    Stmt.followed_execEach (Machine.lockstep_eq (Stmt.namesEach program)) enough
      (List.Subset.refl _) none (rfl : machine = machine)
  unfold Program.exec at ended ⊢
  generalize Stmt.execEach limit program none machine = outcome at followed ended ⊢
  generalize Stmt.execEach limit' program none machine = outcome' at followed ⊢
  cases followed with
  | ended _ same => rw [same]
  | unfinished => exact absurd rfl ended

theorem Ending.ne_unfinished_of_result
    {ending : Ending}
    (ended : ending.result ≠ .error .unfinished) :
    ending ≠ .unfinished := by
  intro unfinished
  rw [unfinished] at ended
  exact ended rfl

/-- A text whose run ends under a limit has the same run under a greater one. -/
theorem Run.ofText_of_le
    {limit limit' : Nat}
    (enough : limit ≤ limit')
    (ended : (Run.ofText limit store text).result ≠ .error .unfinished) :
    Run.ofText limit' store text = Run.ofText limit store text := by
  cases read : Program.ofText text with
  | error error => rw [Run.ofText_of_error read, Run.ofText_of_error read]
  | ok program =>
      rw [Run.ofText_eq read] at ended ⊢
      rw [Run.ofText_eq read,
        Program.exec_of_le enough (Ending.ne_unfinished_of_result ended)]

/-- The run of a text on a store ends, and it is this one. -/
def Run.Ends (store : Store) (text : String) (run : Run) : Prop :=
  ∃ limit,
    Run.ofText limit store text = run ∧ run.result ≠ .error .unfinished

theorem Run.Ends.unique
    {run run' : Run}
    (ends : Run.Ends store text run)
    (ends' : Run.Ends store text run') :
    run = run' := by
  obtain ⟨limit, rfl, ended⟩ := ends
  obtain ⟨limit', rfl, ended'⟩ := ends'
  rcases Nat.le_total limit limit' with enough | enough
  · exact (Run.ofText_of_le enough ended).symm
  · exact Run.ofText_of_le enough ended'

end

/-! ## Stores that agree -/

section

variable {text : String} {first second : Store} {program : Program}
variable {names : List String}

/-- Two stores in which some names are bound to the same values, or not at all. -/
def Store.Agree (names : List String) (first second : Store) : Prop :=
  ∀ name ∈ names, second.get? name = first.get? name

theorem Store.Agree.symm
    (agree : Store.Agree names first second) :
    Store.Agree names second first :=
  fun name member => (agree name member).symm

theorem Store.Agree.set
    (agree : Store.Agree names first second)
    (name : String) (value : Value) :
    Store.Agree names (first.set name value) (second.set name value) := by
  intro other member
  rw [Store.get?_set, Store.get?_set, agree other member]

/-- Two machines that did the same so far, and whose stores agree on some names. -/
structure Machine.Agree (names : List String) (first second : Machine) : Prop where
  store : Store.Agree names first.store second.store
  trace : second.trace = first.trace

theorem Machine.lockstep_agree (names : List String) :
    Machine.Lockstep names (Machine.Agree names) where
  agree agree := agree.store
  assign agree name _ :=
    ⟨agree.store.set name _, congrArg (Array.push · _) agree.trace⟩
  print agree _ := ⟨agree.store, congrArg (Array.push · _) agree.trace⟩

/-- The run of a program that ends on one store ends alike on another that agrees with
it on the names of the program. -/
theorem Run.Ends.followed
    {run : Run}
    (accepted : Program.ofText text = .ok program)
    (agree : Store.Agree (Stmt.namesEach program) first second)
    (ends : Run.Ends first text run) :
    ∃ run',
      Run.Ends second text run' ∧ run'.result = run.result ∧
        Machine.Agree (Stmt.namesEach program) run.machine run'.machine := by
  obtain ⟨limit, rfl, ended⟩ := ends
  have start :
      Machine.Agree (Stmt.namesEach program) (Machine.start first)
        (Machine.start second) :=
    ⟨agree, rfl⟩
  have followed :=
    Stmt.followed_execEach (Machine.lockstep_agree (Stmt.namesEach program))
      (Nat.le_refl limit) (List.Subset.refl _) none start
  have firstRun := Run.ofText_eq accepted limit first
  have secondRun := Run.ofText_eq accepted limit second
  unfold Program.exec at firstRun secondRun
  generalize Stmt.execEach limit program none (Machine.start first) = outcome
    at followed firstRun
  generalize Stmt.execEach limit program none (Machine.start second) = outcome'
    at followed secondRun
  rw [firstRun] at ended ⊢
  cases followed with
  | ended ending agree => exact ⟨_, ⟨limit, secondRun, ended⟩, rfl, agree⟩
  | unfinished => exact absurd rfl ended

/-- On two stores that agree on the names of a program, the program ends on one if and
only if it does on the other; and then it comes to the same value or failure, prints the
same, and leaves stores that agree on these names again. -/
theorem Run.ends_iff_of_agree
    (accepted : Program.ofText text = .ok program)
    (agree : Store.Agree (Stmt.namesEach program) first second) :
    ((∃ run, Run.Ends first text run) ↔ ∃ run, Run.Ends second text run) ∧
      ∀ run run', Run.Ends first text run → Run.Ends second text run' →
        run'.result = run.result ∧
          run'.machine.output = run.machine.output ∧
            Store.Agree (Stmt.namesEach program)
              run.machine.store run'.machine.store := by
  refine ⟨⟨?_, ?_⟩, ?_⟩
  · rintro ⟨run, ends⟩
    obtain ⟨run', ends', _⟩ := ends.followed accepted agree
    exact ⟨run', ends'⟩
  · rintro ⟨run, ends⟩
    obtain ⟨run', ends', _⟩ := ends.followed accepted agree.symm
    exact ⟨run', ends'⟩
  · intro run run' ends ends'
    obtain ⟨other, otherEnds, result, machine⟩ := ends.followed accepted agree
    obtain rfl := otherEnds.unique ends'
    refine ⟨result, ?_, machine.store⟩
    unfold Machine.output Machine.printed
    rw [machine.trace]

/-- A loop that ends after a round, on a store and on one that binds a name more. -/
theorem Run.ends_loop_alike :
    ∃ run,
      Run.Ends
          (Store.ofList [("z", .integer 9), ("y", .integer 2), ("x", .integer 1)])
          "while (x) \x7b x = y print x \x7d" run ∧
        run.result = .ok none ∧ run.machine.output = "2 " := by
  have accepted :
      Program.ofText "while (x) \x7b x = y print x \x7d" =
        .ok
          [.whileDo ⟨.whileWord, "while"⟩ (.ident ⟨.identifier, "x"⟩ "x")
            (.block ⟨.braceOpen, "\x7b"⟩
              [.assign ⟨.identifier, "x"⟩ ⟨⟨.identifier, "x"⟩, "x"⟩
                  (.ident ⟨.identifier, "y"⟩ "y"),
                .print ⟨.printWord, "print"⟩ [.ident ⟨.identifier, "x"⟩ "x"]])] := by
    decide +kernel
  have agree :
      Store.Agree ["x", "x", "y", "x"]
        (Store.ofList [("x", .integer 1), ("y", .integer 2)])
        (Store.ofList [("z", .integer 9), ("y", .integer 2), ("x", .integer 1)]) := by
    unfold Store.Agree
    decide +kernel
  have alike := Run.ends_iff_of_agree accepted agree
  have ends :
      Run.Ends (Store.ofList [("x", .integer 1), ("y", .integer 2)])
        "while (x) \x7b x = y print x \x7d" _ :=
    ⟨2, rfl, by decide +kernel⟩
  obtain ⟨run, ends'⟩ := alike.1.mp ⟨_, ends⟩
  obtain ⟨result, output, _⟩ := alike.2 _ run ends ends'
  exact ⟨run, ends', result.trans (by decide +kernel),
    output.trans (by decide +kernel)⟩

end

end WhileLang
