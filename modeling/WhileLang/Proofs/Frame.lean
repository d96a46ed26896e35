import WhileLang.Proofs.Composition

/-!
What a run can do to a store. Main statements: a machine moves by assignments to the
targets of its program and by prints, and in no other way; so a run, however it ends,
unbinds no name, and leaves every name alone that is not a target.
-/

namespace WhileLang

/-! ## Targets and moves -/

mutual

/-- The names that a statement has an assignment to, however deep in it. -/
def Stmt.targets : Stmt → List String
  | .assign _ target _ => [target.name]
  | .block _ items => Stmt.targetsEach items
  | .ifThen _ _ first => first.targets
  | .ifElse _ _ first second => first.targets ++ second.targets
  | .whileDo _ _ body => body.targets
  | .sequence items => Stmt.targetsEach items
  | .expression _ _ => []
  | .print _ _ => []
  | .bare _ => []
  | .foreign _ => []

/-- The names that the statements of a list have assignments to. -/
def Stmt.targetsEach : List Stmt → List String
  | [] => []
  | item :: rest => item.targets ++ Stmt.targetsEach rest

end

/-- A machine that another one can become by assignments to some names, and prints. -/
inductive Machine.Reaches (targets : List String) (start : Machine) : Machine → Prop
  | start : Reaches targets start start
  | assign {machine : Machine} {name : String} (value : Int) :
      name ∈ targets →
      Reaches targets start machine →
      Reaches targets start (machine.assign name value)
  | print {machine : Machine} (value : Int) :
      Reaches targets start machine →
      Reaches targets start (machine.print value)

/-! ## Runs -/

section

variable {targets : List String} {start machine : Machine}

namespace Machine.Reaches

theorem evaluate
    {value : Expr} {next : Int → Outcome}
    (reached : start.Reaches targets machine)
    (further : ∀ result, start.Reaches targets (next result).machine) :
    start.Reaches targets (machine.evaluate value next).machine := by
  unfold Machine.evaluate
  cases value.eval machine.store with
  | error failure => exact reached
  | ok result => exact further result

theorem printEach
    (reached : start.Reaches targets machine)
    (values : List Expr) :
    start.Reaches targets (machine.printEach values).machine := by
  induction values generalizing machine with
  | nil => exact reached
  | cons value rest inductionHypothesis =>
      exact reached.evaluate fun result => inductionHypothesis (.print result reached)

theorem loop
    {condition : Expr} {body : Machine → Outcome}
    (reached : start.Reaches targets machine)
    (round : ∀ machine, start.Reaches targets machine →
      start.Reaches targets (body machine).machine)
    (limit : Nat) :
    start.Reaches targets (machine.loop condition body limit).machine := by
  induction limit generalizing machine with
  | zero => exact reached
  | succ limit inductionHypothesis =>
      refine reached.evaluate fun truth => ?_
      split
      · have after := round machine reached
        generalize body machine = outcome at after ⊢
        obtain ⟨ending, machine'⟩ := outcome
        cases ending with
        | finished value => exact inductionHypothesis after
        | failed failure => exact after
        | unfinished => exact after
      · exact reached

end Machine.Reaches

mutual

theorem Stmt.reaches_exec
    (limit : Nat) {targets : List String} {start machine : Machine}
    (reached : start.Reaches targets machine) :
    {item : Stmt} → item.targets ⊆ targets →
      start.Reaches targets (item.exec limit machine).machine
  | .expression _ _, _ => by
      rw [Stmt.exec]
      exact reached.evaluate fun _ => reached
  | .assign _ _ _, covered => by
      rw [Stmt.exec]
      exact reached.evaluate fun result =>
        .assign result (covered List.mem_cons_self) reached
  | .block _ _, covered => by
      rw [Stmt.exec]
      exact Stmt.reaches_execEach limit none reached covered
  | .ifThen _ _ _, covered => by
      rw [Stmt.exec]
      refine reached.evaluate fun truth => ?_
      split
      · exact Stmt.reaches_exec limit reached covered
      · exact reached
  | .ifElse _ _ _ _, covered => by
      obtain ⟨coveredFirst, coveredSecond⟩ := List.append_subset.mp covered
      rw [Stmt.exec]
      refine reached.evaluate fun truth => ?_
      split
      · exact Stmt.reaches_exec limit reached coveredFirst
      · split
        · exact Stmt.reaches_exec limit reached coveredSecond
        · exact reached
  | .whileDo _ _ body, covered => by
      have coveredBody : body.targets ⊆ targets := covered
      rw [Stmt.exec]
      exact reached.loop
        (fun _ reached => Stmt.reaches_exec limit reached coveredBody) limit
  | .print _ values, _ => by
      rw [Stmt.exec]
      exact reached.printEach values
  | .bare _, _ => by
      rw [Stmt.exec]
      exact reached.evaluate fun _ => reached
  | .sequence _, covered => by
      rw [Stmt.exec]
      exact Stmt.reaches_execEach limit none reached covered
  | .foreign _, _ => by
      rw [Stmt.exec]
      exact reached

theorem Stmt.reaches_execEach
    (limit : Nat) {targets : List String} {start machine : Machine}
    (value : Option Int)
    (reached : start.Reaches targets machine) :
    {items : List Stmt} → Stmt.targetsEach items ⊆ targets →
      start.Reaches targets (Stmt.execEach limit items value machine).machine
  | [], _ => by
      rw [Stmt.execEach]
      exact reached
  | item :: _, covered => by
      obtain ⟨coveredFirst, coveredRest⟩ := List.append_subset.mp covered
      have after := Stmt.reaches_exec limit reached coveredFirst
      rw [Stmt.execEach]
      generalize item.exec limit machine = outcome at after ⊢
      obtain ⟨ending, machine'⟩ := outcome
      cases ending with
      | finished value => exact Stmt.reaches_execEach limit value after coveredRest
      | failed failure => exact after
      | unfinished => exact after

end

end

/-! ## Stores -/

section

variable {targets : List String} {before after : Store} {name : String}

/-- What assignments to some names leave of a store: no name is unbound, none but these
is newly bound, and all others stay as they were. -/
structure Store.Framed (targets : List String) (before after : Store) : Prop where
  kept : ∀ name, before.get? name ≠ none → after.get? name ≠ none
  added : ∀ name, after.get? name ≠ none → before.get? name ≠ none ∨ name ∈ targets
  others : ∀ name, name ∉ targets → after.get? name = before.get? name

namespace Store.Framed

theorem refl (targets : List String) (store : Store) :
    Store.Framed targets store store :=
  ⟨fun _ => id, fun _ => .inl, fun _ _ => rfl⟩

theorem set
    (framed : Store.Framed targets before after)
    (target : name ∈ targets)
    (value : Value) :
    Store.Framed targets before (after.set name value) := by
  refine ⟨?_, ?_, ?_⟩
  · intro other bound
    rw [Store.get?_set]
    split
    · nofun
    · exact framed.kept other bound
  · intro other bound
    rw [Store.get?_set] at bound
    split at bound
    · rename_i same
      exact .inr (same ▸ target)
    · exact framed.added other bound
  · intro other notTarget
    have different : name ≠ other := fun same => notTarget (same ▸ target)
    rw [Store.get?_set_of_ne _ _ different]
    exact framed.others other notTarget

end Store.Framed

theorem Machine.Reaches.framed
    {start machine : Machine}
    (reached : start.Reaches targets machine) :
    Store.Framed targets start.store machine.store := by
  induction reached with
  | start => exact .refl targets _
  | assign value target _ inductionHypothesis =>
      exact inductionHypothesis.set target (.integer value)
  | print value _ inductionHypothesis => exact inductionHypothesis

/-- Wherever a run of a program ends or is cut off, no name has been unbound; a name is
bound that was bound before or is the target of an assignment of the program; and a name
that is no such target has the value it had, or none. -/
theorem Run.framed_ofText
    {text : String} {program : Program}
    (accepted : Program.ofText text = .ok program)
    (limit : Nat) (store : Store) :
    Store.Framed (Stmt.targetsEach program) store
      (Run.ofText limit store text).machine.store := by
  have reached :
      (Machine.start store).Reaches (Stmt.targetsEach program)
        (program.exec limit (Machine.start store)).machine :=
    Stmt.reaches_execEach limit none .start (List.Subset.refl _)
  rw [(Run.ofText_of_program accepted limit store).2]
  exact reached.framed

/-- A run that fails in a loop, behind an assignment. -/
theorem Run.framed_failed_loop :
    (Run.ofText 1 (Store.ofList [("x", .integer 1), ("y", .integer 2)])
        "while (x) \x7b x = 0 print y / x \x7d").result =
        .error (.failure (.fault .divisionByZero)) ∧
      Store.Framed ["x"]
        (Store.ofList [("x", .integer 1), ("y", .integer 2)])
        (Run.ofText 1 (Store.ofList [("x", .integer 1), ("y", .integer 2)])
          "while (x) \x7b x = 0 print y / x \x7d").machine.store := by
  have accepted :
      Program.ofText "while (x) \x7b x = 0 print y / x \x7d" =
        .ok
          [.whileDo ⟨.whileWord, "while"⟩ (.ident ⟨.identifier, "x"⟩ "x")
            (.block ⟨.braceOpen, "\x7b"⟩
              [.assign ⟨.identifier, "x"⟩ ⟨⟨.identifier, "x"⟩, "x"⟩
                  (.literal ⟨.integer, "0"⟩ 0),
                .print ⟨.printWord, "print"⟩
                  [.binary ⟨.slash, "/"⟩ (.ident ⟨.identifier, "y"⟩ "y") .div
                    (.ident ⟨.identifier, "x"⟩ "x")]])] := by
    decide +kernel
  exact ⟨by decide +kernel, Run.framed_ofText accepted 1 _⟩

end

end WhileLang
