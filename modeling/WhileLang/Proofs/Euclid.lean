import WhileLang.Proofs.Completion
import WhileLang.Sample

/-!
The sample program for the greatest common divisor. Main statement: from any two words,
its loop comes to an end with zero and a number of the size of their greatest common
divisor, which is all that is printed.
-/

namespace WhileLang

variable {machine : Machine} {first second : Int} {divisor : Nat}

/-- A remainder is smaller than the divisor, and so it is a word. -/
theorem Word.inRange_tmod
    (range : Word.InRange second)
    (nonzero : second ≠ 0) :
    Word.InRange (first.tmod second) := by
  have smaller : (first.tmod second).natAbs < second.natAbs :=
    Word.natAbs_tmod_lt nonzero
  unfold Word.InRange Word.least Word.greatest at range ⊢
  omega

namespace Sample

/-! ## The program -/

/-- The condition under which a round is run. -/
def gcdCondition : Expr :=
  .binary ⟨.notEqual, "!="⟩
    (.ident ⟨.identifier, "b"⟩ "b") .ne (.literal ⟨.integer, "0"⟩ 0)

/-- A round: the second number takes the place of the first one, and the remainder that
of the second one. -/
def gcdBody : Stmt :=
  .block ⟨.braceOpen, "\x7b"⟩
    [.assign ⟨.identifier, "t"⟩ ⟨⟨.identifier, "t"⟩, "t"⟩
        (.ident ⟨.identifier, "b"⟩ "b"),
      .assign ⟨.identifier, "b"⟩ ⟨⟨.identifier, "b"⟩, "b"⟩
        (.binary ⟨.percent, "%"⟩
          (.ident ⟨.identifier, "a"⟩ "a") .mod (.ident ⟨.identifier, "b"⟩ "b")),
      .assign ⟨.identifier, "a"⟩ ⟨⟨.identifier, "a"⟩, "a"⟩
        (.ident ⟨.identifier, "t"⟩ "t")]

def gcdLoop : Stmt :=
  .whileDo ⟨.whileWord, "while"⟩ gcdCondition gcdBody

def gcdPrinting : Stmt :=
  .print ⟨.printWord, "print"⟩ [.ident ⟨.identifier, "a"⟩ "a"]

/-- The loop and the printing are the end of the program, behind two assignments. -/
theorem ofText_gcd :
    ∃ setFirst setSecond,
      Program.ofText gcd.text = .ok [setFirst, setSecond, gcdLoop, gcdPrinting] :=
  ⟨.assign ⟨.identifier, "a"⟩ ⟨⟨.identifier, "a"⟩, "a"⟩
      (.literal ⟨.integer, "1071"⟩ 1071),
    .assign ⟨.identifier, "b"⟩ ⟨⟨.identifier, "b"⟩, "b"⟩
      (.literal ⟨.integer, "462"⟩ 462),
    by decide +kernel⟩

/-! ## A round -/

/-- Two numbers with a given greatest common divisor are at hand, the second one of them
a word, and nothing has been printed. -/
structure Halfway (divisor : Nat) (first second : Int) (machine : Machine) : Prop where
  a : machine.store.get? "a" = some (.integer first)
  b : machine.store.get? "b" = some (.integer second)
  range : Word.InRange second
  gcd_eq : Nat.gcd first.natAbs second.natAbs = divisor
  silent : machine.printed = []

theorem Halfway.eval_condition
    (halfway : Halfway divisor first second machine) :
    gcdCondition.eval machine.store = .ok (Word.ofBool (second ≠ 0)) :=
  Expr.eval_binary (Expr.eval_ident halfway.b) (Expr.eval_literal _ _) rfl

/-- The machine behind a round. -/
def afterRound (first second : Int) (machine : Machine) : Machine :=
  ((machine.assign "t" second).assign "b" (first.tmod second)).assign "a" second

theorem Halfway.completes_body
    (halfway : Halfway divisor first second machine)
    (nonzero : second ≠ 0) :
    gcdBody.Completes machine (some second) (afterRound first second machine) := by
  have range : Word.InRange (first.tmod second) :=
    Word.inRange_tmod halfway.range nonzero
  have remainder : Operator.mod.apply first second = .ok (first.tmod second) := by
    rw [Operator.apply_mod nonzero, Word.wrap_of_inRange range]
  refine Stmt.completes_block ?_
  refine (Stmt.completes_assign (Expr.eval_ident halfway.b)).cons ?_
  refine (Stmt.completes_assign (Expr.eval_binary ?_ ?_ remainder)).cons ?_
  · exact Expr.eval_ident (by simp [Store.get?_set, halfway.a])
  · exact Expr.eval_ident (by simp [Store.get?_set, halfway.b])
  refine (Stmt.completes_assign (Expr.eval_ident ?_)).single
  simp [Store.get?_set]

/-- A round keeps the greatest common divisor. -/
theorem Halfway.afterRound
    (halfway : Halfway divisor first second machine)
    (nonzero : second ≠ 0) :
    Halfway divisor second (first.tmod second) (afterRound first second machine) where
  a := by simp [Sample.afterRound]
  b := by simp [Sample.afterRound, Store.get?_set]
  range := Word.inRange_tmod halfway.range nonzero
  gcd_eq := by
    rw [Int.natAbs_tmod, Nat.gcd_comm, ← Nat.gcd_rec, Nat.gcd_comm]
    exact halfway.gcd_eq
  silent := by simp [Sample.afterRound, halfway.silent]

/-! ## The loop -/

/-- The loop is between two rounds; the size of the second number bounds the rounds that
are left. -/
def Pending (divisor left : Nat) (machine : Machine) : Prop :=
  ∃ first second, Halfway divisor first second machine ∧ second.natAbs = left

theorem Pending.round
    {left : Nat}
    (pending : Pending divisor left machine) :
    ∃ truth, gcdCondition.eval machine.store = .ok truth ∧
      (truth = 1 → ∃ value after less,
        gcdBody.Completes machine value after ∧ less < left ∧
          Pending divisor less after) := by
  obtain ⟨first, second, halfway, rfl⟩ := pending
  refine ⟨_, halfway.eval_condition, fun truth => ?_⟩
  have nonzero : second ≠ 0 := by
    rintro rfl
    exact absurd truth (by decide)
  exact ⟨_, _, _, halfway.completes_body nonzero, Word.natAbs_tmod_lt nonzero,
    ⟨_, _, halfway.afterRound nonzero, rfl⟩⟩

/-- The loop comes to an end with zero for the second number. -/
theorem Halfway.completes_loop
    (halfway : Halfway divisor first second machine) :
    ∃ result final,
      gcdLoop.Completes machine none final ∧ Halfway divisor result 0 final := by
  obtain ⟨final, _, completes, ⟨result, last, reached, _⟩, done⟩ :=
    Stmt.exists_completes_while (fun _ _ => Pending.round)
      ⟨first, second, halfway, rfl⟩
  have zero : last = 0 := by
    by_contra nonzero
    rw [reached.eval_condition, decide_eq_true nonzero] at done
    exact done rfl
  rw [zero] at reached
  exact ⟨result, final, completes, reached⟩

/-- The loop and the printing behind it, at the end of the program, come to their end
from any number and any word, however the other names are bound: the second number is
zero then, and the first one, which is printed and nothing else is, has the size of the
greatest common divisor. -/
theorem gcd_prints_divisor
    {store : Store}
    (range : Word.InRange second)
    (a : store.get? "a" = some (.integer first))
    (b : store.get? "b" = some (.integer second)) :
    (∃ setFirst setSecond,
      Program.ofText gcd.text = .ok [setFirst, setSecond, gcdLoop, gcdPrinting]) ∧
    ∃ result final,
      Stmt.CompletesEach [gcdLoop, gcdPrinting] none (Machine.start store) none final ∧
        final.store.get? "a" = some (.integer result) ∧
        final.store.get? "b" = some (.integer 0) ∧
        final.printed = [result] ∧
        result.natAbs = Nat.gcd first.natAbs second.natAbs := by
  refine ⟨ofText_gcd, ?_⟩
  have start : Halfway _ first second (Machine.start store) :=
    ⟨a, b, range, rfl, Machine.printed_start store⟩
  obtain ⟨result, between, completes, reached⟩ := start.completes_loop
  refine ⟨result, between.print result, ?_, reached.a, reached.b, ?_, ?_⟩
  · refine completes.cons (Stmt.Completes.single ?_)
    exact Stmt.completes_print (.cons (Expr.eval_ident reached.a) .nil)
  · rw [Machine.printed_print, reached.silent, List.nil_append]
  · rw [← reached.gcd_eq, Int.natAbs_zero, Nat.gcd_zero_right]

/-- From the least word and minus one. -/
theorem gcd_prints_divisor_of_least :
    Word.InRange (-1) ∧
      ∃ result final,
        Stmt.CompletesEach [gcdLoop, gcdPrinting] none
            (Machine.start
              (Store.ofList [("a", .integer Word.least), ("b", .integer (-1))]))
            none final ∧
          final.printed = [result] ∧ result.natAbs = 1 := by
  have range : Word.InRange (-1) := by decide
  have a :
      (Store.ofList [("a", .integer Word.least), ("b", .integer (-1))]).get? "a" =
        some (.integer Word.least) := by
    decide
  obtain ⟨_, result, final, completes, _, _, printed, size⟩ :=
    gcd_prints_divisor range a (by decide)
  exact ⟨range, result, final, completes, printed, size.trans (by decide)⟩

end Sample

end WhileLang
