import Mathlib.Data.Nat.Find
import Mathlib.Logic.Function.Iterate
import WhileLang.Proofs.Completion
import WhileLang.Sample

/-!
The sample program for the orbits of the Collatz map. Main statement: from a number whose
orbit gets to one among the words, its loop comes to an end and prints each number of the
orbit with the one that follows it, down to two and one.
-/

namespace WhileLang

variable {machine : Machine} {start number count : Nat}

theorem Word.wrap_natCast
    (fits : (number : Int) ≤ Word.greatest) :
    Word.wrap number = number := by
  refine Word.wrap_of_inRange ⟨?_, fits⟩
  unfold Word.least
  omega

/-! ## Orbits -/

namespace Collatz

/-- The number that follows one in an orbit: the half of an even number, and one more than
three times an odd number. -/
def next (number : Nat) : Nat :=
  if number % 2 = 0 then number / 2 else 3 * number + 1

/-- The first numbers of an orbit, each with the one that follows it. -/
def pairs (start count : Nat) : List (Nat × Nat) :=
  (List.range count).map fun index => (next^[index] start, next^[index + 1] start)

theorem pairs_zero (start : Nat) : pairs start 0 = [] := rfl

theorem pairs_succ (start count : Nat) :
    pairs start (count + 1) = (start, next start) :: pairs (next start) count := by
  unfold pairs
  rw [List.range_succ_eq_map, List.map_cons, List.map_map]
  rfl

theorem eq_two_of_next_eq_one
    (reaches : next number = 1) :
    number = 2 := by
  unfold next at reaches
  split at reaches <;> omega

/-- The orbit of a number gets to one after some steps and not earlier, and until then
its numbers are words. -/
structure Descends (count start : Nat) : Prop where
  reaches : next^[count] start = 1
  above : ∀ index < count, next^[index] start ≠ 1
  fits : ∀ index ≤ count, (next^[index] start : Int) ≤ Word.greatest

theorem Descends.tail
    (descends : Descends (count + 1) start) :
    Descends count (next start) where
  reaches := descends.reaches
  above index less := descends.above (index + 1) (by omega)
  fits index less := descends.fits (index + 1) (by omega)

theorem Descends.pos
    (descends : Descends count start) :
    0 < start := by
  rcases Nat.eq_zero_or_pos start with rfl | positive
  · have fixed : next^[count] 0 = 0 := Function.iterate_fixed rfl count
    rw [descends.reaches] at fixed
    cases fixed
  · exact positive

theorem Descends.two_le_iff
    (descends : Descends count start) :
    2 ≤ start ↔ count ≠ 0 := by
  have positive := descends.pos
  constructor
  · rintro large rfl
    have reaches : start = 1 := descends.reaches
    omega
  · intro further
    have above : start ≠ 1 := descends.above 0 (Nat.pos_of_ne_zero further)
    omega

/-- An orbit that gets to one comes from two. -/
theorem Descends.getLast?_pairs
    (descends : Descends count start)
    (large : 2 ≤ start) :
    (pairs start count).getLast? = some (2, 1) := by
  obtain ⟨count, rfl⟩ := Nat.exists_eq_succ_of_ne_zero (descends.two_le_iff.mp large)
  have reaches := descends.reaches
  have before : next^[count] start = 2 := by
    rw [Nat.succ_eq_add_one, Function.iterate_succ_apply'] at reaches
    exact eq_two_of_next_eq_one reaches
  unfold pairs
  rw [List.getLast?_map, List.getLast?_range, if_neg (Nat.succ_ne_zero count),
    Option.map_some, Nat.succ_sub_one, before, reaches]

/-- The numbers of some pairs, one after the other. -/
def values (pairs : List (Nat × Nat)) : List Int :=
  pairs.flatMap fun pair => [(pair.1 : Int), (pair.2 : Int)]

/-- The text of some pairs, a space behind each number. -/
def written (pairs : List (Nat × Nat)) : String :=
  String.join (pairs.map fun pair => toString pair.1 ++ " " ++ toString pair.2 ++ " ")

theorem values_cons (pair : Nat × Nat) (rest : List (Nat × Nat)) :
    values (pair :: rest) = (pair.1 : Int) :: (pair.2 : Int) :: values rest := rfl

theorem written_cons (pair : Nat × Nat) (rest : List (Nat × Nat)) :
    written (pair :: rest) =
      toString pair.1 ++ " " ++ (toString pair.2 ++ " " ++ written rest) := by
  unfold written
  rw [List.map_cons, String.join_cons]
  simp only [String.append_assoc]

/-- What is printed of pairs shows as their text. -/
theorem join_values (pairs : List (Nat × Nat)) :
    String.join ((values pairs).map fun value => toString value ++ " ") =
      written pairs := by
  induction pairs with
  | nil => rfl
  | cons pair rest inductionHypothesis =>
      rw [values_cons, List.map_cons, List.map_cons, String.join_cons, String.join_cons,
        inductionHypothesis, written_cons]
      rfl

end Collatz

open Collatz

namespace Sample

/-! ## The program -/

/-- The condition under which a round is run. -/
def collatzCondition : Expr :=
  .binary ⟨.greaterEqual, ">="⟩
    (.ident ⟨.identifier, "val"⟩ "val") .ge (.literal ⟨.integer, "2"⟩ 2)

/-- Whether the number is even. -/
def collatzParity : Expr :=
  .binary ⟨.equal, "=="⟩
    (.binary ⟨.percent, "%"⟩
      (.ident ⟨.identifier, "val"⟩ "val") .mod (.literal ⟨.integer, "2"⟩ 2))
    .eq (.literal ⟨.integer, "0"⟩ 0)

/-- The choice of the number that follows. -/
def collatzChoice : Stmt :=
  .ifElse ⟨.ifWord, "if"⟩ collatzParity
    (.block ⟨.braceOpen, "\x7b"⟩
      [.assign ⟨.identifier, "next"⟩ ⟨⟨.identifier, "next"⟩, "next"⟩
        (.binary ⟨.slash, "/"⟩
          (.ident ⟨.identifier, "val"⟩ "val") .div (.literal ⟨.integer, "2"⟩ 2))])
    (.block ⟨.braceOpen, "\x7b"⟩
      [.assign ⟨.identifier, "next"⟩ ⟨⟨.identifier, "next"⟩, "next"⟩
        (.binary ⟨.plus, "+"⟩
          (.binary ⟨.star, "*"⟩
            (.literal ⟨.integer, "3"⟩ 3) .mul (.ident ⟨.identifier, "val"⟩ "val"))
          .add (.literal ⟨.integer, "1"⟩ 1))])

/-- A round: both numbers are printed, and the one that follows takes the place of the
other. -/
def collatzBody : Stmt :=
  .block ⟨.braceOpen, "\x7b"⟩
    [collatzChoice,
      .print ⟨.printWord, "print"⟩
        [.ident ⟨.identifier, "val"⟩ "val", .ident ⟨.identifier, "next"⟩ "next"],
      .assign ⟨.identifier, "val"⟩ ⟨⟨.identifier, "val"⟩, "val"⟩
        (.ident ⟨.identifier, "next"⟩ "next")]

def collatzLoop : Stmt :=
  .whileDo ⟨.whileWord, "while"⟩ collatzCondition collatzBody

/-- The loop is the end of the program, behind an assignment. -/
theorem ofText_collatz :
    ∃ setting, Program.ofText collatz.text = .ok [setting, collatzLoop] :=
  ⟨.assign ⟨.identifier, "val"⟩ ⟨⟨.identifier, "val"⟩, "val"⟩
      (.literal ⟨.integer, "104"⟩ 104),
    by decide +kernel⟩

/-! ## A round -/

theorem apply_mod_two (number : Nat) :
    Operator.mod.apply number 2 = .ok (number % 2 : Nat) := by
  have remainder : (number : Int).tmod 2 = (number % 2 : Nat) :=
    (Int.ofNat_tmod number 2).symm
  rw [Operator.apply_mod (by decide), remainder]
  exact congrArg Except.ok (Word.wrap_natCast (by unfold Word.greatest; omega))

theorem apply_div_two
    (fits : ((number / 2 : Nat) : Int) ≤ Word.greatest) :
    Operator.div.apply number 2 = .ok (number / 2 : Nat) := by
  have quotient : (number : Int).tdiv 2 = (number / 2 : Nat) :=
    (Int.ofNat_tdiv number 2).symm
  rw [Operator.apply_div (by decide), quotient]
  exact congrArg Except.ok (Word.wrap_natCast fits)

theorem apply_mul_three
    (fits : ((3 * number + 1 : Nat) : Int) ≤ Word.greatest) :
    Operator.mul.apply 3 number = .ok (3 * number : Nat) := by
  have smaller : ((3 * number : Nat) : Int) ≤ Word.greatest := by omega
  exact congrArg Except.ok (Word.wrap_natCast smaller)

theorem apply_add_one
    (fits : ((3 * number + 1 : Nat) : Int) ≤ Word.greatest) :
    Operator.add.apply (3 * number : Nat) 1 = .ok (3 * number + 1 : Nat) :=
  congrArg Except.ok (Word.wrap_natCast fits)

theorem eval_collatzParity
    (val : machine.store.get? "val" = some (.integer number)) :
    collatzParity.eval machine.store =
      .ok (Word.ofBool (((number % 2 : Nat) : Int) = 0)) :=
  Expr.eval_binary
    (Expr.eval_binary (Expr.eval_ident val) (Expr.eval_literal _ _)
      (apply_mod_two number))
    (Expr.eval_literal _ _) rfl

/-- The number that follows is chosen, if it is a word. -/
theorem completes_collatzChoice
    (val : machine.store.get? "val" = some (.integer number))
    (fits : (next number : Int) ≤ Word.greatest) :
    collatzChoice.Completes machine (some (next number))
      (machine.assign "next" (next number)) := by
  have parity := eval_collatzParity val
  unfold next at fits ⊢
  by_cases even : number % 2 = 0
  · rw [if_pos even] at fits ⊢
    rw [even] at parity
    refine Stmt.completes_ifElse_first parity ?_
    refine Stmt.completes_block (Stmt.completes_assign ?_).single
    exact Expr.eval_binary (Expr.eval_ident val) (Expr.eval_literal _ _)
      (apply_div_two fits)
  · rw [if_neg even] at fits ⊢
    rw [Nat.mod_two_ne_zero.mp even] at parity
    refine Stmt.completes_ifElse_second parity ?_
    refine Stmt.completes_block (Stmt.completes_assign ?_).single
    refine Expr.eval_binary ?_ (Expr.eval_literal _ _) (apply_add_one fits)
    exact Expr.eval_binary (Expr.eval_literal _ _) (Expr.eval_ident val)
      (apply_mul_three fits)

/-- The machine behind a round. -/
def afterStep (number : Nat) (machine : Machine) : Machine :=
  (((machine.assign "next" (next number)).print number).print (next number)).assign "val"
    (next number)

theorem completes_collatzBody
    (val : machine.store.get? "val" = some (.integer number))
    (fits : (next number : Int) ≤ Word.greatest) :
    collatzBody.Completes machine (some (next number)) (afterStep number machine) := by
  have stillVal :
      (machine.assign "next" (next number)).store.get? "val" =
        some (.integer number) := by
    simp [Store.get?_set, val]
  have bound :
      (machine.assign "next" (next number)).store.get? "next" =
        some (.integer (next number)) := by
    simp
  refine Stmt.completes_block ((completes_collatzChoice val fits).cons ?_)
  refine Stmt.Completes.cons
    (Stmt.completes_print
      (.cons (Expr.eval_ident stillVal) (.cons (Expr.eval_ident bound) .nil))) ?_
  -- Printing leaves the store as it is.
  refine (Stmt.completes_assign (Expr.eval_ident ?_)).single
  exact bound

/-! ## The loop -/

/-- A number is at hand whose orbit gets to one in so many steps, and what has been
printed lacks the pairs that are still to come. -/
structure Underway
    (expected : List Int) (left : Nat) (machine : Machine) (number : Nat) : Prop where
  val : machine.store.get? "val" = some (.integer number)
  descends : Descends left number
  printed : machine.printed ++ values (pairs number left) = expected

section

variable {expected : List Int} {left : Nat}

/-- The condition holds just as long as there are steps left. -/
theorem Underway.eval_condition
    (underway : Underway expected left machine number) :
    collatzCondition.eval machine.store = .ok (Word.ofBool (left ≠ 0)) := by
  have further : (number : Int) ≥ 2 ↔ left ≠ 0 := by
    rw [← underway.descends.two_le_iff]
    omega
  have compared :
      collatzCondition.eval machine.store = .ok (Word.ofBool ((number : Int) ≥ 2)) :=
    Expr.eval_binary (Expr.eval_ident underway.val) (Expr.eval_literal _ _) rfl
  simpa only [further] using compared

theorem Underway.afterStep
    (underway : Underway expected (left + 1) machine number) :
    Underway expected left (afterStep number machine) (next number) where
  val := by simp [Sample.afterStep]
  descends := underway.descends.tail
  printed := by
    rw [← underway.printed, pairs_succ, values_cons]
    simp [Sample.afterStep]

theorem Underway.round
    (underway : ∃ number, Underway expected left machine number) :
    ∃ truth, collatzCondition.eval machine.store = .ok truth ∧
      (truth = 1 → ∃ value after less,
        collatzBody.Completes machine value after ∧ less < left ∧
          ∃ number, Underway expected less after number) := by
  obtain ⟨number, underway⟩ := underway
  refine ⟨_, underway.eval_condition, fun truth => ?_⟩
  cases left with
  | zero => exact absurd truth (by decide)
  | succ left =>
      have fits : (next number : Int) ≤ Word.greatest :=
        underway.descends.fits 1 (by omega)
      exact ⟨_, _, left, completes_collatzBody underway.val fits, Nat.lt_succ_self left,
        next number, underway.afterStep⟩

/-- The loop prints all pairs. -/
theorem Underway.completes_loop
    (underway : Underway expected left machine number) :
    ∃ final, collatzLoop.Completes machine none final ∧ final.printed = expected := by
  obtain ⟨final, last, completes, ⟨number, reached⟩, done⟩ :=
    Stmt.exists_completes_while (fun _ _ => Underway.round) ⟨number, underway⟩
  have arrived : last = 0 := by
    by_contra further
    rw [reached.eval_condition, decide_eq_true further] at done
    exact done rfl
  have printed := reached.printed
  rw [arrived, pairs_zero] at printed
  exact ⟨final, completes, (List.append_nil _).symm.trans printed⟩

end

/-- From a number whose orbit gets to one among the words, the loop at the end of the
program comes to its end, however the other names are bound, and prints each number of
the orbit with the one that follows it, down to two and one. -/
theorem collatz_prints_orbit
    {store : Store}
    (large : 2 ≤ start)
    (reaches : ∃ count, next^[count] start = 1)
    (fits : ∀ index ≤ Nat.find reaches, (next^[index] start : Int) ≤ Word.greatest)
    (val : store.get? "val" = some (.integer start)) :
    (∃ setting, Program.ofText collatz.text = .ok [setting, collatzLoop]) ∧
    (∃ final,
      collatzLoop.Completes (Machine.start store) none final ∧
        final.output = written (pairs start (Nat.find reaches))) ∧
    (pairs start (Nat.find reaches)).getLast? = some (2, 1) := by
  have descends : Descends (Nat.find reaches) start :=
    ⟨Nat.find_spec reaches, fun _ less => Nat.find_min reaches less, fits⟩
  refine ⟨ofText_collatz, ?_, descends.getLast?_pairs large⟩
  have printed :
      (Machine.start store).printed ++ values (pairs start (Nat.find reaches)) =
        values (pairs start (Nat.find reaches)) := by
    rw [Machine.printed_start, List.nil_append]
  obtain ⟨final, completes, printedAll⟩ :=
    Underway.completes_loop ⟨val, descends, printed⟩
  refine ⟨final, completes, ?_⟩
  rw [Machine.output, printedAll, join_values]

/-- The orbit of three. -/
theorem collatz_prints_orbit_of_three :
    (∃ count, next^[count] 3 = 1) ∧
      ∃ final,
        collatzLoop.Completes
            (Machine.start (Store.ofList [("val", .integer 3)])) none final ∧
          final.output = "3 10 10 5 5 16 16 8 8 4 4 2 2 1 " := by
  have reaches : ∃ count, next^[count] 3 = 1 := ⟨7, by decide⟩
  have steps : Nat.find reaches = 7 := (Nat.find_eq_iff reaches).mpr (by decide)
  have fits : ∀ index ≤ Nat.find reaches, (next^[index] 3 : Int) ≤ Word.greatest := by
    rw [steps]
    decide
  have val :
      (Store.ofList [("val", .integer 3)]).get? "val" = some (.integer (3 : Nat)) := by
    decide
  obtain ⟨_, ⟨final, completes, output⟩, _⟩ :=
    collatz_prints_orbit (by decide) reaches fits val
  refine ⟨reaches, final, completes, ?_⟩
  rw [output, steps]
  decide +kernel

end Sample

end WhileLang
