import WhileLang.Command.Report
import WhileLang.Proofs.Safety

/-!
Sessions as a whole. Main statements: the one separator that is dropped from what a line
prints is the last one; a session on a store of words asks for every line and for one
more, and shows of each run what it printed and what it came to; and a line that is
refused changes nothing for the others.
-/

namespace WhileLang

/-! ## What a run prints -/

theorem Text.not_isBlank_of_isAsciiDigit
    {character : Char}
    (digit : Text.isAsciiDigit character = true) :
    Text.isBlank character = false := by
  have bounds := Token.toNat_of_digit digit
  simp only [Text.isBlank, Text.isWhiteSpace, Bool.or_eq_false_iff,
    Bool.and_eq_false_iff, decide_eq_false_iff_not, beq_eq_false_iff_ne]
  omega

/-- A text whose last character is none that is dropped from the end of a text. -/
def Text.EndsVisibly (text : String) : Prop :=
  ∃ front last, text.toList = front ++ [last] ∧ Text.isBlank last = false

theorem Text.EndsVisibly.append
    {text : String}
    (visible : Text.EndsVisibly text)
    (before : String) :
    Text.EndsVisibly (before ++ text) := by
  obtain ⟨front, last, shape, notBlank⟩ := visible
  refine ⟨before.toList ++ front, last, ?_, notBlank⟩
  rw [String.toList_append, shape, List.append_assoc]

theorem Text.EndsVisibly.dropBlankEnd_append_space
    {text : String}
    (visible : Text.EndsVisibly text) :
    Text.dropBlankEnd (text ++ " ") = text := by
  obtain ⟨front, last, shape, notBlank⟩ := visible
  have reversed : (text ++ " ").toList.reverse = ' ' :: last :: front.reverse := by
    rw [String.toList_append, shape]
    simp
  unfold Text.dropBlankEnd
  rw [reversed, List.dropWhile_cons_of_pos (by decide),
    List.dropWhile_cons_of_neg (by simp [notBlank])]
  rw [List.reverse_cons, List.reverse_reverse, ← shape, String.ofList_toList]

theorem Text.endsVisibly_natural (value : Nat) :
    Text.EndsVisibly (toString (value : Int)) := by
  have written := Token.toList_lexeme_number value
  have digits := Token.digits_number value
  change (toString (value : Int)).toList = _ at written
  change (toString (value : Int)).toList.all _ = true at digits
  rcases List.eq_nil_or_concat' (toString (value : Int)).toList with
    empty | ⟨front, last, shape⟩
  · exact absurd (written.symm.trans empty) Nat.toDigits_ne_nil
  · have digit := List.all_eq_true.mp digits last (by rw [shape]; simp)
    exact ⟨front, last, shape, Text.not_isBlank_of_isAsciiDigit digit⟩

theorem Text.endsVisibly_integer (value : Int) :
    Text.EndsVisibly (toString value) := by
  by_cases natural : 0 ≤ value
  · obtain ⟨magnitude, rfl⟩ := Int.eq_ofNat_of_zero_le natural
    exact Text.endsVisibly_natural magnitude
  · obtain ⟨magnitude, opposite⟩ := Int.eq_ofNat_of_zero_le (a := -value) (by omega)
    have signed : toString value = "-" ++ toString (magnitude : Int) := by
      show Int.repr value = "-" ++ Int.repr magnitude
      rw [Int.repr_eq_if, if_neg natural, opposite, Int.repr_eq_if,
        if_pos (Int.natCast_nonneg _)]
    rw [signed]
    exact (Text.endsVisibly_natural magnitude).append "-"

/-- The text of some integers, a space behind each, is the text with single spaces
between them and one more space. -/
theorem Text.spaced_integers (first : Int) (rest : List Int) :
    Text.EndsVisibly (" ".intercalate ((first :: rest).map toString)) ∧
      String.join ((first :: rest).map fun value => toString value ++ " ") =
        " ".intercalate ((first :: rest).map toString) ++ " " := by
  induction rest generalizing first with
  | nil =>
      have single : " ".intercalate ([first].map toString) = toString first :=
        String.intercalate_singleton
      refine ⟨single ▸ Text.endsVisibly_integer first, ?_⟩
      rw [single, List.map_singleton, String.join_cons, String.join_nil,
        String.append_empty]
  | cons second rest inductionHypothesis =>
      obtain ⟨visible, joined⟩ := inductionHypothesis second
      have parted :
          " ".intercalate ((first :: second :: rest).map toString) =
            toString first ++ " " ++ " ".intercalate ((second :: rest).map toString) :=
        String.intercalate_cons_cons
      rw [parted]
      refine ⟨visible.append _, ?_⟩
      rw [List.map_cons, String.join_cons, joined, ← String.append_assoc]

namespace Session

/-! ## Chunks -/

/-- Integers with single spaces between them, on a line; nothing if there are none. -/
def integersLine (values : List Int) : String :=
  if values = [] then "" else " ".intercalate (values.map toString) ++ "\n"

/-- What a run came to, on lines of its own: the message of an error, or the value if
there is one. -/
def conclusion : Except RunError (Option Int) → String
  | .ok none => ""
  | .ok (some value) => toString value ++ "\n"
  | .error (.source error) => error.message ++ "\n"
  | .error (.failure (.fault fault)) => fault.message ++ "\n"
  | .error (.failure (.misfit _)) => ""
  | .error (.failure (.division _)) => ""
  | .error .unfinished => ""

/-- What is shown of a run. -/
def chunk (run : Run) : String :=
  integersLine run.machine.printed ++ conclusion run.result

/-- The runs of the lines that are not blank, each on the store that the one before it
leaves, however that ended. -/
def runs (limit : Nat) (store : Store) : List String → List Run
  | [] => []
  | line :: lines =>
      if Text.isBlankText line then
        runs limit store lines
      else
        Run.ofText limit store line ::
          runs limit (Run.ofText limit store line).machine.store lines

/-- The store that the last of some runs leaves. -/
def leftBy (store : Store) : List Run → Store
  | [] => store
  | run :: runs => leftBy run.machine.store runs

theorem printedLine_eq (machine : Machine) :
    printedLine machine = integersLine machine.printed := by
  unfold printedLine integersLine Machine.output
  cases machine.printed with
  | nil => rfl
  | cons first rest =>
      obtain ⟨visible, joined⟩ := Text.spaced_integers first rest
      have nonempty :
          " ".intercalate ((first :: rest).map toString) ++ " " ≠ "" := by
        intro empty
        have lengths := congrArg String.length empty
        simp at lengths
      rw [joined, if_neg nonempty, if_neg (List.cons_ne_nil _ _),
        visible.dropBlankEnd_append_space]

/-! ## Replies -/

section

variable {limit : Nat} {emphasis : String → String} {store : Store} {line : String}

/-- A text comes to no error but those that are reported. -/
theorem conclusion_of_expected
    {text : String} {error : RunError}
    (expected : Run.Expected text (.error error)) :
    ∃ message,
      error.report? = some message ∧ conclusion (.error error) = message ++ "\n" := by
  cases expected with
  | lexical _ => exact ⟨_, rfl, rfl⟩
  | unexpected first others => exact ⟨_, rfl, rfl⟩
  | fault _ => exact ⟨_, rfl, rfl⟩

theorem reply_of_blank
    (blank : Text.isBlankText line = true) :
    reply limit ⟨false, emphasis⟩ store (some line) = ⟨"", store, [], .goesOn⟩ := by
  rw [reply, if_pos blank]

/-- A line that is not blank and whose run ends is answered with a chunk, and the
session goes on with what the run leaves. -/
theorem reply_of_ended
    (bounded : store.Bounded)
    (notBlank : ¬ Text.isBlankText line = true)
    (ended : (Run.ofText limit store line).result ≠ .error .unfinished) :
    reply limit ⟨false, emphasis⟩ store (some line) =
      ⟨chunk (Run.ofText limit store line),
        (Run.ofText limit store line).machine.store,
        (Run.ofText limit store line).log, .goesOn⟩ := by
  -- On a store of words nothing can happen that the session would not report.
  have expected := Run.expected_ofText bounded ended
  rw [reply, if_neg notBlank]
  unfold answer chunk
  dsimp only
  rw [printedLine_eq]
  generalize (Run.ofText limit store line).result = result at expected ⊢
  cases result with
  | ok value? => cases value? <;> rfl
  | error error =>
      obtain ⟨message, reported, concluded⟩ := conclusion_of_expected expected
      dsimp only
      rw [reported, concluded, ← String.append_assoc]
      rfl

end

/-! ## Whole sessions -/

section

variable {limit : Nat} {emphasis : String → String} {store : Store}
variable {line : String} {lines front back : List String}

/-- A session, away from a terminal, that asks for every line and once more, goes on to
its end, shows the chunks of its runs and a line end, and leaves what the last run
does. How a terminal would show a failure has no part in it. -/
structure Orderly
    (limit : Nat) (emphasis : String → String) (store : Store) (lines : List String) :
    Prop where
  prompts : (hold limit ⟨false, emphasis⟩ "" lines store).prompts = lines.length + 1
  error? : (hold limit ⟨false, emphasis⟩ "" lines store).error? = none
  shown :
    (hold limit ⟨false, emphasis⟩ "" lines store).shown =
      String.join ((runs limit store lines).map chunk) ++ "\n"
  store :
    (hold limit ⟨false, emphasis⟩ "" lines store).store =
      leftBy store (runs limit store lines)

/-- A line that is answered without an error is followed by the rest of the session. -/
theorem hold_cons_of_reply
    {shown : String} {after : Store} {log : List LogEntry}
    (replied :
      reply limit ⟨false, emphasis⟩ store (some line) = ⟨shown, after, log, .goesOn⟩) :
    hold limit ⟨false, emphasis⟩ "" (line :: lines) store =
      ⟨shown ++ (hold limit ⟨false, emphasis⟩ "" lines after).shown,
        1 + (hold limit ⟨false, emphasis⟩ "" lines after).prompts,
        (hold limit ⟨false, emphasis⟩ "" lines after).store,
        log ++ (hold limit ⟨false, emphasis⟩ "" lines after).log,
        (hold limit ⟨false, emphasis⟩ "" lines after).error?⟩ := by
  rw [hold, replied]
  dsimp only
  rw [Reply.transcript, Transcript.append, String.empty_append]

theorem Orderly.cons_blank
    (blank : Text.isBlankText line = true)
    (orderly : Orderly limit emphasis store lines) :
    Orderly limit emphasis store (line :: lines) := by
  have held :=
    @hold_cons_of_reply limit emphasis store line lines _ _ _ (reply_of_blank blank)
  have same : runs limit store (line :: lines) = runs limit store lines := by
    rw [runs, if_pos blank]
  refine ⟨?_, ?_, ?_, ?_⟩
  · rw [held, List.length_cons, ← orderly.prompts, Nat.add_comm]
  · rw [held, ← orderly.error?]
  · rw [held, same, ← orderly.shown, String.empty_append]
  · rw [held, same, ← orderly.store]

theorem Orderly.cons_run
    (bounded : store.Bounded)
    (notBlank : ¬ Text.isBlankText line = true)
    (ended : (Run.ofText limit store line).result ≠ .error .unfinished)
    (orderly : Orderly limit emphasis (Run.ofText limit store line).machine.store lines) :
    Orderly limit emphasis store (line :: lines) := by
  have held :=
    @hold_cons_of_reply limit emphasis store line lines _ _ _
      (reply_of_ended bounded notBlank ended)
  have split :
      runs limit store (line :: lines) =
        Run.ofText limit store line ::
          runs limit (Run.ofText limit store line).machine.store lines := by
    rw [runs, if_neg notBlank]
  refine ⟨?_, ?_, ?_, ?_⟩
  · rw [held, List.length_cons, ← orderly.prompts, Nat.add_comm]
  · rw [held, ← orderly.error?]
  · rw [held, split, List.map_cons, String.join_cons, String.append_assoc,
      ← orderly.shown]
  · rw [held, split, leftBy, ← orderly.store]

/-- A session is orderly if each of its runs ends. -/
theorem orderly_of_ended
    (bounded : store.Bounded)
    (ended : ∀ run ∈ runs limit store lines, run.result ≠ .error .unfinished) :
    Orderly limit emphasis store lines := by
  induction lines generalizing store with
  | nil => exact ⟨rfl, rfl, rfl, rfl⟩
  | cons line lines inductionHypothesis =>
      rw [runs] at ended
      split at ended
      · rename_i blank
        exact (inductionHypothesis bounded ended).cons_blank blank
      · rename_i notBlank
        obtain ⟨first, others⟩ := List.forall_mem_cons.mp ended
        have after := (Run.bounded_ofText bounded limit line).1.store
        exact (inductionHypothesis after others).cons_run bounded notBlank first

/-! ## Refused lines -/

/-- A line of which nothing is executed: it is blank, or it is no program. -/
def Refused (line : String) : Prop :=
  Text.isBlankText line = true ∨ ∃ error, Program.ofText line = .error error

theorem runs_append (store : Store) (front back : List String) :
    runs limit store (front ++ back) =
      runs limit store front ++
        runs limit (leftBy store (runs limit store front)) back := by
  induction front generalizing store with
  | nil => rfl
  | cons line front inductionHypothesis =>
      rw [List.cons_append, runs, runs]
      split
      · exact inductionHypothesis store
      · rw [inductionHypothesis]
        rfl

theorem leftBy_append (store : Store) (first second : List Run) :
    leftBy store (first ++ second) = leftBy (leftBy store first) second := by
  induction first generalizing store with
  | nil => rfl
  | cons run first inductionHypothesis => exact inductionHypothesis run.machine.store

/-- A line that is refused leaves the store as it was. -/
theorem leftBy_of_refused
    (refused : Refused line)
    (store : Store) :
    leftBy store (runs limit store [line]) = store := by
  rw [runs]
  split
  · rfl
  · rename_i notBlank
    rcases refused with blank | ⟨error, failed⟩
    · exact absurd blank notBlank
    · rw [Run.ofText_of_error failed]
      rfl

/-- A line that is refused stands between the runs of the lines around it. -/
theorem runs_of_refused
    (refused : Refused line)
    (store : Store) (front back : List String) :
    runs limit store (front ++ line :: back) =
      runs limit store front ++
        runs limit (leftBy store (runs limit store front)) [line] ++
          runs limit (leftBy store (runs limit store front)) back := by
  rw [runs_append, ← List.singleton_append, runs_append, leftBy_of_refused refused,
    List.append_assoc]

theorem leftBy_runs_of_refused
    (refused : Refused line)
    (store : Store) (front back : List String) :
    leftBy store (runs limit store (front ++ line :: back)) =
      leftBy store (runs limit store (front ++ back)) := by
  rw [runs_of_refused refused, runs_append, leftBy_append, leftBy_append,
    leftBy_of_refused refused, leftBy_append]

/-- A session on a store of words, all of whose runs end, is orderly: it asks for every
line and once more and shows the chunks of its runs, in which only the line and the store
left by the lines before it have a part. If a line that is refused is taken out, the
session is orderly again, leaves the same store, and all other runs are the same. -/
theorem orderly_hold
    (bounded : store.Bounded)
    (ended : ∀ run ∈ runs limit store lines, run.result ≠ .error .unfinished) :
    Orderly limit emphasis store lines ∧
      ∀ front line back, lines = front ++ line :: back → Refused line →
        Orderly limit emphasis store (front ++ back) ∧
          (hold limit ⟨false, emphasis⟩ "" (front ++ back) store).store =
              (hold limit ⟨false, emphasis⟩ "" lines store).store ∧
            ∃ between,
              runs limit store lines =
                  runs limit store front ++ runs limit between [line] ++
                    runs limit between back ∧
                runs limit store (front ++ back) =
                  runs limit store front ++ runs limit between back := by
  have orderly : Orderly limit emphasis store lines := orderly_of_ended bounded ended
  refine ⟨orderly, ?_⟩
  rintro front line back rfl refused
  have around := @runs_of_refused limit line refused store front back
  have without := @runs_append limit store front back
  have shorter : Orderly limit emphasis store (front ++ back) := by
    refine orderly_of_ended bounded fun run member => ended run ?_
    rw [without, List.mem_append] at member
    rw [around, List.mem_append, List.mem_append]
    exact member.imp_left .inl
  refine ⟨shorter, ?_, _, around, without⟩
  rw [shorter.store, orderly.store, leftBy_runs_of_refused refused]

/-- Lines that print, that are blank, that fail behind an assignment, that are no program,
and that have a value; and the same without the one that is no program. -/
theorem orderly_hold_five_lines :
    (hold 0 ⟨false, Command.boldRed⟩ ""
        ["x = 6 print x, x + 1", " ", "z = 5 print x, x / (z - 5)", "x =", "1 * x + z"]
        Store.empty).shown =
        "6 7\n6\n[Runtime error] Division by zero\n" ++
          "Syntax error, didn't expect end of input\n11\n\n" ∧
      (hold 0 ⟨false, Command.boldRed⟩ ""
        ["x = 6 print x, x + 1", " ", "z = 5 print x, x / (z - 5)", "1 * x + z"]
        Store.empty).shown =
        "6 7\n6\n[Runtime error] Division by zero\n11\n\n" := by
  obtain ⟨orderly, taken⟩ :=
    @orderly_hold 0 Command.boldRed Store.empty
      ["x = 6 print x, x + 1", " ", "z = 5 print x, x / (z - 5)", "x =", "1 * x + z"]
      Store.Bounded.empty (by decide +kernel)
  have refused : Refused "x =" :=
    .inr ⟨.unexpected [Token.endOfInput], by decide +kernel⟩
  have shorter :=
    (taken ["x = 6 print x, x + 1", " ", "z = 5 print x, x / (z - 5)"] "x ="
      ["1 * x + z"] rfl refused).1
  exact ⟨orderly.shown.trans (by decide +kernel),
    shorter.shown.trans (by decide +kernel)⟩

end

end Session

end WhileLang
