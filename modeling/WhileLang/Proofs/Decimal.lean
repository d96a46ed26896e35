import Mathlib.Data.List.Basic
import Mathlib.Data.List.TakeWhile
import WhileLang.Numeral
import WhileLang.Proofs.Spelling

/-!
Decimal literals: the integers that tokens of digits stand for. Main statements:
an integer token is read as the number its digits spell, if they are not too many
and it is a word, and a number is spelled by the digits it is written with.
-/

namespace WhileLang

namespace Numeral

variable {run : List Char}

theorem isDigit_of_isAsciiDigit
    {character : Char}
    (digit : Text.isAsciiDigit character = true) :
    isDigit character = true := by
  simp [isDigit, Text.digitValue?_of_isAsciiDigit digit]

theorem ne_joiner_of_isAsciiDigit
    {character : Char}
    (digit : Text.isAsciiDigit character = true) :
    character ≠ joiner := by
  rintro rfl
  exact absurd digit (by decide)

theorem dropWhile_isWhiteSpace_of_digits
    (digits : run.all Text.isAsciiDigit = true) :
    run.dropWhile Text.isWhiteSpace = run := by
  match run with
  | [] => rfl
  | first :: others =>
      have digit : Text.isAsciiDigit first = true :=
        List.all_eq_true.mp digits first List.mem_cons_self
      have bounds := Token.toNat_of_digit digit
      apply List.dropWhile_cons_of_neg
      simp only [Text.isWhiteSpace, Bool.or_eq_true, Bool.and_eq_true,
        decide_eq_true_eq, beq_iff_eq]
      omega

theorem splitSign_of_digits
    (digits : run.all Text.isAsciiDigit = true) :
    splitSign run = (false, run) := by
  unfold splitSign
  split
  · simp only [List.all_cons, Bool.and_eq_true] at digits
    exact absurd digits.1 (by decide)
  · simp only [List.all_cons, Bool.and_eq_true] at digits
    exact absurd digits.1 (by decide)
  · rfl

theorem isGrouped_of_digits
    (nonempty : run ≠ [])
    (digits : run.all Text.isAsciiDigit = true) :
    isGrouped run = true := by
  induction run with
  | nil => exact absurd rfl nonempty
  | cons first others inductionHypothesis =>
      simp only [List.all_cons, Bool.and_eq_true] at digits
      have firstDigit := isDigit_of_isAsciiDigit digits.1
      match others with
      | [] => exact firstDigit
      | second :: rest =>
          have later := digits.2
          simp only [List.all_cons, Bool.and_eq_true] at later
          have noJoiner := ne_joiner_of_isAsciiDigit later.1
          rw [isGrouped, firstDigit, if_neg noJoiner,
            inductionHypothesis (by simp) digits.2]
          rfl

theorem runValue_of_digits
    (digits : run.all Text.isAsciiDigit = true) :
    runValue run = Nat.ofDigitChars 10 run 0 := by
  have values :
      run.filterMap Text.digitValue? = run.map fun digit => digit.toNat - 0x30 := by
    rw [← List.filterMap_eq_map]
    refine List.filterMap_congr fun digit member => ?_
    exact Text.digitValue?_of_isAsciiDigit (List.all_eq_true.mp digits digit member)
  rw [runValue, values, List.foldl_map]
  rfl

/-- A run of ASCII digits that is not too long is read as the number it spells. -/
theorem read_of_digits
    (nonempty : run ≠ [])
    (digits : run.all Text.isAsciiDigit = true) :
    read (String.ofList run) =
      if digitLimit < run.length then .error (.tooManyDigits run.length)
      else .ok (Nat.ofDigitChars 10 run 0) := by
  have inRun : ∀ character ∈ run, isRunCharacter character = true := by
    intro character member
    have digit := List.all_eq_true.mp digits character member
    simp [isRunCharacter, isDigit_of_isAsciiDigit digit]
  have isDigits : ∀ character ∈ run, isDigit character = true := fun _ member =>
    isDigit_of_isAsciiDigit (List.all_eq_true.mp digits _ member)
  have taken : run.takeWhile isRunCharacter = run := by
    rw [List.takeWhile_eq_self_iff]
    exact inRun
  have dropped : run.dropWhile isRunCharacter = [] := by
    rw [List.dropWhile_eq_nil_iff]
    exact inRun
  have counted : run.countP isDigit = run.length :=
    List.countP_eq_length.mpr isDigits
  simp [read, dropWhile_isWhiteSpace_of_digits digits, splitSign_of_digits digits,
    taken, dropped, counted, isGrouped_of_digits nonempty digits,
    runValue_of_digits digits]

end Numeral

/-- An integer token stands for the number that its digits spell, if these are at
most as many as a numeral may have and the number is a word. -/
structure Token.Literal (token : Token) (value : Int) : Prop where
  kind : token.kind = .integer
  nonempty : token.lexeme.toList ≠ []
  digits : token.lexeme.toList.all Text.isAsciiDigit = true
  short : token.lexeme.toList.length ≤ 4300
  spelled : value = Nat.ofDigitChars 10 token.lexeme.toList 0
  small : value ≤ 2147483647

namespace Token

theorem readWord_eq_ok_iff
    {token : Token} {value : Int}
    (nonempty : token.lexeme.toList ≠ [])
    (digits : token.lexeme.toList.all Text.isAsciiDigit = true) :
    Numeral.readWord token.lexeme = .ok value ↔
      token.lexeme.toList.length ≤ 4300 ∧
        value = Nat.ofDigitChars 10 token.lexeme.toList 0 ∧
          value ≤ 2147483647 := by
  have reading := Numeral.read_of_digits nonempty digits
  rw [String.ofList_toList] at reading
  unfold Numeral.readWord
  rw [reading]
  by_cases long : Numeral.digitLimit < token.lexeme.toList.length
  · simp only [long, if_true]
    unfold Numeral.digitLimit at long
    simp
    omega
  · simp only [long, if_false]
    unfold Numeral.digitLimit at long
    generalize Nat.ofDigitChars 10 token.lexeme.toList 0 = number
    by_cases small : (number : Int) ≤ 2147483647
    · have within : Word.InRange number := by
        simp only [Word.InRange, Word.least, Word.greatest]
        omega
      simp only [if_pos within, Except.ok.injEq]
      omega
    · have outside : ¬ Word.InRange number := by
        simp only [Word.InRange, Word.least, Word.greatest]
        omega
      simp only [if_neg outside, reduceCtorEq, false_iff]
      omega

theorem Literal.natural
    {token : Token} {value : Int}
    (literal : token.Literal value) :
    0 ≤ value := by
  rw [literal.spelled]
  exact Int.natCast_nonneg _

theorem Literal.readWord
    {token : Token} {value : Int}
    (literal : token.Literal value) :
    Numeral.readWord token.lexeme = .ok value :=
  (readWord_eq_ok_iff literal.nonempty literal.digits).mpr
    ⟨literal.short, literal.spelled, literal.small⟩

/-- A token of a text that is read as an integer stands for it. -/
theorem literal_of_readWord
    {token : Token} {value : Int}
    (spelled : token.Spelled)
    (integer : token.kind = .integer)
    (reading : Numeral.readWord token.lexeme = .ok value) :
    token.Literal value := by
  have digits := (kind_of_spelled spelled).2 integer
  have nonempty : token.lexeme.toList ≠ [] := by
    obtain ⟨first, others, shape⟩ := exists_cons_of_spelled spelled
    simp [shape]
  obtain ⟨short, same, small⟩ := (readWord_eq_ok_iff nonempty digits).mp reading
  exact ⟨integer, nonempty, digits, short, same, small⟩

/-- The token of a number that is written with its digits. -/
def number (value : Int) : Token :=
  ⟨.integer, toString value⟩

theorem toList_lexeme_number (value : Nat) :
    (number value).lexeme.toList = Nat.toDigits 10 value := by
  show (Int.repr value).toList = _
  rw [Int.repr_eq_if, if_pos (Int.natCast_nonneg value), Int.toNat_natCast,
    Nat.toList_repr]

theorem isAsciiDigit_of_isDigit
    {character : Char}
    (digit : character.isDigit = true) :
    Text.isAsciiDigit character = true := by
  simp only [Char.isDigit, Bool.and_eq_true, decide_eq_true_eq] at digit
  simp only [Text.isAsciiDigit, Bool.and_eq_true, decide_eq_true_eq, Char.le_def]
  exact digit

theorem digits_number (value : Nat) :
    (number value).lexeme.toList.all Text.isAsciiDigit = true := by
  rw [toList_lexeme_number, List.all_eq_true]
  intro character member
  exact isAsciiDigit_of_isDigit
    (Nat.isDigit_of_mem_toDigits (by decide) (by decide) member)

theorem spelled_of_digits
    {lexeme : String}
    (nonempty : lexeme.toList ≠ [])
    (digits : lexeme.toList.all Text.isAsciiDigit = true) :
    (Token.mk .integer lexeme).Spelled := by
  obtain ⟨first, others, shape⟩ := List.exists_cons_of_ne_nil nonempty
  rw [shape, List.all_cons, Bool.and_eq_true] at digits
  rw [Spelled, shape, spelled?_of_digit others digits.1, if_pos digits.2]

theorem literal_number
    {value : Int}
    (natural : 0 ≤ value)
    (small : value ≤ 2147483647) :
    (number value).Literal value := by
  obtain ⟨magnitude, rfl⟩ := Int.eq_ofNat_of_zero_le natural
  have digits := digits_number magnitude
  have written := toList_lexeme_number magnitude
  refine ⟨rfl, ?_, digits, ?_, ?_, small⟩
  · rw [written]
    exact Nat.toDigits_ne_nil
  · have below : magnitude < 10 ^ 10 := by omega
    have short :=
      (Nat.length_toDigits_le_iff (b := 10) (by decide) (by decide)).mpr below
    rw [written]
    omega
  · rw [written, Nat.ofDigitChars_ten_toDigits]

theorem spelled_number
    {value : Int}
    (natural : 0 ≤ value)
    (small : value ≤ 2147483647) :
    (number value).Spelled :=
  spelled_of_digits (literal_number natural small).nonempty
    (literal_number natural small).digits

end Token

end WhileLang
