import WhileLang.Proofs.Decomposition

/-!
Excerpts of a text at fault. Main statement: a fault is shown in three lines; the second
one has the character at fault with its neighbours, up to ten before it and up to nine
behind it, and the caret of the third one stands below that character.
-/

namespace WhileLang

/-! ## Quoted texts -/

namespace Text

theorem newline_not_mem_toDigits (number : Nat) : '\n' ∉ Nat.toDigits 16 number := by
  induction number using Nat.strongRecOn with
  | ind number inductionHypothesis =>
      rcases Nat.lt_or_ge number 16 with single | several
      · rw [Nat.toDigits_of_lt_base single, List.mem_singleton]
        exact (Nat.digitChar_ne '\n' rfl).symm
      · rw [Nat.toDigits_of_base_le (by decide) several, List.mem_append, not_or,
          List.mem_singleton]
        exact ⟨inductionHypothesis (number / 16) (by omega),
          (Nat.digitChar_ne '\n' rfl).symm⟩

theorem newline_not_mem_hexadecimal (width number : Nat) :
    '\n' ∉ hexadecimal width number := by
  rw [hexadecimal, List.mem_append, not_or]
  refine ⟨fun member => ?_, newline_not_mem_toDigits number⟩
  exact absurd (List.eq_of_mem_replicate member) (by decide)

theorem newline_not_mem_numericEscape (character : Char) :
    '\n' ∉ numericEscape character := by
  unfold numericEscape
  dsimp only
  repeat' split
  all_goals simp [newline_not_mem_hexadecimal]

theorem newline_not_mem_quotedCharacter
    {mark : Char}
    (notMark : '\n' ≠ mark)
    (character : Char) :
    '\n' ∉ quotedCharacter mark character := by
  unfold quotedCharacter
  split
  · rename_i marked
    rcases marked with rfl | rfl
    · simpa using notMark
    · decide
  · split
    · decide
    · split
      · decide
      · rename_i notNewline
        split
        · decide
        · split
          · rw [List.mem_singleton]
            exact fun same => notNewline same.symm
          · exact newline_not_mem_numericEscape character

/-- A quoted text is a single line. -/
theorem newline_not_mem_quote (text : String) : '\n' ∉ (quote text).toList := by
  have notMark : '\n' ≠ quotationMark text.toList := by
    unfold quotationMark
    split <;> decide
  simp only [toList_quote, List.mem_cons, List.mem_append, List.mem_flatMap,
    List.not_mem_nil, or_false, not_or, not_exists, not_and]
  exact ⟨notMark, fun character _ => newline_not_mem_quotedCharacter notMark character,
    notMark⟩

end Text

/-! ## Surroundings -/

/-- What stands for a part of a text that is cut off, if anything is. -/
def ellipsisFor (cut : List Char) : List Char :=
  if cut = [] then [] else ['.', '.', '.']

/-- A text around an index: the character there, up to ten before it and up to nine
behind it, and what is cut off where there are more. -/
structure Surroundings (code : List Char) (index : Nat) where
  front : List Char
  before : List Char
  character : Char
  behind : List Char
  back : List Char
  whole : front ++ (before ++ character :: (behind ++ back)) = code
  place : front.length + before.length = index
  before_le : before.length ≤ 10
  behind_le : behind.length ≤ 9
  before_eq : front ≠ [] → before.length = 10
  behind_eq : back ≠ [] → behind.length = 9

namespace Surroundings

variable {code : List Char} {index : Nat}

/-- What is kept, with an ellipsis on each side where something is cut off. -/
def line (around : Surroundings code index) : List Char :=
  ellipsisFor around.front ++
    (around.before ++ around.character :: around.behind ++ ellipsisFor around.back)

/-- The place of the character in that line. -/
def column (around : Surroundings code index) : Nat :=
  (ellipsisFor around.front).length + around.before.length

/-- Every index within a text has surroundings. -/
def ofIndex (code : List Char) (index : Nat) (within : index < code.length) :
    Surroundings code index where
  front := code.take (index - 10)
  before := (code.take index).drop (index - 10)
  character := code[index]
  behind := (code.drop (index + 1)).take 9
  back := (code.drop (index + 1)).drop 9
  whole := by
    have joined :
        code.take (index - 10) ++ (code.take index).drop (index - 10) =
          code.take index := by
      have split := List.take_append_drop (index - 10) (code.take index)
      rwa [List.take_take, Nat.min_eq_left (Nat.sub_le _ _)] at split
    rw [List.take_append_drop, ← List.append_assoc, joined,
      ← List.drop_eq_getElem_cons within, List.take_append_drop]
  place := by
    rw [List.length_take, List.length_drop, List.length_take]
    omega
  before_le := by
    rw [List.length_drop, List.length_take]
    omega
  behind_le := by
    rw [List.length_take]
    omega
  before_eq := by
    intro cut
    have positive := List.length_pos_iff.mpr cut
    rw [List.length_take] at positive
    rw [List.length_drop, List.length_take]
    omega
  behind_eq := by
    intro cut
    have positive := List.length_pos_iff.mpr cut
    rw [List.length_drop] at positive
    rw [List.length_take]
    omega

/-- The character stands at the index. -/
theorem getElem?_index (around : Surroundings code index) :
    code[index]? = some around.character := by
  obtain ⟨front, before, character, behind, back, rfl, rfl, _, _, _, _⟩ := around
  simp

/-- In the line the character stands at its column. -/
theorem getElem?_column (around : Surroundings code index) :
    around.line[around.column]? = some around.character := by
  simp [line, column]

/-- Ten characters are kept before the index, unless there are fewer. -/
theorem length_front (around : Surroundings code index) :
    around.front.length = index - 10 := by
  have place := around.place
  have before := around.before_le
  by_cases whole : around.front = []
  · rw [whole] at place ⊢
    rw [List.length_nil] at place ⊢
    omega
  · have exactly := around.before_eq whole
    omega

/-- From the index on ten characters are kept, unless there are fewer. -/
theorem length_back (around : Surroundings code index) :
    around.back.length = code.length - (index + 10) := by
  have total := congrArg List.length around.whole
  simp only [List.length_append, List.length_cons] at total
  have place := around.place
  have behind := around.behind_le
  by_cases whole : around.back = []
  · rw [whole] at total ⊢
    rw [List.length_nil] at total ⊢
    omega
  · have exactly := around.behind_eq whole
    omega

theorem ellipsisFor_eq (cut : List Char) :
    ellipsisFor cut = if 0 < (cut.length : Int) then ['.', '.', '.'] else [] := by
  cases cut with
  | nil => rfl
  | cons first others => rw [ellipsisFor, if_neg (by simp), if_pos (by simp)]

/-- What is kept of a text is between the part that is cut off before it and the part
that is cut off behind it. -/
theorem drop_take (around : Surroundings code index) :
    (code.take (code.length - around.back.length)).drop around.front.length =
      around.before ++ around.character :: around.behind := by
  have parts :
      around.front ++ (around.before ++ around.character :: around.behind) ++
          around.back = code := by
    simpa using around.whole
  have size := congrArg List.length parts
  rw [List.length_append] at size
  have taken := congrArg (List.take (code.length - around.back.length)) parts
  rw [List.take_left' (by omega)] at taken
  rw [← taken, List.drop_left]

/-- An excerpt starts with what is kept. -/
theorem start_eq (around : Surroundings code index) :
    max 0 ((index : Int) - excerptReach) = around.front.length := by
  have front := around.length_front
  unfold excerptReach
  omega

theorem excerpt_eq_line (around : Surroundings code index) :
    excerpt code index = around.line := by
  have back := around.length_back
  have within : index < code.length :=
    (List.getElem?_eq_some_iff.mp around.getElem?_index).1
  have stop :
      min (code.length : Int) (index + excerptReach) =
        (code.length - around.back.length : Nat) := by
    unfold excerptReach
    omega
  have clamped :
      clampedEnd code.length (code.length - around.back.length : Nat) =
        code.length - around.back.length :=
    if_neg (by omega)
  have cut :
      ((code.length - around.back.length : Nat) : Int) < code.length ↔
        0 < (around.back.length : Int) := by
    omega
  rw [excerpt, around.start_eq, stop, clamped, Int.toNat_natCast, around.drop_take, line,
    ellipsisFor_eq, ellipsisFor_eq]
  simp only [cut]

theorem excerptCaret_eq (around : Surroundings code index) :
    excerptCaret index = List.replicate around.column ' ' ++ ['^'] := by
  have place := around.place
  have column :
      ((index : Int) - around.front.length +
          if 0 < (around.front.length : Int) then 3 else 0).toNat = around.column := by
    rw [Surroundings.column, ellipsisFor_eq]
    split
    · rw [List.length_cons, List.length_cons, List.length_singleton]
      omega
    · rw [List.length_nil]
      omega
  rw [excerptCaret, around.start_eq, column]

theorem not_mem_line
    {character : Char}
    (around : Surroundings code index)
    (absent : character ∉ code)
    (notDot : character ≠ '.') :
    character ∉ around.line := by
  have notInEllipsis (cut : List Char) : character ∉ ellipsisFor cut := by
    unfold ellipsisFor
    split <;> simp [notDot]
  rw [← around.whole] at absent
  simp only [List.mem_append, List.mem_cons, not_or] at absent
  obtain ⟨_, notBefore, notHere, notBehind, _⟩ := absent
  simp only [line, List.mem_append, List.mem_cons, not_or]
  exact ⟨notInEllipsis _, ⟨notBefore, notHere, notBehind⟩, notInEllipsis _⟩

end Surroundings

/-! ## Messages -/

theorem Lexer.flatten_ne_newline (character : Char) : '\n' ≠ flatten character := by
  unfold flatten
  split
  · decide
  · rename_i others
    rintro rfl
    exact others (.inr (.inr rfl))

theorem newline_not_mem_complaint (fault : LexicalFault) :
    '\n' ∉ ("[Lexer error] " ++ fault.complaint).toList := by
  unfold LexicalFault.complaint
  simp only [String.toList_append, List.mem_append, not_or]
  exact ⟨by decide, by decide, Text.newline_not_mem_quote _⟩

theorem LexicalFault.toList_message (fault : LexicalFault) :
    fault.message.toList =
      ['\n'].intercalate
        [("[Lexer error] " ++ fault.complaint).toList,
          excerpt fault.code fault.index, excerptCaret fault.index] := by
  unfold message excerptMessage
  generalize "[Lexer error] " ++ fault.complaint = heading
  simp [List.intercalate]

/-- The message about a text at fault has three lines. In the second one there is, with
its surroundings in the text, the character at which no token starts; the third one is a
caret in the column of that character. -/
theorem LexicalFault.message_points
    {text : String} {fault : LexicalFault}
    (failed : tokenize text = .error fault) :
    (text.toList.map Lexer.flatten)[fault.index]? = some fault.character ∧
      ∃ around : Surroundings (text.toList.map Lexer.flatten) fault.index,
        fault.message.toList.splitOn '\n' =
            [("[Lexer error] " ++ fault.complaint).toList, around.line,
              List.replicate around.column ' ' ++ ['^']] ∧
          around.line[around.column]? = some fault.character := by
  have stuck := (tokenize_eq_error_iff text fault).mp failed
  obtain ⟨sameCode, present, _⟩ :=
    blockedAt_of_feed rfl (congrArg (Feed.mk (Feed.ofText text).tokens) stuck)
  have around : Surroundings (text.toList.map Lexer.flatten) fault.index :=
    .ofIndex _ _ (List.getElem?_eq_some_iff.mp present).1
  have sameCharacter : some around.character = some fault.character :=
    around.getElem?_index.symm.trans present
  have flat : '\n' ∉ text.toList.map Lexer.flatten := by
    rw [List.mem_map]
    rintro ⟨character, _, same⟩
    exact Lexer.flatten_ne_newline character same.symm
  refine ⟨present, around, ?_, around.getElem?_column.trans sameCharacter⟩
  rw [fault.toList_message, sameCode, around.excerpt_eq_line, around.excerptCaret_eq]
  apply List.splitOn_intercalate
  · simp only [List.forall_mem_cons, List.mem_append, not_or]
    refine ⟨newline_not_mem_complaint fault, around.not_mem_line flat (by decide), ?_,
      nofun⟩
    exact ⟨fun member => absurd (List.eq_of_mem_replicate member) (by decide), by decide⟩
  · exact List.cons_ne_nil _ _

/-- A sign that is none behind a line end, with characters cut off on both sides. -/
theorem LexicalFault.message_points_between_ellipses :
    tokenize "total\t= 40 +\n@ 2 * (3 + 4)" =
        .error ⟨'@', "total = 40 + @ 2 * (3 + 4)".toList, 13⟩ ∧
      ∃ around :
          Surroundings ("total\t= 40 +\n@ 2 * (3 + 4)".toList.map Lexer.flatten) 13,
        (LexicalFault.mk '@' "total = 40 + @ 2 * (3 + 4)".toList 13).message.toList.splitOn
              '\n' =
            [("[Lexer error] " ++
                (LexicalFault.mk '@' "total = 40 + @ 2 * (3 + 4)".toList
                  13).complaint).toList,
              around.line, List.replicate around.column ' ' ++ ['^']] ∧
          around.line[around.column]? = some '@' := by
  have failed :
      tokenize "total\t= 40 +\n@ 2 * (3 + 4)" =
        .error ⟨'@', "total = 40 + @ 2 * (3 + 4)".toList, 13⟩ := by
    decide +kernel
  exact ⟨failed, (LexicalFault.message_points failed).2⟩

end WhileLang
