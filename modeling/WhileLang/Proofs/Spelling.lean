import WhileLang.Text.Newline
import WhileLang.Token.Feed

/-!
Spellings: the lexemes that a kind of token has. Main statement: the token read
off a text is the one whose spelling no further character prolongs.
-/

namespace WhileLang

namespace Token

/-- The kind of token that a text spells from its first character to its last. -/
def Kind.spelled? (lexeme : List Char) : Option Kind :=
  if lexeme ≠ [] ∧ lexeme.all Text.isAsciiLetter then
    some (.ofWord lexeme)
  else if lexeme ≠ [] ∧ lexeme.all Text.isAsciiDigit then
    some .integer
  else
    match lexeme with
    | [first] => Kind.ofSign? first
    | [first, second] => Kind.ofPair? first second
    | _ => none

/-- The lexeme of a token spells its kind. -/
def Spelled (token : Token) : Prop :=
  Kind.spelled? token.lexeme.toList = some token.kind

/-- No character at the front of `rest` prolongs a lexeme to a longer one. -/
def Ends (lexeme rest : List Char) : Prop :=
  ∀ character ∈ rest.head?, Kind.spelled? (lexeme ++ [character]) = none

/-! ## Spellings by their first character -/

theorem toNat_of_letter
    {character : Char}
    (letter : Text.isAsciiLetter character = true) :
    0x41 ≤ character.toNat ∧ character.toNat ≤ 0x7A := by
  simp only [Text.isAsciiLetter, Bool.or_eq_true, Bool.and_eq_true,
    decide_eq_true_eq, Char.le_def, UInt32.le_iff_toNat_le] at letter
  have upperA : 'A'.val.toNat = 0x41 := rfl
  have upperZ : 'Z'.val.toNat = 0x5A := rfl
  have lowerA : 'a'.val.toNat = 0x61 := rfl
  have lowerZ : 'z'.val.toNat = 0x7A := rfl
  unfold Char.toNat
  omega

theorem toNat_of_digit
    {character : Char}
    (digit : Text.isAsciiDigit character = true) :
    0x30 ≤ character.toNat ∧ character.toNat ≤ 0x39 := by
  simpa [Text.isAsciiDigit, Char.le_def, UInt32.le_iff_toNat_le] using digit

theorem not_isAsciiDigit_of_letter
    {character : Char}
    (letter : Text.isAsciiLetter character = true) :
    Text.isAsciiDigit character = false := by
  cases digit : Text.isAsciiDigit character with
  | false => rfl
  | true =>
      have letterRange := toNat_of_letter letter
      have digitRange := toNat_of_digit digit
      omega

/-- The characters that occur in signs. -/
def signCharacters : List Char :=
  ['+', '-', '*', '/', '%', ',', '(', ')', '\x7b', '\x7d', '=', '<', '>', '!',
    '&', '|']

theorem signCharacter_of_ofSign?
    {first : Char} {kind : Kind}
    (sign : Kind.ofSign? first = some kind) :
    first ∈ signCharacters := by
  unfold Kind.ofSign? at sign
  split at sign <;> first | decide | cases sign

theorem signCharacters_of_ofPair?
    {first second : Char} {kind : Kind}
    (pair : Kind.ofPair? first second = some kind) :
    first ∈ signCharacters ∧ second ∈ signCharacters := by
  unfold Kind.ofPair? at pair
  split at pair <;> first | decide | cases pair

theorem not_wordCharacter_of_signCharacter
    {character : Char}
    (sign : character ∈ signCharacters) :
    Text.isAsciiLetter character = false ∧ Text.isAsciiDigit character = false := by
  have checked :
      signCharacters.all (fun character =>
        !Text.isAsciiLetter character && !Text.isAsciiDigit character) = true := by
    decide
  simpa using List.all_eq_true.mp checked character sign

/-- No sign of two characters begins with a letter or a digit. -/
theorem ofPair?_eq_none
    {first : Char} (second : Char)
    (wordCharacter :
      Text.isAsciiLetter first = true ∨ Text.isAsciiDigit first = true) :
    Kind.ofPair? first second = none := by
  rw [Option.eq_none_iff_forall_ne_some]
  intro kind pair
  have outside :=
    not_wordCharacter_of_signCharacter (signCharacters_of_ofPair? pair).1
  simp [outside] at wordCharacter

/-- A lexeme that begins with a letter is a word. -/
theorem spelled?_of_letter
    {first : Char} (others : List Char)
    (letter : Text.isAsciiLetter first = true) :
    Kind.spelled? (first :: others) =
      if others.all Text.isAsciiLetter then some (.ofWord (first :: others))
      else none := by
  have notDigit := not_isAsciiDigit_of_letter letter
  unfold Kind.spelled?
  by_cases word : others.all Text.isAsciiLetter = true
  · simp [letter, word]
  · match others, word with
    | [], word => simp at word
    | [second], word => simp_all [ofPair?_eq_none second (.inl letter)]
    | _ :: _ :: _, word => simp_all

theorem not_isAsciiLetter_of_digit
    {character : Char}
    (digit : Text.isAsciiDigit character = true) :
    Text.isAsciiLetter character = false := by
  cases letter : Text.isAsciiLetter character with
  | false => rfl
  | true => simp [not_isAsciiDigit_of_letter letter] at digit

/-- A lexeme that begins with a digit is a run of digits. -/
theorem spelled?_of_digit
    {first : Char} (others : List Char)
    (digit : Text.isAsciiDigit first = true) :
    Kind.spelled? (first :: others) =
      if others.all Text.isAsciiDigit then some .integer else none := by
  have notLetter := not_isAsciiLetter_of_digit digit
  unfold Kind.spelled?
  by_cases run : others.all Text.isAsciiDigit = true
  · simp [notLetter, digit, run]
  · match others, run with
    | [], run => simp at run
    | [second], run => simp_all [ofPair?_eq_none second (.inr digit)]
    | _ :: _ :: _, run => simp_all

/-- Any other lexeme is a sign of one or two characters. -/
theorem spelled?_of_sign
    {first : Char} (others : List Char)
    (notLetter : Text.isAsciiLetter first = false)
    (notDigit : Text.isAsciiDigit first = false) :
    Kind.spelled? (first :: others) =
      match others with
      | [] => Kind.ofSign? first
      | [second] => Kind.ofPair? first second
      | _ => none := by
  unfold Kind.spelled?
  simp only [List.all_cons, notLetter, notDigit, Bool.false_and,
    Bool.false_eq_true, and_false, if_false]
  split <;> simp_all

/-- The characters of a lexeme are letters, digits and characters of signs. -/
theorem character_of_spelled
    {lexeme : List Char} {kind : Kind}
    (spelled : Kind.spelled? lexeme = some kind)
    {character : Char}
    (member : character ∈ lexeme) :
    Text.isAsciiLetter character = true ∨ Text.isAsciiDigit character = true ∨
      character ∈ signCharacters := by
  match lexeme with
  | [] => cases member
  | first :: others =>
      by_cases letter : Text.isAsciiLetter first = true
      · rw [spelled?_of_letter others letter] at spelled
        split at spelled
        · rename_i word
          rcases List.mem_cons.mp member with rfl | later
          · exact .inl letter
          · exact .inl (List.all_eq_true.mp word character later)
        · cases spelled
      · rw [Bool.not_eq_true] at letter
        by_cases digit : Text.isAsciiDigit first = true
        · rw [spelled?_of_digit others digit] at spelled
          split at spelled
          · rename_i run
            rcases List.mem_cons.mp member with rfl | later
            · exact .inr (.inl digit)
            · exact .inr (.inl (List.all_eq_true.mp run character later))
          · cases spelled
        · rw [Bool.not_eq_true] at digit
          rw [spelled?_of_sign others letter digit] at spelled
          right
          right
          match others with
          | [] =>
              rw [List.mem_singleton.mp member]
              exact signCharacter_of_ofSign? spelled
          | [second] =>
              have signs := signCharacters_of_ofPair? spelled
              rcases List.mem_cons.mp member with rfl | later
              · exact signs.1
              · rw [List.mem_singleton.mp later]
                exact signs.2
          | _ :: _ :: _ => cases spelled

theorem second_of_ofPair?
    {first second : Char} {kind : Kind}
    (pair : Kind.ofPair? first second = some kind) :
    second ∈ ['=', '&', '|'] := by
  unfold Kind.ofPair? at pair
  split at pair <;> first | decide | cases pair

/-- A sign of two characters that begins with a sign ends with `=`. -/
theorem second_of_ofPair?_of_ofSign?
    {first second : Char} {kind : Kind}
    (pair : Kind.ofPair? first second = some kind) :
    second = '=' ∨ Kind.ofSign? first = none := by
  unfold Kind.ofPair? at pair
  split at pair <;> first | decide | cases pair

/-- Only few characters prolong a lexeme. -/
theorem last_of_spelled
    {lexeme : List Char} {character : Char} {kind : Kind}
    (nonempty : lexeme ≠ [])
    (spelled : Kind.spelled? (lexeme ++ [character]) = some kind) :
    Text.isAsciiLetter character = true ∨ Text.isAsciiDigit character = true ∨
      ∃ first, lexeme = [first] ∧ Kind.ofPair? first character = some kind := by
  obtain ⟨first, others, rfl⟩ := List.exists_cons_of_ne_nil nonempty
  rw [List.cons_append] at spelled
  by_cases letter : Text.isAsciiLetter first = true
  · rw [spelled?_of_letter _ letter] at spelled
    split at spelled
    · rename_i word
      exact .inl (List.all_eq_true.mp word character (by simp))
    · cases spelled
  · rw [Bool.not_eq_true] at letter
    by_cases digit : Text.isAsciiDigit first = true
    · rw [spelled?_of_digit _ digit] at spelled
      split at spelled
      · rename_i run
        exact .inr (.inl (List.all_eq_true.mp run character (by simp)))
      · cases spelled
    · rw [Bool.not_eq_true] at digit
      rw [spelled?_of_sign _ letter digit] at spelled
      match others with
      | [] => exact .inr (.inr ⟨first, rfl, spelled⟩)
      | [_] => cases spelled
      | _ :: _ :: _ => cases spelled

/-- What prolongs a lexeme is a lexeme itself. -/
theorem spelled?_last
    {lexeme : List Char} {character : Char} {kind longerKind : Kind}
    (spelled : Kind.spelled? lexeme = some kind)
    (longer : Kind.spelled? (lexeme ++ [character]) = some longerKind) :
    ∃ lastKind, Kind.spelled? [character] = some lastKind := by
  have nonempty : lexeme ≠ [] := by
    rintro rfl
    cases spelled
  rcases last_of_spelled nonempty longer with letter | digit | ⟨first, rfl, pair⟩
  · exact ⟨_, by rw [spelled?_of_letter [] letter, List.all_nil, if_pos rfl]⟩
  · exact ⟨_, by rw [spelled?_of_digit [] digit, List.all_nil, if_pos rfl]⟩
  · rcases second_of_ofPair?_of_ofSign? pair with rfl | noSign
    · exact ⟨.assign, by decide⟩
    · have outside :=
        not_wordCharacter_of_signCharacter (signCharacters_of_ofPair? pair).1
      rw [spelled?_of_sign [] outside.1 outside.2, noSign] at spelled
      cases spelled

theorem bounds_of_signCharacter
    {character : Char}
    (sign : character ∈ signCharacters) :
    0x21 ≤ character.toNat ∧ character.toNat ≤ 0x7D := by
  have checked :
      signCharacters.all (fun character =>
        decide (0x21 ≤ character.toNat ∧ character.toNat ≤ 0x7D)) = true := by
    decide
  exact of_decide_eq_true (List.all_eq_true.mp checked character sign)

/-- In a lexeme there is neither white space nor the end of a line. -/
theorem visible_of_spelled
    {lexeme : List Char} {kind : Kind}
    (spelled : Kind.spelled? lexeme = some kind)
    {character : Char}
    (member : character ∈ lexeme) :
    Lexer.flatten character ≠ ' ' ∧ Text.isLineEnd character = false := by
  have bounds : 0x21 ≤ character.toNat ∧ character.toNat ≤ 0x7D := by
    rcases character_of_spelled spelled member with letter | digit | sign
    · have range := toNat_of_letter letter
      omega
    · have range := toNat_of_digit digit
      omega
    · exact bounds_of_signCharacter sign
  constructor
  · unfold Lexer.flatten
    split
    · rename_i blank
      rcases blank with rfl | rfl | rfl <;> exact absurd bounds (by decide)
    · rintro rfl
      exact absurd bounds (by decide)
  · simp only [Text.isLineEnd, Bool.or_eq_false_iff, Bool.and_eq_false_iff,
      decide_eq_false_iff_not, beq_eq_false_iff_ne]
    omega

/-- A run of a character class comes off the front of a text exactly when it lies
in the class and what follows does not begin in it. -/
theorem takeWhile_dropWhile_append
    (inClass : Char → Bool) (run rest : List Char)
    (within : run.all inClass = true)
    (stops : ∀ character ∈ rest.head?, inClass character = false) :
    (run ++ rest).takeWhile inClass = run ∧
      (run ++ rest).dropWhile inClass = rest := by
  rw [List.all_eq_true] at within
  rw [List.takeWhile_append_of_pos within, List.dropWhile_append_of_pos within]
  cases rest with
  | nil => simp
  | cons character others => simp [stops character rfl]

theorem head?_dropWhile_not
    {inClass : Char → Bool} {text : List Char} {character : Char}
    (head : character ∈ (text.dropWhile inClass).head?) :
    inClass character = false := by
  have stop := List.head?_dropWhile_not inClass text
  rw [Option.mem_def.mp head] at stop
  simpa using stop

/-! ## The token at the start of a text -/

theorem first?_of_letter
    {first : Char} (others : List Char)
    (letter : Text.isAsciiLetter first = true) :
    first? (first :: others) =
      let word := (first :: others).takeWhile Text.isAsciiLetter
      some (⟨Kind.ofWord word, String.ofList word⟩,
        (first :: others).dropWhile Text.isAsciiLetter) := by
  simp [first?, letter]

theorem first?_of_digit
    {first : Char} (others : List Char)
    (digit : Text.isAsciiDigit first = true) :
    first? (first :: others) =
      let run := (first :: others).takeWhile Text.isAsciiDigit
      some (⟨.integer, String.ofList run⟩,
        (first :: others).dropWhile Text.isAsciiDigit) := by
  simp [first?, not_isAsciiLetter_of_digit digit, digit]

theorem first?_of_sign
    {first : Char} (others : List Char)
    (notLetter : Text.isAsciiLetter first = false)
    (notDigit : Text.isAsciiDigit first = false) :
    first? (first :: others) = sign? (first :: others) := by
  simp [first?, notLetter, notDigit]

theorem spelled_and_ends_of_sign?
    {first : Char} {others rest : List Char} {token : Token}
    (notLetter : Text.isAsciiLetter first = false)
    (notDigit : Text.isAsciiDigit first = false)
    (found : sign? (first :: others) = some (token, rest)) :
    token.Spelled ∧ Ends token.lexeme.toList rest := by
  have bySign := fun others =>
    @spelled?_of_sign first others notLetter notDigit
  match others with
  | [] =>
      obtain ⟨kind, sign, equality⟩ := Option.map_eq_some_iff.mp found
      cases equality
      exact ⟨by simp [Spelled, bySign, sign], by simp [Ends]⟩
  | second :: remaining =>
      simp only [sign?] at found
      split at found
      · rename_i kind pair
        cases found
        exact ⟨by simp [Spelled, bySign, pair], fun character _ => by
          simp [bySign]⟩
      · rename_i noPair
        obtain ⟨kind, sign, equality⟩ := Option.map_eq_some_iff.mp found
        cases equality
        refine ⟨by simp [Spelled, bySign, sign], ?_⟩
        intro character head
        cases head
        simp [bySign, noPair]

theorem sign?_append
    {first : Char} {others rest : List Char} {kind : Kind}
    (notLetter : Text.isAsciiLetter first = false)
    (notDigit : Text.isAsciiDigit first = false)
    (spelled : Kind.spelled? (first :: others) = some kind)
    (ends : Ends (first :: others) rest) :
    sign? (first :: (others ++ rest)) =
      some (⟨kind, String.ofList (first :: others)⟩, rest) := by
  rw [spelled?_of_sign others notLetter notDigit] at spelled
  match others with
  | [] =>
      match rest with
      | [] =>
          simp only at spelled
          simp [sign?, spelled]
      | second :: remaining =>
          have noPair := ends second rfl
          simp only [List.cons_append, List.nil_append,
            spelled?_of_sign [second] notLetter notDigit] at noPair
          simp only at spelled
          simp [sign?, noPair, spelled]
  | [second] =>
      simp only at spelled
      simp [sign?, spelled]
  | _ :: _ :: _ => cases spelled

/-- The token read off a text is spelled by its lexeme, and no character behind
it prolongs that. -/
theorem spelled_and_ends_of_first?
    {text rest : List Char} {token : Token}
    (found : first? text = some (token, rest)) :
    token.Spelled ∧ Ends token.lexeme.toList rest := by
  match text with
  | [] => cases found
  | first :: others =>
      by_cases letter : Text.isAsciiLetter first = true
      · rw [first?_of_letter others letter] at found
        cases found
        refine ⟨by simp [Spelled, letter, spelled?_of_letter], ?_⟩
        intro character head
        have outside := head?_dropWhile_not head
        simp [letter, spelled?_of_letter, outside]
      · rw [Bool.not_eq_true] at letter
        by_cases digit : Text.isAsciiDigit first = true
        · rw [first?_of_digit others digit] at found
          cases found
          refine ⟨by simp [Spelled, digit, spelled?_of_digit], ?_⟩
          intro character head
          have outside := head?_dropWhile_not head
          simp [digit, spelled?_of_digit, outside]
        · rw [Bool.not_eq_true] at digit
          rw [first?_of_sign others letter digit] at found
          exact spelled_and_ends_of_sign? letter digit found

/-- Conversely such a token is read off the text. -/
theorem first?_append
    {token : Token} {rest : List Char}
    (spelled : token.Spelled)
    (ends : Ends token.lexeme.toList rest) :
    first? (token.lexeme.toList ++ rest) = some (token, rest) := by
  obtain ⟨kind, lexeme⟩ := token
  obtain ⟨characters, rfl⟩ : ∃ characters, lexeme = String.ofList characters :=
    ⟨lexeme.toList, by simp⟩
  simp only [Spelled, String.toList_ofList] at spelled ends ⊢
  match characters with
  | [] => cases spelled
  | first :: others =>
      by_cases letter : Text.isAsciiLetter first = true
      · rw [spelled?_of_letter others letter] at spelled
        split at spelled
        · rename_i word
          cases spelled
          have parts := takeWhile_dropWhile_append
            Text.isAsciiLetter (first :: others) rest
            (by simpa [letter] using word)
            (fun character head => by
              have stop := ends character head
              simpa [letter, spelled?_of_letter, word] using stop)
          rw [List.cons_append] at parts ⊢
          rw [first?_of_letter _ letter, parts.1, parts.2]
        · cases spelled
      · rw [Bool.not_eq_true] at letter
        by_cases digit : Text.isAsciiDigit first = true
        · rw [spelled?_of_digit others digit] at spelled
          split at spelled
          · rename_i run
            cases spelled
            have parts := takeWhile_dropWhile_append
              Text.isAsciiDigit (first :: others) rest
              (by simpa [digit] using run)
              (fun character head => by
                have stop := ends character head
                simpa [digit, spelled?_of_digit, run] using stop)
            rw [List.cons_append] at parts ⊢
            rw [first?_of_digit _ digit, parts.1, parts.2]
          · cases spelled
        · rw [Bool.not_eq_true] at digit
          rw [List.cons_append, first?_of_sign _ letter digit]
          exact sign?_append letter digit spelled ends

theorem sign?_ne_none
    {first : Char} {others rest : List Char} {kind : Kind}
    (notLetter : Text.isAsciiLetter first = false)
    (notDigit : Text.isAsciiDigit first = false)
    (spelled : Kind.spelled? (first :: others) = some kind) :
    sign? (first :: (others ++ rest)) ≠ none := by
  rw [spelled?_of_sign others notLetter notDigit] at spelled
  match others with
  | [] =>
      simp only at spelled
      match rest with
      | [] => simp [sign?, spelled]
      | second :: _ =>
          cases pair : Kind.ofPair? first second <;> simp [sign?, pair, spelled]
  | [second] =>
      simp only at spelled
      simp [sign?, spelled]
  | _ :: _ :: _ => cases spelled

/-- No token is read off a text exactly if no lexeme stands at its front. -/
theorem first?_eq_none_iff (text : List Char) :
    first? text = none ↔
      ∀ lexeme kind, Kind.spelled? lexeme = some kind → ¬ lexeme <+: text := by
  constructor
  · rintro absent lexeme kind spelled ⟨rest, rfl⟩
    match lexeme with
    | [] => cases spelled
    | first :: others =>
        rw [List.cons_append] at absent
        by_cases letter : Text.isAsciiLetter first = true
        · rw [first?_of_letter _ letter] at absent
          cases absent
        · rw [Bool.not_eq_true] at letter
          by_cases digit : Text.isAsciiDigit first = true
          · rw [first?_of_digit _ digit] at absent
            cases absent
          · rw [Bool.not_eq_true] at digit
            rw [first?_of_sign _ letter digit] at absent
            exact sign?_ne_none letter digit spelled absent
  · intro absent
    rw [Option.eq_none_iff_forall_ne_some]
    rintro ⟨token, rest⟩ found
    have spelled := (spelled_and_ends_of_first? found).1
    exact absent _ _ spelled ⟨rest, lexeme_append_of_first? found⟩

/-! ## The kinds that are spelled -/

theorem ofWord_cases (word : List Char) :
    Kind.ofWord word ∈
      [.whileWord, .ifWord, .elseWord, .printWord, .identifier] := by
  unfold Kind.ofWord
  repeat' split
  all_goals decide

theorem ofSign?_not_word
    {first : Char} {kind : Kind}
    (sign : Kind.ofSign? first = some kind) :
    kind ≠ .integer ∧ kind ≠ .endOfInput := by
  unfold Kind.ofSign? at sign
  split at sign <;> cases sign <;> decide

theorem ofPair?_not_word
    {first second : Char} {kind : Kind}
    (pair : Kind.ofPair? first second = some kind) :
    kind ≠ .integer ∧ kind ≠ .endOfInput := by
  unfold Kind.ofPair? at pair
  split at pair <;> cases pair <;> decide

/-- No text spells the end of input, and only digits spell an integer. -/
theorem kind_of_spelled
    {lexeme : List Char} {kind : Kind}
    (spelled : Kind.spelled? lexeme = some kind) :
    kind ≠ .endOfInput ∧
      (kind = .integer → lexeme.all Text.isAsciiDigit = true) := by
  unfold Kind.spelled? at spelled
  split at spelled
  · cases spelled
    have words := ofWord_cases lexeme
    refine ⟨fun atEnd => ?_, fun integer => ?_⟩
    · rw [atEnd] at words
      exact absurd words (by decide)
    · rw [integer] at words
      exact absurd words (by decide)
  · split at spelled
    · rename_i run
      cases spelled
      exact ⟨by decide, fun _ => run.2⟩
    · split at spelled
      · have other := ofSign?_not_word spelled
        exact ⟨other.2, fun integer => absurd integer other.1⟩
      · have other := ofPair?_not_word spelled
        exact ⟨other.2, fun integer => absurd integer other.1⟩
      · cases spelled

/-- The only lexeme of a keyword or of a sign. -/
def Kind.fixed? : Kind → Option String
  | .identifier => none
  | .integer => none
  | .endOfInput => none
  | .whileWord => some "while"
  | .ifWord => some "if"
  | .elseWord => some "else"
  | .printWord => some "print"
  | .plus => some "+"
  | .minus => some "-"
  | .star => some "*"
  | .slash => some "/"
  | .percent => some "%"
  | .assign => some "="
  | .equal => some "=="
  | .notEqual => some "!="
  | .less => some "<"
  | .greater => some ">"
  | .lessEqual => some "<="
  | .greaterEqual => some ">="
  | .and => some "&&"
  | .or => some "||"
  | .comma => some ","
  | .bracketOpen => some "("
  | .bracketClose => some ")"
  | .braceOpen => some "\x7b"
  | .braceClose => some "\x7d"

theorem fixed?_of_ofWord
    {word : List Char} {text : String}
    (fixed : (Kind.ofWord word).fixed? = some text) :
    word = text.toList := by
  unfold Kind.ofWord at fixed
  repeat' split at fixed
  all_goals cases fixed
  all_goals assumption

theorem fixed?_of_ofSign?
    {first : Char} {kind : Kind} {text : String}
    (sign : Kind.ofSign? first = some kind)
    (fixed : kind.fixed? = some text) :
    [first] = text.toList := by
  unfold Kind.ofSign? at sign
  split at sign <;> cases sign <;> cases fixed <;> rfl

theorem fixed?_of_ofPair?
    {first second : Char} {kind : Kind} {text : String}
    (pair : Kind.ofPair? first second = some kind)
    (fixed : kind.fixed? = some text) :
    [first, second] = text.toList := by
  unfold Kind.ofPair? at pair
  split at pair <;> cases pair <;> cases fixed <;> rfl

/-- Keywords and signs are spelled in one way. -/
theorem eq_of_spelled
    {token : Token} {text : String}
    (spelled : token.Spelled)
    (fixed : token.kind.fixed? = some text) :
    token.lexeme = text := by
  rw [← String.toList_inj]
  unfold Spelled Kind.spelled? at spelled
  split at spelled
  · rw [← Option.some_inj.mp spelled] at fixed
    exact fixed?_of_ofWord fixed
  · split at spelled
    · rw [← Option.some_inj.mp spelled] at fixed
      cases fixed
    · split at spelled
      · rename_i shape
        rw [shape]
        exact fixed?_of_ofSign? spelled fixed
      · rename_i shape
        rw [shape]
        exact fixed?_of_ofPair? spelled fixed
      · cases spelled

/-- The token of a keyword or a sign. -/
def fixed (kind : Kind) : Token :=
  ⟨kind, kind.fixed?.getD ""⟩

@[simp] theorem kind_fixed (kind : Kind) : (fixed kind).kind = kind := rfl

theorem spelled_fixed
    {kind : Kind}
    (isFixed : kind.fixed?.isSome = true) :
    (fixed kind).Spelled := by
  cases kind
  case identifier | integer | endOfInput => cases isFixed
  all_goals
    unfold Spelled
    decide

/-- A keyword or a sign is the one token of its kind. -/
theorem eq_fixed
    {token : Token} {kind : Kind}
    (spelled : token.Spelled)
    (isKind : token.kind = kind)
    (isFixed : kind.fixed?.isSome = true) :
    token = fixed kind := by
  obtain ⟨text, fixedText⟩ := Option.isSome_iff_exists.mp isFixed
  subst isKind
  have same := eq_of_spelled spelled fixedText
  rw [fixed, fixedText, Option.getD_some, ← same]

theorem exists_cons_of_spelled
    {token : Token}
    (spelled : token.Spelled) :
    ∃ first others, token.lexeme.toList = first :: others := by
  apply List.exists_cons_of_ne_nil
  intro empty
  rw [Spelled, empty] at spelled
  cases spelled

end Token

end WhileLang
