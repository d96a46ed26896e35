import Mathlib.Data.List.DropRight
import WhileLang.Proofs.Spelling

/-!
Layout: how lexemes and white space make up a text. Main statements: a text yields
exactly the tokens it is made up of, up to its end or to a character with which none
begins, and neither white space between two texts nor a margin before the lines of
one changes what they are made up of.
-/

namespace WhileLang

/-! ## Texts made up of lexemes -/

/-- A text is made up of the lexemes of some tokens, with white space before,
between and behind them, and no lexeme can be prolonged by what follows it. -/
inductive Spells : List Char → List Token → Prop
  | nil : Spells [] []
  | blank {character : Char} {text : List Char} {tokens : List Token} :
      Lexer.flatten character = ' ' →
      Spells text tokens →
      Spells (character :: text) tokens
  | token {token : Token} {rest : List Char} {tokens : List Token} :
      token.Spelled →
      Token.Ends token.lexeme.toList rest →
      Spells rest tokens →
      Spells (token.lexeme.toList ++ rest) (token :: tokens)

namespace Token

/-- White space ends every lexeme. -/
theorem ends_blank
    (lexeme rest : List Char) {character : Char}
    (blank : Lexer.flatten character = ' ') :
    Ends lexeme (character :: rest) := by
  rintro _ ⟨⟩
  rw [Option.eq_none_iff_forall_ne_some]
  intro kind spelled
  exact (visible_of_spelled spelled (by simp)).1 blank

theorem ends_nil (lexeme : List Char) : Ends lexeme [] := by
  simp [Ends]

/-- Whether a lexeme ends depends on the first character behind it alone. -/
theorem Ends.congr
    {lexeme rest other : List Char}
    (ends : Ends lexeme rest)
    (sameHead : other.head? = rest.head?) :
    Ends lexeme other := by
  unfold Ends at ends ⊢
  rwa [sameHead]

theorem flatten_of_ne_blank
    {character : Char}
    (notBlank : Lexer.flatten character ≠ ' ') :
    Lexer.flatten character = character := by
  unfold Lexer.flatten at notBlank ⊢
  split at notBlank
  · exact absurd rfl notBlank
  · rename_i outside
    rw [if_neg outside]

theorem map_flatten_of_spelled
    {lexeme : List Char} {kind : Kind}
    (spelled : Kind.spelled? lexeme = some kind) :
    lexeme.map Lexer.flatten = lexeme := by
  calc
    lexeme.map Lexer.flatten = lexeme.map id :=
      List.map_congr_left fun _ member =>
        flatten_of_ne_blank (visible_of_spelled spelled member).1
    _ = lexeme := List.map_id lexeme

theorem eq_of_map_flatten_spelled
    {token : Token} {lexeme : List Char}
    (spelled : token.Spelled)
    (flattened : lexeme.map Lexer.flatten = token.lexeme.toList) :
    lexeme = token.lexeme.toList := by
  have same : lexeme.map Lexer.flatten = lexeme.map id := by
    refine List.map_congr_left fun character member => flatten_of_ne_blank ?_
    intro blank
    have inLexeme : ' ' ∈ token.lexeme.toList := by
      rw [← flattened, ← blank]
      exact List.mem_map_of_mem member
    exact (visible_of_spelled spelled inLexeme).1 rfl
  rw [← flattened, same, List.map_id]

theorem ends_map_flatten_iff (lexeme rest : List Char) :
    Ends lexeme (rest.map Lexer.flatten) ↔ Ends lexeme rest := by
  match rest with
  | [] => rfl
  | character :: others =>
      by_cases blank : Lexer.flatten character = ' '
      · rw [List.map_cons, blank]
        exact ⟨fun _ => ends_blank lexeme others blank,
          fun _ => ends_blank lexeme _ rfl⟩
      · have sameHead :
            ((character :: others).map Lexer.flatten).head? =
              (character :: others).head? := by
          simp [flatten_of_ne_blank blank]
        exact ⟨fun ends => ends.congr sameHead.symm,
          fun ends => ends.congr sameHead⟩

end Token

/-- A text that does not prolong any lexeme before it. -/
def Detached (text : List Char) : Prop :=
  ∀ token : Token, token.Spelled → Token.Ends token.lexeme.toList text

theorem detached_nil : Detached [] :=
  fun _ _ => Token.ends_nil _

theorem detached_blank
    (rest : List Char) {character : Char}
    (blank : Lexer.flatten character = ' ') :
    Detached (character :: rest) :=
  fun _ _ => Token.ends_blank _ rest blank

/-- Most signs do not prolong a lexeme. -/
theorem detached_sign
    (rest : List Char) {character : Char}
    (sign : character ∈ Token.signCharacters)
    (apart : character ∉ ['=', '&', '|']) :
    Detached (character :: rest) := by
  rintro token spelled _ ⟨⟩
  obtain ⟨noLetter, noDigit⟩ := Token.not_wordCharacter_of_signCharacter sign
  obtain ⟨first, others, shape⟩ := Token.exists_cons_of_spelled spelled
  have nonempty : token.lexeme.toList ≠ [] := by simp [shape]
  rw [Option.eq_none_iff_forall_ne_some]
  intro kind longer
  rcases Token.last_of_spelled nonempty longer with letter | digit | ⟨_, _, pair⟩
  · rw [noLetter] at letter
    cases letter
  · rw [noDigit] at digit
    cases digit
  · exact apart (Token.second_of_ofPair? pair)

/-- A character with which no token begins does not prolong a lexeme either. -/
theorem detached_of_first?
    {text : List Char}
    (absent : Token.first? text = none) :
    Detached text := by
  intro token spelled character head
  rw [Option.eq_none_iff_forall_ne_some]
  intro kind longer
  obtain ⟨lastKind, alone⟩ := Token.spelled?_last spelled longer
  obtain ⟨rest, rfl⟩ := List.head?_eq_some_iff.mp head
  exact (Token.first?_eq_none_iff _).mp absent _ _ alone ⟨rest, rfl⟩

theorem Token.Ends.append
    {lexeme rest behind : List Char}
    (ends : Token.Ends lexeme rest)
    (behindEnds : Token.Ends lexeme behind) :
    Token.Ends lexeme (rest ++ behind) := by
  match rest with
  | [] => exact behindEnds
  | _ :: _ => exact ends.congr rfl

/-! ## Feeds -/

namespace Feed

open Lexer

variable {code front back : List Char} {tokens : List Token}
variable {fault? : Option LexicalFault}

/-- How the tokens of a text end, by what is behind them: at the end of the text, or
at a visible character with which no token begins. -/
inductive Closes (code : List Char) : List Char → Option LexicalFault → Prop
  | atEnd : Closes code [] none
  | stuck {character : Char} {others : List Char} :
      flatten character ≠ ' ' →
      Token.first? ((character :: others).map flatten) = none →
      Closes code (character :: others)
        (some ⟨character, code, code.length - (others.length + 1)⟩)

theorem Closes.detached (closes : Closes code back fault?) :
    Detached (back.map flatten) := by
  cases closes with
  | atEnd => exact detached_nil
  | stuck _ absent => exact detached_of_first? absent

/-- White space at the front of a text is passed over. -/
theorem drain_dropWhile (limit : Nat) (text : List Char) :
    drain (limit + 1) ⟨code, text.dropWhile (· == ' ')⟩ =
      drain (limit + 1) ⟨code, text⟩ := by
  have twice :
      (text.dropWhile (· == ' ')).dropWhile (· == ' ') =
        text.dropWhile (· == ' ') :=
    List.dropWhile_idempotent _ _
  simp only [drain, next, twice]

theorem drain_token
    {limit : Nat} {text rest : List Char} {token : Token}
    (found : Token.first? text = some (token, rest))
    (visible : ∀ character ∈ text.head?, character ≠ ' ') :
    drain (limit + 1) ⟨code, text⟩ = (drain limit ⟨code, rest⟩).cons token := by
  match text with
  | [] => cases found
  | first :: others =>
      have spelled := (Token.spelled_and_ends_of_first? found).1
      have notBlank := visible first rfl
      have notEnd := (Token.kind_of_spelled spelled).1
      simp [drain, next, notBlank, found, notEnd]

theorem drain_of_closes
    (closes : Closes code back fault?)
    (limit : Nat) :
    drain (limit + 1) ⟨code, back.map flatten⟩ = ⟨[], fault?⟩ := by
  cases closes with
  | atEnd => simp [drain, next, Token.endOfInput]
  | stuck notBlank absent =>
      have same := Token.flatten_of_ne_blank notBlank
      rw [List.map_cons] at absent ⊢
      rw [same] at notBlank absent ⊢
      simp [drain, next, notBlank, absent, position]

/-- The feed of a text that is made up of tokens, up to where it closes, yields
them. -/
theorem drain_of_spells
    (spells : Spells front tokens)
    (closes : Closes code back fault?) :
    ∀ limit, (front ++ back).length < limit →
      drain limit ⟨code, (front ++ back).map flatten⟩ = ⟨tokens, fault?⟩ := by
  induction spells with
  | nil =>
      intro limit enough
      obtain ⟨limit, rfl⟩ : ∃ less, limit = less + 1 := ⟨limit - 1, by omega⟩
      exact drain_of_closes closes limit
  | @blank character text tokens blank _ inductionHypothesis =>
      intro limit enough
      rw [List.cons_append, List.length_cons] at enough
      obtain ⟨limit, rfl⟩ : ∃ less, limit = less + 1 := ⟨limit - 1, by omega⟩
      rw [List.cons_append, List.map_cons, blank, ← drain_dropWhile,
        List.dropWhile_cons_of_pos rfl, drain_dropWhile]
      exact inductionHypothesis _ (by omega)
  | @token token rest tokens spelled ends _ inductionHypothesis =>
      intro limit enough
      obtain ⟨first, others, shape⟩ := Token.exists_cons_of_spelled spelled
      have positive : 0 < token.lexeme.toList.length := by simp [shape]
      rw [List.append_assoc] at enough ⊢
      rw [List.length_append] at enough
      obtain ⟨limit, rfl⟩ : ∃ less, limit = less + 1 := ⟨limit - 1, by omega⟩
      rw [List.map_append, Token.map_flatten_of_spelled spelled]
      have endsBehind :
          Token.Ends token.lexeme.toList ((rest ++ back).map flatten) := by
        rw [List.map_append]
        exact ((Token.ends_map_flatten_iff _ rest).mpr ends).append
          (closes.detached token spelled)
      rw [drain_token (Token.first?_append spelled endsBehind) ?_]
      · rw [inductionHypothesis limit (by omega)]
        rfl
      · intro character head
        rw [shape, List.cons_append] at head
        cases head
        have member : first ∈ token.lexeme.toList := by simp [shape]
        have visible := (Token.visible_of_spelled spelled member).1
        rintro rfl
        exact visible rfl

theorem spells_takeWhile_append
    {text : List Char}
    (spells : Spells front tokens) :
    Spells (text.takeWhile ((· == ' ') ∘ flatten) ++ front) tokens := by
  have blank := List.all_takeWhile (l := text) (p := (· == ' ') ∘ flatten)
  generalize text.takeWhile ((· == ' ') ∘ flatten) = blanks at blank ⊢
  induction blanks with
  | nil => exact spells
  | cons character rest inductionHypothesis =>
      rw [List.all_cons, Bool.and_eq_true] at blank
      exact .blank (by simpa using blank.1) (inductionHypothesis blank.2)

/-- A text is made up of the tokens of a feed, up to where it closes with the fault
of the feed. -/
def Covers (code text : List Char) (feed : Feed) : Prop :=
  ∃ front back,
    text = front ++ back ∧ Spells front feed.tokens ∧ Closes code back feed.fault?

theorem Covers.of_dropWhile
    {text : List Char} {feed : Feed}
    (covers : Covers code (text.dropWhile ((· == ' ') ∘ flatten)) feed) :
    Covers code text feed := by
  obtain ⟨front, back, shape, spells, closes⟩ := covers
  refine ⟨text.takeWhile ((· == ' ') ∘ flatten) ++ front, back, ?_,
    spells_takeWhile_append spells, closes⟩
  rw [List.append_assoc, ← shape, List.takeWhile_append_dropWhile]

section Visible

variable {visible : List Char}
variable (stops : ∀ character ∈ visible.head?, flatten character ≠ ' ')

include stops

theorem covers_drain_of_absent
    (absent : Token.first? (visible.map flatten) = none)
    (limit : Nat) :
    Covers code visible (drain (limit + 1) ⟨code, visible.map flatten⟩) := by
  have closes : ∃ fault?, Closes code visible fault? := by
    match visible with
    | [] => exact ⟨_, .atEnd⟩
    | first :: others => exact ⟨_, .stuck (stops first rfl) absent⟩
  obtain ⟨fault?, closes⟩ := closes
  rw [drain_of_closes closes]
  exact ⟨[], visible, rfl, .nil, closes⟩

theorem covers_drain_of_found
    {limit : Nat} {token : Token} {rest : List Char}
    (found : Token.first? (visible.map flatten) = some (token, rest))
    (behind :
      ∀ others, others.length < visible.length →
        Covers code others (drain limit ⟨code, others.map flatten⟩)) :
    Covers code visible (drain (limit + 1) ⟨code, visible.map flatten⟩) := by
  have visibleHead :
      ∀ character ∈ (visible.map flatten).head?, character ≠ ' ' := by
    intro character head
    rw [List.head?_map] at head
    obtain ⟨first, member, rfl⟩ := Option.map_eq_some_iff.mp head
    exact stops first member
  rw [drain_token found visibleHead]
  have parts := Token.lexeme_append_of_first? found
  obtain ⟨spelled, ends⟩ := Token.spelled_and_ends_of_first? found
  have consumed := Token.length_lt_of_first? found
  obtain ⟨lexeme, others, rfl, sameLexeme, rfl⟩ :=
    List.map_eq_append_iff.mp parts.symm
  rw [List.length_map, List.length_map] at consumed
  obtain ⟨front, back, rfl, spells, closes⟩ := behind others consumed
  have endsFront : Token.Ends token.lexeme.toList front := by
    rw [Token.ends_map_flatten_iff] at ends
    match front with
    | [] => exact Token.ends_nil _
    | _ :: _ => exact ends.congr rfl
  refine ⟨lexeme ++ front, back, (List.append_assoc _ _ _).symm, ?_, closes⟩
  rw [Token.eq_of_map_flatten_spelled spelled sameLexeme]
  exact .token spelled endsFront spells

end Visible

/-- Every text is covered by its feed. -/
theorem covers_drain
    {limit : Nat} {text : List Char}
    (enough : text.length < limit) :
    Covers code text (drain limit ⟨code, text.map flatten⟩) := by
  induction limit generalizing text with
  | zero => omega
  | succ limit inductionHypothesis =>
      -- Without the white space at its front a text is empty, or begins with a
      -- token, or is at fault.
      apply Covers.of_dropWhile
      rw [← drain_dropWhile, List.dropWhile_map]
      have shorter :=
        (List.dropWhile_suffix (l := text) ((· == ' ') ∘ flatten)).length_le
      have stops :
          ∀ character ∈ (text.dropWhile ((· == ' ') ∘ flatten)).head?,
            flatten character ≠ ' ' := by
        intro character head
        simpa using Token.head?_dropWhile_not head
      generalize text.dropWhile ((· == ' ') ∘ flatten) = visible
        at shorter stops ⊢
      rcases found : Token.first? (visible.map flatten) with _ | ⟨token, rest⟩
      · exact covers_drain_of_absent stops found limit
      · refine covers_drain_of_found stops found fun others fewer => ?_
        exact inductionHypothesis (by omega)

/-- The feed of a text: the tokens that make up the text to where it closes, and the
fault there. -/
theorem ofText_eq_iff
    (text : String) (tokens : List Token) (fault? : Option LexicalFault) :
    ofText text = ⟨tokens, fault?⟩ ↔
      ∃ front back,
        text.toList = front ++ back ∧ Spells front tokens ∧
          Closes (text.toList.map flatten) back fault? := by
  have enough : text.toList.length < (text.toList.map flatten).length + 1 := by
    simp
  constructor
  · intro drained
    have covers : Covers (text.toList.map flatten) text.toList (ofText text) :=
      covers_drain enough
    rwa [drained] at covers
  · rintro ⟨front, back, shape, spells, closes⟩
    rw [shape] at enough
    have drained := drain_of_spells spells closes _ enough
    rw [← shape] at drained
    exact drained

/-- The feed of a text yields tokens and no fault exactly if the text is made up
of them. -/
theorem ofText_eq_ofTokens_iff (text : String) (tokens : List Token) :
    ofText text = ofTokens tokens ↔ Spells text.toList tokens := by
  rw [ofTokens, ofText_eq_iff]
  constructor
  · rintro ⟨front, back, shape, spells, closes⟩
    cases closes
    rwa [shape, List.append_nil]
  · exact fun spells => ⟨_, [], (List.append_nil _).symm, spells, .atEnd⟩

end Feed

/-- The tokens of a text that is made up of them. -/
theorem tokenize_eq_ok_iff (text : String) (tokens : List Token) :
    tokenize text = .ok (tokens ++ [Token.endOfInput]) ↔
      Spells text.toList tokens := by
  rw [← Feed.ofText_eq_ofTokens_iff]
  unfold tokenize Feed.toList
  generalize Feed.ofText text = feed
  obtain ⟨drained, fault?⟩ := feed
  cases fault? with
  | none => simp [Feed.ofTokens]
  | some fault => simp [Feed.ofTokens]

theorem tokenize_eq_error_iff (text : String) (fault : LexicalFault) :
    tokenize text = .error fault ↔ (Feed.ofText text).fault? = some fault := by
  unfold tokenize Feed.toList
  cases (Feed.ofText text).fault? <;> simp

namespace Spells

variable {text : List Char} {tokens : List Token}

theorem spelled (spells : Spells text tokens) :
    ∀ token ∈ tokens, token.Spelled := by
  induction spells with
  | nil => simp
  | blank _ _ inductionHypothesis => exact inductionHypothesis
  | token spelled _ _ inductionHypothesis =>
      exact List.forall_mem_cons.mpr ⟨spelled, inductionHypothesis⟩

/-- Two texts have the tokens of the one and then those of the other, if the second
one cannot prolong a lexeme. -/
theorem append
    {after : List Char} {later : List Token}
    (before : Spells text tokens)
    (detached : Detached after)
    (behind : Spells after later) :
    Spells (text ++ after) (tokens ++ later) := by
  induction before with
  | nil => exact behind
  | blank first _ inductionHypothesis => exact .blank first inductionHypothesis
  | @token token rest tokens spelled ends _ inductionHypothesis =>
      rw [List.append_assoc]
      refine .token spelled ?_ inductionHypothesis
      match rest with
      | [] => exact detached token spelled
      | _ :: _ => exact ends.congr rfl

/-- So they do, whatever they are, with white space between them. -/
theorem append_blank
    {after : List Char} {later : List Token} {separator : Char}
    (before : Spells text tokens)
    (blank : Lexer.flatten separator = ' ')
    (behind : Spells after later) :
    Spells (text ++ separator :: after) (tokens ++ later) :=
  before.append (detached_blank after blank) (.blank blank behind)

theorem append_line
    {first second : String} {later : List Token}
    (before : Spells first.toList tokens)
    (behind : Spells second.toList later) :
    Spells (first ++ "\n" ++ second).toList (tokens ++ later) := by
  rw [String.toList_append, String.toList_append, List.append_assoc]
  exact before.append_blank rfl behind

theorem append_space
    {first second : String} {later : List Token}
    (before : Spells first.toList tokens)
    (behind : Spells second.toList later) :
    Spells (first ++ " " ++ second).toList (tokens ++ later) := by
  rw [String.toList_append, String.toList_append, List.append_assoc]
  exact before.append_blank rfl behind

theorem lexeme {token : Token} (spelled : token.Spelled) :
    Spells token.lexeme.toList [token] := by
  rw [← List.append_nil token.lexeme.toList]
  exact .token spelled (Token.ends_nil _) .nil

theorem of_blanks
    (blanks : List Char)
    (blank : ∀ character ∈ blanks, Lexer.flatten character = ' ')
    (behind : Spells text tokens) :
    Spells (blanks ++ text) tokens := by
  induction blanks with
  | nil => exact behind
  | cons character rest inductionHypothesis =>
      obtain ⟨first, others⟩ := List.forall_mem_cons.mp blank
      exact .blank first (inductionHypothesis others)

/-! ## Margins -/

theorem blank_of_opening (before : Text.Before) :
    ∀ character ∈ before.opening.toList, Lexer.flatten character = ' ' := by
  have checked :
      before.opening.toList.all (fun character =>
        decide (Lexer.flatten character = ' ')) = true := by
    cases before <;> decide
  exact fun character member =>
    of_decide_eq_true (List.all_eq_true.mp checked character member)

theorem indentFrom_cons
    {character : Char}
    (visible : Text.isLineEnd character = false)
    (before : Text.Before) (rest : List Char) :
    Text.indentFrom before (character :: rest) =
      before.opening.toList ++
        character :: Text.indentFrom .character rest := by
  have notPair : ¬ (before = .carriageReturn ∧ character = '\n') := by
    rintro ⟨_, rfl⟩
    exact absurd visible (by decide)
  have notReturn : character ≠ '\r' := by
    rintro rfl
    exact absurd visible (by decide)
  simp [Text.indentFrom, notPair, visible, Text.Before.after, notReturn]

/-- Within a line a lexeme is written as it is. -/
theorem indentFrom_character_append
    {lexeme : List Char}
    (visible : ∀ character ∈ lexeme, Text.isLineEnd character = false)
    (rest : List Char) :
    Text.indentFrom .character (lexeme ++ rest) =
      lexeme ++ Text.indentFrom .character rest := by
  induction lexeme with
  | nil => rfl
  | cons first others inductionHypothesis =>
      obtain ⟨firstVisible, othersVisible⟩ := List.forall_mem_cons.mp visible
      rw [List.cons_append, indentFrom_cons firstVisible,
        inductionHypothesis othersVisible]
      simp [Text.Before.opening]

/-- Behind the end of a line the margin comes on a new one. -/
theorem toList_opening
    (before : Text.Before)
    (ended : before = .carriageReturn ∨ before = .lineEnd) :
    before.opening.toList = '\n' :: Text.margin.toList := by
  rcases ended with rfl | rfl <;> decide

theorem ends_indentFrom_lineEnd (lexeme text : List Char) :
    Token.Ends lexeme (Text.indentFrom .lineEnd text) := by
  match text with
  | [] => exact Token.ends_nil lexeme
  | character :: rest =>
      simp only [Text.indentFrom, reduceCtorEq, false_and, if_false,
        toList_opening .lineEnd (.inr rfl)]
      exact Token.ends_blank lexeme _ rfl

theorem ends_indentFrom_carriageReturn (lexeme text : List Char) :
    Token.Ends lexeme (Text.indentFrom .carriageReturn text) := by
  match text with
  | [] => exact Token.ends_nil lexeme
  | character :: rest =>
      by_cases pair : character = '\n'
      · simp only [Text.indentFrom, pair, and_self, if_true]
        exact ends_indentFrom_lineEnd lexeme rest
      · simp only [Text.indentFrom, pair, and_false, if_false,
          toList_opening .carriageReturn (.inl rfl)]
        exact Token.ends_blank lexeme _ rfl

/-- A lexeme ends where it ended, when margins are put before the lines. -/
theorem ends_indentFrom
    {lexeme rest : List Char}
    (ends : Token.Ends lexeme rest) :
    Token.Ends lexeme (Text.indentFrom .character rest) := by
  match rest with
  | [] => exact ends
  | character :: others =>
      cases lineEnd : Text.isLineEnd character with
      | false =>
          rw [indentFrom_cons lineEnd]
          exact ends.congr rfl
      | true =>
          simp only [Text.indentFrom, reduceCtorEq, false_and, if_false,
            lineEnd, if_true, Text.Before.after]
          split
          · exact ends_indentFrom_carriageReturn lexeme others
          · exact ends_indentFrom_lineEnd lexeme others

/-- Whatever stands before a text, margins leave its tokens alone. -/
theorem indentFrom (spells : Spells text tokens) :
    ∀ before, Spells (Text.indentFrom before text) tokens := by
  induction spells with
  | nil =>
      intro before
      exact .nil
  | @blank character text tokens blank _ inductionHypothesis =>
      intro before
      simp only [Text.indentFrom]
      split
      · exact inductionHypothesis .lineEnd
      · refine of_blanks _ (blank_of_opening before) (of_blanks _ ?_
          (inductionHypothesis _))
        split <;> simp [blank]
  | @token token rest tokens spelled ends _ inductionHypothesis =>
      intro before
      obtain ⟨first, others, shape⟩ := Token.exists_cons_of_spelled spelled
      have visible := fun character (member : character ∈ first :: others) =>
        (Token.visible_of_spelled spelled (shape ▸ member)).2
      obtain ⟨firstVisible, othersVisible⟩ := List.forall_mem_cons.mp visible
      rw [shape, List.cons_append, indentFrom_cons firstVisible,
        indentFrom_character_append othersVisible, ← List.cons_append, ← shape]
      exact of_blanks _ (blank_of_opening before)
        (.token spelled (ends_indentFrom ends) (inductionHypothesis _))

/-- A margin before the lines of a text leaves its tokens alone. -/
theorem indent {text : String} (spells : Spells text.toList tokens) :
    Spells (Text.indent text).toList tokens := by
  rw [Text.toList_indent]
  exact spells.indentFrom .nothing

end Spells

/-- The tokens of a text are spelled by their lexemes, also before a fault. -/
theorem Feed.spelled_ofText (text : String) :
    ∀ token ∈ (ofText text).tokens, token.Spelled := by
  obtain ⟨front, back, _, spells, _⟩ := (ofText_eq_iff text _ _).mp rfl
  exact spells.spelled

theorem Feed.proper_ofText (text : String) :
    ∀ token ∈ (ofText text).tokens, token.kind ≠ .endOfInput := by
  intro token member
  have spelled := spelled_ofText text token member
  exact (Token.kind_of_spelled spelled).1

end WhileLang
