import WhileLang.Proofs.Layout

/-!
Decompositions of a text into lexemes with spaces around them. Main statement: a text
is tokenized by its one decomposition in which no lexeme can be prolonged, and where
there is none the fault is at the one character that stands in the way of it.
-/

namespace WhileLang

/-! ## Legal lexemes -/

namespace Token

/-- The runs of letters that are no identifiers. -/
def keywords : List String :=
  ["while", "if", "else", "print"]

/-- The lexemes of a kind: runs of ASCII letters but for the keywords, runs of ASCII
digits, and for every keyword and sign the one that is fixed. -/
def Kind.Legal (kind : Kind) (lexeme : List Char) : Prop :=
  match kind with
  | .identifier =>
      lexeme ≠ [] ∧ lexeme.all Text.isAsciiLetter = true ∧
        String.ofList lexeme ∉ keywords
  | .integer => lexeme ≠ [] ∧ lexeme.all Text.isAsciiDigit = true
  | .endOfInput => False
  | other => other.fixed? = some (String.ofList lexeme)

theorem ofWord_eq_identifier_iff (word : List Char) :
    Kind.ofWord word = .identifier ↔ String.ofList word ∉ keywords := by
  have spelledOut :
      String.ofList word ∉ keywords ↔
        word ≠ "while".toList ∧ word ≠ "if".toList ∧ word ≠ "else".toList ∧
          word ≠ "print".toList := by
    simp only [keywords, List.mem_cons, List.not_mem_nil, or_false, not_or,
      ← String.toList_inj, String.toList_ofList, ne_eq]
  rw [spelledOut]
  unfold Kind.ofWord
  repeat' split
  all_goals simp_all

theorem isSome_fixed?_of_ofSign?
    {first : Char} {kind : Kind}
    (sign : Kind.ofSign? first = some kind) :
    kind.fixed?.isSome = true := by
  unfold Kind.ofSign? at sign
  split at sign <;> cases sign <;> rfl

theorem isSome_fixed?_of_ofPair?
    {first second : Char} {kind : Kind}
    (pair : Kind.ofPair? first second = some kind) :
    kind.fixed?.isSome = true := by
  unfold Kind.ofPair? at pair
  split at pair <;> cases pair <;> rfl

theorem spelled?_eq_identifier_iff (lexeme : List Char) :
    Kind.spelled? lexeme = some .identifier ↔ Kind.identifier.Legal lexeme := by
  unfold Kind.spelled?
  constructor
  · intro spelled
    split at spelled
    · rename_i word
      have noKeyword := (ofWord_eq_identifier_iff lexeme).mp (Option.some.inj spelled)
      exact ⟨word.1, word.2, noKeyword⟩
    · split at spelled
      · cases spelled
      · split at spelled
        · cases isSome_fixed?_of_ofSign? spelled
        · cases isSome_fixed?_of_ofPair? spelled
        · cases spelled
  · rintro ⟨nonempty, letters, noKeyword⟩
    rw [if_pos ⟨nonempty, letters⟩, (ofWord_eq_identifier_iff lexeme).mpr noKeyword]

theorem spelled?_eq_integer_iff (lexeme : List Char) :
    Kind.spelled? lexeme = some .integer ↔ Kind.integer.Legal lexeme := by
  constructor
  · intro spelled
    have digits := (kind_of_spelled spelled).2 rfl
    refine ⟨?_, digits⟩
    rintro rfl
    cases spelled
  · rintro ⟨nonempty, digits⟩
    obtain ⟨first, others, rfl⟩ := List.exists_cons_of_ne_nil nonempty
    rw [List.all_cons, Bool.and_eq_true] at digits
    rw [spelled?_of_digit others digits.1, if_pos digits.2]

theorem spelled?_eq_fixed_iff
    {kind : Kind} (lexeme : List Char)
    (isFixed : kind.fixed?.isSome = true) :
    Kind.spelled? lexeme = some kind ↔
      kind.fixed? = some (String.ofList lexeme) := by
  constructor
  · intro spelled
    obtain ⟨text, fixedText⟩ := Option.isSome_iff_exists.mp isFixed
    have token : (Token.mk kind (String.ofList lexeme)).Spelled := by
      rw [Spelled, String.toList_ofList]
      exact spelled
    have same := eq_of_spelled token fixedText
    rw [fixedText, ← same]
  · intro fixedText
    have spelled := spelled_fixed isFixed
    rw [Spelled, fixed, fixedText, Option.getD_some, String.toList_ofList] at spelled
    exact spelled

/-- The lexemes of a kind are those that spell it. -/
theorem spelled?_eq_some_iff (lexeme : List Char) (kind : Kind) :
    Kind.spelled? lexeme = some kind ↔ kind.Legal lexeme := by
  cases kind
  case identifier => exact spelled?_eq_identifier_iff lexeme
  case integer => exact spelled?_eq_integer_iff lexeme
  case endOfInput =>
    refine iff_of_false (fun spelled => ?_) id
    exact (kind_of_spelled spelled).1 rfl
  all_goals exact spelled?_eq_fixed_iff lexeme (by decide)

theorem ends_iff (lexeme rest : List Char) :
    Ends lexeme rest ↔
      ∀ character ∈ rest.head?, ∀ kind : Kind,
        ¬ kind.Legal (lexeme ++ [character]) := by
  simp only [Ends, Option.eq_none_iff_forall_ne_some, ne_eq, spelled?_eq_some_iff]

end Token

/-! ## Decompositions -/

/-- A token, and the number of spaces behind its lexeme. -/
structure Piece where
  token : Token
  spaces : Nat
deriving DecidableEq, Repr

/-- The number of spaces at the front of a text, and its tokens with the spaces
behind them. -/
structure Decomposition where
  lead : Nat
  pieces : List Piece
deriving DecidableEq, Repr

namespace Decomposition

/-- The text of some pieces. -/
def written : List Piece → List Char
  | [] => []
  | piece :: rest =>
      piece.token.lexeme.toList ++
        (List.replicate piece.spaces ' ' ++ written rest)

/-- The text that is decomposed. -/
def text (parts : Decomposition) : List Char :=
  List.replicate parts.lead ' ' ++ written parts.pieces

/-- The tokens of a decomposition. -/
def tokens (parts : Decomposition) : List Token :=
  parts.pieces.map Piece.token

/-- Every lexeme is one of its token's kind, and where a further lexeme stands
directly behind it, its first character does not make a longer one of it. -/
def MaximalEach : List Piece → Prop
  | [] => True
  | piece :: rest =>
      piece.token.kind.Legal piece.token.lexeme.toList ∧
        (piece.spaces = 0 →
          ∀ character ∈ (written rest).head?, ∀ kind : Token.Kind,
            ¬ kind.Legal (piece.token.lexeme.toList ++ [character])) ∧
        MaximalEach rest

/-- No lexeme of a decomposition can be prolonged. -/
def Maximal (parts : Decomposition) : Prop :=
  MaximalEach parts.pieces

theorem spells_replicate
    {text : List Char} {tokens : List Token} (count : Nat)
    (spells : Spells text tokens) :
    Spells (List.replicate count ' ' ++ text) tokens := by
  refine .of_blanks _ (fun character member => ?_) spells
  rw [List.eq_of_mem_replicate member]
  decide

theorem spells_written
    {pieces : List Piece}
    (maximal : MaximalEach pieces) :
    Spells (written pieces) (pieces.map Piece.token) := by
  induction pieces with
  | nil => exact .nil
  | cons piece rest inductionHypothesis =>
      obtain ⟨legal, apart, others⟩ := maximal
      have spelled : piece.token.Spelled :=
        (Token.spelled?_eq_some_iff _ _).mpr legal
      have behind := spells_replicate piece.spaces (inductionHypothesis others)
      refine .token spelled ?_ behind
      cases count : piece.spaces with
      | zero =>
          rw [List.replicate_zero, List.nil_append, Token.ends_iff]
          exact apart count
      | succ less =>
          rw [List.replicate_succ, List.cons_append]
          exact Token.ends_blank _ _ (by decide)

/-- A text is made up of the tokens of its decomposition. -/
theorem Maximal.spells
    {parts : Decomposition}
    (maximal : parts.Maximal) :
    Spells parts.text parts.tokens :=
  spells_replicate parts.lead (spells_written maximal)

/-- A text without tabs and line ends that is made up of tokens has a decomposition
into them. -/
theorem exists_of_spells
    {text : List Char} {tokens : List Token}
    (spells : Spells text tokens)
    (flat : ∀ character ∈ text, Lexer.flatten character = character) :
    ∃ parts : Decomposition,
      parts.Maximal ∧ parts.tokens = tokens ∧ parts.text = text := by
  induction spells with
  | nil => exact ⟨⟨0, []⟩, trivial, rfl, rfl⟩
  | @blank character text tokens blank _ inductionHypothesis =>
      obtain ⟨first, others⟩ := List.forall_mem_cons.mp flat
      obtain ⟨⟨lead, pieces⟩, maximal, sameTokens, sameText⟩ :=
        inductionHypothesis others
      refine ⟨⟨lead + 1, pieces⟩, maximal, sameTokens, ?_⟩
      have isSpace : character = ' ' := first.symm.trans blank
      rw [← sameText, isSpace]
      rfl
  | @token token rest tokens spelled ends _ inductionHypothesis =>
      obtain ⟨⟨lead, pieces⟩, maximal, sameTokens, sameText⟩ :=
        inductionHypothesis fun character member =>
          flat character (List.mem_append_right _ member)
      refine ⟨⟨0, ⟨token, lead⟩ :: pieces⟩, ⟨?_, ?_, maximal⟩, ?_, ?_⟩
      · exact (Token.spelled?_eq_some_iff _ _).mp spelled
      · intro noSpace
        have front : List.replicate lead ' ' ++ written pieces = rest := sameText
        rw [show lead = 0 from noSpace, List.replicate_zero, List.nil_append]
          at front
        rw [front]
        exact (Token.ends_iff _ _).mp ends
      · rw [← sameTokens]
        rfl
      · rw [← sameText]
        rfl

/-! ## One decomposition -/

theorem ne_space_of_head
    {pieces : List Piece} {character : Char}
    (maximal : MaximalEach pieces)
    (head : character ∈ (written pieces).head?) :
    (character == ' ') = false := by
  cases pieces with
  | nil => cases head
  | cons piece rest =>
      have spelled : piece.token.Spelled :=
        (Token.spelled?_eq_some_iff _ _).mpr maximal.1
      obtain ⟨first, others, shape⟩ := Token.exists_cons_of_spelled spelled
      rw [written, shape, List.cons_append, List.head?_cons, Option.mem_some_iff]
        at head
      have member : character ∈ piece.token.lexeme.toList := by simp [shape, head]
      have visible := (Token.visible_of_spelled spelled member).1
      rw [beq_eq_false_iff_ne]
      rintro rfl
      exact visible rfl

/-- How many spaces are at the front of a text, and what is behind them, is seen from
the text. -/
theorem lead_inj
    {lead lead' : Nat} {pieces pieces' : List Piece}
    (maximal : MaximalEach pieces)
    (maximal' : MaximalEach pieces')
    (same :
      List.replicate lead ' ' ++ written pieces =
        List.replicate lead' ' ' ++ written pieces') :
    lead = lead' ∧ written pieces = written pieces' := by
  have split := Token.takeWhile_dropWhile_append (· == ' ')
    (List.replicate lead ' ') (written pieces) (by simp)
    fun _ head => ne_space_of_head maximal head
  have split' := Token.takeWhile_dropWhile_append (· == ' ')
    (List.replicate lead' ' ') (written pieces') (by simp)
    fun _ head => ne_space_of_head maximal' head
  rw [← same] at split'
  have spaces := split.1.symm.trans split'.1
  have behind := split.2.symm.trans split'.2
  have counts := congrArg List.length spaces
  rw [List.length_replicate, List.length_replicate] at counts
  exact ⟨counts, behind⟩

theorem pieces_inj
    {pieces pieces' : List Piece}
    (maximal : MaximalEach pieces)
    (maximal' : MaximalEach pieces')
    (sameTokens : pieces.map Piece.token = pieces'.map Piece.token)
    (sameText : written pieces = written pieces') :
    pieces = pieces' := by
  induction pieces generalizing pieces' with
  | nil =>
      rw [List.map_nil] at sameTokens
      exact (List.map_eq_nil_iff.mp sameTokens.symm).symm
  | cons piece rest inductionHypothesis =>
      obtain _ | ⟨piece', rest'⟩ := pieces'
      · cases sameTokens
      rw [List.map_cons, List.map_cons, List.cons.injEq] at sameTokens
      obtain ⟨sameToken, sameOthers⟩ := sameTokens
      rw [written, written, sameToken] at sameText
      have behind := List.append_cancel_left sameText
      obtain ⟨sameSpaces, sameRest⟩ :=
        lead_inj maximal.2.2 maximal'.2.2 behind
      have others :=
        inductionHypothesis maximal.2.2 maximal'.2.2 sameOthers sameRest
      obtain ⟨token, spaces⟩ := piece
      obtain ⟨token', spaces'⟩ := piece'
      rw [show token = token' from sameToken,
        show spaces = spaces' from sameSpaces, others]

end Decomposition

theorem Spells.unique
    {text : List Char} {tokens tokens' : List Token}
    (spells : Spells text tokens)
    (spells' : Spells text tokens') :
    tokens = tokens' := by
  rw [← String.toList_ofList (l := text)] at spells spells'
  have feed := (Feed.ofText_eq_ofTokens_iff _ _).mpr spells
  have feed' := (Feed.ofText_eq_ofTokens_iff _ _).mpr spells'
  exact congrArg Feed.tokens (feed.symm.trans feed')

/-- A text has no two decompositions. -/
theorem Decomposition.Maximal.unique
    {parts parts' : Decomposition}
    (maximal : parts.Maximal)
    (maximal' : parts'.Maximal)
    (same : parts.text = parts'.text) :
    parts = parts' := by
  have spells := maximal.spells
  rw [same] at spells
  have sameTokens := spells.unique maximal'.spells
  obtain ⟨sameLead, sameWritten⟩ := lead_inj maximal maximal' same
  have samePieces := pieces_inj maximal maximal' sameTokens sameWritten
  obtain ⟨lead, pieces⟩ := parts
  obtain ⟨lead', pieces'⟩ := parts'
  rw [show lead = lead' from sameLead, show pieces = pieces' from samePieces]

/-! ## Texts with and without a decomposition -/

/-- A text has a decomposition up to an index, at which a visible character stands
that no lexeme begins with. -/
structure BlockedAt (code : List Char) (index : Nat) : Prop where
  decomposed :
    ∃ parts : Decomposition, parts.Maximal ∧ parts.text = code.take index
  visible : ∃ character, code[index]? = some character ∧ character ≠ ' '
  noLexeme :
    ∀ (lexeme : List Char) (kind : Token.Kind),
      kind.Legal lexeme → ¬ lexeme <+: code.drop index

theorem Lexer.flatten_flatten (character : Char) :
    Lexer.flatten (Lexer.flatten character) = Lexer.flatten character := by
  by_cases blank : Lexer.flatten character = ' '
  · rw [blank]
    decide
  · rw [Token.flatten_of_ne_blank blank, Token.flatten_of_ne_blank blank]

section Flattened

variable {text : String} {tokens : List Token} {fault? : Option LexicalFault}
variable {fault : LexicalFault} {code : List Char} {index : Nat}

theorem map_flatten_of_flattened
    (flattened : text.toList.map Lexer.flatten = code) :
    code.map Lexer.flatten = code := by
  rw [← flattened, List.map_map]
  exact List.map_congr_left fun character _ => Lexer.flatten_flatten character

theorem flatten_eq_of_map_eq
    (flat : code.map Lexer.flatten = code) :
    ∀ character ∈ code, Lexer.flatten character = character := by
  have same : code.map Lexer.flatten = code.map id := flat.trans (List.map_id _).symm
  exact List.map_inj_left.mp same

/-- The feed of a text is seen from the text without tabs and line ends. -/
theorem Feed.ofText_eq_iff_of_flattened
    (flattened : text.toList.map Lexer.flatten = code) :
    Feed.ofText text = ⟨tokens, fault?⟩ ↔
      ∃ front back,
        code = front ++ back ∧ Spells front tokens ∧
          Feed.Closes code back fault? := by
  have flat := map_flatten_of_flattened flattened
  have sameFeed : Feed.ofText (String.ofList code) = Feed.ofText text := by
    simp only [Feed.ofText, Lexer.ofText, String.toList_ofList, flat, flattened]
  have parts := Feed.ofText_eq_iff (String.ofList code) tokens fault?
  rw [String.toList_ofList, flat, sameFeed] at parts
  exact parts

theorem exists_maximal_iff
    (flattened : text.toList.map Lexer.flatten = code) :
    (∃ parts : Decomposition,
        parts.Maximal ∧ parts.tokens = tokens ∧ parts.text = code) ↔
      tokenize text = .ok (tokens ++ [Token.endOfInput]) := by
  rw [tokenize_eq_ok_iff, ← Feed.ofText_eq_ofTokens_iff, Feed.ofTokens,
    Feed.ofText_eq_iff_of_flattened flattened]
  have flat := map_flatten_of_flattened flattened
  constructor
  · rintro ⟨parts, maximal, rfl, rfl⟩
    exact ⟨parts.text, [], (List.append_nil _).symm, maximal.spells, .atEnd⟩
  · rintro ⟨front, back, shape, spells, closes⟩
    cases closes
    rw [List.append_nil] at shape
    rw [shape] at flat ⊢
    exact Decomposition.exists_of_spells spells (flatten_eq_of_map_eq flat)

/-- Where a text is blocked its feed is at fault. -/
theorem BlockedAt.exists_feed
    (flattened : text.toList.map Lexer.flatten = code)
    (blocked : BlockedAt code index) :
    ∃ tokens character,
      Feed.ofText text = ⟨tokens, some ⟨character, code, index⟩⟩ := by
  obtain ⟨parts, maximal, front⟩ := blocked.decomposed
  obtain ⟨character, present, visible⟩ := blocked.visible
  have flat := map_flatten_of_flattened flattened
  obtain ⟨within, isCharacter⟩ := List.getElem?_eq_some_iff.mp present
  have back : code.drop index = character :: code.drop (index + 1) := by
    rw [← isCharacter, List.drop_eq_getElem_cons within]
  have flatBack : (code.drop index).map Lexer.flatten = code.drop index := by
    rw [List.map_drop, flat]
  have same : Lexer.flatten character = character := by
    rw [back, List.map_cons, List.cons.injEq] at flatBack
    exact flatBack.1
  have absent : Token.first? (code.drop index) = none := by
    rw [Token.first?_eq_none_iff]
    intro lexeme kind spelled
    have legal := (Token.spelled?_eq_some_iff lexeme kind).mp spelled
    exact blocked.noLexeme lexeme kind legal
  have closes :
      Feed.Closes code (code.drop index) (some ⟨character, code, index⟩) := by
    rw [← flatBack, back] at absent
    have notBlank : Lexer.flatten character ≠ ' ' := by rwa [same]
    have stuck := @Feed.Closes.stuck code _ _ notBlank absent
    have position : code.length - (code.length - (index + 1) + 1) = index := by
      omega
    rw [List.length_drop, position] at stuck
    rwa [back]
  refine ⟨parts.tokens, character, ?_⟩
  rw [Feed.ofText_eq_iff_of_flattened flattened]
  refine ⟨code.take index, code.drop index, (List.take_append_drop _ _).symm, ?_,
    closes⟩
  rw [← front]
  exact maximal.spells

/-- Where its feed is at fault a text is blocked. -/
theorem blockedAt_of_feed
    (flattened : text.toList.map Lexer.flatten = code)
    (feed : Feed.ofText text = ⟨tokens, some fault⟩) :
    fault.code = code ∧ code[fault.index]? = some fault.character ∧
      BlockedAt code fault.index := by
  have flat := map_flatten_of_flattened flattened
  obtain ⟨front, back, shape, spells, closes⟩ :=
    (Feed.ofText_eq_iff_of_flattened flattened).mp feed
  cases closes with
  | @stuck character others notBlank absent =>
      have flatFront := flat
      rw [shape, List.map_append] at flatFront
      obtain ⟨sameFront, sameBack⟩ :=
        List.append_inj flatFront (List.length_map _)
      have position : code.length - (others.length + 1) = front.length := by
        rw [shape, List.length_append, List.length_cons, Nat.add_sub_cancel]
      have visible : character ≠ ' ' := by
        rwa [← Token.flatten_of_ne_blank notBlank]
      have present : code[front.length]? = some character := by
        rw [shape, List.getElem?_append_right (Nat.le_refl _), Nat.sub_self]
        rfl
      obtain ⟨parts, maximal, _, text⟩ :=
        Decomposition.exists_of_spells spells (flatten_eq_of_map_eq sameFront)
      dsimp only
      rw [position]
      refine ⟨rfl, present, ⟨parts, maximal, ?_⟩, ⟨character, present, visible⟩, ?_⟩
      · rw [text, shape, List.take_left]
      · intro lexeme kind legal atFront
        rw [shape, List.drop_left] at atFront
        rw [sameBack, Token.first?_eq_none_iff] at absent
        have spelled := (Token.spelled?_eq_some_iff lexeme kind).mpr legal
        exact absent lexeme kind spelled atFront

end Flattened

/-- A text is tokenized exactly if it has a decomposition in which no lexeme can be
prolonged, and it has at most one. Without one it is at fault, and that at the one
index at which it is blocked. -/
theorem tokenize_decomposes (text : String) :
    (∀ tokens,
      tokenize text = .ok (tokens ++ [Token.endOfInput]) ↔
        ∃ parts : Decomposition,
          parts.Maximal ∧ parts.tokens = tokens ∧
            parts.text = text.toList.map Lexer.flatten) ∧
    (∀ parts parts' : Decomposition,
      parts.Maximal → parts.text = text.toList.map Lexer.flatten →
      parts'.Maximal → parts'.text = text.toList.map Lexer.flatten →
        parts = parts') ∧
    ((¬ ∃ parts : Decomposition,
        parts.Maximal ∧ parts.text = text.toList.map Lexer.flatten) →
      ∃ fault,
        tokenize text = .error fault ∧
          fault.code = text.toList.map Lexer.flatten ∧
          fault.code[fault.index]? = some fault.character ∧
          ∀ index,
            BlockedAt (text.toList.map Lexer.flatten) index ↔
              index = fault.index) := by
  refine ⟨fun tokens => (exists_maximal_iff rfl).symm, ?_, ?_⟩
  · intro parts parts' maximal shape maximal' shape'
    exact maximal.unique maximal' (shape.trans shape'.symm)
  · intro undecomposed
    rcases feed : Feed.ofText text with ⟨tokens, _ | fault⟩
    · have tokenized : tokenize text = .ok (tokens ++ [Token.endOfInput]) := by
        rw [tokenize, feed]
        rfl
      obtain ⟨parts, maximal, _, shape⟩ := (exists_maximal_iff rfl).mpr tokenized
      exact absurd ⟨parts, maximal, shape⟩ undecomposed
    · obtain ⟨sameCode, present, blocked⟩ := blockedAt_of_feed rfl feed
      refine ⟨fault, ?_, sameCode, ?_, fun index => ⟨fun here => ?_, ?_⟩⟩
      · rw [tokenize_eq_error_iff, feed]
      · rw [sameCode]
        exact present
      · obtain ⟨tokens', character, feedHere⟩ := here.exists_feed rfl
        have sameFault := congrArg Feed.fault? (feedHere.symm.trans feed)
        exact congrArg LexicalFault.index (Option.some.inj sameFault)
      · rintro rfl
        exact blocked

end WhileLang
