import WhileLang.Proofs.Decomposition

/-!
Tokens on demand: what a lexer gives read by read. Main statement: the reads give the
tokens of the text one after the other, and then the end of input, or the fault, for
ever; the cursor moves forward with each token and rests where the text ends or is at
fault.
-/

namespace WhileLang

namespace Lexer

/-! ## Reads in a row -/

/-- The cursor behind a number of reads, whatever they give. -/
def after (lexer : Lexer) : Nat → Lexer
  | 0 => lexer
  | count + 1 => (lexer.after count).next.2

/-- What a number of reads in a row give. -/
def outcomes (lexer : Lexer) (count : Nat) : List (Except LexicalFault Token) :=
  (List.range count).map fun earlier => (lexer.after earlier).next.1

variable {lexer : Lexer} {feed : Feed} {fault : LexicalFault}

theorem code_after (lexer : Lexer) (count : Nat) :
    (lexer.after count).code = lexer.code := by
  induction count with
  | zero => rfl
  | succ count inductionHypothesis => exact (code_next _).trans inductionHypothesis

theorem length_rest_after_le (lexer : Lexer) (count : Nat) :
    (lexer.after count).rest.length ≤ lexer.rest.length := by
  induction count with
  | zero => exact Nat.le_refl _
  | succ count inductionHypothesis =>
      exact (length_rest_next_le _).trans inductionHypothesis

/-! ## Ends -/

/-- Behind the end of a text there is the end again. -/
theorem next_of_endOfInput
    {token : Token}
    (found : lexer.next.1 = .ok token)
    (atEnd : token.kind = .endOfInput) :
    token = Token.endOfInput ∧
      lexer.next.2.next = (.ok Token.endOfInput, lexer.next.2) := by
  unfold next at found ⊢
  split at found
  · cases found
    exact ⟨rfl, rfl⟩
  · split at found
    · rename_i first rest read
      cases found
      have spelled := (Token.spelled_and_ends_of_first? read).1
      exact absurd atEnd (Token.kind_of_spelled spelled).1
    · cases found

/-- A fault leaves the cursor where it is met again. -/
theorem next_of_fault (failed : lexer.next.1 = .error fault) :
    lexer.next.2.next = lexer.next ∧ lexer.next.2.position = fault.index := by
  have twice := List.dropWhile_idempotent (· == ' ') lexer.rest
  unfold next at failed ⊢
  split at failed
  · cases failed
  · rename_i character others remaining
    split at failed
    · cases failed
    · rename_i absent
      cases failed
      rw [remaining] at twice
      simp only [absent, twice]
      exact ⟨trivial, trivial⟩

/-! ## Reads and feeds -/

/-- A feed has all tokens from the cursor on. -/
def Yields (lexer : Lexer) (feed : Feed) : Prop :=
  ∃ limit, lexer.rest.length < limit ∧ Feed.drain limit lexer = feed

theorem yields_ofText (text : String) :
    (ofText text).Yields (Feed.ofText text) :=
  ⟨_, Nat.lt_succ_self _, rfl⟩

theorem drain_succ (limit : Nat) (lexer : Lexer) :
    Feed.drain (limit + 1) lexer =
      match lexer.next.1 with
      | .error fault => ⟨[], some fault⟩
      | .ok token =>
          if token.kind = .endOfInput then
            ⟨[], none⟩
          else
            (Feed.drain limit lexer.next.2).cons token := by
  rw [Feed.drain]
  rcases lexer.next with ⟨_ | _, _⟩ <;> rfl

/-- One read takes the first token off the feed, and leaves a feed without tokens as it
is. -/
theorem Yields.next (yields : lexer.Yields feed) :
    lexer.next.1 = feed.pull.map Prod.fst ∧
      lexer.next.2.Yields { feed with tokens := feed.tokens.tail } := by
  obtain ⟨limit, enough, rfl⟩ := yields
  obtain ⟨limit, rfl⟩ : ∃ less, limit = less + 1 := ⟨limit - 1, by omega⟩
  have notLonger := Nat.lt_of_le_of_lt (length_rest_next_le lexer) enough
  cases outcome : lexer.next.1 with
  | error fault =>
      have drained : Feed.drain (limit + 1) lexer = ⟨[], some fault⟩ := by
        rw [drain_succ, outcome]
      have again : Feed.drain (limit + 1) lexer.next.2 = ⟨[], some fault⟩ := by
        rw [drain_succ, (next_of_fault outcome).1, outcome]
      rw [drained]
      exact ⟨rfl, limit + 1, notLonger, again⟩
  | ok token =>
      by_cases atEnd : token.kind = .endOfInput
      · obtain ⟨rfl, same⟩ := next_of_endOfInput outcome atEnd
        have drained : Feed.drain (limit + 1) lexer = ⟨[], none⟩ := by
          rw [drain_succ, outcome]
          exact if_pos atEnd
        have again : Feed.drain (limit + 1) lexer.next.2 = ⟨[], none⟩ := by
          rw [drain_succ, same]
          exact if_pos atEnd
        rw [drained]
        exact ⟨rfl, limit + 1, notLonger, again⟩
      · have notEnd : token ≠ Token.endOfInput := fun same => atEnd (same ▸ rfl)
        have shorter := length_rest_next_lt outcome notEnd
        have drained :
            Feed.drain (limit + 1) lexer = (Feed.drain limit lexer.next.2).cons token := by
          rw [drain_succ, outcome]
          exact if_neg atEnd
        rw [drained]
        exact ⟨rfl, limit, by omega, rfl⟩

/-- A number of reads take as many tokens off the feed. -/
theorem Yields.after (yields : lexer.Yields feed) (count : Nat) :
    (lexer.after count).Yields { feed with tokens := feed.tokens.drop count } := by
  induction count with
  | zero => exact yields
  | succ count inductionHypothesis =>
      have moved := inductionHypothesis.next.2
      rwa [List.tail_drop] at moved

end Lexer

/-- What comes behind the last token of a feed. -/
def Feed.ending (feed : Feed) : Except LexicalFault Token :=
  match feed.fault? with
  | none => .ok Token.endOfInput
  | some fault => .error fault

theorem Feed.pull_drop (feed : Feed) (count : Nat) :
    (Feed.mk (feed.tokens.drop count) feed.fault?).pull.map Prod.fst =
      ((feed.tokens.map .ok)[count]?).getD feed.ending := by
  rw [List.getElem?_map, ← List.head?_drop]
  cases feed.tokens.drop count with
  | cons token tokens => rfl
  | nil =>
      rw [Feed.pull, Feed.ending]
      cases feed.fault? <;> rfl

theorem Feed.fault?_of_pull
    {feed : Feed} {fault : LexicalFault}
    (failed : feed.pull.map Prod.fst = .error fault) :
    feed.fault? = some fault := by
  unfold Feed.pull at failed
  split at failed
  · cases failed
  · split at failed
    · cases failed
    · rename_i present
      cases failed
      exact present

namespace Lexer

variable {lexer : Lexer} {feed : Feed} {fault : LexicalFault}

/-- Reads in a row give the tokens of the feed, and what comes behind them for ever. -/
theorem Yields.outcomes_eq (yields : lexer.Yields feed) (count : Nat) :
    lexer.outcomes count =
      (feed.tokens.map Except.ok ++ List.replicate count feed.ending).take count := by
  apply List.ext_getElem?
  intro index
  by_cases within : index < count
  · rw [outcomes, List.getElem?_map, List.getElem?_range within, Option.map_some,
      (yields.after index).next.1, Feed.pull_drop, List.getElem?_take_of_lt within,
      List.getElem?_append, List.getElem?_replicate]
    split
    · rename_i isToken
      rw [List.getElem?_eq_getElem isToken, Option.getD_some]
    · rename_i behind
      rw [List.getElem?_eq_none (by omega), Option.getD_none, if_pos (by omega)]
  · rw [List.getElem?_eq_none, List.getElem?_eq_none]
    · rw [List.length_take]
      omega
    · rw [outcomes, List.length_map, List.length_range]
      omega

/-! ## Cursors -/

theorem position_after_le (lexer : Lexer) (count : Nat) :
    (lexer.after count).position ≤ lexer.code.length := by
  rw [position, code_after]
  exact Nat.sub_le _ _

theorem position_le_next (lexer : Lexer) :
    lexer.position ≤ lexer.next.2.position := by
  rw [position, position, code_next]
  exact Nat.sub_le_sub_left (length_rest_next_le lexer) _

theorem position_lt_next
    {token : Token}
    (within : lexer.rest.length ≤ lexer.code.length)
    (found : lexer.next.1 = .ok token)
    (notEnd : token ≠ Token.endOfInput) :
    lexer.position < lexer.next.2.position := by
  have shorter := length_rest_next_lt found notEnd
  rw [position, position, code_next]
  omega

theorem length_rest_after_ofText_le (text : String) (count : Nat) :
    ((ofText text).after count).rest.length ≤
      ((ofText text).after count).code.length := by
  rw [code_after]
  exact length_rest_after_le _ count

/-! ## Whole texts -/

/-- A read of a text that fails does so with the fault of the text. -/
theorem tokenize_of_fault
    {text : String} {count : Nat}
    (failed : ((ofText text).after count).next.1 = .error fault) :
    tokenize text = .error fault := by
  rw [((yields_ofText text).after count).next.1] at failed
  have stuck := Feed.fault?_of_pull failed
  exact (tokenize_eq_error_iff text fault).mpr stuck

/-- The tokens before a fault are those of the text before the character at fault. -/
theorem tokenize_take
    {text : String} {tokens : List Token}
    (feed : Feed.ofText text = ⟨tokens, some fault⟩) :
    tokenize (String.ofList ((ofText text).code.take fault.index)) =
      .ok (tokens ++ [Token.endOfInput]) := by
  obtain ⟨front, back, shape, spells, closes⟩ :=
    (Feed.ofText_eq_iff_of_flattened rfl).mp feed
  cases closes with
  | @stuck character others _ _ =>
      have position :
          (text.toList.map flatten).length - (others.length + 1) = front.length := by
        rw [shape, List.length_append, List.length_cons, Nat.add_sub_cancel]
      rw [tokenize_eq_ok_iff, String.toList_ofList]
      dsimp only [ofText]
      rwa [position, shape, List.take_left]

/-- Whatever a text is, reads in a row give its tokens, the end of input included, and
then the end of input for ever; where the text has none, they give the tokens of the
text before the character at fault, and then the same fault for ever. The cursor never
goes back, stays within the text, moves with each token, and rests on the character at
fault. -/
theorem outcomes_ofText (text : String) (count : Nat) :
    (∀ tokens, tokenize text = .ok tokens →
      (ofText text).outcomes count =
        (tokens.map Except.ok ++
          List.replicate count (Except.ok Token.endOfInput)).take count) ∧
    (∀ fault, tokenize text = .error fault →
      ∃ before,
        tokenize (String.ofList ((ofText text).code.take fault.index)) =
            .ok (before ++ [Token.endOfInput]) ∧
          (ofText text).outcomes count =
            (before.map Except.ok ++
              List.replicate count (Except.error fault)).take count) ∧
    (∀ index,
      ((ofText text).after index).position ≤
          ((ofText text).after (index + 1)).position ∧
        ((ofText text).after index).position ≤ (ofText text).code.length) ∧
    (∀ index token,
      ((ofText text).after index).next.1 = .ok token →
        token.kind ≠ .endOfInput →
          ((ofText text).after index).position <
            ((ofText text).after (index + 1)).position) ∧
    (∀ index fault,
      ((ofText text).after index).next.1 = .error fault →
        ((ofText text).after (index + 1)).position = fault.index ∧
          (ofText text).code[fault.index]? = some fault.character) := by
  have outcomes := (yields_ofText text).outcomes_eq count
  refine ⟨?_, ?_, ?_, ?_, ?_⟩
  · rintro tokens tokenized
    rcases feed : Feed.ofText text with ⟨before, _ | fault⟩
    · rw [tokenize, feed] at tokenized
      cases tokenized
      have ended :
          (before ++ [Token.endOfInput]).map Except.ok ++
              List.replicate count (Except.ok Token.endOfInput) =
            before.map Except.ok ++
              List.replicate (count + 1)
                (Except.ok Token.endOfInput : Except LexicalFault Token) := by
        rw [List.map_append, List.append_assoc, List.replicate_succ]
        rfl
      rw [outcomes, feed, ended]
      simp only [Feed.ending, List.take_append, List.take_replicate]
      rw [Nat.min_eq_left (by omega), Nat.min_eq_left (by omega)]
    · rw [tokenize, feed] at tokenized
      cases tokenized
  · intro fault failed
    obtain ⟨before, same⟩ :
        ∃ before, Feed.ofText text = ⟨before, some fault⟩ :=
      ⟨_, congrArg (Feed.mk _) ((tokenize_eq_error_iff text fault).mp failed)⟩
    rw [same] at outcomes
    exact ⟨before, tokenize_take same, outcomes⟩
  · exact fun index => ⟨position_le_next _, position_after_le _ index⟩
  · intro index token found notEnd
    exact position_lt_next (length_rest_after_ofText_le text index) found
      fun same => notEnd (congrArg Token.kind same)
  · intro index fault failed
    have feed := (tokenize_eq_error_iff text fault).mp (tokenize_of_fault failed)
    have blocked :=
      blockedAt_of_feed rfl (congrArg (Feed.mk (Feed.ofText text).tokens) feed)
    exact ⟨(next_of_fault failed).2, blocked.2.1⟩

/-- A sign that ends with the text, where a second character is missing. -/
example :
    (ofText "x=&").outcomes 4 =
      [.ok ⟨.identifier, "x"⟩, .ok ⟨.assign, "="⟩, .error ⟨'&', ['x', '=', '&'], 2⟩,
        .error ⟨'&', ['x', '=', '&'], 2⟩] := by
  decide +kernel

end Lexer

end WhileLang
