import WhileLang.Proofs.Moves
import WhileLang.Proofs.Tally

/-!
Rejections and complaints. Main statements: the states of a parser over some tokens are
those in which it sees what is left of them, with any number of blocks open; in each of
them an expression or a condition is rejected exactly if it is complained of once, and
accepted without a complaint, a statement or a block is rejected only with a complaint,
and a statement that is accepted has taken a token.
-/

namespace WhileLang.Parse

variable {α : Type} {tokens rest : List Token} {state after : State}
variable {notices : List Notice} {depth : Int} {step : Step α}

/-! ## States over tokens -/

/-- The states a parser can be in over some tokens: moves have led to them from where
the first two tokens are in sight and no block is open. -/
def State.Over (tokens : List Token) (state : State) : Prop :=
  ∃ notices, Moves (.seeing tokens none 0) notices state

/-- What is left of some tokens after moves is left of them. -/
theorem Moves.exists_suffix
    (moves : Moves state notices after)
    (sees : state = .seeing tokens none state.depth) :
    ∃ rest, rest <:+ tokens ∧ after = .seeing rest none after.depth := by
  induction moves generalizing tokens with
  | refl state => exact ⟨tokens, List.suffix_refl _, sees⟩
  | trans _ _ earlierHypothesis laterHypothesis =>
      obtain ⟨between, suffix, seesBetween⟩ := earlierHypothesis sees
      obtain ⟨rest, further, seesRest⟩ := laterHypothesis seesBetween
      exact ⟨rest, further.trans suffix, seesRest⟩
  | @pull state token pending pulled =>
      have advanced :
          advance state =
            ⟨.accepted (), ⟨state.next, token, pending, state.depth⟩, [.pulled token]⟩ := by
        rw [advance, pulled]
      have taken := @advance_seeing state.depth tokens
      rw [← sees, advanced] at taken
      exact ⟨tokens.tail, List.tail_suffix _, congrArg Step.state taken⟩
  | @halt state fault failed =>
      have stuck := @advance_seeing state.depth tokens
      rw [← sees, advance, failed] at stuck
      cases stuck
  | complain _ => exact ⟨tokens, List.suffix_refl _, sees⟩
  | finish _ _ => exact ⟨tokens, List.suffix_refl _, sees⟩
  | nest state depth =>
      refine ⟨tokens, List.suffix_refl _, ?_⟩
      rw [sees]
      rfl

/-- Moves lead to every place among the tokens. -/
theorem exists_moves_seeing (depth : Int) (taken rest : List Token) :
    ∃ notices,
      Moves (.seeing (taken ++ rest) none depth) notices (.seeing rest none depth) := by
  induction taken with
  | nil => exact ⟨[], .refl _⟩
  | cons token taken inductionHypothesis =>
      obtain ⟨notices, moves⟩ := inductionHypothesis
      have advanced := Moved.advance (.seeing (token :: (taken ++ rest)) none depth)
      rw [Moved, advance_seeing] at advanced
      exact ⟨_, advanced.trans moves⟩

theorem State.over_seeing
    (suffix : rest <:+ tokens)
    (depth : Int) :
    (State.seeing rest none depth).Over tokens := by
  obtain ⟨taken, rfl⟩ := suffix
  obtain ⟨_, moves⟩ := exists_moves_seeing 0 taken rest
  exact ⟨_, moves.trans (.nest _ depth)⟩

/-- The states of a parser over some tokens are those in which it sees what is left of
them, with any number of blocks open. -/
theorem State.over_iff :
    state.Over tokens ↔
      ∃ rest, rest <:+ tokens ∧ state = .seeing rest none state.depth := by
  constructor
  · rintro ⟨notices, moves⟩
    exact moves.exists_suffix rfl
  · rintro ⟨rest, suffix, sees⟩
    rw [sees]
    exact over_seeing suffix _

/-! ## Steps -/

/-- A step that comes to its end, rejects exactly where it complains once, and does not
complain otherwise. -/
structure Step.Candid (step : Step α) : Prop where
  ends : ∀ breakage, step.verdict ≠ .broken breakage
  rejected_iff : step.verdict = .rejected ↔ (diagnostics step.notices).length = 1
  silent : step.verdict ≠ .rejected → diagnostics step.notices = []

/-- A step that comes to its end, and rejects only where it complains. -/
structure Step.Audible (step : Step α) : Prop where
  ends : ∀ breakage, step.verdict ≠ .broken breakage
  complains : step.verdict = .rejected → diagnostics step.notices ≠ []

/-- Of the tokens that were to be read in one state, some are taken in the other. -/
def State.Takes (tokens : List Token) (before after : State) : Prop :=
  ∃ taken rest,
    taken ≠ [] ∧ taken ++ rest <:+ tokens ∧
      before = .seeing (taken ++ rest) none before.depth ∧
        after = .seeing rest none before.depth

theorem length_diagnostics (notices : List Notice) :
    (diagnostics notices).length = (unexpectedTokens notices).length :=
  List.length_map _

theorem Reads.candid
    {left : List Token → Prop}
    (reads : Reads left tokens depth step) :
    step.Candid := by
  cases reads with
  | accepted holds =>
      obtain ⟨_, _, quiet⟩ := holds
      rw [← length_diagnostics] at quiet
      exact ⟨nofun, by simp [quiet], fun _ => List.eq_nil_of_length_eq_zero quiet⟩
  | rejected holds =>
      obtain ⟨_, once⟩ := holds
      rw [← length_diagnostics] at once
      exact ⟨nofun, by simp [once], fun other => absurd rfl other⟩

theorem Spends.audible
    (spends : Spends tokens depth step) :
    step.Audible := by
  cases spends with
  | accepted _ => exact ⟨nofun, nofun⟩
  | rejected holds =>
      obtain ⟨_, complains, _⟩ := holds
      rw [← length_diagnostics] at complains
      exact ⟨nofun, fun _ => List.ne_nil_of_length_pos complains⟩

theorem Spends.takes
    {value : α}
    (spends : Spends rest depth step)
    (suffix : rest <:+ tokens)
    (accepted : step.verdict = .accepted value) :
    State.Takes tokens (.seeing rest none depth) step.state := by
  cases spends with
  | accepted holds =>
      obtain ⟨⟨taken, rfl⟩, shorter, _⟩ := holds
      refine ⟨taken, _, ?_, suffix, rfl, rfl⟩
      rintro rfl
      exact absurd shorter (Nat.lt_irrefl _)
  | rejected _ => cases accepted

/-- In every state of a parser over the tokens of a text, an expression above the least
precedence, and a condition, is rejected exactly if one complaint is made, and accepted
without any; a statement or a block is rejected only with a complaint; and a statement
that is accepted has taken a token. -/
theorem rejected_iff_complains
    {text : String}
    (tokenizes : tokenize text = .ok (tokens ++ [Token.endOfInput])) :
    (∃ parser,
      Parser.ofFeed (Feed.ofText text) = .ok parser ∧ parser.state.Over tokens) ∧
    ∀ state : State, state.Over tokens →
      (∀ precedence : Int, 0 ≤ precedence → (expression precedence state).Candid) ∧
      (condition state).Candid ∧
      (∀ inBlock, (statement inBlock state).Audible) ∧
      (block state).Audible ∧
      ∀ inBlock item,
        (statement inBlock state).verdict = .accepted item →
          State.Takes tokens state (statement inBlock state).state := by
  constructor
  · have spells := (tokenize_eq_ok_iff text tokens).mp tokenizes
    rw [(Feed.ofText_eq_ofTokens_iff text tokens).mpr spells]
    exact ⟨_, Parser.ofFeed_ofTokens tokens, [], .refl _⟩
  · intro state reached
    obtain ⟨rest, suffix, sees⟩ := State.over_iff.mp reached
    rw [sees]
    refine ⟨?_, ?_, ?_, ?_, ?_⟩
    · exact fun precedence nonnegative => (reads_expression nonnegative _ _).candid
    · exact (reads_condition _ _).candid
    · exact fun inBlock => (spends_statement inBlock _ _).audible
    · exact (spends_block _ _).audible
    · exact fun inBlock item accepted =>
        (spends_statement inBlock _ _).takes suffix accepted

/-- A block that is not closed, with a statement that breaks off and one that does
not. -/
theorem rejected_iff_complains_in_block :
    (statement true
        (.seeing
          [⟨.identifier, "y"⟩, ⟨.assign, "="⟩, ⟨.bracketOpen, "("⟩, ⟨.identifier, "x"⟩,
            ⟨.assign, "="⟩, ⟨.integer, "1"⟩] none 1)).Audible ∧
      (expression 0
        (.seeing
          [⟨.bracketOpen, "("⟩, ⟨.identifier, "x"⟩, ⟨.assign, "="⟩, ⟨.integer, "1"⟩]
          none 1)).Candid ∧
        State.Takes
          [⟨.whileWord, "while"⟩, ⟨.bracketOpen, "("⟩, ⟨.identifier, "x"⟩,
            ⟨.bracketClose, ")"⟩, ⟨.braceOpen, "\x7b"⟩, ⟨.identifier, "y"⟩,
            ⟨.assign, "="⟩, ⟨.bracketOpen, "("⟩, ⟨.identifier, "x"⟩, ⟨.assign, "="⟩,
            ⟨.integer, "1"⟩]
          (.seeing [⟨.identifier, "x"⟩, ⟨.assign, "="⟩, ⟨.integer, "1"⟩] none 1)
          (statement true
            (.seeing [⟨.identifier, "x"⟩, ⟨.assign, "="⟩, ⟨.integer, "1"⟩]
              none 1)).state := by
  have tokenizes :
      tokenize "while (x) \x7b y = ( x = 1" =
        .ok
          ([⟨.whileWord, "while"⟩, ⟨.bracketOpen, "("⟩, ⟨.identifier, "x"⟩,
            ⟨.bracketClose, ")"⟩, ⟨.braceOpen, "\x7b"⟩, ⟨.identifier, "y"⟩,
            ⟨.assign, "="⟩, ⟨.bracketOpen, "("⟩, ⟨.identifier, "x"⟩, ⟨.assign, "="⟩,
            ⟨.integer, "1"⟩] ++ [Token.endOfInput]) := by
    decide +kernel
  have contracts := (rejected_iff_complains tokenizes).2
  refine ⟨?_, ?_, ?_⟩
  · obtain ⟨_, _, statements, _⟩ :=
      contracts _ (State.over_seeing (List.drop_suffix 5 _) 1)
    exact statements true
  · obtain ⟨expressions, _⟩ :=
      contracts _ (State.over_seeing (List.drop_suffix 7 _) 1)
    exact expressions 0 (by decide)
  · obtain ⟨_, _, _, _, takes⟩ :=
      contracts _ (State.over_seeing (List.drop_suffix 8 _) 1)
    exact takes true
      (.assign ⟨.identifier, "x"⟩ ⟨⟨.identifier, "x"⟩, "x"⟩ (.literal ⟨.integer, "1"⟩ 1))
      (by decide +kernel)

end WhileLang.Parse
