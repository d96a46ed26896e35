import WhileLang.Proofs.Complaints
import WhileLang.Proofs.Places

/-!
The order of complaints. Main statement: the complaints about a text name its tokens, or
the end of input, in the order of the text, and none of them more than twice.
-/

namespace WhileLang

namespace Parse

variable {length high left : Nat} {places : List Nat}

/-- Places in order, of which none occurs more than twice. They are so far on that fewer
than `high` tokens are left behind the place before each, and the first of such places
occurs once at most. -/
structure Ascending (length high : Nat) (places : List Nat) : Prop where
  ordered : places.Pairwise (· ≤ ·)
  within : ∀ place ∈ places, place ≤ length
  above : ∀ place ∈ places, length < place + high
  twice : ∀ place, places.count place ≤ 2
  once : ∀ place, place + high = length + 1 → places.count place ≤ 1

theorem ascending_nil (length high : Nat) : Ascending length high [] :=
  ⟨.nil, nofun, nofun, fun _ => Nat.zero_le _, fun _ _ => Nat.zero_le _⟩

/-- A place that does not come before those in the list is none of them. -/
theorem Ascending.count_eq_zero
    (ascending : Ascending length left places)
    {place : Nat}
    (before : place + left ≤ length) :
    places.count place = 0 := by
  rw [List.count_eq_zero]
  intro member
  have above := ascending.above place member
  omega

/-- In front there comes the place where so many tokens are left, or the one behind
it. -/
theorem Ascending.cons
    {place : Nat}
    (ascending : Ascending length left places)
    (below : left < high)
    (within : place ≤ length)
    (here : place + left = length ∨ place + left = length + 1) :
    Ascending length high (place :: places) where
  ordered := by
    refine List.pairwise_cons.mpr ⟨fun later member => ?_, ascending.ordered⟩
    have above := ascending.above later member
    omega
  within := List.forall_mem_cons.mpr ⟨within, ascending.within⟩
  above := by
    refine List.forall_mem_cons.mpr ⟨by omega, fun later member => ?_⟩
    have above := ascending.above later member
    omega
  twice := by
    intro other
    by_cases same : place = other
    · subst other
      rw [List.count_cons_self]
      rcases here with current | next
      · rw [ascending.count_eq_zero (Nat.le_of_eq current)]
        omega
      · have once := ascending.once place next
        omega
    · rw [List.count_cons_of_ne same]
      exact ascending.twice other
  once := by
    intro other first
    by_cases same : place = other
    · subst other
      rw [List.count_cons_self, ascending.count_eq_zero (by omega)]
    · rw [List.count_cons_of_ne same, ascending.count_eq_zero (by omega)]
      omega

variable {tokens complaints : List Token} {token : Token} {low : Nat}

theorem Sighted.exists_place (sighted : Sighted tokens left token) :
    ∃ place ≤ tokens.length,
      (place + left = tokens.length ∨ place + left = tokens.length + 1) ∧
        token = tokenAt tokens place := by
  obtain ⟨rest, suffix, size, rfl⟩ := sighted
  have shorter := suffix.length_le
  refine ⟨tokens.length - rest.length, Nat.sub_le _ _, by omega, ?_⟩
  rw [← headD_drop, ← List.suffix_iff_eq_drop.mp suffix]

/-- Complaints where fewer tokens are left each time are about tokens in order. -/
theorem Spotted.exists_places (spotted : Spotted tokens high low complaints) :
    ∃ places, Ascending tokens.length high places ∧
      complaints = places.map (tokenAt tokens) := by
  induction spotted with
  | @nil high _ => exact ⟨[], ascending_nil _ high, rfl⟩
  | cons below _ sighted _ inductionHypothesis =>
      obtain ⟨places, ascending, rfl⟩ := inductionHypothesis
      obtain ⟨place, within, here, rfl⟩ := sighted.exists_place
      exact ⟨place :: places, ascending.cons below within here, rfl⟩

/-- The end of input at the end of the tokens is what is behind them anyway. -/
theorem tokenAt_append_endOfInput (tokens : List Token) (place : Nat) :
    tokenAt (tokens ++ [Token.endOfInput]) place = tokenAt tokens place := by
  unfold tokenAt
  by_cases inside : place < tokens.length
  · exact List.getD_append _ _ _ _ inside
  · rw [List.getD_append_right _ _ _ _ (Nat.not_lt.mp inside),
      List.getD_eq_default _ _ (Nat.not_lt.mp inside)]
    cases place - tokens.length <;> rfl

end Parse

open Parse

/-- The complaints about a text that tokenizes name tokens of it, the end of input
included, in order, and none of them more than twice. -/
theorem Reading.diagnostics_in_order
    {text : String} {tokens : List Token}
    (tokenizes : tokenize text = .ok tokens) :
    ∃ places : List Nat,
      places.Pairwise (· ≤ ·) ∧
        (∀ place ∈ places, place < tokens.length) ∧
          (∀ place, places.count place ≤ 2) ∧
            (Reading.ofText text).diagnostics =
              places.map fun place =>
                "Syntax error, didn't expect " ++ (tokenAt tokens place).lexeme := by
  rcases feed : Feed.ofText text with ⟨read, _ | fault⟩
  · rw [tokenize, feed] at tokenizes
    cases tokenizes
    cases lines_program read 0 with
    | rejected _ never => exact never.elim
    | @accepted program rest complaints parsed holds =>
        obtain ⟨_, _, _, _, spotted⟩ := holds
        obtain ⟨places, ascending, rfl⟩ := spotted.exists_places
        have complained := (ofFeed_of_accepted (report_step.trans parsed)).2
        refine ⟨places, ascending.ordered, ?_, ascending.twice, ?_⟩
        · intro place member
          rw [List.length_append, List.length_singleton]
          exact Nat.lt_succ_of_le (ascending.within place member)
        · rw [Reading.diagnostics, Parse.diagnostics, Reading.ofText, feed,
            ← Feed.ofTokens, complained, List.map_map]
          refine List.map_congr_left fun place _ => ?_
          rw [tokenAt_append_endOfInput]
          rfl
  · rw [tokenize, feed] at tokenizes
    cases tokenizes

/-- A statement that breaks off at the end of a block that is not closed: the end of
input is complained of for each. -/
theorem Reading.diagnostics_in_order_of_unclosed :
    ∃ places : List Nat,
      places.Pairwise (· ≤ ·) ∧
        (∀ place ∈ places, place < 8) ∧
          (∀ place, places.count place ≤ 2) ∧
            (Reading.ofText "while (x) \x7b x =").diagnostics =
              places.map fun place =>
                "Syntax error, didn't expect " ++
                  (tokenAt
                    [⟨.whileWord, "while"⟩, ⟨.bracketOpen, "("⟩, ⟨.identifier, "x"⟩,
                      ⟨.bracketClose, ")"⟩, ⟨.braceOpen, "\x7b"⟩, ⟨.identifier, "x"⟩,
                      ⟨.assign, "="⟩, Token.endOfInput] place).lexeme :=
  @Reading.diagnostics_in_order "while (x) \x7b x ="
    [⟨.whileWord, "while"⟩, ⟨.bracketOpen, "("⟩, ⟨.identifier, "x"⟩,
      ⟨.bracketClose, ")"⟩, ⟨.braceOpen, "\x7b"⟩, ⟨.identifier, "x"⟩, ⟨.assign, "="⟩,
      Token.endOfInput]
    (by decide +kernel)

end WhileLang
