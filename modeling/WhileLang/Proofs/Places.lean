import Mathlib.Data.List.GetD
import WhileLang.Proofs.Modes
import WhileLang.Proofs.Recovery
import WhileLang.Proofs.Tally

/-!
Places of a parser among the tokens of a text. Main statement: whatever a parser is
asked for, and in whatever order, it stands at a place among the tokens with no
block open, never goes back to an earlier place, and adds complaints about nothing
but tokens from its place on.
-/

namespace WhileLang

namespace Parse

variable {source tokens : List Token} {state after : State} {notices : List Notice}

/-- The token at a place. Behind the last one there is the end of input for ever. -/
def tokenAt (tokens : List Token) (place : Nat) : Token :=
  tokens.getD place Token.endOfInput

theorem headD_drop (tokens : List Token) (place : Nat) :
    (tokens.drop place).headD Token.endOfInput = tokenAt tokens place := by
  rw [List.headD_eq_head?_getD, List.head?_drop, tokenAt,
    List.getD_eq_getElem?_getD]

/-! ## Complaints -/

/-- A parser complains of nothing but what it has before it. -/
theorem Moves.unexpected_mem
    (moves : Moves state notices after)
    (within : state.Within source) :
    ∀ token ∈ unexpectedTokens notices,
      token = Token.endOfInput ∨ token ∈ source := by
  induction moves with
  | refl _ => exact nofun
  | trans earlier _ earlierHypothesis laterHypothesis =>
      intro token member
      rw [unexpectedTokens_append, List.mem_append] at member
      rcases member with early | late
      · exact earlierHypothesis within token early
      · exact laterHypothesis (within.of_moves earlier) token late
  | pull _ => exact nofun
  | halt _ => exact nofun
  | @complain state token seen =>
      intro complained member
      obtain rfl := List.mem_singleton.mp member
      rcases seen with rfl | rfl
      · exact within.current
      · exact within.next
  | finish _ _ => exact nofun
  | nest _ _ => exact nofun

theorem within_seeing (tokens : List Token) (fault? : Option LexicalFault) (depth : Int) :
    (State.seeing tokens fault? depth).Within tokens := by
  match tokens with
  | [] => exact ⟨.inl rfl, .inl rfl, List.Subset.refl _⟩
  | [first] => exact ⟨.inr List.mem_cons_self, .inl rfl, List.nil_subset _⟩
  | first :: second :: rest =>
      refine ⟨.inr List.mem_cons_self, .inr ?_, ?_⟩
      · exact List.mem_cons_of_mem _ List.mem_cons_self
      · exact List.drop_subset 2 (first :: second :: rest)

theorem orderly_run (operation : Operation) : Orderly operation.run := by
  intro state
  cases operation with
  | advance => exact .bind_advance fun last => .pure _ last
  | statement inBlock =>
      have orderly : Orderly (statement inBlock) :=
        orderly_unlimited fun limit => (orderly_statementWithin limit).1 inBlock
      exact (orderly state).attempt.bind fun item? last => .pure _ last
  | expression above =>
      have orderly : Orderly (expression above) :=
        orderly_unlimited fun limit => (orderly_expressionWithin limit).1 above
      exact (orderly state).attempt.bind fun value? last => .pure _ last
  | condition =>
      have orderly : Orderly condition := orderly_unlimited orderly_conditionWithin
      exact (orderly state).attempt.bind fun value? last => .pure _ last
  | block =>
      have orderly : Orderly block :=
        orderly_unlimited fun limit => (orderly_statementWithin limit).2.1
      exact (orderly state).attempt.bind fun item? last => .pure _ last
  | program => exact (orderly_program state).bind fun items last => .pure _ last
  | expect kind =>
      exact (orderly_expect kind state).attempt.bind fun met last => .pure _ last
  | precedence =>
      rw [Operation.run, bind_current]
      exact .pure _ state

/-! ## Where operations lead -/

/-- A rejection is an answer. -/
theorem tallies_answer
    {α : Type} {depth : Int} {parser : Parse α} {answer : Option α → Answer}
    {good : α → List Token → Nat → Prop} {bad : List Token → Nat → Prop}
    (tallies : Tallies depth good bad (parser (.seeing tokens none depth)))
    (accepts : ∀ value rest count, good value rest count → rest <:+ tokens)
    (rejects : ∀ rest count, bad rest count → rest <:+ tokens) :
    Tallies depth (fun _ rest _ => rest <:+ tokens) (fun _ _ => False)
      ((do
        let value? ← attempt parser
        pure (answer value?) : Parse Answer) (.seeing tokens none depth)) := by
  refine Tallies.bind tallies.attempt ?_ fun _ _ never => never.elim
  rintro value? rest count ⟨accepted, rejected⟩
  cases value? with
  | some value => exact .pure (accepts value rest count (accepted value rfl))
  | none => exact .pure (rejects rest count (rejected rfl))

theorem tallies_expect (kind : Token.Kind) (depth : Int) :
    Tallies depth (fun _ rest _ => rest <:+ tokens) (fun rest _ => rest <:+ tokens)
      (expect kind (.seeing tokens none depth)) := by
  rw [expect, bind_next]
  split
  · rw [advance_seeing]
    exact .accepted (List.tail_suffix tokens)
  · exact .refuse (List.suffix_refl tokens)

/-- Every operation comes to an end, at a later place and with as many blocks open
as before. -/
theorem tallies_run
    {operation : Operation}
    (nonnegative : ∀ above, operation = .expression above → 0 ≤ above)
    (tokens : List Token) (depth : Int) :
    Tallies depth (fun _ rest _ => rest <:+ tokens) (fun _ _ => False)
      (operation.run (.seeing tokens none depth)) := by
  cases operation with
  | advance => exact Tallies.bind_advance (.pure (List.tail_suffix tokens))
  | statement inBlock =>
      exact tallies_answer (spends_statement inBlock tokens depth)
        (fun _ _ _ holds => holds.1) fun _ _ holds => holds.1
  | expression above =>
      exact tallies_answer (reads_expression (nonnegative above rfl) tokens depth)
        (fun _ _ _ holds => holds.1) fun _ _ holds => holds.1
  | condition =>
      exact tallies_answer (reads_condition tokens depth)
        (fun _ _ _ holds => holds.1) fun _ _ holds => holds.1
  | block =>
      exact tallies_answer (spends_block tokens depth)
        (fun _ _ _ holds => holds.1) fun _ _ holds => holds.1
  | program =>
      refine Tallies.bind (lists_program tokens depth) ?_ fun _ _ never => never.elim
      exact fun program rest count holds => .pure holds.1
  | expect kind =>
      exact tallies_answer (tallies_expect kind depth) (fun _ _ _ => id) fun _ _ => id
  | precedence =>
      rw [Operation.run, bind_current]
      exact .pure (List.suffix_refl tokens)

end Parse

/-! ## Operations in a row -/

open Parse

namespace Parser

variable {tokens : List Token} {place later : Nat} {parser : Parser}

/-- A parser that sees the token at a place and the one behind it, and has no block
open. -/
structure At (tokens : List Token) (place : Nat) (parser : Parser) : Prop where
  current : parser.state.current = tokenAt tokens place
  next : parser.state.next = tokenAt tokens (place + 1)
  depth : parser.state.depth = 0

/-- A parser that has come from a place to one that is not before it, and has added
complaints about tokens from the first place on. -/
structure Advances
    (tokens : List Token) (place later : Nat) (before after : Parser) : Prop where
  forward : place ≤ later
  stands : after.At tokens later
  complaints :
    ∃ places : List Nat, (∀ index ∈ places, place ≤ index) ∧
      after.diagnostics =
        before.diagnostics ++
          places.map fun index => complaint (tokenAt tokens index)

/-- Operations in a row from a place on: each gives an answer, and the parser
advances. -/
def Keeps (tokens : List Token) : Nat → Parser → List Operation → Prop
  | _, _, [] => True
  | place, parser, operation :: rest =>
      ∃ answer later,
        (parser.perform operation).1 = .accepted answer ∧
        Advances tokens place later parser (parser.perform operation).2 ∧
        Keeps tokens later (parser.perform operation).2 rest

/-- What a parser at a place has still to read are the tokens from there on. -/
def Sees (tokens : List Token) (place : Nat) (parser : Parser) : Prop :=
  parser.state = .seeing (tokens.drop place) none 0

theorem Sees.stands (sees : parser.Sees tokens place) : parser.At tokens place := by
  refine ⟨?_, ?_, ?_⟩
  · rw [sees, current_seeing, headD_drop]
  · rw [sees, next_seeing, List.tail_drop, headD_drop]
  · rw [sees]
    rfl

theorem exists_index
    {token : Token}
    (source : token = Token.endOfInput ∨ token ∈ tokens.drop place) :
    ∃ index, place ≤ index ∧ tokenAt tokens index = token := by
  rcases source with rfl | member
  · refine ⟨place + tokens.length, Nat.le_add_right _ _, ?_⟩
    exact List.getD_eq_default _ _ (Nat.le_add_left _ _)
  · obtain ⟨offset, inside, rfl⟩ := List.mem_iff_getElem.mp member
    refine ⟨place + offset, Nat.le_add_right _ _, ?_⟩
    rw [List.getElem_drop]
    rw [List.length_drop] at inside
    exact List.getD_eq_getElem _ _ (by omega)

theorem exists_indices
    (complained : List Token)
    (source :
      ∀ token ∈ complained, token = Token.endOfInput ∨ token ∈ tokens.drop place) :
    ∃ places : List Nat, (∀ index ∈ places, place ≤ index) ∧
      complained.map complaint =
        places.map fun index => complaint (tokenAt tokens index) := by
  induction complained with
  | nil => exact ⟨[], nofun, rfl⟩
  | cons token rest inductionHypothesis =>
      obtain ⟨here, others⟩ := List.forall_mem_cons.mp source
      obtain ⟨index, behind, same⟩ := exists_index here
      obtain ⟨places, allBehind, allSame⟩ := inductionHypothesis others
      refine ⟨index :: places, List.forall_mem_cons.mpr ⟨behind, allBehind⟩, ?_⟩
      rw [List.map_cons, List.map_cons, allSame, same]

/-- One operation. -/
theorem exists_advances
    (sees : parser.Sees tokens place)
    (operation : Operation)
    (nonnegative : ∀ above, operation = .expression above → 0 ≤ above) :
    ∃ answer later,
      (parser.perform operation).1 = .accepted answer ∧
      (parser.perform operation).2.Sees tokens later ∧
      Advances tokens place later parser (parser.perform operation).2 := by
  have moves := orderly_run operation parser.state
  have within := within_seeing (tokens.drop place) none 0
  have tallies := tallies_run nonnegative (tokens.drop place) 0
  rw [← sees] at within tallies
  have complained := moves.unexpected_mem within
  unfold perform
  generalize operation.run parser.state = step at complained tallies ⊢
  cases tallies with
  | rejected never => exact never.elim
  | @accepted answer rest notices suffix =>
      -- The tokens complained of are among those that were before the parser, which
      -- are the ones from its place on.
      obtain ⟨places, behind, same⟩ := exists_indices _ complained
      obtain ⟨taken, shape⟩ : ∃ taken, rest = tokens.drop (place + taken) := by
        have dropped := List.suffix_iff_eq_drop.mp suffix
        rw [List.drop_drop] at dropped
        exact ⟨_, dropped⟩
      have seesLater :
          Sees tokens (place + taken)
            ⟨.seeing rest none 0, parser.notices ++ notices⟩ := by
        rw [Sees, shape]
      refine ⟨answer, place + taken, rfl, seesLater,
        Nat.le_add_right _ _, seesLater.stands, places, behind, ?_⟩
      show (unexpectedTokens (parser.notices ++ notices)).map complaint = _
      rw [unexpectedTokens_append, List.map_append, same]
      rfl

/-- Operations in a row. -/
theorem Sees.keeps
    {operations : List Operation}
    (sees : parser.Sees tokens place)
    (nonnegative : ∀ above, .expression above ∈ operations → 0 ≤ above) :
    Keeps tokens place parser operations := by
  induction operations generalizing place parser with
  | nil => trivial
  | cons operation rest inductionHypothesis =>
      obtain ⟨answer, later, answered, seesLater, advances⟩ :=
        exists_advances sees operation fun above same =>
          nonnegative above (same ▸ List.mem_cons_self)
      refine ⟨answer, later, answered, advances, ?_⟩
      exact inductionHypothesis seesLater fun above member =>
        nonnegative above (List.mem_cons_of_mem _ member)

theorem exists_ofFeed (tokens : List Token) :
    ∃ parser,
      Parser.ofFeed (Feed.ofTokens tokens) = .ok parser ∧
        parser.Sees tokens 0 ∧ parser.diagnostics = [] :=
  ⟨_, ofFeed_ofTokens tokens, rfl, rfl⟩

/-- Operations of any sort and number on a parser of a text that tokenizes. -/
theorem keeps_operations
    {text : String} {operations : List Operation}
    (tokenizes : tokenize text = .ok (tokens ++ [Token.endOfInput]))
    (nonnegative : ∀ above, .expression above ∈ operations → 0 ≤ above) :
    ∃ parser,
      Parser.ofFeed (Feed.ofText text) = .ok parser ∧ parser.At tokens 0 ∧
        parser.diagnostics = [] ∧ parser.Keeps tokens 0 operations := by
  have spells := (tokenize_eq_ok_iff text tokens).mp tokenizes
  obtain ⟨parser, opens, sees, silent⟩ := exists_ofFeed tokens
  rw [(Feed.ofText_eq_ofTokens_iff text tokens).mpr spells]
  exact ⟨parser, opens, sees.stands, silent, sees.keeps nonnegative⟩

/-- A block where there is none, a statement that breaks off and an expression at a
brace: the parser keeps to its places all the same. -/
theorem keeps_operations_of_malformed :
    ∃ parser,
      Parser.ofFeed (Feed.ofText "x = ( \x7d") = .ok parser ∧
        parser.At
          [⟨.identifier, "x"⟩, ⟨.assign, "="⟩, ⟨.bracketOpen, "("⟩,
            ⟨.braceClose, "\x7d"⟩] 0 ∧
        parser.diagnostics = [] ∧
        parser.Keeps
          [⟨.identifier, "x"⟩, ⟨.assign, "="⟩, ⟨.bracketOpen, "("⟩,
            ⟨.braceClose, "\x7d"⟩] 0
          [.block, .statement true, .expression 3, .expect .comma, .condition,
            .program, .advance] := by
  refine keeps_operations (by decide +kernel) ?_
  intro above member
  obtain rfl : above = 3 := by simpa using member
  decide

end Parser

end WhileLang
