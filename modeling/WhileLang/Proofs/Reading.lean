import WhileLang.Proofs.Judgement
import WhileLang.Proofs.Layout
import WhileLang.Reading

/-!
Reading of texts. Main statements: a text at fault is no program, and any other is
the program that its tokens derive, if they derive one.
-/

namespace WhileLang

open Parse

variable {tokens : List Token} {depth : Int}

/-! ## How a reading ends -/

namespace Parse

variable {α β : Type} {fault? : Option LexicalFault}

/-- A sequence rejects only where one of its parts does. -/
theorem Leads.bind_ne_rejected
    {between : α → List Token → Prop} {first : Parse α} {second : α → Parse β}
    (leads : Leads fault? tokens between (first (.seeing tokens fault? depth)))
    (accepts : (first (.seeing tokens fault? depth)).verdict ≠ .rejected)
    (further :
      ∀ value rest depth, Later fault? tokens rest → between value rest →
        (second value (.seeing rest fault? depth)).verdict ≠ .rejected) :
    ((first >>= second) (.seeing tokens fault? depth)).verdict ≠ .rejected := by
  generalize start : first (.seeing tokens fault? depth) = step at leads accepts
  cases leads with
  | accepted later holds =>
      rw [bind_accepted start]
      exact further _ _ _ later holds
  | rejected _ => exact absurd rfl accepts
  | broken _ =>
      rw [bind_broken start]
      nofun

theorem attempt_ne_rejected (parser : Parse α) (state : State) :
    (attempt parser state).verdict ≠ .rejected := by
  rcases start : parser state with ⟨verdict, after, notices⟩
  rw [attempt, start]
  intro rejected
  cases verdict <;> cases rejected

theorem note_ne_rejected (notice : Notice) (state : State) :
    (note notice state).verdict ≠ .rejected := by
  intro rejected
  cases rejected

theorem advance_ne_rejected (state : State) :
    (advance state).verdict ≠ .rejected := by
  unfold advance
  intro rejected
  split at rejected <;> cases rejected

theorem map_ne_rejected
    {change : α → β} {parser : Parse α} {state : State}
    (accepts : (parser state).verdict ≠ .rejected) :
    ((change <$> parser) state).verdict ≠ .rejected := by
  show (mapValue change parser state).verdict ≠ .rejected
  rcases start : parser state with ⟨verdict, after, notices⟩
  rw [start] at accepts
  rw [mapValue, start]
  intro rejected
  cases verdict with
  | accepted _ => cases rejected
  | rejected => exact accepts rfl
  | broken _ => cases rejected

/-- A program ends where the end of input is the current token. -/
theorem leads_programWithin (limit : Nat) :
    Leads fault? tokens
      (fun _ rest => (rest.headD Token.endOfInput).kind = .endOfInput)
      (programWithin limit (.seeing tokens fault? depth)) := by
  induction limit generalizing tokens depth with
  | zero => exact .reject
  | succ limit inductionHypothesis =>
      rw [programWithin, bind_current]
      split
      · rename_i atEnd
        exact .pure atEnd
      · apply (leads_attempt_statement limit false).bind
        intro item? rest depth _ _
        cases item? with
        | some item =>
            apply (Leads.note _).bind
            intro _ rest depth _ _
            exact inductionHypothesis.map fun _ _ => id
        | none =>
            apply Leads.advance.bind
            intro _ rest depth _ _
            exact inductionHypothesis

/-- Programs are never rejected, only the statements in them. -/
theorem programWithin_ne_rejected
    (limit : Nat)
    (covers : tokens.length < limit) :
    (programWithin limit (.seeing tokens fault? depth)).verdict ≠ .rejected := by
  induction limit generalizing tokens depth with
  | zero => omega
  | succ limit inductionHypothesis =>
      rw [programWithin, bind_current]
      split
      · intro rejected
        cases rejected
      · rename_i continues
        rw [current_seeing] at continues
        refine (leads_attempt_statement limit false).bind_ne_rejected
          (attempt_ne_rejected _ _) ?_
        intro item? rest depth later taken
        cases item? with
        | some item =>
            have shorter := taken item rfl
            apply (Leads.note _).bind_ne_rejected (note_ne_rejected _ _)
            rintro _ _ depth _ rfl
            exact map_ne_rejected (inductionHypothesis (by omega))
        | none =>
            refine (leads_advance_lt later continues).bind_ne_rejected
              (advance_ne_rejected _) ?_
            intro _ rest depth _ shorter
            exact inductionHypothesis (by omega)

end Parse

theorem Parser.unopened_eq_seeing (feed : Feed) :
    Parser.unopened feed =
      .seeing (Token.endOfInput :: Token.endOfInput :: feed.tokens) feed.fault? 0 :=
  rfl

theorem Parser.opening_ofTokens (tokens : List Token) :
    Parser.opening (Parser.unopened (Feed.ofTokens tokens)) =
      ⟨.accepted (), .seeing tokens none 0,
        [.pulled (tokens.headD Token.endOfInput),
          .pulled (tokens.tail.headD Token.endOfInput)]⟩ := by
  have first :=
    @advance_seeing 0 (Token.endOfInput :: Token.endOfInput :: tokens)
  rw [Parser.opening, Parser.unopened_eq_seeing, Feed.ofTokens, bind_accepted first,
    advance_seeing]
  rfl

theorem Parser.ofFeed_ofTokens (tokens : List Token) :
    Parser.ofFeed (Feed.ofTokens tokens) =
      .ok ⟨.seeing tokens none 0,
        [.pulled (tokens.headD Token.endOfInput),
          .pulled (tokens.tail.headD Token.endOfInput)]⟩ := by
  rw [ofFeed, opening_ofTokens]

theorem Parser.leads_opening (feed : Feed) :
    Leads feed.fault? (Token.endOfInput :: Token.endOfInput :: feed.tokens)
      (fun _ rest => rest = feed.tokens)
      (Parser.opening (Parser.unopened feed)) := by
  rw [Parser.opening, Parser.unopened_eq_seeing]
  apply Leads.advance.bind
  rintro _ _ depth _ rfl
  exact Leads.advance

theorem Parser.opening_ne_rejected (feed : Feed) :
    (Parser.opening (Parser.unopened feed)).verdict ≠ .rejected := by
  rw [Parser.opening, Parser.unopened_eq_seeing]
  apply Leads.advance.bind_ne_rejected (advance_ne_rejected _)
  intro _ rest depth _ _
  exact advance_ne_rejected _

namespace Reading

/-- The whole of a reading: the first two tokens are brought into sight, and a
program is parsed. -/
def step (feed : Feed) : Step Program :=
  (Parser.opening >>= fun _ => Parse.program) (Parser.unopened feed)

/-- What is left of a step as a reading. -/
def ofStep (step : Step Program) : Reading :=
  match step with
  | ⟨.accepted program, _, notices⟩ => ⟨.ok program, notices⟩
  | ⟨.rejected, _, notices⟩ => ⟨.ok [], notices⟩
  | ⟨.broken breakage, _, notices⟩ => ⟨.error breakage, notices⟩

theorem ofFeed_eq (feed : Feed) : ofFeed feed = ofStep (step feed) := rfl

theorem leads_step (feed : Feed) :
    Leads feed.fault? (Token.endOfInput :: Token.endOfInput :: feed.tokens)
      (fun _ rest =>
        rest <:+ feed.tokens ∧ (rest.headD Token.endOfInput).kind = .endOfInput)
      (step feed) := by
  apply (Parser.leads_opening feed).bind
  intro _ rest depth _ same
  rw [same]
  apply (leads_programWithin _).weaken
  exact fun _ final later atEnd => ⟨later.suffix, atEnd⟩

theorem step_ne_rejected (feed : Feed) : (step feed).verdict ≠ .rejected := by
  have leads := Parser.leads_opening feed
  have accepts := Parser.opening_ne_rejected feed
  rw [Parser.unopened_eq_seeing] at leads accepts
  apply leads.bind_ne_rejected accepts
  intro _ rest depth _ _
  have covers := covers_bound rest feed.fault? depth
  exact programWithin_ne_rejected _ (by omega)

/-- Every text without a fault is read to its end. -/
theorem exists_accepted_of_tokens (tokens : List Token) :
    ∃ program state notices,
      step (Feed.ofTokens tokens) = ⟨.accepted program, state, notices⟩ := by
  have leads := leads_step (Feed.ofTokens tokens)
  have accepts := step_ne_rejected (Feed.ofTokens tokens)
  generalize step (Feed.ofTokens tokens) = step at leads accepts
  cases leads with
  | accepted _ _ => exact ⟨_, _, _, rfl⟩
  | rejected _ => exact absurd rfl accepts
  | broken fault => cases fault

/-- A fault never comes into the window, and the end of input neither, so that no
program ends before the fault. -/
theorem statements_of_fault
    {fault : LexicalFault}
    (proper : ∀ token ∈ tokens, token.kind ≠ .endOfInput) :
    (ofFeed ⟨tokens, some fault⟩).statements = .error (.lexical fault) := by
  have leads := leads_step ⟨tokens, some fault⟩
  have accepts := step_ne_rejected ⟨tokens, some fault⟩
  rw [ofFeed_eq]
  generalize step ⟨tokens, some fault⟩ = step at leads accepts
  cases leads with
  | @accepted _ rest _ _ later holds =>
      obtain ⟨suffix, atEnd⟩ := holds
      have enough : 2 ≤ rest.length := later.sighted nofun (by simp)
      obtain _ | ⟨first, behind⟩ := rest
      · cases enough
      exact absurd atEnd (proper first (suffix.subset List.mem_cons_self))
  | rejected _ => exact absurd rfl accepts
  | broken same =>
      cases same
      rfl

/-! ## A text without a fault -/

theorem report_step :
    (step (Feed.ofTokens tokens)).report =
      (Parse.program (.seeing tokens none 0)).report := by
  have opened :
      (Parser.opening (Parser.unopened (Feed.ofTokens tokens))).report =
        ⟨.accepted (), .seeing tokens none 0, []⟩ := by
    rw [Parser.opening, Parser.unopened_eq_seeing]
    exact (report_bind report_advance).trans report_advance
  exact report_bind opened

theorem program_of_complains
    {feed : Feed}
    (complains : (step feed).Complains)
    (program : Program) :
    (ofFeed feed).program ≠ .ok program := by
  rw [ofFeed_eq]
  rcases start : step feed with ⟨verdict, state, notices⟩
  rw [start] at complains
  have complaints : unexpectedTokens notices ≠ [] := complains
  obtain ⟨first, rest, shape⟩ := List.exists_cons_of_ne_nil complaints
  cases verdict <;> simp [ofStep, Reading.program, shape]

theorem ofFeed_of_accepted
    {feed : Feed} {program : Program} {after : State} {complaints : List Token}
    (read : (step feed).report = ⟨.accepted program, after, complaints⟩) :
    (ofFeed feed).statements = .ok program ∧
      unexpectedTokens (ofFeed feed).notices = complaints := by
  rw [ofFeed_eq]
  rcases start : step feed with ⟨verdict, state, notices⟩
  rw [start] at read
  simp only [Step.report, Report.mk.injEq] at read
  obtain ⟨rfl, rfl, rfl⟩ := read
  exact ⟨rfl, rfl⟩

theorem program_of_accepted
    {feed : Feed} {program : Program} {after : State}
    (read : (step feed).report = ⟨.accepted program, after, []⟩) :
    (ofFeed feed).program = .ok program := by
  obtain ⟨statements, silent⟩ := ofFeed_of_accepted read
  rw [Reading.program, statements]
  dsimp only
  rw [silent]

end Reading

/-! ## Programs -/

namespace Grammar

/-- Statements at the front of a text are read as they are, and reading goes on
behind them. -/
theorem Statements.report_program
    {before after : List Token} {list : List Stmt} (depth : Int)
    (quiet :
      list.getLast?.any Stmt.endsInExpression = true →
        Quiet false (ahead after)) :
    Statements false before after list →
    (Parse.program (.seeing before none depth)).report =
      (((list ++ ·) <$> Parse.program) (.seeing after none depth)).report
  | .nil => by
      show _ = (((fun list => list) <$> Parse.program) _).report
      rw [Parse.map_id]
  | @Statements.cons _ _ middle _ first others item derivations => by
      have continues :
          (State.seeing before none depth).current.kind ≠ .endOfInput := by
        intro atEnd
        exact item.begins.continues (congrArg endsBlock atEnd)
      have settled := item.settled (derivations.quiet_next quiet)
      have read := report_attempt (item.report_statement depth settled)
      have noted :
          (note (.parsed first) (.seeing middle none depth)).report =
            ⟨.accepted (), .seeing middle none depth, []⟩ := rfl
      have rest := derivations.report_program depth (quiet_of_cons quiet)
      rw [program_seeing, bind_current, if_neg continues, report_bind read]
      apply (report_bind noted).trans
      rw [report_map_congr rest, Parse.map_map]
      rfl

theorem Derives.report_program
    {program : Program} {depth : Int}
    (derivation : Derives tokens program) :
    (Parse.program (.seeing tokens none depth)).report =
      ⟨.accepted program, .seeing [] none depth, []⟩ := by
  have atEnd : Quiet false (ahead []) := quiet_of_endsBlock rfl
  have ended :
      (Parse.program (.seeing [] none depth)).report =
        ⟨.accepted [], .seeing [] none depth, []⟩ := by
    rw [program_seeing]
    rfl
  rw [Statements.report_program depth (fun _ => atEnd) derivation,
    report_map ended, List.append_nil]

theorem complains_program_first
    {first : Token} {rest : List Token}
    (isToken : first.kind ≠ .endOfInput)
    (complains : (statement false (.seeing (first :: rest) none depth)).Complains) :
    (Parse.program (.seeing (first :: rest) none depth)).Complains := by
  rw [program_seeing, bind_current, current_seeing, List.headD_cons, if_neg isToken]
  exact complains_bind (complains_attempt complains)

theorem complains_program_behind
    {before after : List Token} {item : Stmt}
    (derivation : Statement false before after item)
    (settled : Settled false before after item)
    (complains : (Parse.program (.seeing after none depth)).Complains) :
    (Parse.program (.seeing before none depth)).Complains := by
  have continues : (State.seeing before none depth).current.kind ≠ .endOfInput := by
    intro atEnd
    exact derivation.begins.continues (congrArg endsBlock atEnd)
  have read := report_attempt (derivation.report_statement depth settled)
  rw [program_seeing, bind_current, if_neg continues]
  apply complains_bind_of_quiet read
  apply complains_bind_of_quiet rfl
  exact complains_map complains

/-- Either the tokens derive a program, or the parser complains. -/
theorem decided_program
    (spelled : ∀ token ∈ tokens, token.Spelled) :
    (∃ program, Derives tokens program) ∨
      (Parse.program (.seeing tokens none 0)).Complains := by
  induction size : tokens.length using Nat.strongRecOn generalizing tokens with
  | ind length inductionHypothesis =>
      obtain _ | ⟨first, rest⟩ := tokens
      · exact .inl ⟨[], .nil⟩
      have isToken : first.kind ≠ .endOfInput :=
        (Token.kind_of_spelled (spelled first List.mem_cons_self)).1
      have spelledBehind := Spelled.of_suffix spelled (List.suffix_cons first rest)
      have judged := judged_statement spelled false 0 fun middle suffix =>
        (judged_block_and_items (Spelled.of_suffix spelledBehind suffix)
          (Int.le_refl 0)).1
      rcases judged with
        ⟨after, item, derivation, settled⟩ | complains | @⟨_, inside, _⟩
      · have suffix : after <:+ rest := derivation.suffix
        have shorter : after.length < length := by
          have lengths := suffix.length_le
          rw [List.length_cons] at size
          omega
        rcases inductionHypothesis after.length shorter
            (Spelled.of_suffix spelledBehind suffix) rfl with
          ⟨program, derivations⟩ | complains
        · exact .inl ⟨item :: program, .cons derivation derivations⟩
        · exact .inr (complains_program_behind derivation settled complains)
      · exact .inr (complains_program_first isToken complains)
      · exact absurd inside (Int.lt_irrefl 0)

end Grammar

open Grammar

/-- A text that is made up of tokens is the program they derive, and none if they
derive none. -/
theorem Program.ofText_eq_ok_iff_of_spells
    {text : String} {program : Program}
    (spells : Spells text.toList tokens) :
    Program.ofText text = .ok program ↔ Derives tokens program := by
  rw [Program.ofText, Reading.ofText, (Feed.ofText_eq_ofTokens_iff _ _).mpr spells]
  have accepted {list : Program} (derivation : Derives tokens list) :
      (Reading.ofFeed (Feed.ofTokens tokens)).program = .ok list :=
    Reading.program_of_accepted
      (Reading.report_step.trans derivation.report_program)
  constructor
  · intro read
    rcases decided_program spells.spelled with ⟨list, derivation⟩ | complains
    · obtain rfl : list = program := by
        rw [accepted derivation] at read
        exact Except.ok.inj read
      exact derivation
    · rw [Step.Complains, ← Reading.report_step] at complains
      exact absurd read (Reading.program_of_complains complains program)
  · exact accepted

/-- A text at fault is no program, whatever stands before the fault. -/
theorem Program.ofText_of_fault
    {text : String} {fault : LexicalFault}
    (atFault : (Feed.ofText text).fault? = some fault) :
    Program.ofText text = .error (.broken (.lexical fault)) := by
  have proper := Feed.proper_ofText text
  rw [Program.ofText, Reading.ofText, Reading.program]
  generalize Feed.ofText text = feed at atFault proper
  obtain ⟨tokens, _⟩ := feed
  cases atFault
  rw [Reading.statements_of_fault proper]

theorem Program.ofText_eq_broken_iff (text : String) (breakage : Breakage) :
    Program.ofText text = .error (.broken breakage) ↔
      ∃ fault, breakage = .lexical fault ∧ tokenize text = .error fault := by
  simp only [tokenize_eq_error_iff]
  constructor
  · intro broken
    rcases feed : Feed.ofText text with ⟨tokens, _ | fault⟩
    · obtain ⟨program, state, notices, read⟩ :=
        Reading.exists_accepted_of_tokens tokens
      have statements :
          (Reading.ofFeed (Feed.ofTokens tokens)).statements = .ok program := by
        rw [Reading.ofFeed_eq, read]
        rfl
      rw [Program.ofText, Reading.ofText, feed, ← Feed.ofTokens, Reading.program,
        statements] at broken
      dsimp only at broken
      split at broken <;> cases broken
    · have failed := Program.ofText_of_fault (congrArg Feed.fault? feed)
      rw [failed] at broken
      cases broken
      exact ⟨fault, rfl, rfl⟩
  · rintro ⟨fault, rfl, atFault⟩
    exact Program.ofText_of_fault atFault

/-- Reading a text and tokenizing it find the same fault, whatever stands before
it. -/
theorem Program.ofText_eq_lexical_iff (text : String) (fault : LexicalFault) :
    Program.ofText text = .error (.broken (.lexical fault)) ↔
      tokenize text = .error fault := by
  rw [Program.ofText_eq_broken_iff]
  constructor
  · rintro ⟨_, same, atFault⟩
    cases same
    exact atFault
  · exact fun atFault => ⟨fault, rfl, atFault⟩

/-- A program is spelled by tokens. -/
theorem Program.exists_spells_of_ofText
    {text : String} {program : Program}
    (accepted : Program.ofText text = .ok program) :
    ∃ tokens, Spells text.toList tokens := by
  have feeds := Feed.ofText_eq_ofTokens_iff text
  rcases feed : Feed.ofText text with ⟨tokens, _ | fault⟩
  · exact ⟨tokens, (feeds tokens).mp feed⟩
  · have failed := Program.ofText_of_fault (congrArg Feed.fault? feed)
    rw [failed] at accepted
    cases accepted

/-- A program is derived from the tokens that make up its text. -/
theorem Program.exists_derives_of_ofText
    {text : String} {program : Program}
    (accepted : Program.ofText text = .ok program) :
    ∃ tokens, Spells text.toList tokens ∧ Derives tokens program := by
  obtain ⟨tokens, spells⟩ := Program.exists_spells_of_ofText accepted
  exact ⟨tokens, spells, (Program.ofText_eq_ok_iff_of_spells spells).mp accepted⟩

/-- Of a text that tokenizes exactly the derivations of its tokens are accepted, and
the program is the tree of the derivation. -/
theorem Program.ofText_eq_ok_iff_derives
    {text : String} {program : Program}
    (tokenizes : tokenize text = .ok (tokens ++ [Token.endOfInput])) :
    Program.ofText text = .ok program ↔ Derives tokens program :=
  Program.ofText_eq_ok_iff_of_spells ((tokenize_eq_ok_iff text tokens).mp tokenizes)

/-- What binds more is grouped first. -/
theorem Program.derives_print_product :
    Derives
      [⟨.printWord, "print"⟩, ⟨.identifier, "x"⟩, ⟨.plus, "+"⟩, ⟨.integer, "2"⟩,
        ⟨.star, "*"⟩, ⟨.identifier, "y"⟩]
      [.print ⟨.printWord, "print"⟩
        [.binary ⟨.plus, "+"⟩ (.ident ⟨.identifier, "x"⟩ "x") .add
          (.binary ⟨.star, "*"⟩ (.literal ⟨.integer, "2"⟩ 2) .mul
            (.ident ⟨.identifier, "y"⟩ "y"))]] :=
  (@Program.ofText_eq_ok_iff_derives _ "print x + 2 * y" _ (by decide +kernel)).mp
    (by decide +kernel)

end WhileLang
