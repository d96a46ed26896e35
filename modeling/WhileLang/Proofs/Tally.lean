import WhileLang.Proofs.Complaints

/-!
What parsing costs. A step over tokens without a fault is charged one for every
complaint, and pays with the tokens that it takes. Main statements: an expression
is accepted without a complaint or rejected with exactly one, a statement costs no
more than it takes, unless it takes nothing and costs one, and whatever is parsed,
as many blocks are open behind it as before it. So the parsing of a text comes to
its end with no block open, and complains of no more tokens than there are.
-/

namespace WhileLang.Parse

variable {α β : Type}

/-- A step that comes to its end with so many blocks open. Of what it accepts and
of what it rejects something holds, with the tokens still to be read and the number
of its complaints. -/
inductive Tallies
    (depth : Int) (good : α → List Token → Nat → Prop)
    (bad : List Token → Nat → Prop) : Step α → Prop
  | accepted {value : α} {rest : List Token} {notices : List Notice} :
      good value rest (unexpectedTokens notices).length →
      Tallies depth good bad ⟨.accepted value, .seeing rest none depth, notices⟩
  | rejected {rest : List Token} {notices : List Notice} :
      bad rest (unexpectedTokens notices).length →
      Tallies depth good bad ⟨.rejected, .seeing rest none depth, notices⟩

theorem tallies_iff
    {depth : Int} {good : α → List Token → Nat → Prop} {bad : List Token → Nat → Prop}
    {step : Step α} :
    Tallies depth good bad step ↔
      Concludes depth (fun value rest complaints => good value rest complaints.length)
        (fun rest complaints => bad rest complaints.length) step := by
  constructor
  · intro tallies
    cases tallies with
    | accepted holds => exact .accepted rfl holds
    | rejected holds => exact .rejected rfl holds
  · intro concludes
    obtain ⟨verdict, state, notices⟩ := step
    cases concludes with
    | accepted read holds =>
        simp only [Step.report, Report.mk.injEq] at read
        obtain ⟨rfl, rfl, rfl⟩ := read
        exact .accepted holds
    | rejected refused holds =>
        simp only [Step.report, Report.mk.injEq] at refused
        obtain ⟨rfl, rfl, rfl⟩ := refused
        exact .rejected holds

namespace Tallies

variable {depth inner start : Int} {tokens : List Token}
variable {good : β → List Token → Nat → Prop} {bad : List Token → Nat → Prop}

theorem pure
    {value : β}
    (holds : good value tokens 0) :
    Tallies depth good bad ((Pure.pure value : Parse β) (.seeing tokens none depth)) :=
  .accepted holds

theorem refuse
    {token : Token}
    (holds : bad tokens 1) :
    Tallies depth good bad
      ((Parse.refuse token : Parse β) (.seeing tokens none depth)) :=
  .rejected holds

/-- The complaints of two steps in a row are counted together. -/
theorem bind
    {first : Parse α} {second : α → Parse β} {between : α → List Token → Nat → Prop}
    {worse : List Token → Nat → Prop}
    (tallies : Tallies inner between worse (first (.seeing tokens none start)))
    (further :
      ∀ value rest count, between value rest count →
        Tallies depth (fun value rest more => good value rest (count + more))
          (fun rest more => bad rest (count + more))
          (second value (.seeing rest none inner)))
    (rejects : ∀ rest count, worse rest count → inner = depth ∧ bad rest count) :
    Tallies depth good bad ((first >>= second) (.seeing tokens none start)) := by
  rw [tallies_iff] at tallies ⊢
  refine tallies.bind ?_ fun rest complaints => rejects rest complaints.length
  intro value rest complaints holds
  have last := tallies_iff.mp (further value rest complaints.length holds)
  simpa only [List.length_append] using last

theorem bind_advance
    {second : Unit → Parse β}
    (further : Tallies depth good bad (second () (.seeing tokens.tail none start))) :
    Tallies depth good bad ((advance >>= second) (.seeing tokens none start)) :=
  tallies_iff.mpr (tallies_iff.mp further).bind_advance

/-- A rejection that is put up with is an acceptance of nothing. -/
theorem attempt
    {parser : Parse β} {worse : List Token → Nat → Prop}
    (tallies : Tallies depth good worse (parser (.seeing tokens none start))) :
    Tallies depth
      (fun value? rest count =>
        (∀ value, value? = some value → good value rest count) ∧
          (value? = none → worse rest count))
      (fun _ _ => False) (Parse.attempt parser (.seeing tokens none start)) :=
  tallies_iff.mpr (tallies_iff.mp tallies).attempt

end Tallies

/-! ## Costs -/

variable {depth : Int} {tokens : List Token}

/-- A step that accepts without a complaint, with something left of the tokens, or
rejects with a single one. -/
def Reads
    (left : List Token → Prop) (tokens : List Token) (depth : Int)
    (step : Step α) : Prop :=
  Tallies depth (fun _ rest count => rest <:+ tokens ∧ left rest ∧ count = 0)
    (fun rest count => rest <:+ tokens ∧ count = 1) step

/-- A step that takes tokens if it accepts, and costs no more than it takes. One
that rejects complains, and may take nothing if it complains once. -/
def Spends (tokens : List Token) (depth : Int) (step : Step α) : Prop :=
  Tallies depth
    (fun _ rest count =>
      rest <:+ tokens ∧ rest.length < tokens.length ∧
        count + rest.length ≤ tokens.length)
    (fun rest count =>
      rest <:+ tokens ∧ 0 < count ∧
        (count ≤ 1 ∨ count + rest.length ≤ tokens.length))
    step

/-- A row of statements is never rejected. It ends before a token of some sort, and
costs no more than it takes. -/
def Lists (ends : Token.Kind → Prop) (tokens : List Token) (depth : Int)
    (step : Step α) : Prop :=
  Tallies depth
    (fun _ rest count =>
      rest <:+ tokens ∧ ends (rest.headD Token.endOfInput).kind ∧
        count + rest.length ≤ tokens.length)
    (fun _ _ => False) step

theorem Stumbles.reads
    {left : List Token → Prop} {step : Step α}
    (stumbles : Stumbles left tokens depth step) :
    Reads left tokens depth step := by
  refine tallies_iff.mpr (Concludes.weaken stumbles ?_ ?_)
  · rintro _ rest _ ⟨suffix, holds, rfl⟩
    exact ⟨suffix, holds, rfl⟩
  · rintro rest _ ⟨token, rfl, faces⟩
    exact ⟨faces.suffix, rfl⟩

/-- Where fewer tokens are left at each complaint, no more are complained of than are
taken. -/
theorem Descends.spends
    {step : Step α}
    (descends : Descends tokens depth step) :
    Spends tokens depth step := by
  refine tallies_iff.mpr (Concludes.weaken descends ?_ ?_)
  · rintro _ rest complaints ⟨suffix, shorter, spotted⟩
    have count := spotted.length_le
    have bounds := lowest_bounds depth rest
    exact ⟨suffix, shorter, by omega⟩
  · rintro rest complaints ⟨suffix, complains, spotted⟩
    have count := spotted.length_le
    have shorter := suffix.length_le
    exact ⟨suffix, List.length_pos_iff.mpr complains, by omega⟩

theorem reads_expression
    {precedence : Int}
    (nonnegative : 0 ≤ precedence)
    (tokens : List Token) (depth : Int) :
    Reads (· ≠ []) tokens depth (expression precedence (.seeing tokens none depth)) :=
  (stumbles_expression nonnegative tokens depth).reads

theorem reads_condition (tokens : List Token) (depth : Int) :
    Reads (·.length < tokens.length) tokens depth
      (condition (.seeing tokens none depth)) :=
  (stumbles_condition tokens depth).reads

theorem spends_statement (inBlock : Bool) (tokens : List Token) (depth : Int) :
    Spends tokens depth (statement inBlock (.seeing tokens none depth)) :=
  (descends_statement inBlock tokens depth).spends

theorem spends_block (tokens : List Token) (depth : Int) :
    Spends tokens depth (block (.seeing tokens none depth)) :=
  (descends_block tokens depth).spends

theorem lists_program (tokens : List Token) (depth : Int) :
    Lists (· = .endOfInput) tokens depth (program (.seeing tokens none depth)) := by
  refine tallies_iff.mpr (Concludes.weaken (lines_program tokens depth) ?_ fun _ _ => id)
  rintro _ rest complaints ⟨suffix, atEnd, cost, _⟩
  exact ⟨suffix, atEnd, cost⟩

/-! ## Programs -/

theorem runs_program (tokens : List Token) (depth : Int) :
    Runs (.call .program) (.seeing tokens none depth)
      (program (.seeing tokens none depth)) :=
  halts_programWithin _ _ _ _ (covers_bound tokens none depth)

/-- Behind the tokens of a program there is nothing but the end of input. -/
theorem exists_program_eq
    (proper : ∀ token ∈ tokens, token.kind ≠ .endOfInput)
    (depth : Int) :
    ∃ program notices,
      Parse.program (.seeing tokens none depth) =
        ⟨.accepted program, .seeing [] none depth, notices⟩ ∧
      (unexpectedTokens notices).length ≤ tokens.length := by
  have lists := lists_program tokens depth
  generalize Parse.program (.seeing tokens none depth) = step at lists ⊢
  cases lists with
  | @accepted program rest notices holds =>
      obtain ⟨suffix, atEnd, cost⟩ := holds
      cases rest with
      | nil => exact ⟨program, notices, rfl, cost⟩
      | cons first rest =>
          exact absurd atEnd (proper first (suffix.subset List.mem_cons_self))
  | rejected never => exact never.elim

/-- The parsing of a text that tokenizes is a run. -/
theorem exists_run_program
    {text : String}
    (tokenizes : tokenize text = .ok (tokens ++ [Token.endOfInput])) :
    ∃ parser program after notices,
      Parser.ofFeed (Feed.ofText text) = .ok parser ∧ parser.diagnostics = [] ∧
      (∀ step, Runs (.call .program) parser.state step ↔
        step = ⟨.accepted program, after, notices⟩) ∧
      Parse.program parser.state = ⟨.accepted program, after, notices⟩ ∧
      after.current = Token.endOfInput ∧ after.depth = 0 ∧
      (diagnostics notices).length ≤ tokens.length := by
  have spells := (tokenize_eq_ok_iff text tokens).mp tokenizes
  have feed := (Feed.ofText_eq_ofTokens_iff text tokens).mpr spells
  have proper : ∀ token ∈ tokens, token.kind ≠ .endOfInput := by
    have proper := Feed.proper_ofText text
    rw [feed] at proper
    exact proper
  obtain ⟨program, notices, parsed, cost⟩ := exists_program_eq proper 0
  have runs := runs_program tokens 0
  rw [parsed] at runs
  rw [feed]
  refine ⟨_, program, _, notices, Parser.ofFeed_ofTokens tokens, rfl, ?_, parsed, rfl,
    rfl, ?_⟩
  · exact fun step => ⟨fun other => other.unique runs, fun same => same ▸ runs⟩
  · rw [diagnostics, List.length_map]
    exact cost

/-- A block that is not closed, in which an `else` stands behind a statement that
breaks off. -/
theorem exists_run_program_of_malformed :
    ∃ parser program after notices,
      Parser.ofFeed (Feed.ofText "while (x) \x7b x = ( else") = .ok parser ∧
      parser.diagnostics = [] ∧
      (∀ step, Runs (.call .program) parser.state step ↔
        step = ⟨.accepted program, after, notices⟩) ∧
      Parse.program parser.state = ⟨.accepted program, after, notices⟩ ∧
      after.current = Token.endOfInput ∧ after.depth = 0 ∧
      (diagnostics notices).length ≤ 9 :=
  @exists_run_program
    [⟨.whileWord, "while"⟩, ⟨.bracketOpen, "("⟩, ⟨.identifier, "x"⟩,
      ⟨.bracketClose, ")"⟩, ⟨.braceOpen, "\x7b"⟩, ⟨.identifier, "x"⟩, ⟨.assign, "="⟩,
      ⟨.bracketOpen, "("⟩, ⟨.elseWord, "else"⟩]
    "while (x) \x7b x = ( else" (by decide +kernel)

end WhileLang.Parse
