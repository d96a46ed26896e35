import WhileLang.Proofs.Moves
import WhileLang.Proofs.Reading
import WhileLang.Proofs.Tree

/-!
The trees that a parser builds, also where it goes on behind unexpected tokens. Main
statement: whatever a parser of a text is asked for, the trees it answers with are
made as derivations make them, and name nothing but identifiers of the text.
-/

namespace WhileLang

/-! ## Names -/

mutual

/-- The names that occur in a statement. -/
def Stmt.names : Stmt → List String
  | .expression _ value => value.names
  | .assign _ target value => target.name :: value.names
  | .block _ items => Stmt.namesEach items
  | .ifThen _ condition first => condition.names ++ first.names
  | .ifElse _ condition first second =>
      condition.names ++ first.names ++ second.names
  | .whileDo _ condition body => condition.names ++ body.names
  | .print _ values => values.flatMap Expr.names
  | .bare value => value.names
  | .sequence items => Stmt.namesEach items
  | .foreign _ => []

/-- The names that occur in the statements of a list. -/
def Stmt.namesEach : List Stmt → List String
  | [] => []
  | item :: rest => item.names ++ Stmt.namesEach rest

end

variable {source : List Token} {names : List String}

/-- Names that are identifiers among some tokens. -/
def Named (source : List Token) (names : List String) : Prop :=
  ∀ name ∈ names, Token.mk .identifier name ∈ source

namespace Named

theorem nil : Named source [] := nofun

theorem append_iff {others : List String} :
    Named source (names ++ others) ↔ Named source names ∧ Named source others :=
  List.forall_mem_append

theorem cons_lexeme
    {token : Token}
    (member : token ∈ source)
    (identifier : token.kind = .identifier)
    (named : Named source names) :
    Named source (token.lexeme :: names) := by
  have same : Token.mk .identifier token.lexeme = token := by
    rw [← identifier]
  exact List.forall_mem_cons.mpr ⟨same ▸ member, named⟩

end Named

/-- An expression that is made as a derivation makes it, from identifiers among
some tokens. -/
structure Expr.Built (source : List Token) (value : Expr) : Prop where
  parsed : value.Parsed
  named : Named source value.names

structure Stmt.Built (source : List Token) (item : Stmt) : Prop where
  parsed : item.Parsed
  named : Named source item.names

structure Stmt.BuiltBlock (source : List Token) (item : Stmt) : Prop where
  parsed : item.ParsedBlock
  named : Named source item.names

structure Stmt.BuiltEach (source : List Token) (items : List Stmt) : Prop where
  parsed : Stmt.ParsedEach items
  named : Named source (Stmt.namesEach items)

namespace Stmt.BuiltEach

theorem nil : Stmt.BuiltEach source [] :=
  ⟨.nil, .nil⟩

theorem cons
    {item : Stmt} {rest : List Stmt}
    (first : item.Built source)
    (others : Stmt.BuiltEach source rest) :
    Stmt.BuiltEach source (item :: rest) :=
  ⟨.cons first.parsed others.parsed, Named.append_iff.mpr ⟨first.named, others.named⟩⟩

end Stmt.BuiltEach

namespace Parse

variable {α β : Type} {state after : State}

/-! ## Where the tokens come from -/

/-- A parser that has nothing before it but some tokens and the end of input. -/
structure State.Within (source : List Token) (state : State) : Prop where
  current : state.current = Token.endOfInput ∨ state.current ∈ source
  next : state.next = Token.endOfInput ∨ state.next ∈ source
  pending : state.pending.tokens ⊆ source

namespace State.Within

theorem current_mem
    {kind : Token.Kind}
    (within : state.Within source)
    (isKind : state.current.kind = kind)
    (continues : kind ≠ .endOfInput) :
    state.current ∈ source := by
  rcases within.current with atEnd | member
  · rw [atEnd] at isKind
    exact absurd isKind.symm continues
  · exact member

theorem next_mem
    (within : state.Within source)
    (continues : state.next.kind ≠ .endOfInput) :
    state.next ∈ source := by
  rcases within.next with atEnd | member
  · rw [atEnd] at continues
    exact absurd rfl continues
  · exact member

theorem of_moves
    {notices : List Notice}
    (within : state.Within source)
    (moves : Moves state notices after) :
    after.Within source := by
  induction moves with
  | refl _ => exact within
  | trans _ _ earlierHypothesis laterHypothesis =>
      exact laterHypothesis (earlierHypothesis within)
  | pull pulled =>
      rcases Feed.pull_eq_ok pulled with ⟨shape, _⟩ | ⟨rfl, rfl, _, _⟩
      · have pending := within.pending
        rw [shape, List.cons_subset] at pending
        exact ⟨within.next, .inr pending.1, pending.2⟩
      · exact ⟨within.next, .inl rfl, within.pending⟩
  | halt _ => exact ⟨within.next, within.next, within.pending⟩
  | complain _ => exact within
  | finish _ _ => exact within
  | nest _ _ => exact ⟨within.current, within.next, within.pending⟩

end State.Within

/-! ## Steps that build -/

/-- A step that stays within some tokens, and what it accepts is good. -/
structure Builds
    (source : List Token) (good : α → Prop) (step : Step α) : Prop where
  within : step.state.Within source
  built : ∀ value, step.verdict = .accepted value → good value

namespace Builds

variable {good : β → Prop}

theorem of_moved
    {step : Step β}
    (within : state.Within source)
    (moved : Moved state step)
    (built : ∀ value, step.verdict = .accepted value → good value) :
    Builds source good step :=
  ⟨within.of_moves moved, built⟩

theorem of_orderly
    {parser : Parse β}
    (within : state.Within source)
    (orderly : Orderly parser) :
    Builds source (fun _ => True) (parser state) :=
  .of_moved within (orderly state) fun _ _ => trivial

theorem pure
    {value : β}
    (within : state.Within source)
    (built : good value) :
    Builds source good ((Pure.pure value : Parse β) state) := by
  refine ⟨within, fun accepted same => ?_⟩
  cases same
  exact built

theorem reject (within : state.Within source) :
    Builds source good ((Parse.reject : Parse β) state) :=
  ⟨within, nofun⟩

theorem stop
    (within : state.Within source)
    (breakage : Breakage) :
    Builds source good ((Parse.stop breakage : Parse β) state) :=
  ⟨within, nofun⟩

theorem refuse
    (within : state.Within source)
    (token : Token) :
    Builds source good ((Parse.refuse token : Parse β) state) :=
  ⟨within, nofun⟩

theorem bind
    {between : α → Prop} {first : Parse α} {second : α → Parse β}
    (builds : Builds source between (first state))
    (further :
      ∀ value after, after.Within source → between value →
        Builds source good (second value after)) :
    Builds source good ((first >>= second) state) := by
  rcases start : first state with ⟨verdict, after, notices⟩
  rw [start] at builds
  cases verdict with
  | accepted value =>
      rw [bind_accepted start]
      have last := further value after builds.within (builds.built value rfl)
      exact ⟨last.within, last.built⟩
  | rejected =>
      rw [bind_rejected start]
      exact ⟨builds.within, nofun⟩
  | broken breakage =>
      rw [bind_broken start]
      exact ⟨builds.within, nofun⟩

/-- What a parser does that yields nothing does not count. -/
theorem bind_orderly
    {first : Parse α} {second : α → Parse β}
    (within : state.Within source)
    (orderly : Orderly first)
    (further :
      ∀ value after, after.Within source →
        Builds source good (second value after)) :
    Builds source good ((first >>= second) state) :=
  (of_orderly within orderly).bind fun value after within _ =>
    further value after within

theorem map
    {between : α → Prop} {change : α → β} {parser : Parse α}
    (builds : Builds source between (parser state))
    (changed : ∀ value, between value → good (change value)) :
    Builds source good ((change <$> parser) state) := by
  rw [map_eq_bind]
  exact builds.bind fun value _ within built => pure within (changed value built)

theorem attempt
    {parser : Parse β}
    (builds : Builds source good (parser state)) :
    Builds source (fun value? => ∀ value ∈ value?, good value)
      (Parse.attempt parser state) := by
  rcases start : parser state with ⟨verdict, after, notices⟩
  rw [start] at builds
  rw [Parse.attempt, start]
  cases verdict with
  | accepted value =>
      refine ⟨builds.within, fun value? same => ?_⟩
      cases same
      intro inner member
      cases member
      exact builds.built value rfl
  | rejected =>
      refine ⟨builds.within, fun value? same => ?_⟩
      cases same
      intro inner member
      cases member
  | broken breakage =>
      refine ⟨builds.within, fun value? same => ?_⟩
      cases same

end Builds

/-- A parser that builds wherever it starts within some tokens. -/
def Builder (source : List Token) (good : α → Prop) (parser : Parse α) : Prop :=
  ∀ state, state.Within source → Builds source good (parser state)

section

variable (spelled : ∀ token ∈ source, token.Spelled)

include spelled

/-! ## Expressions -/

theorem builds_literal
    (within : state.Within source)
    (integer : state.current.kind = .integer) :
    Builds source (Expr.Built source) (literal state.current state) := by
  have member := within.current_mem integer (by decide)
  unfold literal
  cases reading : Numeral.readWord state.current.lexeme with
  | ok value =>
      have literal :=
        Token.literal_of_readWord (spelled _ member) integer reading
      exact .pure within ⟨.literal literal, .nil⟩
  | error fault => exact .refuse within _

theorem builder_operandWithin_succ
    {limit : Nat}
    (expression : Builder source (Expr.Built source) (expressionWithin limit 0)) :
    Builder source (Expr.Built source) (operandWithin (limit + 1)) := by
  intro state within
  rw [operandWithin_succ]
  split
  · rename_i identifier
    have member := within.current_mem identifier (by decide)
    have parsed := Expr.Parsed.name identifier (spelled _ member)
    exact .pure within ⟨parsed, .cons_lexeme member identifier .nil⟩
  · rename_i integer
    exact builds_literal spelled within integer
  · apply Builds.bind_orderly within orderly_advance
    intro _ middle within
    apply (expression middle within).bind
    intro inner after within built
    apply Builds.bind_orderly within (orderly_expect .bracketClose)
    intro _ last within
    exact .pure within built
  · exact .refuse within _

theorem builder_operationsWithin_succ
    {limit : Nat} {precedence : Int} {left : Expr}
    (expression :
      ∀ precedence,
        Builder source (Expr.Built source) (expressionWithin limit precedence))
    (operations :
      ∀ left, left.Built source →
        Builder source (Expr.Built source) (operationsWithin limit precedence left))
    (leftBuilt : left.Built source) :
    Builder source (Expr.Built source)
      (operationsWithin (limit + 1) precedence left) := by
  intro state within
  rw [operationsWithin, bind_next]
  split
  · apply Builds.bind_orderly within orderly_advance
    intro _ middle middleWithin
    apply Builds.bind_orderly middleWithin orderly_advance
    intro _ start startWithin
    apply (expression _ start startWithin).bind
    intro right after afterWithin rightBuilt
    cases signed : Operator.ofKind? state.next.kind with
    -- A sign that is no operator breaks off, and nothing is built.
    | none => exact .stop afterWithin _
    | some operator =>
        have member : state.next ∈ source := by
          apply within.next_mem
          intro atEnd
          rw [atEnd] at signed
          cases signed
        have parsed :=
          Expr.Parsed.operation signed (spelled _ member) leftBuilt.parsed
            rightBuilt.parsed
        have named := Named.append_iff.mpr ⟨leftBuilt.named, rightBuilt.named⟩
        exact operations _ ⟨parsed, named⟩ after afterWithin
  · exact .pure within leftBuilt

theorem builder_expressionWithin (limit : Nat) :
    (∀ precedence,
      Builder source (Expr.Built source) (expressionWithin limit precedence)) ∧
    Builder source (Expr.Built source) (operandWithin limit) ∧
    ∀ precedence left, left.Built source →
      Builder source (Expr.Built source)
        (operationsWithin limit precedence left) := by
  induction limit with
  | zero =>
      exact ⟨fun _ _ within => .reject within, fun _ within => .reject within,
        fun _ _ _ _ within => .reject within⟩
  | succ limit inductionHypothesis =>
      obtain ⟨expression, operand, operations⟩ := inductionHypothesis
      refine ⟨?_, builder_operandWithin_succ spelled (expression 0), ?_⟩
      · intro precedence state within
        rw [expressionWithin]
        apply (operand state within).bind
        intro value after within built
        rw [bind_next]
        split
        · exact .refuse within _
        · exact operations precedence value built after within
      · intro precedence left built
        exact builder_operationsWithin_succ spelled expression
          (operations precedence) built

theorem builder_conditionWithin (limit : Nat) :
    Builder source (Expr.Built source) (conditionWithin limit) := by
  intro state within
  rw [conditionWithin]
  apply Builds.bind_orderly within (orderly_expect .bracketOpen)
  intro _ opening within
  apply Builds.bind_orderly within orderly_advance
  intro _ start within
  apply ((builder_expressionWithin spelled limit).1 0 start within).bind
  intro truth after within built
  apply Builds.bind_orderly within (orderly_expect .bracketClose)
  intro _ closing within
  apply Builds.bind_orderly within orderly_advance
  intro _ last within
  exact .pure within built

theorem builder_expressionsWithin (limit : Nat) :
    Builder source (fun values => values ≠ [] ∧ ∀ value ∈ values, value.Built source)
      (expressionsWithin limit) := by
  induction limit with
  | zero => exact fun _ within => .reject within
  | succ limit inductionHypothesis =>
      intro state within
      rw [expressionsWithin]
      apply Builds.bind_orderly within orderly_advance
      intro _ start within
      apply ((builder_expressionWithin spelled limit).1 0 start within).bind
      intro value after within built
      rw [bind_next]
      split
      · apply Builds.bind_orderly within orderly_advance
        intro _ comma within
        apply (inductionHypothesis comma within).map
        intro others othersBuilt
        exact ⟨List.cons_ne_nil _ _, List.forall_mem_cons.mpr ⟨built, othersBuilt.2⟩⟩
      · exact .pure within ⟨List.cons_ne_nil _ _, by simpa using built⟩

/-! ## Statements -/

theorem builder_expressionStatementWithin (limit : Nat) :
    Builder source (Stmt.Built source) (expressionStatementWithin limit) := by
  intro state within
  rw [expressionStatementWithin, bind_current]
  apply ((builder_expressionWithin spelled limit).1 0 state within).bind
  intro value after within built
  apply Builds.bind_orderly within orderly_advance
  intro _ last within
  exact .pure within ⟨.expression built.parsed, built.named⟩

theorem builds_assignmentWithin
    (limit : Nat)
    (within : state.Within source)
    (identifier : state.current.kind = .identifier) :
    Builds source (Stmt.Built source) (assignmentWithin limit state) := by
  have member := within.current_mem identifier (by decide)
  rw [assignmentWithin, bind_current]
  apply Builds.bind_orderly within (orderly_expect .assign)
  intro _ sign within
  apply Builds.bind_orderly within orderly_advance
  intro _ start within
  apply ((builder_expressionWithin spelled limit).1 0 start within).bind
  intro value after within built
  apply Builds.bind_orderly within orderly_advance
  intro _ last within
  have parsed :=
    Stmt.Parsed.assign identifier (spelled _ member) built.parsed
  exact .pure within ⟨parsed, .cons_lexeme member identifier built.named⟩

theorem builds_printWithin
    (limit : Nat)
    (within : state.Within source)
    (word : state.current.kind = .printWord) :
    Builds source (Stmt.Built source) (printWithin limit state) := by
  have member := within.current_mem word (by decide)
  have fixed := Token.eq_fixed (spelled _ member) word rfl
  rw [printWithin, bind_current, fixed]
  apply (builder_expressionsWithin spelled limit state within).bind
  intro values after within built
  apply Builds.bind_orderly within orderly_advance
  intro _ last within
  obtain ⟨first, rest, rfl⟩ := List.exists_cons_of_ne_nil built.1
  refine .pure within ⟨.print fun value member => (built.2 value member).parsed, ?_⟩
  intro name occurs
  obtain ⟨value, member, inside⟩ := List.mem_flatMap.mp occurs
  exact (built.2 value member).named name inside

theorem builder_statementWithin_succ
    {limit : Nat} {inBlock : Bool}
    (block : Builder source (Stmt.BuiltBlock source) (blockWithin limit)) :
    Builder source (Stmt.Built source) (statementWithin (limit + 1) inBlock) := by
  intro state within
  rw [statementWithin_succ]
  split
  · rename_i identifier
    split
    · exact builder_expressionStatementWithin spelled limit state within
    · exact builds_assignmentWithin spelled limit within identifier
  · rename_i word
    have member := within.current_mem word (by decide)
    rw [Token.eq_fixed (spelled _ member) word rfl]
    apply (builder_conditionWithin spelled limit state within).bind
    intro truth start within truthBuilt
    apply (block start within).bind
    intro first after within firstBuilt
    have named := Named.append_iff.mpr ⟨truthBuilt.named, firstBuilt.named⟩
    rw [bind_current]
    split
    · apply Builds.bind_orderly within orderly_advance
      intro _ other within
      apply (block other within).bind
      intro second last within secondBuilt
      have parsed :=
        Stmt.Parsed.ifElse truthBuilt.parsed firstBuilt.parsed secondBuilt.parsed
      exact .pure within ⟨parsed, Named.append_iff.mpr ⟨named, secondBuilt.named⟩⟩
    · exact .pure within ⟨.ifThen truthBuilt.parsed firstBuilt.parsed, named⟩
  · rename_i word
    have member := within.current_mem word (by decide)
    rw [Token.eq_fixed (spelled _ member) word rfl]
    apply (builder_conditionWithin spelled limit state within).bind
    intro truth start within truthBuilt
    apply (block start within).bind
    intro body last within bodyBuilt
    have named := Named.append_iff.mpr ⟨truthBuilt.named, bodyBuilt.named⟩
    exact .pure within ⟨.whileDo truthBuilt.parsed bodyBuilt.parsed, named⟩
  · rename_i word
    exact builds_printWithin spelled limit within word
  · exact builder_expressionStatementWithin spelled limit state within

theorem builder_blockWithin_succ
    {limit : Nat}
    (items : Builder source (Stmt.BuiltEach source) (itemsWithin limit)) :
    Builder source (Stmt.BuiltBlock source) (blockWithin (limit + 1)) := by
  intro state within
  rw [blockWithin, bind_current]
  split
  · rename_i brace
    have member := within.current_mem brace (by decide)
    rw [Token.eq_fixed (spelled _ member) brace rfl]
    apply Builds.bind_orderly within orderly_advance
    intro _ opening within
    apply Builds.bind_orderly within Moved.enterBlock
    intro _ start within
    apply (items start within).bind
    intro inner after within built
    apply Builds.bind_orderly within orderly_closeBlock
    intro _ last within
    exact .pure within ⟨.block built.parsed, built.named⟩
  · exact .refuse within _

omit spelled in
/-- A statement that is rejected leaves nothing behind. -/
theorem builder_itemsWithin_succ
    {limit : Nat}
    (statement : Builder source (Stmt.Built source) (statementWithin limit true))
    (items : Builder source (Stmt.BuiltEach source) (itemsWithin limit)) :
    Builder source (Stmt.BuiltEach source) (itemsWithin (limit + 1)) := by
  intro state within
  rw [itemsWithin, bind_current]
  split
  · exact .pure within .nil
  · apply (statement state within).attempt.bind
    intro item? after within built
    cases item? with
    | some item =>
        apply (items after within).map
        exact fun rest others => .cons (built item rfl) others
    | none => exact Builds.bind_orderly within orderly_recover fun _ => items

theorem builder_statementWithin (limit : Nat) :
    (∀ inBlock, Builder source (Stmt.Built source) (statementWithin limit inBlock)) ∧
      Builder source (Stmt.BuiltBlock source) (blockWithin limit) ∧
        Builder source (Stmt.BuiltEach source) (itemsWithin limit) := by
  induction limit with
  | zero =>
      exact ⟨fun _ _ within => .reject within, fun _ within => .reject within,
        fun _ within => .reject within⟩
  | succ limit inductionHypothesis =>
      obtain ⟨statement, block, items⟩ := inductionHypothesis
      exact ⟨fun _ => builder_statementWithin_succ spelled block,
        builder_blockWithin_succ spelled items,
        builder_itemsWithin_succ (statement true) items⟩

theorem builder_programWithin (limit : Nat) :
    Builder source (Stmt.BuiltEach source) (programWithin limit) := by
  induction limit with
  | zero => exact fun _ within => .reject within
  | succ limit inductionHypothesis =>
      intro state within
      rw [programWithin, bind_current]
      split
      · exact .pure within .nil
      · apply ((builder_statementWithin spelled limit).1 false state within).attempt.bind
        intro item? after within built
        cases item? with
        | some item =>
            apply Builds.bind_orderly within (Moved.note_parsed item)
            intro _ last within
            apply (inductionHypothesis last within).map
            exact fun rest others => .cons (built item rfl) others
        | none =>
            exact Builds.bind_orderly within orderly_advance fun _ =>
              inductionHypothesis

/-! ## Without a limit -/

omit spelled in
theorem builder_unlimited
    {good : α → Prop} {parser : Nat → Parse α}
    (builder : ∀ limit, Builder source good (parser limit)) :
    Builder source good (unlimited parser) :=
  fun state within => builder state.bound state within

theorem builder_program : Builder source (Stmt.BuiltEach source) program :=
  builder_unlimited (builder_programWithin spelled)

end

/-- An answer whose tree, if it has one, is made as a derivation makes it, from
identifiers among some tokens. -/
def Answer.Built (source : List Token) : Answer → Prop
  | .statement statement? =>
      ∀ item ∈ statement?, item.Built source ∨ item.BuiltBlock source
  | .expression expression? => ∀ value ∈ expression?, value.Built source
  | .program items => Stmt.BuiltEach source items
  | _ => True

theorem builder_run
    (spelled : ∀ token ∈ source, token.Spelled)
    (operation : Operation) :
    Builder source (Answer.Built source) operation.run := by
  intro state within
  cases operation with
  | advance =>
      exact .bind_orderly within orderly_advance fun _ _ within =>
        .pure within trivial
  | statement inBlock =>
      have builder : Builder source (Stmt.Built source) (statement inBlock) :=
        builder_unlimited fun limit => (builder_statementWithin spelled limit).1 inBlock
      apply (builder state within).attempt.bind
      intro item? after within built
      exact .pure within fun item member => .inl (built item member)
  | expression above =>
      have builder : Builder source (Expr.Built source) (expression above) :=
        builder_unlimited fun limit => (builder_expressionWithin spelled limit).1 above
      apply (builder state within).attempt.bind
      exact fun value? after within built => .pure within built
  | condition =>
      have builder : Builder source (Expr.Built source) condition :=
        builder_unlimited (builder_conditionWithin spelled)
      apply (builder state within).attempt.bind
      exact fun value? after within built => .pure within built
  | block =>
      have builder : Builder source (Stmt.BuiltBlock source) block :=
        builder_unlimited fun limit => (builder_statementWithin spelled limit).2.1
      apply (builder state within).attempt.bind
      intro item? after within built
      exact .pure within fun item member => .inr (built item member)
  | program =>
      apply (builder_program spelled state within).bind
      exact fun items after within built => .pure within built
  | expect kind =>
      apply (Builds.of_orderly within (orderly_expect kind)).attempt.bind
      exact fun met after within _ => .pure within trivial
  | precedence =>
      rw [Operation.run, bind_current]
      exact .pure within trivial

end Parse

/-! ## Parsers and readings of a text -/

open Parse

theorem Parser.within_unopened (feed : Feed) :
    (Parser.unopened feed).Within feed.tokens :=
  ⟨.inl rfl, .inl rfl, List.Subset.refl _⟩

/-- A parser that some operations have led to, after it was opened on a feed. -/
inductive Parser.Reachable (feed : Feed) : Parser → Prop
  | opened {parser : Parser} :
      Parser.ofFeed feed = .ok parser →
      Reachable feed parser
  | performed {parser : Parser} (operation : Operation) :
      Reachable feed parser →
      Reachable feed (parser.perform operation).2

theorem Parser.Reachable.within
    {feed : Feed} {parser : Parser}
    (spelled : ∀ token ∈ feed.tokens, token.Spelled)
    (reachable : Parser.Reachable feed parser) :
    parser.state.Within feed.tokens := by
  induction reachable with
  | opened opens =>
      have moved := orderly_opening (Parser.unopened feed)
      have within := (Parser.within_unopened feed).of_moves moved
      unfold Parser.ofFeed at opens
      rcases start : Parser.opening (Parser.unopened feed) with
        ⟨verdict, after, notices⟩
      rw [start] at opens within
      cases verdict with
      | accepted _ =>
          cases opens
          exact within
      | rejected =>
          cases opens
          exact within
      | broken _ => cases opens
  | performed operation _ inductionHypothesis =>
      exact (builder_run spelled operation _ inductionHypothesis).within

/-- Whatever a parser of a text is asked for, and whatever it was asked for before,
its answer is built from the tokens of the text. -/
theorem Parser.Reachable.built
    {text : String} {parser : Parser}
    (reachable : Parser.Reachable (Feed.ofText text) parser)
    {operation : Operation} {answer : Answer}
    (answered : (parser.perform operation).1 = .accepted answer) :
    answer.Built (Feed.ofText text).tokens := by
  have spelled := Feed.spelled_ofText text
  have within := reachable.within spelled
  exact (builder_run spelled operation parser.state within).built answer answered

/-- The statements that are read of a text are built from its tokens, whether or not
there are unexpected tokens among them. -/
theorem Reading.built_of_statements
    {text : String} {program : Program}
    (read : (Reading.ofText text).statements = .ok program) :
    Stmt.BuiltEach (Feed.ofText text).tokens program := by
  have spelled := Feed.spelled_ofText text
  have opened :=
    Builds.of_orderly (Parser.within_unopened (Feed.ofText text)) orderly_opening
  have builds :
      Builds (Feed.ofText text).tokens (Stmt.BuiltEach (Feed.ofText text).tokens)
        (Reading.step (Feed.ofText text)) :=
    opened.bind fun _ state within _ => builder_program spelled state within
  rw [Reading.ofText, Reading.ofFeed_eq] at read
  rcases start : Reading.step (Feed.ofText text) with ⟨verdict, after, notices⟩
  rw [start] at read builds
  cases verdict with
  | accepted statements =>
      cases read
      exact builds.built program rfl
  | rejected =>
      cases read
      exact .nil
  | broken _ => cases read

end WhileLang
