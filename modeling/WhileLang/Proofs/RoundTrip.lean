import WhileLang.Proofs.Neighbours
import WhileLang.Proofs.Rereading

/-!
Texts of programs, read again. Main statement: the text of a program is a program
exactly if no statement of it runs into its neighbours, and then it is the same one
but for tokens that its text does not show.
-/

namespace WhileLang

open Grammar Parse

variable {item : Stmt} {items : List Stmt} {after : List Token}

/-! ## Statements that end in an expression -/

theorem Stmt.endsInExpression_relabel (labels : Relabelling) (item : Stmt) :
    (item.relabel labels).endsInExpression = item.endsInExpression := by
  cases item <;> rfl

theorem Stmt.lists_eq_nil
    (open_ : item.endsInExpression = true) :
    item.lists = [] := by
  cases item <;> first | rfl | cases open_

theorem Stmt.Parsed.ends
    (parsed : item.Parsed)
    (open_ : item.endsInExpression = true) :
    ∃ consumed last, item.tokens = consumed ++ [last] ∧ EndsOperand last.kind := by
  have noLists : ∀ list ∈ item.lists, Stmt.Apart list := by
    rw [Stmt.lists_eq_nil open_]
    nofun
  have derivation : Statement true (item.tokens ++ []) [] (item.relabel .reread) :=
    parsed.derivation noLists nofun nofun nofun
  rw [List.append_nil] at derivation
  exact derivation.ends ((Stmt.endsInExpression_relabel _ _).trans open_)

theorem Stmt.Parsed.ahead_of_isBareNumber
    (parsed : item.Parsed)
    (number : item.isBareNumber = true) :
    ahead (item.tokens ++ after) = .integer := by
  cases parsed with
  | expression parsed =>
      cases parsed with
      | name _ _ => cases number
      | literal _ => rfl
      | operation _ _ _ _ => cases number
  | assign _ _ _ => cases number
  | print _ => cases number
  | ifThen _ _ => cases number
  | ifElse _ _ _ => cases number
  | whileDo _ _ => cases number

/-! ## Numbers -/

theorem Stmt.ParsedEach.apart
    (parsed : Stmt.ParsedEach items)
    (spaced : Spaced (Stmt.tokensEach items)) :
    Stmt.Apart items := by
  induction items with
  | nil => exact .nil
  | cons first others inductionHypothesis =>
      cases parsed with
      | cons firstParsed othersParsed =>
          have further := inductionHypothesis othersParsed spaced.right
          cases othersParsed with
          | nil => exact .singleton first
          | @cons second rest secondParsed _ =>
              refine List.isChain_cons_cons.mpr ⟨?_, further⟩
              rintro ⟨open_, number⟩
              -- The last token of the one statement meets the number of the other.
              obtain ⟨consumed, last, shape, ends⟩ := firstParsed.ends open_
              rw [Stmt.tokensEach, Stmt.tokensEach, shape, List.append_assoc]
                at spaced
              exact spaced.right.calm ends
                (secondParsed.ahead_of_isBareNumber number)

mutual

theorem Stmt.Parsed.lists_apart
    {item : Stmt}
    (spaced : Spaced item.tokens) :
    item.Parsed → ∀ list ∈ item.lists, Stmt.Apart list
  | .expression _ => nofun
  | .assign _ _ _ => nofun
  | .print _ => nofun
  | .ifThen _ first => by
      have inside := first.lists_apart spaced.tail.right
      exact inside
  | .ifElse _ first second => by
      have inside := first.lists_apart spaced.tail.right.left
      have behind := second.lists_apart spaced.tail.right.right.tail
      exact List.forall_mem_append.mpr ⟨inside, behind⟩
  | .whileDo _ body => by
      have inside := body.lists_apart spaced.tail.right
      exact inside

theorem Stmt.ParsedBlock.lists_apart
    {item : Stmt}
    (spaced : Spaced item.tokens) :
    item.ParsedBlock → ∀ list ∈ item.lists, Stmt.Apart list
  | .block items => by
      have inside := spaced.tail.left
      exact List.forall_mem_cons.mpr
        ⟨items.apart inside, items.lists_apart inside⟩

theorem Stmt.ParsedEach.lists_apart
    {items : List Stmt}
    (spaced : Spaced (Stmt.tokensEach items)) :
    Stmt.ParsedEach items → ∀ list ∈ Stmt.listsEach items, Stmt.Apart list
  | .nil => nofun
  | .cons item rest =>
      List.forall_mem_append.mpr
        ⟨item.lists_apart spaced.left, rest.lists_apart spaced.right⟩

end

/-! ## Names -/

/-- Behind a statement there is another one, or the end of input. -/
theorem Stmt.ParsedEach.begins
    (parsed : Stmt.ParsedEach items) :
    ahead (Stmt.tokensEach items) = .endOfInput ∨
      BeginsStatement (ahead (Stmt.tokensEach items)) := by
  cases parsed with
  | nil => exact .inl rfl
  | cons item _ => exact .inr item.begins

theorem Stmt.ParsedEach.ahead_ne
    {kind : Token.Kind}
    (parsed : Stmt.ParsedEach items)
    (notEnd : kind ≠ .endOfInput)
    (outside : ¬ BeginsStatement kind) :
    ahead (Stmt.tokensEach items) ≠ kind := by
  rcases parsed.begins with atEnd | begins
  · rw [atEnd]
    exact notEnd.symm
  · exact begins.ne outside

theorem Stmt.ParsedEach.quiet
    (parsed : Stmt.ParsedEach items) :
    Quiet false (ahead (Stmt.tokensEach items)) := by
  rcases parsed.begins with atEnd | begins
  · rw [atEnd]
    exact quiet_of_endsBlock rfl
  · exact begins.quiet

theorem Stmt.Parsed.complains_of_isBareName
    {depth : Int}
    (parsed : item.Parsed)
    (bare : item.isBareName = true)
    (noAssign : ahead after ≠ .assign) :
    (Parse.program (.seeing (item.tokens ++ after) none depth)).Complains := by
  cases parsed with
  | expression parsed =>
      cases parsed with
      | @name name kind _ =>
          have isToken : name.kind ≠ .endOfInput := by
            rw [kind]
            decide
          rw [Stmt.tokens, Expr.tokens, List.singleton_append]
          apply complains_program_first isToken
          rw [statement_assign kind Bool.false_ne_true.elim]
          exact complains_bind (complains_expect noAssign)
      | literal _ => cases bare
      | operation _ _ _ _ => cases bare
  | assign _ _ _ => cases bare
  | print _ => cases bare
  | ifThen _ _ => cases bare
  | ifElse _ _ _ => cases bare
  | whileDo _ _ => cases bare

/-- A name on its own is refused outside of all blocks. -/
theorem Stmt.ParsedEach.complains_of_isBareName
    {depth : Int}
    (parsed : Stmt.ParsedEach items)
    (apart : Stmt.Apart items)
    (further : ∀ list ∈ Stmt.listsEach items, Stmt.Apart list)
    (bare : ∃ item ∈ items, item.isBareName = true) :
    (Parse.program (.seeing (Stmt.tokensEach items) none depth)).Complains := by
  induction items with
  | nil =>
      obtain ⟨_, member, _⟩ := bare
      cases member
  | cons first others inductionHypothesis =>
      cases parsed with
      | cons firstParsed othersParsed =>
          rw [Stmt.tokensEach]
          by_cases firstBare : first.isBareName = true
          · exact firstParsed.complains_of_isBareName firstBare
              (othersParsed.ahead_ne (by decide) (by decide))
          · -- A statement before the first such name is read as it is, and what
            -- stands behind it has no part in it.
            obtain ⟨own, behind⟩ := List.forall_mem_append.mp further
            have calm : first.endsInExpression = true →
                ahead (Stmt.tokensEach others ++ []) ≠ .integer :=
              apart.calm othersParsed nofun
            rw [List.append_nil] at calm
            have derivation : Statement false
                (first.tokens ++ Stmt.tokensEach others) (Stmt.tokensEach others)
                (first.relabel .reread) :=
              firstParsed.derivation own (fun _ => Bool.not_eq_true _ ▸ firstBare)
                calm (othersParsed.ahead_ne (by decide) (by decide))
            have quiet := othersParsed.quiet
            refine complains_program_behind derivation
              (derivation.settled fun _ => quiet) ?_
            apply inductionHypothesis othersParsed apart.of_cons behind
            obtain ⟨item, member, itemBare⟩ := bare
            rcases List.mem_cons.mp member with rfl | later
            · exact absurd itemBare firstBare
            · exact ⟨item, later, itemBare⟩

/-! ## Programs -/

/-- No statement of the program runs into its neighbours: none is a name on its own,
and none that ends in an expression has a number on its own behind it, be it in a
block. -/
structure Program.Separable (program : Program) : Prop where
  noName : ∀ item ∈ program, item.isBareName = false
  noNumber : ∀ list ∈ program.lists, Stmt.Apart list

theorem Program.parsed_of_ofText
    {text : String} {program : Program}
    (accepted : Program.ofText text = .ok program) :
    Stmt.ParsedEach program := by
  obtain ⟨tokens, spells, derivation⟩ := Program.exists_derives_of_ofText accepted
  exact Statements.parsed spells.spelled derivation

/-- The text of a program whose statements can be told apart is that program, with
the labels that its text gives it. -/
theorem Program.ofText_render_of_separable
    {program : Program}
    (parsed : Stmt.ParsedEach program)
    (separable : program.Separable) :
    Program.ofText program.render = .ok (Stmt.relabelEach .reread program) := by
  obtain ⟨apart, further⟩ := List.forall_mem_cons.mp separable.noNumber
  rw [Program.ofText_eq_ok_iff_of_spells (Program.spells_render parsed)]
  have derivation :
      Statements false (Stmt.tokensEach program ++ []) []
        (Stmt.relabelEach .reread program) :=
    parsed.derivations apart further (fun _ => separable.noName) nofun nofun
  rw [List.append_nil] at derivation
  exact derivation

/-- If the text of a program is one, its statements can be told apart. -/
theorem Program.separable_of_ofText_render
    {program again : Program}
    (parsed : Stmt.ParsedEach program)
    (accepted : Program.ofText program.render = .ok again) :
    program.Separable := by
  rw [Program.ofText_eq_ok_iff_of_spells (Program.spells_render parsed)]
    at accepted
  have spaced : Spaced (Stmt.tokensEach program) := Statements.spaced .nil accepted
  have apart := parsed.apart spaced
  have further := parsed.lists_apart spaced
  refine ⟨fun item member => ?_, List.forall_mem_cons.mpr ⟨apart, further⟩⟩
  rw [← Bool.not_eq_true]
  intro bare
  have complains :
      (Parse.program (.seeing (Stmt.tokensEach program) none 0)).Complains :=
    parsed.complains_of_isBareName apart further ⟨item, member, bare⟩
  rw [Step.Complains, accepted.report_program] at complains
  exact complains rfl

/-- The labels that a text does not show, taken away. -/
def Relabelling.blank : Relabelling where
  literal token _ := ⟨token.kind, ""⟩
  expression _ _ := Token.endOfInput

/-- The text of a program that was read is a program exactly if its statements can be
told apart. Then it differs from the first one in the tokens of statements that are
expressions and in the lexemes of literals alone, has the same text, and does the
same. -/
theorem Program.ofText_render
    {text : String} {program : Program}
    (accepted : Program.ofText text = .ok program) :
    ((∃ again, Program.ofText program.render = .ok again) ↔
      (∀ item ∈ program, item.isBareName = false) ∧
        ∀ list ∈ program.lists, list.IsChain fun item next =>
          ¬ (item.endsInExpression = true ∧ next.isBareNumber = true)) ∧
      ∀ again, Program.ofText program.render = .ok again →
        Stmt.relabelEach .blank again = Stmt.relabelEach .blank program ∧
        again.render = program.render ∧
        ∀ limit machine,
          again.exec limit machine = program.exec limit machine := by
  have parsed := Program.parsed_of_ofText accepted
  constructor
  · constructor
    · rintro ⟨again, read⟩
      have separable := Program.separable_of_ofText_render parsed read
      exact ⟨separable.noName, separable.noNumber⟩
    · rintro ⟨noName, noNumber⟩
      exact ⟨_, Program.ofText_render_of_separable parsed ⟨noName, noNumber⟩⟩
  · intro again read
    have separable := Program.separable_of_ofText_render parsed read
    have same := Program.ofText_render_of_separable parsed separable
    rw [read, Except.ok.injEq] at same
    subst same
    refine ⟨?_, ?_, ?_⟩
    · exact Stmt.relabelEach_relabelEach ⟨fun _ _ => rfl, fun _ _ => rfl⟩ program
    · exact Program.render_relabelEach _ program
    · exact fun limit machine => Program.exec_relabelEach _ limit program machine

/-- A number in brackets is written without them, and joins the expression before. -/
theorem Program.ofText_render_number :
    ¬ ∃ again,
      Program.ofText
        (Program.render
          [.assign ⟨.identifier, "x"⟩ ⟨⟨.identifier, "x"⟩, "x"⟩
              (.literal ⟨.integer, "1"⟩ 1),
            .expression ⟨.bracketOpen, "("⟩ (.literal ⟨.integer, "2"⟩ 2)]) =
        .ok again :=
  (@Program.ofText_render "x = 1 (2)" _ (by decide +kernel)).1.not.mpr (by decide)

end WhileLang
