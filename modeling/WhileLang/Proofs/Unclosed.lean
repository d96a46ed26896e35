import WhileLang.Proofs.Reading
import WhileLang.Proofs.Stratified

/-!
Blocks that are open at the end of input. Main statement: a program that ends with
closing braces is read as the same program without some of them, with one complaint,
which is about the end of input.
-/

namespace WhileLang.Grammar

open Parse

variable {level : Nat} {depth : Int} {inBlock : Bool} {before after other : List Token}
variable {value : Expr} {item : Stmt}

/-! ## Other tokens behind a piece -/

/-- Tokens before which every piece of a program ends that ends before some others. -/
structure Alike (after other : List Token) : Prop where
  calm : ahead after ≠ .integer → ahead other ≠ .integer
  elseWord : ahead other = .elseWord ↔ ahead after = .elseWord

theorem alike_cons (first : Token) (rest others : List Token) :
    Alike (first :: rest) (first :: others) :=
  ⟨id, Iff.rfl⟩

theorem Alike.append (alike : Alike after other) (taken : List Token) :
    Alike (taken ++ after) (taken ++ other) := by
  cases taken with
  | nil => exact alike
  | cons first rest => exact alike_cons first _ _

/-- A piece of a program takes the same tokens before all tokens that are alike. -/
def Movable (piece : List Token → List Token → Prop) (before after : List Token) :
    Prop :=
  ∃ taken, before = taken ++ after ∧
    ∀ other, Alike after other → piece (taken ++ other) other

theorem Expression.movable (derivation : Expression level before after value) :
    Movable (Expression level · · value) before after := by
  obtain ⟨taken, rfl, stratified⟩ := derivation.stratified
  exact ⟨taken, rfl, fun other alike =>
    stratified.expression (alike.calm derivation.calm)⟩

theorem Condition.movable (derivation : Condition before after value) :
    Movable (Condition · · value) before after := by
  cases derivation with
  | @brackets opening closing _ _ _ opens inner closes =>
      obtain ⟨taken, rfl, moved⟩ := inner.movable
      refine ⟨opening :: taken ++ [closing], by simp, fun other _ => ?_⟩
      have shape :
          opening :: taken ++ [closing] ++ other =
            opening :: (taken ++ closing :: other) := by
        simp
      rw [shape]
      exact .brackets opens (moved _ (alike_cons closing after other)) closes

theorem Values.movable
    {values : List Expr}
    (derivation : Values before after values) :
    Movable (Values · · values) before after := by
  induction derivation with
  | last value =>
      obtain ⟨taken, rfl, moved⟩ := value.movable
      exact ⟨taken, rfl, fun other alike => .last (moved other alike)⟩
  | @more comma _ _ after _ _ value isComma _ inductionHypothesis =>
      obtain ⟨taken, rfl, moved⟩ := value.movable
      obtain ⟨more, rfl, movedBehind⟩ := inductionHypothesis
      refine ⟨taken ++ comma :: more, by simp, fun other alike => ?_⟩
      have shape :
          taken ++ comma :: more ++ other = taken ++ comma :: (more ++ other) := by
        simp
      rw [shape]
      exact .more (moved _ (alike_cons comma _ _)) isComma (movedBehind other alike)

mutual

theorem Statement.movable
    {inBlock : Bool} {before after : List Token} {item : Stmt} :
    Statement inBlock before after item →
    Movable (Statement inBlock · · item) before after
  | @Statement.expression _ first before after _ value outside => by
      obtain ⟨taken, shape, moved⟩ := value.movable
      have shorter := value.suffix.length_le
      obtain _ | ⟨start, taken⟩ := taken
      · rw [List.nil_append] at shape
        rw [← shape] at shorter
        exact absurd shorter (by simp)
      cases shape
      exact ⟨first :: taken, rfl, fun other alike =>
        .expression (moved other alike) outside⟩
  | @Statement.assign _ name sign _ _ _ isName isSign value => by
      obtain ⟨taken, rfl, moved⟩ := value.movable
      exact ⟨name :: sign :: taken, rfl, fun other alike =>
        .assign isName isSign (moved other alike)⟩
  | @Statement.print _ word _ _ _ isPrint values => by
      obtain ⟨taken, rfl, moved⟩ := values.movable
      exact ⟨word :: taken, rfl, fun other alike =>
        .print isPrint (moved other alike)⟩
  | @Statement.ifThen _ word _ _ _ _ _ isIf condition first noElse => by
      obtain ⟨taken, rfl, moved⟩ := condition.movable
      obtain ⟨block, rfl, movedBlock⟩ := first.movable
      refine ⟨word :: taken ++ block, by simp, fun other alike => ?_⟩
      rw [List.append_assoc]
      exact .ifThen isIf (moved _ (alike.append block)) (movedBlock other alike)
        (mt alike.elseWord.mp noElse)
  | @Statement.ifElse _ word following _ _ _ _ _ _ _ isIf condition first isElse
      second => by
      obtain ⟨taken, rfl, moved⟩ := condition.movable
      obtain ⟨block, rfl, movedBlock⟩ := first.movable
      obtain ⟨more, rfl, movedMore⟩ := second.movable
      refine ⟨word :: taken ++ (block ++ following :: more), by simp,
        fun other alike => ?_⟩
      have behind := alike_cons following (more ++ after) (more ++ other)
      have shape :
          word :: taken ++ (block ++ following :: more) ++ other =
            word :: (taken ++ (block ++ following :: (more ++ other))) := by
        simp
      rw [shape]
      exact .ifElse isIf (moved _ (behind.append block)) (movedBlock _ behind) isElse
        (movedMore other alike)
  | @Statement.whileDo _ word _ _ _ _ _ isWhile condition body => by
      obtain ⟨taken, rfl, moved⟩ := condition.movable
      obtain ⟨block, rfl, movedBlock⟩ := body.movable
      refine ⟨word :: taken ++ block, by simp, fun other alike => ?_⟩
      rw [List.append_assoc]
      exact .whileDo isWhile (moved _ (alike.append block)) (movedBlock other alike)

theorem Block.movable
    {before after : List Token} {item : Stmt} :
    Block before after item → Movable (Block · · item) before after
  | @Block.closed opening closing _ _ _ opens items closes => by
      obtain ⟨taken, rfl, moved⟩ := items.movable
      refine ⟨opening :: taken ++ [closing], by simp, fun other _ => ?_⟩
      have shape :
          opening :: taken ++ [closing] ++ other =
            opening :: (taken ++ closing :: other) := by
        simp
      rw [shape]
      exact .closed opens (moved _ (alike_cons closing after other)) closes
  | @Block.left opening _ _ _ opens items elseAhead => by
      obtain ⟨taken, rfl, moved⟩ := items.movable
      exact ⟨opening :: taken, rfl, fun other alike =>
        .left opens (moved other alike) (alike.elseWord.mpr elseAhead)⟩

theorem Statements.movable
    {inBlock : Bool} {before after : List Token} {items : List Stmt} :
    Statements inBlock before after items →
    Movable (Statements inBlock · · items) before after
  | .nil => ⟨[], rfl, fun _ _ => .nil⟩
  | .cons item items => by
      obtain ⟨taken, rfl, moved⟩ := item.movable
      obtain ⟨more, rfl, movedMore⟩ := items.movable
      refine ⟨taken ++ more, by simp, fun other alike => ?_⟩
      rw [List.append_assoc]
      exact .cons (moved _ (alike.append more)) (movedMore other alike)

end

/-! ## Closing braces at the end of the tokens -/

variable {removed rest : List Token} {first : Token}

/-- Closing braces alone. -/
def ClosingBraces (tokens : List Token) : Prop :=
  ∀ token ∈ tokens, token.kind = .braceClose

/-- Tokens that begin with something else begin before the braces at the end. -/
theorem ClosingBraces.length_le
    (braces : ClosingBraces removed)
    (suffix : first :: after <:+ rest ++ removed)
    (different : first.kind ≠ .braceClose) :
    removed.length ≤ after.length := by
  by_contra short
  have within : first :: after <:+ removed :=
    List.suffix_of_suffix_length_le suffix (List.suffix_append rest removed)
      (by rw [List.length_cons]; omega)
  exact different (braces first (within.subset List.mem_cons_self))

theorem ClosingBraces.exists_cons
    (braces : ClosingBraces removed)
    (shape : first :: before = rest ++ removed)
    (different : first.kind ≠ .braceClose) :
    ∃ others, rest = first :: others ∧ before = others ++ removed := by
  cases rest with
  | nil =>
      rw [List.nil_append] at shape
      exact absurd (braces first (shape ▸ List.mem_cons_self)) different
  | cons second others =>
      cases shape
      exact ⟨others, rfl, rfl⟩

theorem ClosingBraces.alike (braces : ClosingBraces removed) (after : List Token) :
    Alike (after ++ removed) after := by
  cases after with
  | cons first rest => exact alike_cons first _ _
  | nil =>
      cases removed with
      | nil => exact ⟨id, Iff.rfl⟩
      | cons first rest =>
          have brace : ahead ([] ++ first :: rest) = .braceClose :=
            braces first List.mem_cons_self
          exact ⟨fun _ => by decide, by rw [brace]; decide⟩

/-- A piece that ends before the braces is the same without them. -/
theorem Movable.cut
    {piece : List Token → List Token → Prop}
    (movable : Movable piece before after)
    (braces : ClosingBraces removed)
    (shape : before = rest ++ removed)
    (long : removed.length ≤ after.length) :
    ∃ left, after = left ++ removed ∧ piece rest left := by
  obtain ⟨taken, parts, moved⟩ := movable
  have suffix : removed <:+ after :=
    List.suffix_of_suffix_length_le (shape ▸ List.suffix_append rest removed)
      (parts ▸ List.suffix_append taken after) long
  obtain ⟨left, rfl⟩ := suffix
  rw [shape, ← List.append_assoc] at parts
  obtain rfl := List.append_cancel_right parts
  exact ⟨left, rfl, moved left (braces.alike left)⟩

/-- No statement begins in the braces. -/
theorem ClosingBraces.not_begins
    (braces : ClosingBraces removed)
    (suffix : after <:+ rest ++ removed)
    (short : after.length ≤ removed.length) :
    ¬ BeginsStatement (ahead after) := by
  intro begins
  cases after with
  | nil => exact absurd begins (by decide)
  | cons first others =>
      have long := braces.length_le suffix (begins.ne (by decide))
      rw [List.length_cons] at short
      omega

theorem ClosingBraces.begins
    (braces : ClosingBraces removed)
    (begins : BeginsStatement (ahead (rest ++ removed))) :
    BeginsStatement (ahead rest) := by
  cases rest with
  | nil => exact absurd begins (braces.not_begins (List.suffix_refl _) (Nat.le_refl _))
  | cons first others => exact begins

theorem Condition.cut
    (derivation : Condition before after value)
    (braces : ClosingBraces removed)
    (shape : before = rest ++ removed) :
    ∃ left, after = left ++ removed ∧ Condition rest left value := by
  refine derivation.movable.cut braces shape ?_
  cases derivation with
  | @brackets opening closing before after _ _ inner closes =>
      have suffix : closing :: after <:+ opening :: before :=
        (inner.suffix.trans (List.tail_suffix _)).trans (List.suffix_cons _ _)
      exact braces.length_le (shape ▸ suffix) (by rw [closes]; decide)

/-- A block with an `else` behind it ends before the braces. -/
theorem Block.cut
    (derivation : Block before (first :: after) item)
    (braces : ClosingBraces removed)
    (shape : before = rest ++ removed)
    (isElse : first.kind = .elseWord) :
    ∃ left, after = left ++ removed ∧ Block rest (first :: left) item := by
  have different : first.kind ≠ .braceClose := by rw [isElse]; decide
  have long := braces.length_le (shape ▸ derivation.suffix) different
  obtain ⟨left, behind, moved⟩ :=
    derivation.movable.cut braces shape (by rw [List.length_cons]; omega)
  obtain ⟨left, rfl, rfl⟩ := braces.exists_cons behind different
  exact ⟨left, rfl, moved⟩

/-- An expression ends before the braces. -/
theorem Statement.length_le
    (derivation : Statement inBlock before after item)
    (open_ : item.endsInExpression = true)
    (braces : ClosingBraces removed)
    (shape : before = rest ++ removed) :
    removed.length ≤ after.length := by
  obtain ⟨consumed, last, parts, ends⟩ := derivation.ends open_
  refine braces.length_le ⟨consumed, parts.symm.trans shape⟩ ?_
  rintro brace
  rw [brace] at ends
  exact absurd ends (by decide)

theorem Statements.begins
    {items : List Stmt}
    (derivation : Statements inBlock before after items)
    (shorter : after.length < before.length) :
    BeginsStatement (ahead before) := by
  cases derivation with
  | nil => exact absurd shorter (Nat.lt_irrefl _)
  | cons item _ => exact item.begins

/-- The first of some statements with braces behind them: it ends before the braces, or
no other statement follows. -/
theorem Statements.cut
    {others : List Stmt} {middle : List Token}
    (braces : ClosingBraces removed)
    (shape : before = rest ++ removed)
    (short : after.length < removed.length)
    (first : Statement inBlock before middle item)
    (derivation : Statements inBlock middle after others) :
    (∃ left, middle = left ++ removed ∧ Statement inBlock rest left item ∧
        Settled inBlock rest left item) ∨
      middle.length < removed.length ∧ others = [] := by
  have suffix : middle <:+ rest ++ removed :=
    shape ▸ first.suffix.trans (List.tail_suffix _)
  by_cases long : removed.length ≤ middle.length
  · obtain ⟨left, rfl, moved⟩ := first.movable.cut braces shape long
    have begins := braces.begins (derivation.begins (by omega))
    exact .inl ⟨left, rfl, moved, moved.settled fun _ => begins.quiet⟩
  · refine .inr ⟨by omega, ?_⟩
    cases derivation with
    | nil => rfl
    | cons second _ => exact absurd second.begins (braces.not_begins suffix (by omega))

/-! ## Pieces that the end of input closes -/

mutual

/-- A statement without some of the braces that it ends with is the same statement. -/
theorem Statement.report_unclosed
    {inBlock : Bool} {before after rest : List Token} {item : Stmt} {depth : Int}
    (nonnegative : 0 ≤ depth)
    (braces : ClosingBraces removed)
    (shape : before = rest ++ removed)
    (short : after.length < removed.length) :
    Statement inBlock before after item →
    (statement inBlock (.seeing rest none depth)).report =
      ⟨.accepted item, .seeing [] none depth, unclosed depth⟩
  | .expression value outside =>
      absurd ((Statement.expression value outside).length_le rfl braces shape)
        (Nat.not_le.mpr short)
  | .assign name sign value =>
      absurd ((@Statement.assign inBlock _ _ _ _ _ name sign value).length_le rfl braces
        shape) (Nat.not_le.mpr short)
  | .print word values =>
      absurd ((@Statement.print inBlock _ _ _ _ word values).length_le rfl braces shape)
        (Nat.not_le.mpr short)
  | .ifThen word condition first _ => by
      obtain ⟨others, rfl, behind⟩ := braces.exists_cons shape (by rw [word]; decide)
      obtain ⟨left, rfl, moved⟩ := condition.cut braces behind
      have atEnd : (State.seeing [] none depth).current.kind ≠ .elseWord := nofun
      rw [statement_if word, report_bind moved.report_condition]
      apply report_bind_of_quiet (first.report_unclosed nonnegative braces rfl short)
      rw [bind_current, if_neg atEnd]
      rfl
  | .ifElse word condition first other second => by
      obtain ⟨others, rfl, behind⟩ := braces.exists_cons shape (by rw [word]; decide)
      obtain ⟨middle, rfl, moved⟩ := condition.cut braces behind
      obtain ⟨left, rfl, movedFirst⟩ := first.cut braces rfl other
      rw [statement_if word, report_bind moved.report_condition,
        report_bind (movedFirst.report_block depth), bind_current, current_seeing,
        List.headD_cons, if_pos other, report_bind report_advance]
      exact report_bind_of_quiet (second.report_unclosed nonnegative braces rfl short) rfl
  | .whileDo word condition body => by
      obtain ⟨others, rfl, behind⟩ := braces.exists_cons shape (by rw [word]; decide)
      obtain ⟨left, rfl, moved⟩ := condition.cut braces behind
      rw [statement_while word, report_bind moved.report_condition]
      exact report_bind_of_quiet (body.report_unclosed nonnegative braces rfl short) rfl

theorem Block.report_unclosed
    {before after rest : List Token} {item : Stmt} {depth : Int}
    (nonnegative : 0 ≤ depth)
    (braces : ClosingBraces removed)
    (shape : before = rest ++ removed)
    (short : after.length < removed.length) :
    Block before after item →
    (block (.seeing rest none depth)).report =
      ⟨.accepted item, .seeing [] none depth, unclosed depth⟩
  | @Block.closed opening last _ _ list opens inner closes => by
      obtain ⟨others, rfl, behind⟩ := braces.exists_cons shape (by rw [opens]; decide)
      have read :
          (items (.seeing others none (depth + 1))).report =
            ⟨.accepted list, .seeing [] none (depth + 1), []⟩ := by
        by_cases whole : removed.length ≤ (last :: after).length
        · obtain ⟨left, parts, moved⟩ := inner.movable.cut braces behind whole
          obtain rfl : left = [] := by
            have lengths := congrArg List.length parts
            rw [List.length_cons, List.length_append] at lengths
            exact List.eq_nil_of_length_eq_zero (by omega)
          exact moved.report_items (depth + 1) rfl
        · exact inner.report_unclosed (by omega) braces behind (by omega)
      rw [block_seeing, bind_current, current_seeing, List.headD_cons, if_pos opens,
        report_bind report_advance, report_bind report_enterBlock, report_bind read]
      exact report_bind_of_quiet report_closeBlock_of_end rfl
  | @Block.left opening _ after _ opens inner elseAhead => by
      obtain _ | ⟨following, behind⟩ := after
      · cases elseAhead
      have suffix := inner.suffix.trans (List.suffix_cons opening _)
      rw [ahead_cons] at elseAhead
      have long := braces.length_le (shape ▸ suffix) (by rw [elseAhead]; decide)
      rw [List.length_cons] at short
      omega

theorem Statements.report_unclosed
    {before after rest : List Token} {list : List Stmt} {depth : Int}
    (inside : 0 < depth)
    (braces : ClosingBraces removed)
    (shape : before = rest ++ removed)
    (short : after.length < removed.length) :
    Statements true before after list →
    (items (.seeing rest none depth)).report =
      ⟨.accepted list, .seeing [] none depth, []⟩
  | .nil => by
      rw [shape, List.length_append] at short
      omega
  | .cons item others => by
      have continues :
          ¬ endsBlock (State.seeing rest none depth).current.kind = true :=
        (braces.begins (shape ▸ item.begins)).continues
      rw [items_seeing, bind_current, if_neg continues]
      rcases Statements.cut braces shape short item others with
        ⟨left, rfl, moved, settled⟩ | ⟨shorter, rfl⟩
      · rw [report_bind (report_attempt (moved.report_statement depth settled))]
        exact report_map (others.report_unclosed inside braces rfl short)
      · have read := item.report_unclosed (Int.le_of_lt inside) braces shape shorter
        rw [unclosed_of_ne (Int.ne_of_gt inside)] at read
        rw [report_bind (report_attempt read)]
        exact report_map (by rw [items_seeing]; rfl)

end

/-- A program without some of the braces that it ends with is the same program, with
one complaint. -/
theorem Statements.report_program_unclosed
    {before after rest : List Token} {list : List Stmt}
    (braces : ClosingBraces removed)
    (shape : before = rest ++ removed)
    (short : after.length < removed.length) :
    Statements false before after list →
    (Parse.program (.seeing rest none 0)).report =
      ⟨.accepted list, .seeing [] none 0, [Token.endOfInput]⟩
  | .nil => by
      rw [shape, List.length_append] at short
      omega
  | @Statements.cons _ _ _ _ first _ item others => by
      have continues : (State.seeing rest none 0).current.kind ≠ .endOfInput := by
        intro atEnd
        have begins := braces.begins (shape ▸ item.begins)
        exact begins.continues (congrArg endsBlock atEnd)
      have noted (state : State) :
          (note (.parsed first) state).report = ⟨.accepted (), state, []⟩ := rfl
      rw [program_seeing, bind_current, if_neg continues]
      rcases Statements.cut braces shape short item others with
        ⟨left, rfl, moved, settled⟩ | ⟨shorter, rfl⟩
      · rw [report_bind (report_attempt (moved.report_statement 0 settled))]
        apply (report_bind (noted _)).trans
        exact report_map (others.report_program_unclosed braces rfl short)
      · have read :=
          report_attempt (item.report_unclosed (Int.le_refl 0) braces shape shorter)
        apply report_bind_of_quiet read
        apply (report_bind (noted _)).trans
        exact report_map (by rw [program_seeing]; rfl)

end WhileLang.Grammar

namespace WhileLang.Reading

open Grammar Parse

theorem program_of_silent
    {reading : Reading} {program : Program}
    (read : reading.statements = .ok program)
    (silent : reading.diagnostics = []) :
    reading.program = .ok program := by
  have expected : unexpectedTokens reading.notices = [] := List.map_eq_nil_iff.mp silent
  rw [Reading.program, read]
  dsimp only
  rw [expected]

/-- Where the tokens of a text without complaints end with closing braces, the tokens
without any number of these are read as the same program. The one complaint is that of
the outermost block that is open, about the end of input. -/
theorem ofTokens_unclosed
    {text : String} {tokens : List Token} {program : Program} {closing removed : Nat}
    (tokenizes :
      tokenize text =
        .ok (tokens ++ List.replicate closing (.fixed .braceClose) ++ [Token.endOfInput]))
    (read : (Reading.ofText text).statements = .ok program)
    (silent : (Reading.ofText text).diagnostics = [])
    (positive : 0 < removed)
    (few : removed ≤ closing) :
    (ofFeed (Feed.ofTokens
        (tokens ++ List.replicate (closing - removed) (.fixed .braceClose)))).statements =
      .ok program ∧
    (ofFeed (Feed.ofTokens
        (tokens ++ List.replicate (closing - removed) (.fixed .braceClose)))).diagnostics =
      ["Syntax error, didn't expect end of input"] := by
  have derivation :
      Derives (tokens ++ List.replicate closing (.fixed .braceClose)) program :=
    (Program.ofText_eq_ok_iff_derives tokenizes).mp (program_of_silent read silent)
  have braces : ClosingBraces (List.replicate removed (.fixed .braceClose)) := by
    intro token member
    rw [List.eq_of_mem_replicate member]
    rfl
  have shape :
      tokens ++ List.replicate closing (.fixed .braceClose) =
        tokens ++ List.replicate (closing - removed) (.fixed .braceClose) ++
          List.replicate removed (.fixed .braceClose) := by
    rw [List.append_assoc, List.replicate_append_replicate, Nat.sub_add_cancel few]
  have report :=
    Statements.report_program_unclosed braces shape
      (by rwa [List.length_nil, List.length_replicate]) derivation
  obtain ⟨statements, complained⟩ := ofFeed_of_accepted (report_step.trans report)
  refine ⟨statements, ?_⟩
  rw [Reading.diagnostics, Parse.diagnostics, complained]
  decide

/-- A loop behind an `else`, both of them open. -/
theorem ofTokens_unclosed_loop :
    (Reading.ofFeed (Feed.ofTokens
        ([.fixed .ifWord, .fixed .bracketOpen, ⟨.identifier, "x"⟩, .fixed .bracketClose,
          .fixed .braceOpen, .fixed .braceClose, .fixed .elseWord, .fixed .braceOpen,
          .fixed .whileWord, .fixed .bracketOpen, ⟨.integer, "1"⟩, .fixed .bracketClose,
          .fixed .braceOpen] ++ List.replicate (2 - 2) (.fixed .braceClose)))).diagnostics =
      ["Syntax error, didn't expect end of input"] :=
  (@ofTokens_unclosed "if (x) \x7b \x7d else \x7b while (1) \x7b \x7d \x7d"
    [.fixed .ifWord, .fixed .bracketOpen, ⟨.identifier, "x"⟩, .fixed .bracketClose,
      .fixed .braceOpen, .fixed .braceClose, .fixed .elseWord, .fixed .braceOpen,
      .fixed .whileWord, .fixed .bracketOpen, ⟨.integer, "1"⟩, .fixed .bracketClose,
      .fixed .braceOpen]
    [.ifElse (.fixed .ifWord) (.ident ⟨.identifier, "x"⟩ "x")
      (.block (.fixed .braceOpen) [])
      (.block (.fixed .braceOpen)
        [.whileDo (.fixed .whileWord) (.literal ⟨.integer, "1"⟩ 1)
          (.block (.fixed .braceOpen) [])])]
    2 2 (by decide +kernel) (by decide +kernel) (by decide +kernel) (by decide)
    (by decide)).2

end WhileLang.Reading
