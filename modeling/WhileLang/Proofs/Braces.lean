import WhileLang.Proofs.Reading

/-!
Braces, counted over the tokens alone. An `else` that does not stand behind the
closing brace of the first block of an `if` ends the innermost such block, and all
blocks that are open inside it, without braces of their own. Main statement: the
braces of a program never close more than they open, and what they leave open are
exactly the blocks ended in that way.
-/

namespace WhileLang

/-- What counting braces keeps in mind: which blocks are open, innermost first, and
of each whether it is the first block of an `if`; whether the next block will be
one; whether the last token closed one; and how many blocks were ended without a
brace. -/
structure Braces where
  blocks : List Bool
  first : Bool
  closed : Bool
  left : Nat

namespace Braces

/-- Counting goes on over a token. There is no way on if it closes a block and none
is open, or is an `else` and no first block of an `if` is. -/
def step? (braces : Braces) : Token.Kind → Option Braces
  | .ifWord => some { braces with first := true, closed := false }
  | .whileWord => some { braces with first := false, closed := false }
  | .braceOpen =>
      some { braces with blocks := braces.first :: braces.blocks, closed := false }
  | .braceClose =>
      match braces.blocks with
      | [] => none
      | block :: outer => some { braces with blocks := outer, closed := block }
  | .elseWord =>
      if braces.closed then
        some { braces with first := false, closed := false }
      else
        match braces.blocks.dropWhile (! ·) with
        | [] => none
        | _ :: outer =>
            some ⟨outer, false, false,
              braces.left + (braces.blocks.length - outer.length)⟩
  | _ => some { braces with closed := false }

/-- Counting goes on over tokens. -/
def run? (braces : Braces) : List Token → Option Braces
  | [] => some braces
  | token :: rest => (braces.step? token.kind).bind (·.run? rest)

/-- How many blocks an `else` ends without a brace, if counting comes to the end of
the tokens and no block is open there. -/
def left? (tokens : List Token) : Option Nat :=
  match run? ⟨[], false, false, 0⟩ tokens with
  | some ⟨[], _, _, left⟩ => some left
  | _ => none

/-- The number of tokens of a kind. -/
def count (kind : Token.Kind) (tokens : List Token) : Nat :=
  tokens.countP (·.kind = kind)

/-! ## Counting -/

variable {braces final : Braces} {tokens : List Token}

theorem length_dropWhile_cons_lt
    {blocks outer : List Bool} {block : Bool}
    (shape : blocks.dropWhile (! ·) = block :: outer) :
    outer.length < blocks.length := by
  have shorter := (List.dropWhile_suffix (l := blocks) (! ·)).length_le
  rw [shape, List.length_cons] at shorter
  omega

/-- What braces open is closed, or still open, or was ended without a brace. -/
theorem step?_count
    {kind : Token.Kind}
    (stepped : braces.step? kind = some final) :
    (if kind = .braceOpen then 1 else 0) + braces.blocks.length + braces.left =
      (if kind = .braceClose then 1 else 0) + final.blocks.length + final.left := by
  unfold step? at stepped
  split at stepped
  · cases stepped
    rfl
  · cases stepped
    rfl
  · cases stepped
    simp
    omega
  · split at stepped
    · cases stepped
    · rename_i shape
      cases stepped
      simp [shape]
      omega
  · split at stepped
    · cases stepped
      rfl
    · split at stepped
      · cases stepped
      · rename_i shape
        cases stepped
        have shorter := length_dropWhile_cons_lt shape
        simp
        omega
  · cases stepped
    simp_all

theorem run?_count
    (ran : braces.run? tokens = some final) :
    count .braceOpen tokens + braces.blocks.length + braces.left =
      count .braceClose tokens + final.blocks.length + final.left := by
  induction tokens generalizing braces with
  | nil =>
      cases ran
      rfl
  | cons token rest inductionHypothesis =>
      obtain ⟨middle, stepped, ran⟩ := Option.bind_eq_some_iff.mp ran
      have here := step?_count stepped
      have behind := inductionHypothesis ran
      simp only [count, List.countP_cons, decide_eq_true_eq] at behind ⊢
      omega

theorem exists_run?_of_append
    {front back : List Token}
    (ran : braces.run? (front ++ back) = some final) :
    ∃ middle, braces.run? front = some middle := by
  induction front generalizing braces with
  | nil => exact ⟨braces, rfl⟩
  | cons token rest inductionHypothesis =>
      obtain ⟨next, stepped, ran⟩ := Option.bind_eq_some_iff.mp ran
      obtain ⟨middle, further⟩ := inductionHypothesis ran
      exact ⟨middle, Option.bind_eq_some_iff.mpr ⟨next, stepped, further⟩⟩

theorem run?_cons
    {next : Braces} {token : Token}
    (stepped : braces.step? token.kind = some next) :
    braces.run? (token :: tokens) = next.run? tokens := by
  rw [run?, stepped]
  rfl

/-- Counting behind a token that has nothing to do with blocks. -/
def calm (braces : Braces) : Braces :=
  { braces with closed := false }

def Plain (kind : Token.Kind) : Prop :=
  ∀ braces : Braces, braces.step? kind = some braces.calm

theorem run?_plain
    {token : Token} {kind : Token.Kind}
    (isKind : token.kind = kind)
    (plain : Plain kind) :
    braces.run? (token :: tokens) = braces.calm.run? tokens :=
  run?_cons (by rw [isKind, plain])

theorem plain_of_ofKind?
    {kind : Token.Kind} {operator : Operator}
    (spelled : Operator.ofKind? kind = some operator) :
    Plain kind := by
  intro braces
  cases kind <;> first | rfl | cases spelled

end Braces

/-! ## Counting over derivations -/

namespace Grammar

variable {before after : List Token} {braces : Braces}

theorem Expression.run?
    {level : Nat} {value : Expr}
    (derivation : Expression level before after value) :
    braces.run? before = braces.calm.run? after := by
  induction derivation generalizing braces with
  | name _ kind _ => exact Braces.run?_plain kind fun _ => rfl
  | literal _ literal _ => exact Braces.run?_plain literal.kind fun _ => rfl
  | brackets _ opening _ closing _ inductionHypothesis =>
      rw [Braces.run?_plain opening fun _ => rfl, inductionHypothesis,
        Braces.run?_plain closing fun _ => rfl]
      rfl
  | tighter _ _ inductionHypothesis => exact inductionHypothesis
  | operation member _ _ leftHypothesis rightHypothesis =>
      have spelled := ((mem_operators_iff _ _ _).mp member).1
      rw [leftHypothesis, Braces.run?_plain rfl (Braces.plain_of_ofKind? spelled),
        rightHypothesis]
      rfl

theorem Condition.run?
    {truth : Expr}
    (derivation : Condition before after truth) :
    braces.run? before = braces.calm.run? after := by
  cases derivation with
  | brackets opening inner closing =>
      rw [Braces.run?_plain opening fun _ => rfl, inner.run?,
        Braces.run?_plain closing fun _ => rfl]
      rfl

theorem Values.run?
    {values : List Expr}
    (derivation : Values before after values) :
    braces.run? before = braces.calm.run? after := by
  induction derivation generalizing braces with
  | last value => exact value.run?
  | more value comma _ inductionHypothesis =>
      rw [value.run?, Braces.run?_plain comma fun _ => rfl, inductionHypothesis]
      rfl

/-- Counting over statements ends with the blocks it began with. Further blocks stay
open only where an `else` is ahead, and none of them is the first one of an
`if`. -/
structure Kept (blocks : List Bool) (final : Braces) (kind : Token.Kind) : Prop where
  blocks :
    ∃ inner, final.blocks = List.replicate inner false ++ blocks ∧
      (0 < inner → kind = .elseWord)
  closed : final.closed = true → kind ≠ .elseWord

theorem kept_calm (kind : Token.Kind) : Kept braces.blocks braces.calm kind :=
  ⟨⟨0, rfl, nofun⟩, nofun⟩

theorem Kept.blocks_eq
    {blocks : List Bool} {final : Braces} {kind : Token.Kind}
    (kept : Kept blocks final kind)
    (noElse : kind ≠ .elseWord) :
    final.blocks = blocks := by
  obtain ⟨⟨inner, shape, open_⟩, _⟩ := kept
  obtain rfl : inner = 0 := by
    by_contra positive
    exact noElse (open_ (Nat.pos_of_ne_zero positive))
  exact shape

/-- Counting over a block closes it, or leaves it open before an `else`. -/
inductive Passed (blocks : List Bool) (first : Bool) (final : Braces)
    (kind : Token.Kind) : Prop
  | closed :
      final.blocks = blocks →
      final.closed = first →
      Passed blocks first final kind
  | left {inner : Nat} :
      final.blocks = List.replicate inner false ++ first :: blocks →
      final.closed = false →
      kind = .elseWord →
      Passed blocks first final kind

theorem Passed.kept
    {blocks : List Bool} {final : Braces} {kind : Token.Kind}
    (passed : Passed blocks false final kind) :
    Kept blocks final kind := by
  rcases passed with ⟨shape, open_⟩ | @⟨inner, shape, open_, elseAhead⟩
  · refine ⟨⟨0, shape, nofun⟩, fun closed => ?_⟩
    rw [open_] at closed
    cases closed
  · refine ⟨⟨inner + 1, ?_, fun _ => elseAhead⟩, fun closed => ?_⟩
    · rw [shape, List.replicate_succ', List.append_assoc]
      rfl
    · rw [open_] at closed
      cases closed

/-- An `else` belongs to the `if` whose first block has just been passed. -/
theorem Passed.step?_else
    {blocks : List Bool} {final : Braces} {kind : Token.Kind}
    (passed : Passed blocks true final kind) :
    ∃ next, final.step? .elseWord = some next ∧ next.blocks = blocks ∧
      next.first = false := by
  rcases passed with ⟨shape, closed⟩ | @⟨inner, shape, open_, _⟩
  · refine ⟨{ final with first := false, closed := false }, ?_, shape, rfl⟩
    simp [Braces.step?, closed]
  · refine ⟨⟨blocks, false, false,
      final.left + (final.blocks.length - blocks.length)⟩, ?_, rfl, rfl⟩
    have dropped :
        final.blocks.dropWhile (! ·) = true :: blocks := by
      rw [shape, List.dropWhile_append_of_pos]
      · rfl
      · simp
    simp [Braces.step?, open_, dropped]

mutual

theorem Statement.run?
    {inBlock : Bool} {before after : List Token} {item : Stmt}
    (braces : Braces) :
    Statement inBlock before after item →
    ∃ final, braces.run? before = final.run? after ∧
      Kept braces.blocks final (ahead after)
  | .expression value _ => ⟨braces.calm, value.run?, kept_calm _⟩
  | .assign name sign value => by
      refine ⟨braces.calm, ?_, kept_calm _⟩
      rw [Braces.run?_plain name fun _ => rfl, Braces.run?_plain sign fun _ => rfl,
        value.run?]
      rfl
  | .print word values => by
      refine ⟨braces.calm, ?_, kept_calm _⟩
      rw [Braces.run?_plain word fun _ => rfl, values.run?]
      rfl
  | .ifThen word condition first noElse => by
      obtain ⟨final, ran, passed⟩ := first.run? { braces.calm with first := true }
      refine ⟨final, ?_, ?_⟩
      · rw [Braces.run?_cons (by rw [word]; rfl), condition.run?]
        exact ran
      · rcases passed with ⟨shape, _⟩ | @⟨_, _, _, elseAhead⟩
        · exact ⟨⟨0, shape, nofun⟩, fun _ => noElse⟩
        · exact absurd elseAhead noElse
  | .ifElse word condition first other second => by
      obtain ⟨middle, ran, passed⟩ := first.run? { braces.calm with first := true }
      obtain ⟨next, stepped, shape, notFirst⟩ := passed.step?_else
      obtain ⟨final, ranOn, passedOn⟩ := second.run? next
      refine ⟨final, ?_, ?_⟩
      · rw [Braces.run?_cons (by rw [word]; rfl), condition.run?]
        apply ran.trans
        rw [Braces.run?_cons (by rw [other]; exact stepped), ranOn]
      · rw [notFirst, shape] at passedOn
        exact passedOn.kept
  | .whileDo word condition body => by
      obtain ⟨final, ran, passed⟩ := body.run? { braces.calm with first := false }
      refine ⟨final, ?_, passed.kept⟩
      rw [Braces.run?_cons (by rw [word]; rfl), condition.run?]
      exact ran

theorem Block.run?
    {before after : List Token} {item : Stmt}
    (braces : Braces) :
    Block before after item →
    ∃ final, braces.run? before = final.run? after ∧
      Passed braces.blocks braces.first final (ahead after)
  | .closed opening items closing => by
      obtain ⟨final, ran, kept⟩ :=
        items.run? { braces.calm with blocks := braces.first :: braces.blocks } nofun
      -- A brace is ahead, so that the statements left no block open.
      have shape := kept.blocks_eq (by rw [ahead_cons, closing]; decide)
      refine ⟨{ final with blocks := braces.blocks, closed := braces.first }, ?_,
        .closed rfl rfl⟩
      rw [Braces.run?_cons (by rw [opening]; rfl)]
      refine ran.trans (Braces.run?_cons ?_)
      rw [closing, Braces.step?, shape]
  | .left opening items elseAhead => by
      obtain ⟨final, ran, kept⟩ :=
        items.run? { braces.calm with blocks := braces.first :: braces.blocks } nofun
      obtain ⟨⟨inner, shape, _⟩, closed⟩ := kept
      refine ⟨final, ?_, .left shape ?_ elseAhead⟩
      · rw [Braces.run?_cons (by rw [opening]; rfl)]
        exact ran
      · by_contra isClosed
        exact closed (Bool.not_eq_false _ ▸ isClosed) elseAhead

theorem Statements.run?
    {inBlock : Bool} {before after : List Token} {items : List Stmt}
    (braces : Braces)
    (noElse : braces.closed = true → ahead before ≠ .elseWord) :
    Statements inBlock before after items →
    ∃ final, braces.run? before = final.run? after ∧
      Kept braces.blocks final (ahead after)
  | .nil => ⟨braces, rfl, ⟨0, rfl, nofun⟩, noElse⟩
  | @Statements.cons _ _ middle _ _ _ item others => by
      obtain ⟨next, ran, kept⟩ := item.run? braces
      by_cases elseAhead : ahead middle = .elseWord
      · cases others with
        | nil => exact ⟨next, ran, kept⟩
        | cons second _ =>
            have begins := second.begins
            rw [elseAhead] at begins
            rcases begins with (kind | kind | kind) | kind | kind | kind <;> cases kind
      · obtain ⟨final, ranOn, keptOn⟩ := others.run? next kept.closed
        rw [kept.blocks_eq elseAhead] at keptOn
        exact ⟨final, ran.trans ranOn, keptOn⟩

end

end Grammar

/-- Of the braces of a program no front closes more than it opens. All together close
as many as they open, apart from the blocks that an `else` ends. -/
theorem Program.braces_of_ofText
    {text : String} {program : Program}
    (accepted : Program.ofText text = .ok program) :
    ∃ tokens left,
      tokenize text = .ok (tokens ++ [Token.endOfInput]) ∧
      (∀ front, front <+: tokens →
        Braces.count .braceClose front ≤ Braces.count .braceOpen front) ∧
      Braces.left? tokens = some left ∧
      Braces.count .braceOpen tokens = Braces.count .braceClose tokens + left := by
  obtain ⟨tokens, spells, derivation⟩ := Program.exists_derives_of_ofText accepted
  obtain ⟨final, ran, kept⟩ :=
    Grammar.Statements.run? ⟨[], false, false, 0⟩ nofun derivation
  have closed : final.blocks = [] := kept.blocks_eq (by decide)
  have counted := Braces.run?_count ran
  refine ⟨tokens, final.left, (tokenize_eq_ok_iff text tokens).mpr spells, ?_, ?_, ?_⟩
  · rintro front ⟨back, rfl⟩
    obtain ⟨middle, ranFront⟩ := Braces.exists_run?_of_append ran
    have countedFront := Braces.run?_count ranFront
    simp only [List.length_nil] at countedFront
    omega
  · rw [Braces.left?, ran]
    obtain ⟨blocks, first, behind, left⟩ := final
    obtain rfl : blocks = [] := closed
    rfl
  · rw [closed] at counted
    simpa using counted

/-- An `else` that ends two blocks, the one of a loop and the first one of an `if`
around it. -/
theorem Program.braces_of_if_else :
    ∃ tokens,
      tokenize "if (x) \x7b while (y) \x7b else \x7b \x7d" =
        .ok (tokens ++ [Token.endOfInput]) ∧
      (∀ front, front <+: tokens →
        Braces.count .braceClose front ≤ Braces.count .braceOpen front) ∧
      Braces.left? tokens = some 2 ∧
      Braces.count .braceOpen tokens = Braces.count .braceClose tokens + 2 := by
  obtain ⟨tokens, left, tokenizes, prefixes, counted, totals⟩ :=
    @Program.braces_of_ofText "if (x) \x7b while (y) \x7b else \x7b \x7d"
      [.ifElse ⟨.ifWord, "if"⟩ (.ident ⟨.identifier, "x"⟩ "x")
        (.block ⟨.braceOpen, "\x7b"⟩
          [.whileDo ⟨.whileWord, "while"⟩ (.ident ⟨.identifier, "y"⟩ "y")
            (.block ⟨.braceOpen, "\x7b"⟩ [])])
        (.block ⟨.braceOpen, "\x7b"⟩ [])]
      (by decide +kernel)
  have split :
      tokens ++ [Token.endOfInput] =
        [⟨.ifWord, "if"⟩, ⟨.bracketOpen, "("⟩, ⟨.identifier, "x"⟩, ⟨.bracketClose, ")"⟩,
          ⟨.braceOpen, "\x7b"⟩, ⟨.whileWord, "while"⟩, ⟨.bracketOpen, "("⟩,
          ⟨.identifier, "y"⟩, ⟨.bracketClose, ")"⟩, ⟨.braceOpen, "\x7b"⟩,
          ⟨.elseWord, "else"⟩, ⟨.braceOpen, "\x7b"⟩, ⟨.braceClose, "\x7d"⟩] ++
          [Token.endOfInput] :=
    Except.ok.inj (tokenizes.symm.trans (by decide +kernel))
  obtain rfl := List.append_cancel_right split
  obtain rfl : left = 2 := Option.some.inj (counted.symm.trans (by decide))
  exact ⟨_, tokenizes, prefixes, counted, totals⟩

/-- An `else` that ends a block without a brace of its own. -/
theorem Program.unbalanced_before_else :
    ∃ program tokens,
      Program.ofText "if (1) \x7b else \x7b \x7d" = .ok program ∧
      tokenize "if (1) \x7b else \x7b \x7d" = .ok (tokens ++ [Token.endOfInput]) ∧
      Braces.count .braceOpen tokens = 2 ∧
      Braces.count .braceClose tokens = 1 :=
  ⟨[.ifElse ⟨.ifWord, "if"⟩ (.literal ⟨.integer, "1"⟩ 1)
      (.block ⟨.braceOpen, "\x7b"⟩ []) (.block ⟨.braceOpen, "\x7b"⟩ [])],
    [⟨.ifWord, "if"⟩, ⟨.bracketOpen, "("⟩, ⟨.integer, "1"⟩, ⟨.bracketClose, ")"⟩,
      ⟨.braceOpen, "\x7b"⟩, ⟨.elseWord, "else"⟩, ⟨.braceOpen, "\x7b"⟩,
      ⟨.braceClose, "\x7d"⟩],
    by decide +kernel, by decide +kernel, by decide, by decide⟩

end WhileLang
