import WhileLang.Proofs.Layout
import WhileLang.Proofs.Tree

/-!
Renderings: the texts of trees, as tokens. Main statement: the text of the tree of a
derivation is made up of the tokens that belong to the tree.
-/

namespace WhileLang

/-! ## The tokens of a tree -/

/-- The tokens of an expression's text. -/
def Expr.tokens : Expr → List Token
  | .ident token _ => [token]
  | .literal _ value => [.number value]
  | .binary sign left _ right =>
      .fixed .bracketOpen ::
        (left.tokens ++ sign :: (right.tokens ++ [.fixed .bracketClose]))
  | .foreign _ => []

/-- The tokens of expressions with commas between them. -/
def Expr.tokensEach : List Expr → List Token
  | [] => []
  | [value] => value.tokens
  | value :: second :: rest =>
      value.tokens ++ .fixed .comma :: tokensEach (second :: rest)

/-- The tokens of a condition's text. -/
def Expr.conditionTokens (condition : Expr) : List Token :=
  .fixed .bracketOpen :: (condition.tokens ++ [.fixed .bracketClose])

namespace Stmt

mutual

/-- The tokens of a statement's text. -/
def tokens : Stmt → List Token
  | .expression _ value => value.tokens
  | .assign name _ value => name :: .fixed .assign :: value.tokens
  | .block opening items =>
      opening :: (tokensEach items ++ [.fixed .braceClose])
  | .ifThen word condition first =>
      word :: (condition.conditionTokens ++ first.tokens)
  | .ifElse word condition first second =>
      word :: (condition.conditionTokens ++
        (first.tokens ++ .fixed .elseWord :: second.tokens))
  | .whileDo word condition body =>
      word :: (condition.conditionTokens ++ body.tokens)
  | .print word values => word :: Expr.tokensEach values
  | .bare _ => []
  | .sequence _ => []
  | .foreign _ => []

/-- The tokens of the texts of statements in a row. -/
def tokensEach : List Stmt → List Token
  | [] => []
  | item :: rest => item.tokens ++ tokensEach rest

end

theorem tokensEach_eq_flatMap (items : List Stmt) :
    tokensEach items = items.flatMap tokens := by
  induction items with
  | nil => rfl
  | cons item rest inductionHypothesis =>
      rw [tokensEach, inductionHypothesis, List.flatMap_cons]

end Stmt

/-! ## Texts in brackets and on lines -/

namespace Spells

variable {text : String} {tokens : List Token}

theorem fixed
    {kind : Token.Kind}
    (isFixed : kind.fixed? = some text) :
    Spells text.toList [.fixed kind] := by
  have spelled : (Token.fixed kind).Spelled :=
    Token.spelled_fixed (Option.isSome_of_eq_some isFixed)
  have same : (Token.fixed kind).lexeme = text :=
    Token.eq_of_spelled spelled isFixed
  rw [← same]
  exact .lexeme spelled

/-- An opening bracket is a lexeme of its own, whatever follows it. -/
theorem bracketOpen
    {rest : List Char}
    (inner : Spells rest tokens) :
    Spells ('(' :: rest) (.fixed .bracketOpen :: tokens) := by
  refine @Spells.token (.fixed .bracketOpen) rest tokens ?_ ?_ inner
  · exact Token.spelled_fixed rfl
  · intro character _
    exact Token.spelled?_of_sign [character] (by decide) (by decide)

theorem brackets (inner : Spells text.toList tokens) :
    Spells ("(" ++ text ++ ")").toList
      (.fixed .bracketOpen :: (tokens ++ [.fixed .bracketClose])) := by
  rw [String.toList_append, String.toList_append, List.append_assoc]
  exact bracketOpen
    (inner.append (detached_sign [] (by decide) (by decide)) (fixed rfl))

theorem append_comma
    {second : String} {later : List Token}
    (before : Spells text.toList tokens)
    (behind : Spells second.toList later) :
    Spells (text ++ ", " ++ second).toList (tokens ++ .fixed .comma :: later) := by
  have comma : Spells ",".toList [.fixed .comma] := .fixed rfl
  have detached : Detached (',' :: ' ' :: second.toList) :=
    detached_sign _ (by decide) (by decide)
  rw [String.toList_append, String.toList_append, List.append_assoc]
  exact before.append detached (comma.append_blank rfl behind)

/-- Texts on lines of their own. -/
theorem lines
    {α : Type} {items : List α} {text : α → String} {tokens : α → List Token}
    (each : ∀ item ∈ items, Spells (text item).toList (tokens item)) :
    Spells ("\n".intercalate (items.map text)).toList (items.flatMap tokens) := by
  induction items with
  | nil => exact .nil
  | cons first others inductionHypothesis =>
      obtain ⟨spells, further⟩ := List.forall_mem_cons.mp each
      have rest := inductionHypothesis further
      cases others with
      | nil => simpa using spells
      | cons second others =>
          rw [List.map_cons, List.map_cons, String.intercalate_cons_cons,
            List.flatMap_cons]
          exact spells.append_line rest

end Spells

/-! ## Expressions -/

theorem Expr.Parsed.spells
    {value : Expr}
    (parsed : value.Parsed) :
    Spells value.render.toList value.tokens := by
  induction parsed with
  | name _ spelled => exact .lexeme spelled
  | literal literal =>
      exact .lexeme (Token.spelled_number literal.natural literal.small)
  | @operation sign left right operator _ spelled _ _ leftHypothesis
      rightHypothesis =>
      have shape :
          (Expr.binary sign left operator right).render =
            "(" ++ (left.render ++ " " ++ (sign.lexeme ++ " " ++ right.render)) ++
              ")" := by
        simp only [Expr.render, String.append_assoc]
      have inner := leftHypothesis.append_space
        ((Spells.lexeme spelled).append_space rightHypothesis)
      rw [shape]
      simpa [Expr.tokens] using inner.brackets

theorem Expr.Parsed.spells_condition
    {condition : Expr}
    (parsed : condition.Parsed) :
    Spells ("(" ++ condition.render ++ ")").toList condition.conditionTokens :=
  parsed.spells.brackets

theorem Expr.spells_tokensEach
    (values : List Expr)
    (parsed : ∀ value ∈ values, value.Parsed) :
    Spells (", ".intercalate (values.map Expr.render)).toList
      (Expr.tokensEach values) := by
  match values with
  | [] => exact .nil
  | [value] => simpa [Expr.tokensEach] using (parsed value (by simp)).spells
  | value :: second :: rest =>
      obtain ⟨first, others⟩ := List.forall_mem_cons.mp parsed
      have further := Expr.spells_tokensEach (second :: rest) others
      rw [List.map_cons, List.map_cons, String.intercalate_cons_cons]
      exact first.spells.append_comma further

/-! ## Statements -/

theorem Stmt.spells_renderBlock
    {items : List Stmt}
    (each : ∀ item ∈ items, Spells item.render.toList item.tokens) :
    Spells (Stmt.renderBlock (items.map Stmt.render)).toList
      (.fixed .braceOpen :: (items.flatMap Stmt.tokens ++ [.fixed .braceClose])) := by
  have opening : Spells "\x7b".toList [.fixed .braceOpen] := .fixed rfl
  have closing : Spells "\x7d".toList [.fixed .braceClose] := .fixed rfl
  cases items with
  | nil => exact opening.append_line closing
  | cons first others =>
      have indented : ∀ item ∈ first :: others,
          Spells ((Text.indent ∘ Stmt.render) item).toList item.tokens :=
        fun item member => (each item member).indent
      have inner := (Spells.lines indented).append_line closing
      have all := opening.append_line inner
      simpa [Stmt.renderBlock] using all

mutual

theorem Stmt.Parsed.spells
    {item : Stmt} :
    item.Parsed → Spells item.render.toList item.tokens
  | .expression value => value.spells
  | @Stmt.Parsed.assign name value _ spelled parsed => by
      have sign : Spells "=".toList [.fixed .assign] := .fixed rfl
      have all := (Spells.lexeme spelled).append_space
        (sign.append_space parsed.spells)
      simpa [Stmt.render, Stmt.tokens] using all
  | .print values => by
      have word : Spells "print".toList [.fixed .printWord] := .fixed rfl
      have all := word.append_space (Expr.spells_tokensEach _ values)
      simpa [Stmt.render, Stmt.tokens] using all
  | .ifThen condition first => by
      have word : Spells "if".toList [.fixed .ifWord] := .fixed rfl
      have all := word.append_space
        (condition.spells_condition.append_space first.spells)
      simpa [Stmt.render, Stmt.tokens] using all
  | .ifElse condition first second => by
      have word : Spells "if".toList [.fixed .ifWord] := .fixed rfl
      have other : Spells "else".toList [.fixed .elseWord] := .fixed rfl
      have all := word.append_space
        (condition.spells_condition.append_space
          (first.spells.append_space (other.append_space second.spells)))
      simpa [Stmt.render, Stmt.tokens] using all
  | .whileDo condition body => by
      have word : Spells "while".toList [.fixed .whileWord] := .fixed rfl
      have all := word.append_space
        (condition.spells_condition.append_space body.spells)
      simpa [Stmt.render, Stmt.tokens] using all

theorem Stmt.ParsedBlock.spells
    {item : Stmt} :
    item.ParsedBlock → Spells item.render.toList item.tokens
  | .block items => by
      rw [Stmt.render, Stmt.tokens, Stmt.renderEach_eq_map, Stmt.tokensEach_eq_flatMap]
      exact Stmt.spells_renderBlock items.spells

theorem Stmt.ParsedEach.spells
    {items : List Stmt} :
    Stmt.ParsedEach items →
    ∀ item ∈ items, Spells item.render.toList item.tokens
  | .nil => nofun
  | .cons item rest => List.forall_mem_cons.mpr ⟨item.spells, rest.spells⟩

end

/-- The text of a program made by a derivation, as tokens. -/
theorem Program.spells_render
    {program : Program}
    (parsed : Stmt.ParsedEach program) :
    Spells program.render.toList (Stmt.tokensEach program) := by
  rw [Stmt.tokensEach_eq_flatMap]
  exact .lines parsed.spells

end WhileLang
