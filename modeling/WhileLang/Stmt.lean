import WhileLang.Expr
import WhileLang.Text.Newline

/-!
Statements and programs, as trees that keep the tokens they begin with. Main
statement: the comparison of two trees decides whether they are equal.
-/

namespace WhileLang

/-- The target of an assignment. -/
structure Target where
  token : Token
  name : String
deriving DecidableEq, Repr

/-- A statement tree. A tree built by hand may have a bare expression, a list of
statements, or something foreign, known by the text that shows it alone, in the
place of a statement. -/
inductive Stmt where
  | expression (token : Token) (value : Expr)
  | assign (token : Token) (target : Target) (value : Expr)
  | block (token : Token) (items : List Stmt)
  | ifThen (token : Token) (condition : Expr) (first : Stmt)
  | ifElse (token : Token) (condition : Expr) (first second : Stmt)
  | whileDo (token : Token) (condition : Expr) (body : Stmt)
  | print (token : Token) (values : List Expr)
  | bare (value : Expr)
  | sequence (items : List Stmt)
  | foreign (rendering : String)
deriving Repr

/-- A program is its statements in order. -/
abbrev Program := List Stmt

namespace Stmt

/-! ## Text -/

/-- The text of a block whose statements have the given texts. -/
def renderBlock (items : List String) : String :=
  if items.isEmpty then
    "\x7b\n\x7d"
  else
    "\x7b\n" ++ "\n".intercalate (items.map Text.indent) ++ "\n\x7d"

mutual

/-- The text of a statement. -/
def render : Stmt → String
  | .expression _ value => value.render
  | .assign _ target value => target.name ++ " = " ++ value.render
  | .block _ items => renderBlock (renderEach items)
  | .ifThen _ condition first =>
      "if (" ++ condition.render ++ ") " ++ first.render
  | .ifElse _ condition first second =>
      "if (" ++ condition.render ++ ") " ++ first.render ++
        " else " ++ second.render
  | .whileDo _ condition body =>
      "while (" ++ condition.render ++ ") " ++ body.render
  | .print _ values => "print " ++ ", ".intercalate (values.map Expr.render)
  | .bare value => value.render
  | .sequence items => "\n".intercalate (renderEach items)
  | .foreign rendering => rendering

/-- The texts of the statements of a list. -/
def renderEach : List Stmt → List String
  | [] => []
  | item :: rest => item.render :: renderEach rest

end

/-! ## Equality -/

mutual

/-- Whether two statements are equal, tokens included. -/
def same : Stmt → Stmt → Bool
  | .expression token value, .expression token' value' =>
      token = token' && value = value'
  | .assign token target value, .assign token' target' value' =>
      token = token' && target = target' && value = value'
  | .block token items, .block token' items' =>
      token = token' && sameEach items items'
  | .ifThen token condition first, .ifThen token' condition' first' =>
      token = token' && condition = condition' && first.same first'
  | .ifElse token condition first second,
      .ifElse token' condition' first' second' =>
      token = token' && condition = condition' && first.same first' &&
        second.same second'
  | .whileDo token condition body, .whileDo token' condition' body' =>
      token = token' && condition = condition' && body.same body'
  | .print token values, .print token' values' =>
      token = token' && values = values'
  | .bare value, .bare value' => value = value'
  | .sequence items, .sequence items' => sameEach items items'
  | .foreign rendering, .foreign rendering' => rendering = rendering'
  | _, _ => false

/-- Whether two lists of statements are equal. -/
def sameEach : List Stmt → List Stmt → Bool
  | [], [] => true
  | item :: rest, item' :: rest' => item.same item' && sameEach rest rest'
  | _, _ => false

end

mutual

theorem eq_of_same :
    (left right : Stmt) → left.same right = true → left = right
  | .expression .., right, equal => by
      cases right <;> simp_all [same]
  | .assign .., right, equal => by
      cases right <;> simp_all [same]
  | .block _ items, right, equal => by
      cases right <;> simp_all [same]
      exact eq_of_sameEach items _ equal.2
  | .ifThen _ _ first, right, equal => by
      cases right <;> simp_all [same]
      exact eq_of_same first _ equal.2
  | .ifElse _ _ first second, right, equal => by
      cases right <;> simp_all [same]
      exact ⟨eq_of_same first _ equal.1.2, eq_of_same second _ equal.2⟩
  | .whileDo _ _ body, right, equal => by
      cases right <;> simp_all [same]
      exact eq_of_same body _ equal.2
  | .print .., right, equal => by
      cases right <;> simp_all [same]
  | .bare _, right, equal => by
      cases right <;> simp_all [same]
  | .sequence items, right, equal => by
      cases right <;> simp_all [same]
      exact eq_of_sameEach items _ equal
  | .foreign _, right, equal => by
      cases right <;> simp_all [same]

theorem eq_of_sameEach :
    (left right : List Stmt) → sameEach left right = true → left = right
  | [], right, equal => by
      cases right <;> simp_all [sameEach]
  | item :: rest, right, equal => by
      cases right <;> simp_all [sameEach]
      exact ⟨eq_of_same item _ equal.1, eq_of_sameEach rest _ equal.2⟩

end

mutual

theorem same_self : (item : Stmt) → item.same item = true
  | .expression .. => by simp [same]
  | .assign .. => by simp [same]
  | .block _ items => by simp [same, sameEach_self items]
  | .ifThen _ _ first => by simp [same, same_self first]
  | .ifElse _ _ first second => by
      simp [same, same_self first, same_self second]
  | .whileDo _ _ body => by simp [same, same_self body]
  | .print .. => by simp [same]
  | .bare _ => by simp [same]
  | .sequence items => by simp [same, sameEach_self items]
  | .foreign _ => by simp [same]

theorem sameEach_self : (items : List Stmt) → sameEach items items = true
  | [] => by simp [sameEach]
  | item :: rest => by simp [sameEach, same_self item, sameEach_self rest]

end

theorem same_iff_eq (left right : Stmt) :
    left.same right = true ↔ left = right :=
  ⟨eq_of_same left right, fun equality => equality ▸ same_self left⟩

instance : DecidableEq Stmt :=
  fun left right => decidable_of_iff _ (same_iff_eq left right)

end Stmt

/-- The text of a program: the texts of its statements, a line end between
two. -/
def Program.render (program : Program) : String :=
  "\n".intercalate (program.map Stmt.render)

theorem Stmt.renderEach_eq_map (items : List Stmt) :
    Stmt.renderEach items = items.map Stmt.render := by
  induction items with
  | nil => rfl
  | cons item rest inductionHypothesis =>
      simp [Stmt.renderEach, inductionHypothesis]

end WhileLang
