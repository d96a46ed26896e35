import WhileLang.Stmt.Exec

/-!
Changes to the tokens that neither the text nor the execution of a tree looks at.
Main statements: such a change leaves the text of a program, and what it does, as
they are.
-/

namespace WhileLang

/-- New tokens for literals, and for statements that are expressions. -/
structure Relabelling where
  literal : Token → Int → Token
  expression : Token → Expr → Token

variable (labels : Relabelling)

def Expr.relabel : Expr → Expr
  | .ident token name => .ident token name
  | .literal token value => .literal (labels.literal token value) value
  | .binary sign left operator right =>
      .binary sign left.relabel operator right.relabel
  | .foreign rendering => .foreign rendering

namespace Stmt

mutual

def relabel : Stmt → Stmt
  | .expression token value =>
      .expression (labels.expression token value) (value.relabel labels)
  | .assign name target value => .assign name target (value.relabel labels)
  | .block opening items => .block opening (relabelEach items)
  | .ifThen word condition first =>
      .ifThen word (condition.relabel labels) first.relabel
  | .ifElse word condition first second =>
      .ifElse word (condition.relabel labels) first.relabel second.relabel
  | .whileDo word condition body =>
      .whileDo word (condition.relabel labels) body.relabel
  | .print word values => .print word (values.map (Expr.relabel labels))
  | .bare value => .bare (value.relabel labels)
  | .sequence items => .sequence (relabelEach items)
  | .foreign rendering => .foreign rendering

def relabelEach : List Stmt → List Stmt
  | [] => []
  | item :: rest => item.relabel :: relabelEach rest

end

end Stmt

/-! ## Texts -/

@[simp] theorem Expr.render_relabel (value : Expr) :
    (value.relabel labels).render = value.render := by
  induction value with
  | ident _ _ => rfl
  | literal _ _ => rfl
  | binary _ left _ right leftHypothesis rightHypothesis =>
      rw [relabel, render, render, leftHypothesis, rightHypothesis]
  | foreign _ => rfl

namespace Stmt

mutual

theorem render_relabel :
    (item : Stmt) → (item.relabel labels).render = item.render
  | .expression _ _ => by rw [relabel, render, render, Expr.render_relabel]
  | .assign _ _ _ => by rw [relabel, render, render, Expr.render_relabel]
  | .block _ items => by
      rw [relabel, render, render, renderEach_relabelEach items]
  | .ifThen _ _ first => by
      rw [relabel, render, render, Expr.render_relabel, render_relabel first]
  | .ifElse _ _ first second => by
      rw [relabel, render, render, Expr.render_relabel, render_relabel first,
        render_relabel second]
  | .whileDo _ _ body => by
      rw [relabel, render, render, Expr.render_relabel, render_relabel body]
  | .print _ values => by
      simp [relabel, render, Function.comp_def]
  | .bare _ => by rw [relabel, render, render, Expr.render_relabel]
  | .sequence items => by
      rw [relabel, render, render, renderEach_relabelEach items]
  | .foreign _ => rfl

theorem renderEach_relabelEach :
    (items : List Stmt) → renderEach (relabelEach labels items) = renderEach items
  | [] => rfl
  | item :: rest => by
      rw [relabelEach, renderEach, renderEach, render_relabel item,
        renderEach_relabelEach rest]

end

end Stmt

theorem Program.render_relabelEach (program : Program) :
    Program.render (Stmt.relabelEach labels program) = program.render := by
  rw [Program.render, Program.render, ← Stmt.renderEach_eq_map,
    Stmt.renderEach_relabelEach, Stmt.renderEach_eq_map]

/-! ## Executions -/

@[simp] theorem Expr.eval_relabel (store : Store) (value : Expr) :
    (value.relabel labels).eval store = value.eval store := by
  induction value with
  | ident _ _ => rfl
  | literal _ _ => rfl
  | binary _ left _ right leftHypothesis rightHypothesis =>
      rw [relabel, eval, eval, leftHypothesis, rightHypothesis]
  | foreign _ => rfl

namespace Machine

@[simp] theorem evaluate_relabel
    (machine : Machine) (value : Expr) (next : Int → Outcome) :
    machine.evaluate (value.relabel labels) next = machine.evaluate value next := by
  rw [evaluate, evaluate, Expr.eval_relabel]

theorem printEach_relabel (values : List Expr) (machine : Machine) :
    machine.printEach (values.map (Expr.relabel labels)) =
      machine.printEach values := by
  induction values generalizing machine with
  | nil => rfl
  | cons value rest inductionHypothesis =>
      simp only [List.map_cons, printEach, evaluate_relabel, inductionHypothesis]

theorem loop_relabel
    (condition : Expr) (body : Machine → Outcome) (limit : Nat) (machine : Machine) :
    machine.loop (condition.relabel labels) body limit =
      machine.loop condition body limit := by
  induction limit generalizing machine with
  | zero => rfl
  | succ limit inductionHypothesis =>
      simp only [loop, evaluate_relabel, inductionHypothesis]

end Machine

namespace Stmt

mutual

theorem exec_relabel (limit : Nat) :
    (item : Stmt) → (item.relabel labels).exec limit = item.exec limit
  | .expression _ _ => by
      funext machine
      simp only [relabel, exec, Machine.evaluate_relabel]
  | .assign _ _ _ => by
      funext machine
      simp only [relabel, exec, Machine.evaluate_relabel]
  | .block _ items => by
      funext machine
      simp only [relabel, exec, execEach_relabelEach limit items]
  | .ifThen _ _ first => by
      funext machine
      simp only [relabel, exec, Machine.evaluate_relabel, exec_relabel limit first]
  | .ifElse _ _ first second => by
      funext machine
      simp only [relabel, exec, Machine.evaluate_relabel, exec_relabel limit first,
        exec_relabel limit second]
  | .whileDo _ _ body => by
      funext machine
      simp only [relabel, exec, exec_relabel limit body, Machine.loop_relabel]
  | .print _ values => by
      funext machine
      simp only [relabel, exec, Machine.printEach_relabel]
  | .bare _ => by
      funext machine
      simp only [relabel, exec, Machine.evaluate_relabel]
  | .sequence items => by
      funext machine
      simp only [relabel, exec, execEach_relabelEach limit items]
  | .foreign _ => rfl

theorem execEach_relabelEach (limit : Nat) :
    (items : List Stmt) →
    execEach limit (relabelEach labels items) = execEach limit items
  | [] => rfl
  | item :: rest => by
      funext value machine
      simp only [relabelEach, execEach, exec_relabel limit item,
        execEach_relabelEach limit rest]

end

end Stmt

theorem Program.exec_relabelEach (limit : Nat) (program : Program) (machine : Machine) :
    Program.exec limit (Stmt.relabelEach labels program) machine =
      program.exec limit machine := by
  rw [Program.exec, Program.exec, Stmt.execEach_relabelEach]

/-! ## Changes after changes -/

/-- A change after which nothing is left of an earlier one. -/
structure Relabelling.Hides (outer inner : Relabelling) : Prop where
  literal :
    ∀ token value,
      outer.literal (inner.literal token value) value = outer.literal token value
  expression :
    ∀ token value,
      outer.expression (inner.expression token value) (value.relabel inner) =
        outer.expression token value

variable {outer inner : Relabelling}

theorem Expr.relabel_relabel (hides : outer.Hides inner) (value : Expr) :
    (value.relabel inner).relabel outer = value.relabel outer := by
  induction value with
  | ident _ _ => rfl
  | literal token value =>
      rw [relabel, relabel, relabel, hides.literal]
  | binary _ left _ right leftHypothesis rightHypothesis =>
      rw [relabel, relabel, relabel, leftHypothesis, rightHypothesis]
  | foreign _ => rfl

namespace Stmt

mutual

theorem relabel_relabel (hides : outer.Hides inner) :
    (item : Stmt) → (item.relabel inner).relabel outer = item.relabel outer
  | .expression _ value => by
      rw [relabel, relabel, relabel, hides.expression, value.relabel_relabel hides]
  | .assign _ _ value => by
      rw [relabel, relabel, relabel, value.relabel_relabel hides]
  | .block _ items => by
      rw [relabel, relabel, relabel, relabelEach_relabelEach hides items]
  | .ifThen _ condition first => by
      rw [relabel, relabel, relabel, condition.relabel_relabel hides,
        relabel_relabel hides first]
  | .ifElse _ condition first second => by
      rw [relabel, relabel, relabel, condition.relabel_relabel hides,
        relabel_relabel hides first, relabel_relabel hides second]
  | .whileDo _ condition body => by
      rw [relabel, relabel, relabel, condition.relabel_relabel hides,
        relabel_relabel hides body]
  | .print _ values => by
      simp [relabel, Expr.relabel_relabel hides]
  | .bare value => by
      rw [relabel, relabel, relabel, value.relabel_relabel hides]
  | .sequence items => by
      rw [relabel, relabel, relabel, relabelEach_relabelEach hides items]
  | .foreign _ => rfl

theorem relabelEach_relabelEach (hides : outer.Hides inner) :
    (items : List Stmt) →
    relabelEach outer (relabelEach inner items) = relabelEach outer items
  | [] => rfl
  | item :: rest => by
      rw [relabelEach, relabelEach, relabelEach, relabel_relabel hides item,
        relabelEach_relabelEach hides rest]

end

end Stmt

end WhileLang
