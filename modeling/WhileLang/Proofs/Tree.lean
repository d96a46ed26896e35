import WhileLang.Proofs.Grammar

/-!
The trees that derivations make. Main statement: the tree of a derivation from
tokens of a text holds such tokens alone, each of the kind its place asks for.
-/

namespace WhileLang

/-- An expression that some tokens derive. -/
inductive Expr.Parsed : Expr → Prop
  | name {token : Token} :
      token.kind = .identifier →
      token.Spelled →
      Parsed (.ident token token.lexeme)
  | literal {token : Token} {value : Int} :
      token.Literal value →
      Parsed (.literal token value)
  | operation {sign : Token} {left right : Expr} {operator : Operator} :
      Operator.ofKind? sign.kind = some operator →
      sign.Spelled →
      Parsed left →
      Parsed right →
      Parsed (.binary sign left operator right)

mutual

/-- A statement that some tokens derive. -/
inductive Stmt.Parsed : Stmt → Prop
  | expression {token : Token} {value : Expr} :
      value.Parsed →
      Parsed (.expression token value)
  | assign {name : Token} {value : Expr} :
      name.kind = .identifier →
      name.Spelled →
      value.Parsed →
      Parsed (.assign name ⟨name, name.lexeme⟩ value)
  | print {first : Expr} {rest : List Expr} :
      (∀ value ∈ first :: rest, value.Parsed) →
      Parsed (.print (.fixed .printWord) (first :: rest))
  | ifThen {truth : Expr} {first : Stmt} :
      truth.Parsed →
      first.ParsedBlock →
      Parsed (.ifThen (.fixed .ifWord) truth first)
  | ifElse {truth : Expr} {first second : Stmt} :
      truth.Parsed →
      first.ParsedBlock →
      second.ParsedBlock →
      Parsed (.ifElse (.fixed .ifWord) truth first second)
  | whileDo {truth : Expr} {body : Stmt} :
      truth.Parsed →
      body.ParsedBlock →
      Parsed (.whileDo (.fixed .whileWord) truth body)

inductive Stmt.ParsedBlock : Stmt → Prop
  | block {items : List Stmt} :
      Stmt.ParsedEach items →
      ParsedBlock (.block (.fixed .braceOpen) items)

inductive Stmt.ParsedEach : List Stmt → Prop
  | nil : ParsedEach []
  | cons {item : Stmt} {rest : List Stmt} :
      item.Parsed →
      ParsedEach rest →
      ParsedEach (item :: rest)

end

namespace Grammar

variable {before after : List Token}

theorem Expression.parsed
    {level : Nat} {value : Expr}
    (derivation : Expression level before after value)
    (spelled : ∀ token ∈ before, token.Spelled) :
    value.Parsed := by
  induction derivation with
  | name _ kind _ => exact .name kind (spelled _ List.mem_cons_self)
  | literal _ literal _ => exact .literal literal
  | brackets _ _ _ _ _ inductionHypothesis =>
      exact inductionHypothesis fun token member =>
        spelled token (List.mem_cons_of_mem _ member)
  | tighter _ _ inductionHypothesis => exact inductionHypothesis spelled
  | operation member left _ leftHypothesis rightHypothesis =>
      have signed := ((mem_operators_iff _ _ _).mp member).1
      obtain ⟨consumed, last, rfl, _⟩ := left.ends
      refine .operation signed (spelled _ (by simp)) (leftHypothesis spelled) ?_
      exact rightHypothesis fun token member => spelled token (by simp [member])

theorem Condition.parsed
    {truth : Expr}
    (derivation : Condition before after truth)
    (spelled : ∀ token ∈ before, token.Spelled) :
    truth.Parsed := by
  cases derivation with
  | brackets _ inner _ =>
      exact inner.parsed fun token member =>
        spelled token (List.mem_cons_of_mem _ member)

theorem Values.parsed
    {values : List Expr}
    (derivation : Values before after values)
    (spelled : ∀ token ∈ before, token.Spelled) :
    ∀ value ∈ values, value.Parsed := by
  induction derivation with
  | last value =>
      intro inner member
      rw [List.mem_singleton] at member
      subst member
      exact value.parsed spelled
  | more value _ _ inductionHypothesis =>
      obtain ⟨consumed, last, rfl, _⟩ := value.ends
      refine List.forall_mem_cons.mpr ⟨value.parsed spelled, ?_⟩
      exact inductionHypothesis fun token member => spelled token (by simp [member])

theorem Values.ne_nil
    {values : List Expr}
    (derivation : Values before after values) :
    values ≠ [] := by
  cases derivation <;> nofun

mutual

theorem Statement.parsed
    {inBlock : Bool} {before after : List Token} {item : Stmt}
    (spelled : ∀ token ∈ before, token.Spelled) :
    Statement inBlock before after item → item.Parsed
  | .expression value _ => .expression (value.parsed spelled)
  | .assign name _ value =>
      .assign name (spelled _ List.mem_cons_self)
        (value.parsed fun token member => spelled token (by simp [member]))
  | .print word values => by
      obtain ⟨first, others⟩ := List.forall_mem_cons.mp spelled
      have parsed := values.parsed others
      obtain ⟨_, _, rfl⟩ := List.exists_cons_of_ne_nil values.ne_nil
      rw [Token.eq_fixed first word rfl]
      exact .print parsed
  | .ifThen word condition body _ => by
      obtain ⟨first, others⟩ := List.forall_mem_cons.mp spelled
      have spelledBody := fun token member =>
        others token (condition.suffix.subset member)
      rw [Token.eq_fixed first word rfl]
      exact .ifThen (condition.parsed others) (body.parsed spelledBody)
  | .ifElse word condition body _ other => by
      obtain ⟨first, others⟩ := List.forall_mem_cons.mp spelled
      have spelledBody := fun token member =>
        others token (condition.suffix.subset member)
      have spelledOther := fun token member =>
        spelledBody token (body.suffix.subset (List.mem_cons_of_mem _ member))
      rw [Token.eq_fixed first word rfl]
      exact .ifElse (condition.parsed others) (body.parsed spelledBody)
        (other.parsed spelledOther)
  | .whileDo word condition body => by
      obtain ⟨first, others⟩ := List.forall_mem_cons.mp spelled
      have spelledBody := fun token member =>
        others token (condition.suffix.subset member)
      rw [Token.eq_fixed first word rfl]
      exact .whileDo (condition.parsed others) (body.parsed spelledBody)

theorem Block.parsed
    {before after : List Token} {item : Stmt}
    (spelled : ∀ token ∈ before, token.Spelled) :
    Block before after item → item.ParsedBlock
  | .closed opening items _ => by
      obtain ⟨first, others⟩ := List.forall_mem_cons.mp spelled
      rw [Token.eq_fixed first opening rfl]
      exact .block (items.parsed others)
  | .left opening items _ => by
      obtain ⟨first, others⟩ := List.forall_mem_cons.mp spelled
      rw [Token.eq_fixed first opening rfl]
      exact .block (items.parsed others)

theorem Statements.parsed
    {inBlock : Bool} {before after : List Token} {items : List Stmt}
    (spelled : ∀ token ∈ before, token.Spelled) :
    Statements inBlock before after items → Stmt.ParsedEach items
  | .nil => .nil
  | .cons item others =>
      .cons (item.parsed spelled)
        (others.parsed fun token member =>
          spelled token ((item.suffix.trans (List.tail_suffix _)).subset member))

end

end Grammar

end WhileLang
