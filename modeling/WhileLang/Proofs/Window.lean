import WhileLang.Parse.Operation

/-!
The window of a parser over its tokens. Main statements: what a step of parsing
does to the tokens that are still to be read, and how the parts of a sequence of
steps lead from one place among the tokens to a later one.
-/

namespace WhileLang.Parse

variable {α β : Type}

/-- The state of a parser that has still to read the given tokens, the first two
of which are in its window; behind the last one it sees the end of input. -/
def State.seeing
    (tokens : List Token) (fault? : Option LexicalFault) (depth : Int) : State :=
  ⟨tokens.headD Token.endOfInput, tokens.tail.headD Token.endOfInput,
    ⟨tokens.drop 2, fault?⟩, depth⟩

variable {fault? : Option LexicalFault} {depth : Int}

@[simp] theorem current_seeing (tokens : List Token) :
    (State.seeing tokens fault? depth).current =
      tokens.headD Token.endOfInput := rfl

@[simp] theorem next_seeing (tokens : List Token) :
    (State.seeing tokens fault? depth).next =
      tokens.tail.headD Token.endOfInput := rfl

theorem bind_inOutermostBlock (second : Bool → Parse β) (state : State) :
    (inOutermostBlock >>= second) state =
      second (decide (state.depth = 1)) state := by
  rw [bind_accepted rfl, List.nil_append]

/-- A parser advances as long as there is no fault behind its window. -/
theorem advance_seeing_of_sighted
    {tokens : List Token}
    (sighted : fault? = none ∨ 2 < tokens.length) :
    advance (.seeing tokens fault? depth) =
      ⟨.accepted (), .seeing tokens.tail fault? depth,
        [.pulled (tokens.tail.tail.headD Token.endOfInput)]⟩ := by
  match tokens with
  | [] => simp_all [advance, State.seeing, Feed.pull]
  | [_] => simp_all [advance, State.seeing, Feed.pull]
  | [_, _] => simp_all [advance, State.seeing, Feed.pull]
  | _ :: _ :: _ :: _ => simp [advance, State.seeing, Feed.pull]

theorem advance_seeing (tokens : List Token) :
    advance (.seeing tokens none depth) =
      ⟨.accepted (), .seeing tokens.tail none depth,
        [.pulled (tokens.tail.tail.headD Token.endOfInput)]⟩ :=
  advance_seeing_of_sighted (.inl rfl)

theorem advance_seeing_of_fault
    {tokens : List Token} {fault : LexicalFault}
    (blind : tokens.length ≤ 2) :
    (advance (.seeing tokens (some fault) depth)).verdict =
      .broken (.lexical fault) := by
  match tokens with
  | [] => simp [advance, State.seeing, Feed.pull]
  | [_] => simp [advance, State.seeing, Feed.pull]
  | [_, _] => simp [advance, State.seeing, Feed.pull]
  | _ :: _ :: _ :: _ => simp at blind

/-! ## Places among the tokens -/

/-- `rest` is what a parser has still to read at a later place among `tokens`. A
fault never comes into its window. -/
structure Later
    (fault? : Option LexicalFault) (tokens rest : List Token) : Prop where
  suffix : rest <:+ tokens
  sighted : fault? ≠ none → 2 ≤ tokens.length → 2 ≤ rest.length

namespace Later

variable {tokens middle rest : List Token}

theorem refl (tokens : List Token) : Later fault? tokens tokens :=
  ⟨List.suffix_refl _, fun _ => id⟩

theorem trans
    (first : Later fault? tokens middle)
    (second : Later fault? middle rest) :
    Later fault? tokens rest :=
  ⟨second.suffix.trans first.suffix, fun fault enough =>
    second.sighted fault (first.sighted fault enough)⟩

theorem length_le (later : Later fault? tokens rest) :
    rest.length ≤ tokens.length :=
  later.suffix.length_le

theorem tail
    {tokens : List Token}
    (sighted : fault? = none ∨ 2 < tokens.length) :
    Later fault? tokens tokens.tail := by
  refine ⟨List.tail_suffix _, fun fault _ => ?_⟩
  rcases sighted with absent | long
  · exact absurd absent fault
  · rw [List.length_tail]
    omega

end Later

/-! ## Where steps lead -/

/-- A step accepts at a later place, of which `good` holds, or rejects at a later
place, or breaks at the fault behind the tokens. -/
inductive Leads
    (fault? : Option LexicalFault) (tokens : List Token)
    (good : α → List Token → Prop) : Step α → Prop
  | accepted {value : α} {rest : List Token} {depth : Int}
      {notices : List Notice} :
      Later fault? tokens rest →
      good value rest →
      Leads fault? tokens good
        ⟨.accepted value, .seeing rest fault? depth, notices⟩
  | rejected {rest : List Token} {depth : Int} {notices : List Notice} :
      Later fault? tokens rest →
      Leads fault? tokens good ⟨.rejected, .seeing rest fault? depth, notices⟩
  | broken {fault : LexicalFault} {state : State} {notices : List Notice} :
      fault? = some fault →
      Leads fault? tokens good ⟨.broken (.lexical fault), state, notices⟩

namespace Leads

variable {tokens : List Token} {good : β → List Token → Prop}

theorem weaken
    {stronger : β → List Token → Prop} {step : Step β}
    (leads : Leads fault? tokens stronger step)
    (weaker :
      ∀ value rest, Later fault? tokens rest → stronger value rest →
        good value rest) :
    Leads fault? tokens good step := by
  cases leads with
  | accepted later holds => exact .accepted later (weaker _ _ later holds)
  | rejected later => exact .rejected later
  | broken fault => exact .broken fault

theorem pure
    {value : β}
    (holds : good value tokens) :
    Leads fault? tokens good
      ((Pure.pure value : Parse β) (.seeing tokens fault? depth)) :=
  .accepted (Later.refl tokens) holds

theorem reject :
    Leads fault? tokens good
      ((Parse.reject : Parse β) (.seeing tokens fault? depth)) :=
  .rejected (Later.refl tokens)

theorem refuse (token : Token) :
    Leads fault? tokens good
      ((Parse.refuse token : Parse β) (.seeing tokens fault? depth)) :=
  .rejected (Later.refl tokens)

theorem note (notice : Notice) :
    Leads fault? tokens (fun _ rest => rest = tokens)
      (Parse.note notice (.seeing tokens fault? depth)) :=
  .accepted (Later.refl tokens) rfl

theorem enterBlock :
    Leads fault? tokens (fun _ rest => rest = tokens)
      (Parse.enterBlock (.seeing tokens fault? depth)) :=
  .accepted (Later.refl tokens) rfl

theorem leaveBlock :
    Leads fault? tokens (fun _ rest => rest = tokens)
      (Parse.leaveBlock (.seeing tokens fault? depth)) :=
  .accepted (Later.refl tokens) rfl

/-- The second of two steps starts where the first one leads. -/
theorem bind
    {first : Parse α} {second : α → Parse β}
    {between : α → List Token → Prop}
    (leads : Leads fault? tokens between (first (.seeing tokens fault? depth)))
    (further :
      ∀ value rest depth, Later fault? tokens rest → between value rest →
        Leads fault? rest good (second value (.seeing rest fault? depth))) :
    Leads fault? tokens good
      ((first >>= second) (.seeing tokens fault? depth)) := by
  generalize start : first (.seeing tokens fault? depth) = step at leads
  cases leads with
  | @accepted value rest depth notices later holds =>
      rw [bind_accepted start]
      have last := further value rest depth later holds
      generalize second value (.seeing rest fault? depth) = step at last ⊢
      cases last with
      | accepted further holds => exact .accepted (later.trans further) holds
      | rejected further => exact .rejected (later.trans further)
      | broken fault => exact .broken fault
  | rejected later =>
      rw [bind_rejected start]
      exact .rejected later
  | broken fault =>
      rw [bind_broken start]
      exact .broken fault

/-- Behind a token that is left, fewer are to be read. -/
theorem advance :
    Leads fault? tokens (fun _ rest => rest = tokens.tail)
      (Parse.advance (.seeing tokens fault? depth)) := by
  by_cases sighted : fault? = none ∨ 2 < tokens.length
  · rw [advance_seeing_of_sighted sighted]
    exact .accepted (Later.tail sighted) rfl
  · rw [not_or] at sighted
    obtain ⟨fault, rfl⟩ := Option.ne_none_iff_exists'.mp sighted.1
    have broken :
        (Parse.advance (.seeing tokens (some fault) depth)).verdict =
          .broken (.lexical fault) :=
      advance_seeing_of_fault (Nat.not_lt.mp sighted.2)
    generalize Parse.advance (.seeing tokens (some fault) depth) = step at broken
    obtain ⟨verdict, state, notices⟩ := step
    cases broken
    exact .broken rfl

theorem expect (kind : Token.Kind) :
    Leads fault? tokens
      (fun _ rest =>
        (tokens.tail.headD Token.endOfInput).kind = kind ∧ rest = tokens.tail)
      (Parse.expect kind (.seeing tokens fault? depth)) := by
  unfold Parse.expect
  rw [bind_next, next_seeing]
  split
  · rename_i met
    exact advance.weaken fun _ _ _ shape => ⟨met, shape⟩
  · exact refuse _

theorem attempt
    {parser : Parse α} {good : Option α → List Token → Prop}
    {between : α → List Token → Prop}
    (leads : Leads fault? tokens between (parser (.seeing tokens fault? depth)))
    (some : ∀ value rest, between value rest → good (some value) rest)
    (none : ∀ rest, good none rest) :
    Leads fault? tokens good
      (Parse.attempt parser (.seeing tokens fault? depth)) := by
  unfold Parse.attempt
  generalize parser (.seeing tokens fault? depth) = step at leads ⊢
  cases leads with
  | accepted later holds => exact .accepted later (some _ _ holds)
  | rejected later => exact .accepted later (none _)
  | broken fault => exact .broken fault

theorem attempt_true
    {parser : Parse α} {between : α → List Token → Prop}
    (leads : Leads fault? tokens between (parser (.seeing tokens fault? depth))) :
    Leads fault? tokens (fun _ _ => True)
      (Parse.attempt parser (.seeing tokens fault? depth)) :=
  leads.attempt (fun _ _ _ => trivial) fun _ => trivial

theorem map
    {change : α → β} {parser : Parse α} {between : α → List Token → Prop}
    (leads : Leads fault? tokens between (parser (.seeing tokens fault? depth)))
    (changed : ∀ value rest, between value rest → good (change value) rest) :
    Leads fault? tokens good
      ((change <$> parser) (.seeing tokens fault? depth)) := by
  rw [map_eq_bind]
  exact leads.bind fun value rest depth later holds =>
    pure (changed value rest holds)

end Leads

end WhileLang.Parse
