import WhileLang.Proofs.Reading

/-!
Complaints and the tokens they are about. A step over tokens without a fault comes to
its end with as many blocks open as before it. Main statements: an expression is
accepted without a complaint or rejected with one, about a token that is in sight then;
and the complaints of a statement, of a block and of a program come where fewer tokens
are left each time.
-/

namespace WhileLang.Parse

variable {α β : Type}

/-! ## Steps and their complaints -/

/-- A step that comes to its end with so many blocks open. Of what it accepts and of
what it rejects something holds, with the tokens still to be read and its complaints. -/
inductive Concludes
    (depth : Int) (good : α → List Token → List Token → Prop)
    (bad : List Token → List Token → Prop) (step : Step α) : Prop
  | accepted {value : α} {rest complaints : List Token} :
      step.report = ⟨.accepted value, .seeing rest none depth, complaints⟩ →
      good value rest complaints →
      Concludes depth good bad step
  | rejected {rest complaints : List Token} :
      step.report = ⟨.rejected, .seeing rest none depth, complaints⟩ →
      bad rest complaints →
      Concludes depth good bad step

namespace Concludes

variable {depth inner : Int} {tokens : List Token} {state after : State}
variable {good : β → List Token → List Token → Prop}
variable {bad : List Token → List Token → Prop}

theorem of_report
    {step other : Step β}
    (concludes : Concludes depth good bad other)
    (same : step.report = other.report) :
    Concludes depth good bad step := by
  cases concludes with
  | accepted read holds => exact .accepted (same.trans read) holds
  | rejected refused holds => exact .rejected (same.trans refused) holds

theorem weaken
    {stronger : β → List Token → List Token → Prop}
    {worse : List Token → List Token → Prop} {step : Step β}
    (concludes : Concludes depth stronger worse step)
    (accepts :
      ∀ value rest complaints, stronger value rest complaints →
        good value rest complaints)
    (rejects : ∀ rest complaints, worse rest complaints → bad rest complaints) :
    Concludes depth good bad step := by
  cases concludes with
  | accepted read holds => exact .accepted read (accepts _ _ _ holds)
  | rejected refused holds => exact .rejected refused (rejects _ _ holds)

theorem pure
    {value : β}
    (holds : good value tokens []) :
    Concludes depth good bad
      ((Pure.pure value : Parse β) (.seeing tokens none depth)) :=
  .accepted rfl holds

theorem refuse
    {token : Token}
    (holds : bad tokens [token]) :
    Concludes depth good bad
      ((Parse.refuse token : Parse β) (.seeing tokens none depth)) :=
  .rejected rfl holds

/-- The complaints of two steps in a row follow one another. -/
theorem bind
    {first : Parse α} {second : α → Parse β}
    {between : α → List Token → List Token → Prop}
    {worse : List Token → List Token → Prop}
    (concludes : Concludes inner between worse (first state))
    (further :
      ∀ value rest complaints, between value rest complaints →
        Concludes depth (fun value rest more => good value rest (complaints ++ more))
          (fun rest more => bad rest (complaints ++ more))
          (second value (.seeing rest none inner)))
    (rejects :
      ∀ rest complaints, worse rest complaints → inner = depth ∧ bad rest complaints) :
    Concludes depth good bad ((first >>= second) state) := by
  cases concludes with
  | accepted read holds =>
      cases further _ _ _ holds with
      | accepted readBehind holds =>
          exact .accepted (report_bind_append read readBehind) holds
      | rejected refused holds =>
          exact .rejected (report_bind_append read refused) holds
  | rejected refused holds =>
      obtain ⟨rfl, holds⟩ := rejects _ _ holds
      exact .rejected (report_bind_rejected refused) holds

theorem bind_of_quiet
    {first : Parse α} {second : α → Parse β} {value : α}
    (quiet : (first state).report = ⟨.accepted value, after, []⟩)
    (further : Concludes depth good bad (second value after)) :
    Concludes depth good bad ((first >>= second) state) :=
  further.of_report (report_bind quiet)

theorem bind_advance
    {second : Unit → Parse β} {start : Int}
    (further : Concludes depth good bad (second () (.seeing tokens.tail none start))) :
    Concludes depth good bad ((advance >>= second) (.seeing tokens none start)) :=
  further.bind_of_quiet (congrArg Step.report (advance_seeing tokens))

theorem bind_expect
    {kind : Token.Kind} {second : Unit → Parse β}
    (further :
      (tokens.tail.headD Token.endOfInput).kind = kind →
        Concludes depth good bad (second () (.seeing tokens.tail none depth)))
    (rejects : bad tokens [tokens.tail.headD Token.endOfInput]) :
    Concludes depth good bad
      ((expect kind >>= second) (.seeing tokens none depth)) := by
  by_cases met : (tokens.tail.headD Token.endOfInput).kind = kind
  · have expected :
        (expect kind (.seeing tokens none depth)).report =
          ⟨.accepted (), .seeing tokens.tail none depth, []⟩ := by
      rw [expect, bind_next, next_seeing, if_pos met, advance_seeing]
      rfl
    exact (further met).bind_of_quiet expected
  · have refused :
        (expect kind (.seeing tokens none depth)).report =
          ⟨.rejected, .seeing tokens none depth,
            [tokens.tail.headD Token.endOfInput]⟩ := by
      rw [expect, bind_next, next_seeing, if_neg met]
      rfl
    exact .rejected (report_bind_rejected refused) rejects

theorem map
    {change : α → β} {parser : Parse α}
    {between : α → List Token → List Token → Prop}
    (concludes : Concludes depth between bad (parser state))
    (changed :
      ∀ value rest complaints, between value rest complaints →
        good (change value) rest complaints) :
    Concludes depth good bad ((change <$> parser) state) := by
  rw [map_eq_bind]
  refine concludes.bind ?_ fun _ _ holds => ⟨rfl, holds⟩
  intro value rest complaints holds
  refine .pure ?_
  rw [List.append_nil]
  exact changed value rest complaints holds

/-- A rejection that is put up with is an acceptance of nothing. -/
theorem attempt
    {parser : Parse β} {worse : List Token → List Token → Prop}
    (concludes : Concludes depth good worse (parser state)) :
    Concludes depth
      (fun value? rest complaints =>
        (∀ value, value? = some value → good value rest complaints) ∧
          (value? = none → worse rest complaints))
      (fun _ _ => False) (Parse.attempt parser state) := by
  cases concludes with
  | accepted read holds =>
      refine .accepted (report_attempt read) ⟨fun _ same => ?_, nofun⟩
      cases same
      exact holds
  | rejected refused holds =>
      exact .accepted (report_attempt_rejected refused) ⟨nofun, fun _ => holds⟩

end Concludes

/-! ## Complaints in the order of the tokens -/

variable {source tokens rest : List Token} {token : Token}

/-- The token a parser sees, or the one behind it, where so many tokens are left. Where
one is left, the end of input counts as the one behind it also behind that token. -/
def Sighted (source : List Token) (left : Nat) (token : Token) : Prop :=
  ∃ rest, rest <:+ source ∧ (rest.length = left ∨ rest.length + 1 = left) ∧
    token = rest.headD Token.endOfInput

/-- Complaints where fewer tokens are left each time, from below one number down to
another. -/
inductive Spotted (source : List Token) : Nat → Nat → List Token → Prop
  | nil {high low : Nat} : Spotted source high low []
  | cons {high low left : Nat} {token : Token} {complaints : List Token} :
      left < high →
      low ≤ left →
      Sighted source left token →
      Spotted source left low complaints →
      Spotted source high low (token :: complaints)

variable {high low : Nat} {complaints : List Token}

theorem Spotted.weaken
    {higher lower : Nat}
    (spotted : Spotted source high low complaints)
    (above : high ≤ higher)
    (below : lower ≤ low) :
    Spotted source higher lower complaints := by
  induction spotted generalizing higher with
  | nil => exact .nil
  | cons upper least sighted _ inductionHypothesis =>
      exact .cons (by omega) (by omega) sighted (inductionHypothesis (Nat.le_refl _) below)

theorem Spotted.append
    {higher lower next : Nat} {more : List Token}
    (spotted : Spotted source high low complaints)
    (further : Spotted source next lower more)
    (above : high ≤ higher)
    (between : next ≤ low)
    (inside : next ≤ higher)
    (below : lower ≤ low) :
    Spotted source higher lower (complaints ++ more) := by
  induction spotted generalizing higher with
  | nil => exact further.weaken inside (Nat.le_refl _)
  | cons upper least sighted _ inductionHypothesis =>
      exact .cons (by omega) (by omega) sighted
        (inductionHypothesis (Nat.le_refl _) between (by omega) below)

theorem Spotted.length_le (spotted : Spotted source high low complaints) :
    complaints.length ≤ high - low := by
  induction spotted with
  | nil => exact Nat.zero_le _
  | cons upper least _ _ inductionHypothesis =>
      rw [List.length_cons]
      omega

theorem Sighted.of_suffix
    {left : Nat}
    (sighted : Sighted rest left token)
    (suffix : rest <:+ tokens) :
    Sighted tokens left token := by
  obtain ⟨behind, further, size, same⟩ := sighted
  exact ⟨behind, further.trans suffix, size, same⟩

theorem Spotted.of_suffix
    (spotted : Spotted rest high low complaints)
    (suffix : rest <:+ tokens) :
    Spotted tokens high low complaints := by
  induction spotted with
  | nil => exact .nil
  | cons upper least sighted _ inductionHypothesis =>
      exact .cons upper least (sighted.of_suffix suffix) inductionHypothesis

/-- A token that a parser with some of the tokens left sees, as the current or as the
next one. -/
structure Faces (tokens rest : List Token) (token : Token) : Prop where
  suffix : rest <:+ tokens
  seen : token = rest.headD Token.endOfInput ∨ token = rest.tail.headD Token.endOfInput

theorem Faces.current (suffix : rest <:+ tokens) :
    Faces tokens rest (rest.headD Token.endOfInput) :=
  ⟨suffix, .inl rfl⟩

theorem Faces.next (suffix : rest <:+ tokens) :
    Faces tokens rest (rest.tail.headD Token.endOfInput) :=
  ⟨suffix, .inr rfl⟩

theorem Faces.of_suffix
    {middle : List Token}
    (faces : Faces middle rest token)
    (suffix : middle <:+ tokens) :
    Faces tokens rest token :=
  ⟨faces.suffix.trans suffix, faces.seen⟩

theorem Faces.sighted (faces : Faces tokens rest token) :
    Sighted tokens (max rest.length 1) token := by
  obtain ⟨suffix, rfl | rfl⟩ := faces
  · exact ⟨rest, suffix, by omega, rfl⟩
  · have taken := List.length_tail (l := rest)
    exact ⟨rest.tail, (List.tail_suffix rest).trans suffix, by omega, rfl⟩

/-! ## Expressions -/

variable {depth : Int} {limit : Nat}

/-- A step that accepts without a complaint, with something left of the tokens, or
rejects with a complaint about what is before it. -/
def Stumbles
    (left : List Token → Prop) (tokens : List Token) (depth : Int)
    (step : Step α) : Prop :=
  Concludes depth
    (fun _ rest complaints => rest <:+ tokens ∧ left rest ∧ complaints = [])
    (fun rest complaints => ∃ token, complaints = [token] ∧ Faces tokens rest token) step

theorem Stumbles.bind
    {left : List Token → Prop} {first : Parse α} {second : α → Parse β}
    {good : β → List Token → List Token → Prop}
    {bad : List Token → List Token → Prop}
    (stumbles : Stumbles left tokens depth (first (.seeing tokens none depth)))
    (further :
      ∀ value rest, rest <:+ tokens → left rest →
        Concludes depth good bad (second value (.seeing rest none depth)))
    (rejects : ∀ rest token, Faces tokens rest token → bad rest [token]) :
    Concludes depth good bad ((first >>= second) (.seeing tokens none depth)) := by
  refine Concludes.bind stumbles ?_ ?_
  · rintro value rest _ ⟨suffix, holds, rfl⟩
    exact further value rest suffix holds
  · rintro rest _ ⟨token, rfl, faces⟩
    exact ⟨rfl, rejects rest token faces⟩

theorem Stumbles.of_suffix
    {left : List Token → Prop} {step : Step α}
    (stumbles : Stumbles left rest depth step)
    (suffix : rest <:+ tokens) :
    Stumbles left tokens depth step := by
  apply Concludes.weaken stumbles
  · rintro _ _ _ ⟨further, holds, silent⟩
    exact ⟨further.trans suffix, holds, silent⟩
  · rintro _ _ ⟨token, same, faces⟩
    exact ⟨token, same, faces.of_suffix suffix⟩

theorem stumbles_literal (nonempty : tokens ≠ []) :
    Stumbles (· ≠ []) tokens depth
      (literal (tokens.headD Token.endOfInput) (.seeing tokens none depth)) := by
  unfold literal
  cases Numeral.readWord (tokens.headD Token.endOfInput).lexeme with
  | ok value => exact .pure ⟨List.suffix_refl _, nonempty, rfl⟩
  | error fault => exact .refuse ⟨_, rfl, Faces.current (List.suffix_refl _)⟩

section Expressions

variable
  (expression :
    ∀ (precedence : Int) (tokens : List Token) (depth : Int), 0 ≤ precedence →
      2 * tokens.length + 2 ≤ limit →
      Stumbles (· ≠ []) tokens depth
        (expressionWithin limit precedence (.seeing tokens none depth)))

include expression

theorem stumbles_operandWithin_succ (covers : 2 * tokens.length + 1 ≤ limit + 1) :
    Stumbles (· ≠ []) tokens depth
      (operandWithin (limit + 1) (.seeing tokens none depth)) := by
  rw [operandWithin_succ, current_seeing]
  split
  · rename_i name
    exact .pure ⟨List.suffix_refl _, ne_nil_of_kind_headD name (by decide), rfl⟩
  · rename_i integer
    exact stumbles_literal (ne_nil_of_kind_headD integer (by decide))
  · rename_i opening
    have nonempty :=
      List.length_pos_iff.mpr (ne_nil_of_kind_headD opening (by decide))
    have shorter := List.length_tail (l := tokens)
    have behind := List.tail_suffix tokens
    apply Concludes.bind_advance
    apply (expression 0 tokens.tail depth (by decide) (by omega)).bind
    · intro inner rest suffix visible
      apply Concludes.bind_expect
      · intro closing
        exact .pure ⟨((List.tail_suffix rest).trans suffix).trans behind,
          ne_nil_of_kind_headD closing (by decide), rfl⟩
      · exact ⟨_, rfl, Faces.next (suffix.trans behind)⟩
    · exact fun rest token faces => ⟨token, rfl, faces.of_suffix behind⟩
  · exact .refuse ⟨_, rfl, Faces.current (List.suffix_refl _)⟩

theorem stumbles_operationsWithin_succ
    {precedence : Int} {left : Expr}
    (operations :
      ∀ (left : Expr) (tokens : List Token) (depth : Int), tokens ≠ [] →
        2 * tokens.length + 1 ≤ limit →
        Stumbles (· ≠ []) tokens depth
          (operationsWithin limit precedence left (.seeing tokens none depth)))
    (nonnegative : 0 ≤ precedence)
    (nonempty : tokens ≠ [])
    (covers : 2 * tokens.length + 1 ≤ limit + 1) :
    Stumbles (· ≠ []) tokens depth
      (operationsWithin (limit + 1) precedence left (.seeing tokens none depth)) := by
  rw [operationsWithin, bind_next]
  split
  · rename_i stronger
    have enough : 2 ≤ tokens.length := by
      apply two_le_length_of_kind rfl
      intro atEnd
      rw [next_seeing, atEnd] at stronger
      exact absurd stronger (by simp [Token.Kind.precedence]; omega)
    have shorter := List.length_tail (l := tokens)
    have shorterStill := List.length_tail (l := tokens.tail)
    have behind := (List.tail_suffix tokens.tail).trans (List.tail_suffix tokens)
    apply Concludes.bind_advance
    apply Concludes.bind_advance
    apply (expression _ tokens.tail.tail depth (by omega) (by omega)).bind
    · intro right rest suffix visible
      have rightShorter := suffix.length_le
      cases found : Operator.ofKind? _ with
      | none => exact absurd found (ofKind?_ne_none nonnegative stronger)
      | some operator =>
          exact (operations _ rest depth visible (by omega)).of_suffix
            (suffix.trans behind)
    · exact fun rest token faces => ⟨token, rfl, faces.of_suffix behind⟩
  · exact .pure ⟨List.suffix_refl _, nonempty, rfl⟩

end Expressions

/-- Expressions are accepted without a complaint or rejected with one, about what is
before the parser. -/
theorem stumbles_expressionWithin (limit : Nat) :
    (∀ (precedence : Int) (tokens : List Token) (depth : Int), 0 ≤ precedence →
      2 * tokens.length + 2 ≤ limit →
      Stumbles (· ≠ []) tokens depth
        (expressionWithin limit precedence (.seeing tokens none depth))) ∧
    (∀ (tokens : List Token) (depth : Int), 2 * tokens.length + 1 ≤ limit →
      Stumbles (· ≠ []) tokens depth
        (operandWithin limit (.seeing tokens none depth))) ∧
    (∀ precedence : Int, 0 ≤ precedence →
      ∀ (left : Expr) (tokens : List Token) (depth : Int), tokens ≠ [] →
      2 * tokens.length + 1 ≤ limit →
      Stumbles (· ≠ []) tokens depth
        (operationsWithin limit precedence left (.seeing tokens none depth))) := by
  induction limit with
  | zero =>
      refine ⟨?_, ?_, ?_⟩
      all_goals
        intros
        omega
  | succ limit inductionHypothesis =>
      obtain ⟨expression, operand, operations⟩ := inductionHypothesis
      refine ⟨?_, ?_, ?_⟩
      · intro precedence tokens depth nonnegative covers
        rw [expressionWithin]
        apply (operand tokens depth (by omega)).bind
        · intro value rest suffix visible
          have shorter := suffix.length_le
          rw [bind_next]
          split
          · exact .refuse ⟨_, rfl, Faces.next suffix⟩
          · exact (operations precedence nonnegative value rest depth visible
              (by omega)).of_suffix suffix
        · exact fun rest token faces => ⟨token, rfl, faces⟩
      · exact fun tokens depth => stumbles_operandWithin_succ expression
      · intro precedence nonnegative left tokens depth
        exact stumbles_operationsWithin_succ expression
          (operations precedence nonnegative) nonnegative

theorem stumbles_conditionWithin (covers : 2 * tokens.length + 2 ≤ limit) :
    Stumbles (·.length < tokens.length) tokens depth
      (conditionWithin limit (.seeing tokens none depth)) := by
  have behind := (List.tail_suffix tokens.tail).trans (List.tail_suffix tokens)
  have shorter := behind.length_le
  rw [conditionWithin]
  apply Concludes.bind_expect
  · intro opening
    apply Concludes.bind_advance
    apply ((stumbles_expressionWithin limit).1 0 _ _ (by decide) (by omega)).bind
    · intro truth rest suffix visible
      apply Concludes.bind_expect
      · intro closing
        have inside : rest.tail ≠ [] := ne_nil_of_kind_headD closing (by decide)
        have taken := List.length_tail (l := rest)
        have takenToo := List.length_tail (l := rest.tail)
        have positive := List.length_pos_iff.mpr inside
        have restShorter := suffix.length_le
        have final := (List.tail_suffix rest.tail).trans (List.tail_suffix rest)
        apply Concludes.bind_advance
        exact .pure ⟨(final.trans suffix).trans behind, by omega, rfl⟩
      · exact ⟨_, rfl, Faces.next (suffix.trans behind)⟩
    · exact fun rest token faces => ⟨token, rfl, faces.of_suffix behind⟩
  · exact ⟨_, rfl, Faces.next (List.suffix_refl _)⟩

theorem stumbles_expressionsWithin (limit : Nat) :
    ∀ (tokens : List Token) (depth : Int), tokens ≠ [] →
      2 * tokens.length + 1 ≤ limit →
      Stumbles (· ≠ []) tokens depth
        (expressionsWithin limit (.seeing tokens none depth)) := by
  induction limit with
  | zero =>
      intros
      omega
  | succ limit inductionHypothesis =>
      intro tokens depth nonempty covers
      have positive := List.length_pos_iff.mpr nonempty
      have shorter := List.length_tail (l := tokens)
      have behind := List.tail_suffix tokens
      rw [expressionsWithin]
      apply Concludes.bind_advance
      apply ((stumbles_expressionWithin limit).1 0 _ _ (by decide) (by omega)).bind
      · intro value rest suffix visible
        have restShorter := suffix.length_le
        rw [bind_next]
        split
        · rename_i comma
          have more : rest.tail ≠ [] := ne_nil_of_kind_headD comma (by decide)
          have taken := List.length_tail (l := rest)
          have final := ((List.tail_suffix rest).trans suffix).trans behind
          have others :=
            (inductionHypothesis rest.tail depth more (by omega)).of_suffix final
          apply Concludes.bind_advance
          exact Concludes.map others fun _ _ _ holds => holds
        · exact .pure ⟨suffix.trans behind, visible, rfl⟩
      · exact fun rest token faces => ⟨token, rfl, faces.of_suffix behind⟩

/-! ## Statements -/

/-- A statement that leaves some tokens complains where no fewer are left than this.
Outside of all blocks the end of input may have been complained of. -/
def lowest (depth : Int) (tokens : List Token) : Nat :=
  if (tokens.headD Token.endOfInput).kind = .endOfInput ∧ depth ≤ 0 then tokens.length
  else tokens.length + 1

/-- Where parsing goes on at some tokens, up to one of a kind that stops it, complaints
come where fewer tokens are left than this. -/
def ceiling (stop : Token.Kind) (depth : Int) (tokens : List Token) : Nat :=
  if (tokens.headD Token.endOfInput).kind = stop then tokens.length
  else lowest depth tokens

theorem lowest_bounds (depth : Int) (tokens : List Token) :
    tokens.length ≤ lowest depth tokens ∧ lowest depth tokens ≤ tokens.length + 1 := by
  unfold lowest
  split <;> omega

theorem lowest_of_ne
    (depth : Int)
    (goesOn : (tokens.headD Token.endOfInput).kind ≠ .endOfInput) :
    lowest depth tokens = tokens.length + 1 :=
  if_neg fun atEnd => goesOn atEnd.1

theorem lowest_le_lowest
    {depth inner : Int}
    (within : depth ≤ inner)
    (tokens : List Token) :
    lowest depth tokens ≤ lowest inner tokens := by
  by_cases low : (tokens.headD Token.endOfInput).kind = .endOfInput ∧ inner ≤ 0
  · rw [lowest, lowest, if_pos low, if_pos ⟨low.1, Int.le_trans within low.2⟩]
  · exact (lowest_bounds depth tokens).2.trans_eq (if_neg low).symm

theorem ceiling_bounds (stop : Token.Kind) (depth : Int) (tokens : List Token) :
    tokens.length ≤ ceiling stop depth tokens ∧
      ceiling stop depth tokens ≤ tokens.length + 1 := by
  have bounds := lowest_bounds depth tokens
  unfold ceiling
  split <;> omega

theorem ceiling_le_lowest (stop : Token.Kind) (depth : Int) (tokens : List Token) :
    ceiling stop depth tokens ≤ lowest depth tokens := by
  have bounds := lowest_bounds depth tokens
  unfold ceiling
  split <;> omega

theorem ceiling_of_ne
    {stop : Token.Kind}
    (depth : Int)
    (goesOn : (tokens.headD Token.endOfInput).kind ≠ stop) :
    ceiling stop depth tokens = lowest depth tokens :=
  if_neg goesOn

/-- A step that takes tokens if it accepts, with complaints in the order of the tokens.
One that rejects complains last of what is before it. -/
def Descends (tokens : List Token) (depth : Int) (step : Step α) : Prop :=
  Concludes depth
    (fun _ rest complaints =>
      rest <:+ tokens ∧ rest.length < tokens.length ∧
        Spotted tokens tokens.length (lowest depth rest) complaints)
    (fun rest complaints =>
      rest <:+ tokens ∧ complaints ≠ [] ∧
        Spotted tokens (max tokens.length (max rest.length 1 + 1)) (max rest.length 1)
          complaints)
    step

theorem Faces.spotted (faces : Faces tokens rest token) :
    rest <:+ tokens ∧ [token] ≠ [] ∧
      Spotted tokens (max tokens.length (max rest.length 1 + 1)) (max rest.length 1)
        [token] :=
  ⟨faces.suffix, List.cons_ne_nil _ _,
    .cons (by omega) (Nat.le_refl _) faces.sighted .nil⟩

/-- To step off the last token of an expression takes it. -/
theorem descends_advance
    {value : α}
    (suffix : rest <:+ tokens)
    (visible : rest ≠ []) :
    Descends tokens depth
      ((do advance; pure value : Parse α) (.seeing rest none depth)) := by
  have taken := List.length_tail (l := rest)
  have positive := List.length_pos_iff.mpr visible
  have shorter := suffix.length_le
  apply Concludes.bind_advance
  exact .pure ⟨(List.tail_suffix rest).trans suffix, by omega, .nil⟩

theorem descends_expressionStatementWithin
    (covers : 2 * tokens.length + 2 ≤ limit) :
    Descends tokens depth
      (expressionStatementWithin limit (.seeing tokens none depth)) := by
  rw [expressionStatementWithin, bind_current]
  apply ((stumbles_expressionWithin limit).1 0 _ _ (by decide) covers).bind
  · exact fun value rest suffix visible => descends_advance suffix visible
  · exact fun rest token faces => faces.spotted

theorem descends_assignmentWithin
    (covers : 2 * tokens.length + 2 ≤ limit) :
    Descends tokens depth (assignmentWithin limit (.seeing tokens none depth)) := by
  have behind := (List.tail_suffix tokens.tail).trans (List.tail_suffix tokens)
  have shorter := behind.length_le
  rw [assignmentWithin, bind_current]
  apply Concludes.bind_expect
  · intro assigned
    apply Concludes.bind_advance
    apply ((stumbles_expressionWithin limit).1 0 _ _ (by decide) (by omega)).bind
    · exact fun value rest suffix visible =>
        descends_advance (suffix.trans behind) visible
    · exact fun rest token faces => (faces.of_suffix behind).spotted
  · exact (Faces.next (List.suffix_refl _)).spotted

theorem descends_printWithin
    (nonempty : tokens ≠ [])
    (covers : 2 * tokens.length + 1 ≤ limit) :
    Descends tokens depth (printWithin limit (.seeing tokens none depth)) := by
  rw [printWithin, bind_current]
  apply (stumbles_expressionsWithin limit _ _ nonempty covers).bind
  · exact fun values rest suffix visible => descends_advance suffix visible
  · exact fun rest token faces => faces.spotted

section Statements

variable
  (block :
    ∀ (tokens : List Token) (depth : Int), 2 * tokens.length + 3 ≤ limit →
      Descends tokens depth (blockWithin limit (.seeing tokens none depth)))

include block

theorem descends_ifWithin
    {word : Token}
    (covers : 2 * tokens.length + 3 ≤ limit + 1) :
    Descends tokens depth
      ((do
        let truth ← conditionWithin limit
        let first ← blockWithin limit
        let following ← current
        if following.kind = .elseWord then do
          advance
          let second ← blockWithin limit
          pure (.ifElse word truth first second)
        else
          pure (.ifThen word truth first) : Parse Stmt)
        (.seeing tokens none depth)) := by
  apply (stumbles_conditionWithin (by omega)).bind
  · intro truth middle truthSuffix truthShorter
    apply Concludes.bind (block middle depth (by omega))
    · rintro first rest complaints ⟨firstSuffix, firstShorter, firstSpotted⟩
      have inside := firstSpotted.of_suffix truthSuffix
      rw [bind_current]
      split
      · rename_i elseAhead
        have nonempty :=
          List.length_pos_iff.mpr (ne_nil_of_kind_headD elseAhead (by decide))
        have taken := List.length_tail (l := rest)
        have behind :=
          ((List.tail_suffix rest).trans firstSuffix).trans truthSuffix
        have goesOn : (rest.headD Token.endOfInput).kind ≠ .endOfInput := by
          rw [current_seeing] at elseAhead
          rw [elseAhead]
          decide
        rw [lowest_of_ne depth goesOn] at inside
        apply Concludes.bind_advance
        apply Concludes.bind (block rest.tail depth (by omega))
        · rintro second final more ⟨secondSuffix, secondShorter, secondSpotted⟩
          have bounds := lowest_bounds depth final
          refine .pure ⟨secondSuffix.trans behind, by omega, ?_⟩
          rw [List.append_nil]
          exact inside.append (secondSpotted.of_suffix behind) (by omega) (by omega)
            (by omega) (by omega)
        · rintro final more ⟨secondSuffix, complains, secondSpotted⟩
          have secondShorter := secondSuffix.length_le
          refine ⟨rfl, secondSuffix.trans behind,
            List.append_ne_nil_of_right_ne_nil _ complains, ?_⟩
          exact inside.append (secondSpotted.of_suffix behind) (by omega) (by omega)
            (by omega) (by omega)
      · refine .pure ⟨firstSuffix.trans truthSuffix, by omega, ?_⟩
        rw [List.append_nil]
        exact inside.weaken (by omega) (Nat.le_refl _)
    · rintro rest complaints ⟨firstSuffix, complains, firstSpotted⟩
      have firstShorter := firstSuffix.length_le
      exact ⟨rfl, firstSuffix.trans truthSuffix, complains,
        (firstSpotted.of_suffix truthSuffix).weaken (by omega) (Nat.le_refl _)⟩
  · exact fun rest token faces => faces.spotted

theorem descends_whileWithin
    {word : Token}
    (covers : 2 * tokens.length + 3 ≤ limit + 1) :
    Descends tokens depth
      ((do
        let truth ← conditionWithin limit
        let body ← blockWithin limit
        pure (.whileDo word truth body) : Parse Stmt)
        (.seeing tokens none depth)) := by
  apply (stumbles_conditionWithin (by omega)).bind
  · intro truth middle truthSuffix truthShorter
    apply Concludes.bind (block middle depth (by omega))
    · rintro body rest complaints ⟨suffix, shorter, spotted⟩
      refine .pure ⟨suffix.trans truthSuffix, by omega, ?_⟩
      rw [List.append_nil]
      exact (spotted.of_suffix truthSuffix).weaken (by omega) (Nat.le_refl _)
    · rintro rest complaints ⟨suffix, complains, spotted⟩
      have shorter := suffix.length_le
      exact ⟨rfl, suffix.trans truthSuffix, complains,
        (spotted.of_suffix truthSuffix).weaken (by omega) (Nat.le_refl _)⟩
  · exact fun rest token faces => faces.spotted

theorem descends_statementWithin_succ
    {inBlock : Bool}
    (covers : 2 * tokens.length + 3 ≤ limit + 1) :
    Descends tokens depth
      (statementWithin (limit + 1) inBlock (.seeing tokens none depth)) := by
  rw [statementWithin_succ]
  split
  · split
    · exact descends_expressionStatementWithin (by omega)
    · exact descends_assignmentWithin (by omega)
  · exact descends_ifWithin block covers
  · exact descends_whileWithin block covers
  · rename_i word
    have nonempty : tokens ≠ [] := ne_nil_of_kind_headD word (by decide)
    exact descends_printWithin nonempty (by omega)
  · exact descends_expressionStatementWithin (by omega)

end Statements

/-! ## Blocks -/

/-- A row of statements is never rejected. It ends before a token of some sort, with
complaints in the order of the tokens, and complains of no more of them than it
takes. -/
def Lines
    (ends : Token.Kind → Prop) (stop : Token.Kind) (tokens : List Token) (depth : Int)
    (step : Step α) : Prop :=
  Concludes depth
    (fun _ rest complaints =>
      rest <:+ tokens ∧ ends (rest.headD Token.endOfInput).kind ∧
        complaints.length + rest.length ≤ tokens.length ∧
          ceiling stop depth rest ≤ ceiling stop depth tokens ∧
            Spotted tokens (ceiling stop depth tokens) (ceiling stop depth rest)
              complaints)
    (fun _ _ => False) step

/-- A row of statements goes on behind one of them. -/
theorem Lines.behind
    {ends : Token.Kind → Prop} {stop : Token.Kind} {step : Step α}
    (lines : Lines ends stop rest depth step)
    (suffix : rest <:+ tokens)
    (cost : complaints.length + rest.length ≤ tokens.length)
    (spotted : Spotted tokens (ceiling stop depth tokens) low complaints)
    (between : ceiling stop depth rest ≤ low)
    (inside : ceiling stop depth rest ≤ ceiling stop depth tokens) :
    Concludes depth
      (fun _ final more =>
        final <:+ tokens ∧ ends (final.headD Token.endOfInput).kind ∧
          (complaints ++ more).length + final.length ≤ tokens.length ∧
            ceiling stop depth final ≤ ceiling stop depth tokens ∧
              Spotted tokens (ceiling stop depth tokens) (ceiling stop depth final)
                (complaints ++ more))
      (fun _ _ => False) step := by
  refine Concludes.weaken lines ?_ fun _ _ => id
  rintro _ final more ⟨further, atEnd, moreCost, below, moreSpotted⟩
  refine ⟨further.trans suffix, atEnd, ?_, below.trans inside, ?_⟩
  · rw [List.length_append]
    omega
  · exact spotted.append (moreSpotted.of_suffix suffix) (Nat.le_refl _) between inside
      (below.trans between)

/-- The outermost of the blocks that are open at the end of input complains of it. -/
theorem concludes_closeBlock :
    Concludes depth
      (fun _ final complaints =>
        final <:+ tokens ∧
          lowest depth final ≤ ceiling .braceClose (depth + 1) tokens ∧
            Spotted tokens (ceiling .braceClose (depth + 1) tokens) (lowest depth final)
              complaints)
      (fun _ _ => False) (closeBlock (.seeing tokens none (depth + 1))) := by
  rw [closeBlock_eq, current_seeing]
  by_cases closes : (tokens.headD Token.endOfInput).kind = .braceClose
  · have nonempty :=
      List.length_pos_iff.mpr (ne_nil_of_kind_headD closes (by decide))
    have taken := List.length_tail (l := tokens)
    have bounds := lowest_bounds depth tokens.tail
    have above := ceiling_bounds .braceClose (depth + 1) tokens
    rw [if_pos closes]
    apply Concludes.bind_advance
    exact .accepted Grammar.report_leaveBlock ⟨List.tail_suffix tokens, by omega, .nil⟩
  · have above := ceiling_of_ne (depth + 1) closes
    have within := lowest_le_lowest (Int.le_of_lt (Int.lt_succ depth)) tokens
    rw [if_neg closes]
    split
    · rename_i outermost
      obtain ⟨atEnd, single⟩ := outermost
      change depth + 1 = 1 at single
      obtain rfl : depth = 0 := by omega
      have level : lowest 0 tokens = tokens.length := if_pos ⟨atEnd, Int.le_refl 0⟩
      have higher : lowest (0 + 1) tokens = tokens.length + 1 :=
        if_neg fun low => nomatch low.2
      refine .accepted rfl ⟨List.suffix_refl tokens, by omega, ?_⟩
      rw [above, level]
      exact .cons (by omega) (Nat.le_refl _)
        ⟨tokens, List.suffix_refl tokens, .inl rfl, rfl⟩ .nil
    · exact .accepted Grammar.report_leaveBlock ⟨List.suffix_refl tokens, by omega, .nil⟩

theorem descends_blockWithin_succ
    (items :
      ∀ (tokens : List Token) (depth : Int), 2 * tokens.length + 4 ≤ limit →
        Lines (endsBlock · = true) .braceClose tokens depth
          (itemsWithin limit (.seeing tokens none depth)))
    (covers : 2 * tokens.length + 3 ≤ limit + 1) :
    Descends tokens depth (blockWithin (limit + 1) (.seeing tokens none depth)) := by
  rw [blockWithin, bind_current]
  split
  · rename_i opening
    have positive :=
      List.length_pos_iff.mpr (ne_nil_of_kind_headD opening (by decide))
    have taken := List.length_tail (l := tokens)
    have behind := List.tail_suffix tokens
    have above := ceiling_bounds .braceClose (depth + 1) tokens.tail
    apply Concludes.bind_advance
    apply Concludes.bind_of_quiet rfl
    refine Concludes.bind (items tokens.tail (depth + 1) (by omega)) ?_
      fun _ _ never => never.elim
    rintro inner rest complaints ⟨suffix, _, _, below, spotted⟩
    refine Concludes.bind concludes_closeBlock ?_ fun _ _ never => never.elim
    rintro _ final more ⟨further, lower, moreSpotted⟩
    have shorter := (further.trans suffix).length_le
    refine .pure ⟨(further.trans suffix).trans behind, by omega, ?_⟩
    rw [List.append_nil]
    exact (spotted.of_suffix behind).append (moreSpotted.of_suffix (suffix.trans behind))
      (by omega) (Nat.le_refl _) (by omega) lower
  · exact .refuse (Faces.current (List.suffix_refl _)).spotted

/-- Behind a statement that is rejected one more token is taken. -/
theorem Spotted.behind
    (spotted :
      Spotted tokens (max tokens.length (max rest.length 1 + 1)) (max rest.length 1)
        complaints)
    (suffix : rest <:+ tokens)
    (positive : 0 < tokens.length)
    (stop : Token.Kind)
    (depth : Int) :
    complaints.length + rest.tail.length ≤ tokens.length ∧
      rest.tail.length < tokens.length ∧
        ceiling stop depth rest.tail ≤ max rest.length 1 := by
  have count := spotted.length_le
  have shorter := suffix.length_le
  have taken := List.length_tail (l := rest)
  have bounds := ceiling_bounds stop depth rest.tail
  omega

/-- Behind a statement of a block that is rejected, at a closing brace or behind one
more token, what is before the parser has not been complained of. -/
theorem exists_report_recovery
    (suffix : rest <:+ tokens)
    (spotted :
      Spotted tokens (max tokens.length (max rest.length 1 + 1)) (max rest.length 1)
        complaints)
    (continues : ¬ endsBlock (tokens.headD Token.endOfInput).kind = true)
    (depth : Int) :
    ∃ final,
      (recover (.seeing rest none depth)).report =
        ⟨.accepted (), .seeing final none depth, []⟩ ∧
      final <:+ tokens ∧ final.length < tokens.length ∧
        complaints.length + final.length ≤ tokens.length ∧
          ceiling .braceClose depth final ≤ max rest.length 1 := by
  have positive : 0 < tokens.length := by
    rw [List.length_pos_iff]
    rintro rfl
    exact continues rfl
  rw [recover, bind_current]
  split
  · rename_i closing
    rw [current_seeing] at closing
    have nonempty :=
      List.length_pos_iff.mpr (ne_nil_of_kind_headD closing (by decide))
    have shorter := suffix.length_le
    -- The brace is a later one, since a block does not go on at a brace.
    have other : rest.length ≠ tokens.length := by
      intro same
      obtain rfl := suffix.eq_of_length same
      rw [closing] at continues
      exact continues rfl
    have count := spotted.length_le
    have level : ceiling .braceClose depth rest = rest.length := if_pos closing
    exact ⟨rest, rfl, suffix, by omega, by omega, by omega⟩
  · obtain ⟨cost, shorter, below⟩ := spotted.behind suffix positive .braceClose depth
    exact ⟨rest.tail, congrArg Step.report (advance_seeing rest),
      (List.tail_suffix rest).trans suffix, shorter, cost, below⟩

theorem lines_itemsWithin_succ
    (statement :
      ∀ (tokens : List Token) (depth : Int), 2 * tokens.length + 3 ≤ limit →
        Descends tokens depth (statementWithin limit true (.seeing tokens none depth)))
    (items :
      ∀ (tokens : List Token) (depth : Int), 2 * tokens.length + 4 ≤ limit →
        Lines (endsBlock · = true) .braceClose tokens depth
          (itemsWithin limit (.seeing tokens none depth)))
    (covers : 2 * tokens.length + 4 ≤ limit + 1) :
    Lines (endsBlock · = true) .braceClose tokens depth
      (itemsWithin (limit + 1) (.seeing tokens none depth)) := by
  rw [itemsWithin, bind_current]
  split
  · rename_i atEnd
    exact .pure ⟨List.suffix_refl _, atEnd, Nat.le_of_eq (Nat.zero_add _),
      Nat.le_refl _, .nil⟩
  · rename_i continues
    have noBrace : (tokens.headD Token.endOfInput).kind ≠ .braceClose := by
      intro closing
      rw [current_seeing, closing] at continues
      exact continues rfl
    have goesOn : (tokens.headD Token.endOfInput).kind ≠ .endOfInput := by
      intro atEnd
      rw [current_seeing, atEnd] at continues
      exact continues rfl
    have above := (ceiling_of_ne depth noBrace).trans (lowest_of_ne depth goesOn)
    refine Concludes.bind (statement tokens depth (by omega)).attempt ?_
      fun _ _ never => never.elim
    rintro item? rest complaints ⟨accepted, rejected⟩
    cases item? with
    | some item =>
        obtain ⟨suffix, shorter, spotted⟩ := accepted item rfl
        have count := spotted.length_le
        have level := lowest_bounds depth rest
        have below := ceiling_le_lowest .braceClose depth rest
        have others := (items rest depth (by omega)).behind suffix (by omega)
          (spotted.weaken (by omega) (Nat.le_refl _)) below (by omega)
        exact Concludes.map others fun _ _ _ holds => holds
    | none =>
        obtain ⟨suffix, _, spotted⟩ := rejected rfl
        obtain ⟨final, recovered, further, shorter, cost, below⟩ :=
          exists_report_recovery suffix spotted continues depth
        have restShorter := suffix.length_le
        have bounds := ceiling_bounds .braceClose depth final
        apply Concludes.bind_of_quiet recovered
        exact (items final depth (by omega)).behind further cost
          (spotted.weaken (by omega) (Nat.le_refl _)) below (by omega)

theorem descends_statementWithin (limit : Nat) :
    (∀ (inBlock : Bool) (tokens : List Token) (depth : Int),
      2 * tokens.length + 3 ≤ limit →
      Descends tokens depth
        (statementWithin limit inBlock (.seeing tokens none depth))) ∧
    (∀ (tokens : List Token) (depth : Int), 2 * tokens.length + 3 ≤ limit →
      Descends tokens depth (blockWithin limit (.seeing tokens none depth))) ∧
    (∀ (tokens : List Token) (depth : Int), 2 * tokens.length + 4 ≤ limit →
      Lines (endsBlock · = true) .braceClose tokens depth
        (itemsWithin limit (.seeing tokens none depth))) := by
  induction limit with
  | zero =>
      refine ⟨?_, ?_, ?_⟩
      all_goals
        intros
        omega
  | succ limit inductionHypothesis =>
      obtain ⟨statement, block, items⟩ := inductionHypothesis
      exact ⟨fun _ _ _ => descends_statementWithin_succ block,
        fun _ _ => descends_blockWithin_succ items,
        fun _ _ => lines_itemsWithin_succ (statement true) items⟩

/-! ## Programs -/

theorem lines_programWithin (limit : Nat) :
    ∀ (tokens : List Token) (depth : Int), 2 * tokens.length + 4 ≤ limit →
      Lines (· = .endOfInput) .endOfInput tokens depth
        (programWithin limit (.seeing tokens none depth)) := by
  induction limit with
  | zero =>
      intros
      omega
  | succ limit inductionHypothesis =>
      intro tokens depth covers
      rw [programWithin, bind_current]
      split
      · rename_i atEnd
        exact .pure ⟨List.suffix_refl _, atEnd, Nat.le_of_eq (Nat.zero_add _),
          Nat.le_refl _, .nil⟩
      · rename_i continues
        have above :=
          (ceiling_of_ne depth continues).trans (lowest_of_ne depth continues)
        have positive :=
          List.length_pos_iff.mpr (ne_nil_of_kind_headD rfl continues)
        have statement :=
          (descends_statementWithin limit).1 false tokens depth (by omega)
        refine Concludes.bind statement.attempt ?_ fun _ _ never => never.elim
        rintro item? rest complaints ⟨accepted, rejected⟩
        cases item? with
        | some item =>
            obtain ⟨suffix, shorter, spotted⟩ := accepted item rfl
            have count := spotted.length_le
            have level := lowest_bounds depth rest
            have below := ceiling_le_lowest .endOfInput depth rest
            have others :=
              (inductionHypothesis rest depth (by omega)).behind suffix (by omega)
                (spotted.weaken (by omega) (Nat.le_refl _)) below (by omega)
            apply Concludes.bind_of_quiet rfl
            exact Concludes.map others fun _ _ _ holds => holds
        | none =>
            obtain ⟨suffix, _, spotted⟩ := rejected rfl
            obtain ⟨cost, shorter, below⟩ :=
              spotted.behind suffix positive .endOfInput depth
            have restShorter := suffix.length_le
            apply Concludes.bind_advance
            exact (inductionHypothesis rest.tail depth (by omega)).behind
              ((List.tail_suffix rest).trans suffix) cost
              (spotted.weaken (by omega) (Nat.le_refl _)) below (by omega)

/-! ## Without a limit -/

theorem stumbles_expression
    {precedence : Int}
    (nonnegative : 0 ≤ precedence)
    (tokens : List Token) (depth : Int) :
    Stumbles (· ≠ []) tokens depth
      (expression precedence (.seeing tokens none depth)) := by
  have covers := covers_bound tokens none depth
  exact (stumbles_expressionWithin _).1 precedence tokens depth nonnegative (by omega)

theorem stumbles_condition (tokens : List Token) (depth : Int) :
    Stumbles (·.length < tokens.length) tokens depth
      (condition (.seeing tokens none depth)) := by
  have covers := covers_bound tokens none depth
  exact stumbles_conditionWithin (by omega)

theorem descends_statement (inBlock : Bool) (tokens : List Token) (depth : Int) :
    Descends tokens depth (statement inBlock (.seeing tokens none depth)) := by
  have covers := covers_bound tokens none depth
  exact (descends_statementWithin _).1 inBlock tokens depth (by omega)

theorem descends_block (tokens : List Token) (depth : Int) :
    Descends tokens depth (block (.seeing tokens none depth)) := by
  have covers := covers_bound tokens none depth
  exact (descends_statementWithin _).2.1 tokens depth (by omega)

theorem lines_program (tokens : List Token) (depth : Int) :
    Lines (· = .endOfInput) .endOfInput tokens depth
      (program (.seeing tokens none depth)) :=
  lines_programWithin _ tokens depth (covers_bound tokens none depth)

end WhileLang.Parse
