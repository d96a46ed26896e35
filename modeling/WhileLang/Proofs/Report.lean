import WhileLang.Proofs.Unlimited

/-!
What a step amounts to: its verdict, where it leaves the parser, and its
complaints. Main statement: the reports of the parts of a sequence make up the
report of the sequence.
-/

namespace WhileLang.Parse

variable {α β : Type}

/-- A step without the notices that are no complaints. -/
structure Report (α : Type) where
  verdict : Verdict α
  state : State
  complaints : List Token

def Step.report (step : Step α) : Report α :=
  ⟨step.verdict, step.state, unexpectedTokens step.notices⟩

variable {first : Parse α} {second : α → Parse β} {parser : Parse α}
variable {state after : State} {value : α} {complaints : List Token}

/-- The complaints of two steps in a row are those of the one and then those of the
other. -/
theorem report_bind_append
    {verdict : Verdict β} {final : State} {more : List Token}
    (read : (first state).report = ⟨.accepted value, after, complaints⟩)
    (readBehind : (second value after).report = ⟨verdict, final, more⟩) :
    ((first >>= second) state).report = ⟨verdict, final, complaints ++ more⟩ := by
  rcases start : first state with ⟨verdict, _, notices⟩
  rw [start] at read
  simp only [Step.report, Report.mk.injEq] at read readBehind
  obtain ⟨rfl, rfl, rfl⟩ := read
  obtain ⟨rfl, rfl, rfl⟩ := readBehind
  rw [bind_accepted start]
  simp only [Step.report, unexpectedTokens_append]

theorem report_bind
    (quiet : (first state).report = ⟨.accepted value, after, []⟩) :
    ((first >>= second) state).report = (second value after).report :=
  report_bind_append quiet rfl

theorem report_bind_of_quiet
    {verdict : Verdict β} {final : State}
    (read : (first state).report = ⟨.accepted value, after, complaints⟩)
    (quiet : (second value after).report = ⟨verdict, final, []⟩) :
    ((first >>= second) state).report = ⟨verdict, final, complaints⟩ := by
  have both := report_bind_append read quiet
  rwa [List.append_nil] at both

theorem report_bind_rejected
    (refused : (first state).report = ⟨.rejected, after, complaints⟩) :
    ((first >>= second) state).report = ⟨.rejected, after, complaints⟩ := by
  rcases start : first state with ⟨verdict, _, notices⟩
  rw [start] at refused
  simp only [Step.report, Report.mk.injEq] at refused
  obtain ⟨rfl, rfl, rfl⟩ := refused
  rw [bind_rejected start]
  rfl

/-- Steps that amount to the same can be followed by the same. -/
theorem report_bind_congr
    {first' : Parse α} {state' : State}
    (same : (first state).report = (first' state').report) :
    ((first >>= second) state).report = ((first' >>= second) state').report := by
  rcases start : first state with ⟨verdict, _, notices⟩
  rcases start' : first' state' with ⟨verdict', _, notices'⟩
  rw [start, start'] at same
  simp only [Step.report, Report.mk.injEq] at same
  obtain ⟨rfl, rfl, complaints⟩ := same
  cases verdict with
  | accepted value =>
      rw [bind_accepted start, bind_accepted start']
      simp only [Step.report, unexpectedTokens_append, complaints]
  | rejected =>
      rw [bind_rejected start, bind_rejected start']
      simp only [Step.report, complaints]
  | broken breakage =>
      rw [bind_broken start, bind_broken start']
      simp only [Step.report, complaints]

theorem report_attempt
    (read : (parser state).report = ⟨.accepted value, after, complaints⟩) :
    (attempt parser state).report = ⟨.accepted (some value), after, complaints⟩ := by
  rcases start : parser state with ⟨verdict, _, notices⟩
  rw [start] at read
  simp only [Step.report, Report.mk.injEq] at read
  obtain ⟨rfl, rfl, rfl⟩ := read
  rw [attempt, start]
  rfl

theorem report_attempt_rejected
    (refused : (parser state).report = ⟨.rejected, after, complaints⟩) :
    (attempt parser state).report = ⟨.accepted none, after, complaints⟩ := by
  rcases start : parser state with ⟨verdict, _, notices⟩
  rw [start] at refused
  simp only [Step.report, Report.mk.injEq] at refused
  obtain ⟨rfl, rfl, rfl⟩ := refused
  rw [attempt, start]
  rfl

theorem report_map
    {change : α → β}
    (read : (parser state).report = ⟨.accepted value, after, complaints⟩) :
    ((change <$> parser) state).report =
      ⟨.accepted (change value), after, complaints⟩ := by
  rcases start : parser state with ⟨verdict, _, notices⟩
  rw [start] at read
  simp only [Step.report, Report.mk.injEq] at read
  obtain ⟨rfl, rfl, rfl⟩ := read
  show (mapValue change parser state).report = _
  rw [mapValue, start]
  rfl

theorem report_map_congr
    {change : α → β} {parser' : Parse α} {state' : State}
    (same : (parser state).report = (parser' state').report) :
    ((change <$> parser) state).report = ((change <$> parser') state').report := by
  rw [map_eq_bind, map_eq_bind]
  exact report_bind_congr same

theorem map_id (parser : Parse α) :
    (fun value => value) <$> parser = parser := by
  funext state
  show mapValue (fun value => value) parser state = parser state
  unfold mapValue
  split <;> simp_all

theorem map_map
    {γ : Type} (outer : β → γ) (inner : α → β) (parser : Parse α) :
    outer <$> inner <$> parser = (fun value => outer (inner value)) <$> parser := by
  funext state
  show mapValue outer (mapValue inner parser) state =
    mapValue (fun value => outer (inner value)) parser state
  unfold mapValue
  rcases parser state with ⟨verdict, after, notices⟩
  cases verdict <;> rfl

/-! ## Complaints -/

/-- A step that finds a token it did not expect. -/
def Step.Complains (step : Step α) : Prop :=
  step.report.complaints ≠ []

theorem complains_bind
    (complains : (first state).Complains) :
    ((first >>= second) state).Complains := by
  rcases start : first state with ⟨verdict, _, notices⟩
  rw [start] at complains
  simp only [Step.Complains, Step.report] at complains ⊢
  cases verdict with
  | accepted value =>
      rw [bind_accepted start, unexpectedTokens_append]
      exact List.append_ne_nil_of_left_ne_nil complains _
  | rejected =>
      rw [bind_rejected start]
      exact complains
  | broken breakage =>
      rw [bind_broken start]
      exact complains

theorem complains_bind_of_quiet
    (quiet : (first state).report = ⟨.accepted value, after, []⟩)
    (complains : (second value after).Complains) :
    ((first >>= second) state).Complains := by
  rw [Step.Complains, report_bind quiet]
  exact complains

theorem complains_attempt
    (complains : (parser state).Complains) :
    (attempt parser state).Complains := by
  rcases start : parser state with ⟨verdict, _, notices⟩
  rw [start] at complains
  rw [attempt, start]
  cases verdict <;> exact complains

theorem complains_map
    {change : α → β}
    (complains : (parser state).Complains) :
    ((change <$> parser) state).Complains := by
  rw [map_eq_bind]
  exact complains_bind complains

/-- A parser that rejects and complains of one token. -/
def Refuses (parser : Parse α) (state : State) : Prop :=
  ∃ after token, (parser state).report = ⟨.rejected, after, [token]⟩

theorem Refuses.complains
    (refuses : Refuses parser state) :
    (parser state).Complains := by
  obtain ⟨after, token, report⟩ := refuses
  rw [Step.Complains, report]
  exact List.cons_ne_nil _ _

theorem Refuses.of_report_eq
    {parser' : Parse α} {state' : State}
    (refuses : Refuses parser' state')
    (same : (parser state).report = (parser' state').report) :
    Refuses parser state := by
  obtain ⟨after, token, report⟩ := refuses
  exact ⟨after, token, same.trans report⟩

/-! ## The window -/

variable {first second : Token} {tokens : List Token} {depth : Int}

theorem report_advance :
    (advance (.seeing (first :: tokens) none depth)).report =
      ⟨.accepted (), .seeing tokens none depth, []⟩ := by
  rw [advance_seeing]
  rfl

theorem report_expect
    {kind : Token.Kind}
    (met : second.kind = kind) :
    (expect kind (.seeing (first :: second :: tokens) none depth)).report =
      ⟨.accepted (), .seeing (second :: tokens) none depth, []⟩ := by
  rw [expect, bind_next, next_seeing, List.tail_cons, List.headD_cons, if_pos met,
    report_advance]

theorem report_expect_of_ne
    {kind : Token.Kind}
    (missed : (tokens.headD Token.endOfInput).kind ≠ kind) :
    (expect kind (.seeing (first :: tokens) none depth)).report =
      ⟨.rejected, .seeing (first :: tokens) none depth,
        [tokens.headD Token.endOfInput]⟩ := by
  rw [expect, bind_next, next_seeing, List.tail_cons, if_neg missed]
  rfl

theorem complains_expect
    {kind : Token.Kind}
    (missed : (tokens.headD Token.endOfInput).kind ≠ kind) :
    (expect kind (.seeing (first :: tokens) none depth)).Complains := by
  rw [Step.Complains, report_expect_of_ne missed]
  exact List.cons_ne_nil _ _

end WhileLang.Parse
