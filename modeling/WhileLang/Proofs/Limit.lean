import WhileLang.Proofs.Routines

/-!
The limit of the parsers. Main statement: two limits that both cover the tokens
lead to the same step, as there is only one run without a limit.
-/

namespace WhileLang.Parse

variable {α β : Type}
variable {fault? : Option LexicalFault} {depth : Int} {tokens : List Token}

/-- Two sequences of steps are one where their parts agree at the places the first
parts lead to. -/
theorem Leads.bind_congr
    {first first' : Parse α} {second second' : α → Parse β}
    {between : α → List Token → Prop}
    (leads : Leads fault? tokens between (first (.seeing tokens fault? depth)))
    (firstSame :
      first (.seeing tokens fault? depth) = first' (.seeing tokens fault? depth))
    (secondSame :
      ∀ value rest depth, Later fault? tokens rest → between value rest →
        second value (.seeing rest fault? depth) =
          second' value (.seeing rest fault? depth)) :
    (first >>= second) (.seeing tokens fault? depth) =
      (first' >>= second') (.seeing tokens fault? depth) := by
  generalize start : first (.seeing tokens fault? depth) = step at leads firstSame
  cases leads with
  | @accepted value rest depth notices later holds =>
      rw [bind_accepted start, bind_accepted firstSame.symm,
        secondSame value rest depth later holds]
  | rejected _ => rw [bind_rejected start, bind_rejected firstSame.symm]
  | broken _ => rw [bind_broken start, bind_broken firstSame.symm]

theorem Leads.map_congr
    {change : α → β} {parser parser' : Parse α}
    (same :
      parser (.seeing tokens fault? depth) =
        parser' (.seeing tokens fault? depth)) :
    (change <$> parser) (.seeing tokens fault? depth) =
      (change <$> parser') (.seeing tokens fault? depth) := by
  show mapValue change parser _ = mapValue change parser' _
  rw [mapValue, mapValue, same]

theorem attempt_congr
    {parser parser' : Parse α} {state : State}
    (same : parser state = parser' state) :
    attempt parser state = attempt parser' state := by
  rw [attempt, attempt, same]

/-! ## Two limits -/

/-- From a limit on that covers the tokens, and `slack` more, a higher one changes
nothing. -/
def Agree (parser : Nat → Parse α) (slack limit : Nat) : Prop :=
  ∀ (other : Nat) (tokens : List Token) (fault? : Option LexicalFault) (depth : Int),
    2 * tokens.length + slack ≤ limit → 2 * tokens.length + slack ≤ other →
    parser limit (.seeing tokens fault? depth) =
      parser other (.seeing tokens fault? depth)

/-- What is a run under every limit that covers the tokens is the same run. -/
theorem Agree.of_halts
    {routine : Routine α} {parser : Nat → Parse α} {slack : Nat}
    (halts : ∀ limit, Halts routine parser slack limit)
    (limit : Nat) :
    Agree parser slack limit :=
  fun other _ _ _ covers coversToo =>
    (halts limit _ _ _ covers).unique (halts other _ _ _ coversToo)

theorem agree_conditionWithin (limit : Nat) : Agree conditionWithin 2 limit :=
  fun _ _ _ _ covers coversToo =>
    (runs_conditionWithin covers).unique (runs_conditionWithin coversToo)

/-- The values to be printed are behind a token, so that a smaller limit covers
them. -/
theorem expressionsWithin_agree (limit : Nat) :
    ∀ (other : Nat) (tokens : List Token)
        (fault? : Option LexicalFault) (depth : Int), tokens ≠ [] →
      2 * tokens.length + 1 ≤ limit → 2 * tokens.length + 1 ≤ other →
      expressionsWithin limit (.seeing tokens fault? depth) =
        expressionsWithin other (.seeing tokens fault? depth) :=
  fun other _ _ _ nonempty covers coversToo =>
    (runs_expressionsWithin limit _ _ _ nonempty covers).unique
      (runs_expressionsWithin other _ _ _ nonempty coversToo)

end WhileLang.Parse
