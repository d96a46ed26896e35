/-!
Stores: the names that are bound, and their values. Main statements: a name has
the value it was bound to last, and binding one name leaves the others alone.
-/

namespace WhileLang

/-- What a name can be bound to: an integer, or something of another type, of
which the type's name is known. -/
inductive Value where
  | integer (value : Int)
  | other (typeName : String)
deriving DecidableEq, Repr

/-- The bound names with their values, in the order they were first bound. -/
structure Store where
  bindings : List (String × Value)
deriving DecidableEq, Repr

namespace Store

/-- The store without bindings. -/
def empty : Store :=
  ⟨[]⟩

/-- The value of a name in a list of bindings. -/
def find? (name : String) : List (String × Value) → Option Value
  | [] => none
  | (bound, value) :: rest => if bound = name then some value else find? name rest

/-- Binds a name where it stands, or at the end if it is new. -/
def put (name : String) (value : Value) :
    List (String × Value) → List (String × Value)
  | [] => [(name, value)]
  | (bound, old) :: rest =>
      if bound = name then
        (bound, value) :: rest
      else
        (bound, old) :: put name value rest

/-- The value of a name. -/
def get? (store : Store) (name : String) : Option Value :=
  find? name store.bindings

/-- Binds a name to a value, in place of any value it had. -/
def set (store : Store) (name : String) (value : Value) : Store :=
  ⟨put name value store.bindings⟩

/-- The bindings of a list, the last one of a name in force. -/
def ofList (bindings : List (String × Value)) : Store :=
  bindings.foldl (fun store binding => store.set binding.1 binding.2) empty

theorem find?_put
    (name other : String) (value : Value)
    (bindings : List (String × Value)) :
    find? other (put name value bindings) =
      if name = other then some value else find? other bindings := by
  induction bindings with
  | nil => simp [put, find?]
  | cons binding rest inductionHypothesis =>
      obtain ⟨bound, old⟩ := binding
      by_cases sameName : bound = name
      · subst sameName
        by_cases sameOther : bound = other <;> simp [put, find?, sameOther]
      · by_cases sameOther : bound = other
        · subst sameOther
          simp [put, find?, sameName, Ne.symm sameName]
        · simp [put, find?, sameName, sameOther, inductionHypothesis]

@[simp] theorem get?_empty (name : String) :
    empty.get? name = none := rfl

theorem get?_set
    (store : Store) (name other : String) (value : Value) :
    (store.set name value).get? other =
      if name = other then some value else store.get? other :=
  find?_put name other value store.bindings

@[simp] theorem get?_set_self
    (store : Store) (name : String) (value : Value) :
    (store.set name value).get? name = some value := by
  simp [get?_set]

theorem get?_set_of_ne
    (store : Store) {name other : String} (value : Value)
    (different : name ≠ other) :
    (store.set name value).get? other = store.get? other := by
  simp [get?_set, different]

end Store

end WhileLang
