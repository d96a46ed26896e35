import WhileLang.Token

/-!
Binary operators: their names, the tokens that spell them, and how strongly they
bind. Main statement: exactly the tokens of an operator bind at all.
-/

namespace WhileLang

/-- The binary operators of the language, and those it does not have, known by
nothing but a name. -/
inductive Operator where
  | add
  | sub
  | mul
  | div
  | mod
  | lt
  | gt
  | le
  | ge
  | eq
  | ne
  | and
  | or
  | unknown (name : String)
deriving DecidableEq, Repr

namespace Operator

/-- The operators of the language. -/
def all : List Operator :=
  [.add, .sub, .mul, .div, .mod, .lt, .gt, .le, .ge, .eq, .ne, .and, .or]

/-- The name of an operator. -/
def name : Operator → String
  | .add => "ADD"
  | .sub => "SUB"
  | .mul => "MUL"
  | .div => "DIV"
  | .mod => "MOD"
  | .lt => "LT"
  | .gt => "GT"
  | .le => "LE"
  | .ge => "GE"
  | .eq => "EQ"
  | .ne => "NE"
  | .and => "AND"
  | .or => "OR"
  | .unknown name => name

/-- The operator with a given name, an unknown one if the language has none. -/
def named (name : String) : Operator :=
  (all.find? (·.name == name)).getD (.unknown name)

/-- The operator that a token of a given kind spells. -/
def ofKind? : Token.Kind → Option Operator
  | .plus => some .add
  | .minus => some .sub
  | .star => some .mul
  | .slash => some .div
  | .percent => some .mod
  | .less => some .lt
  | .greater => some .gt
  | .lessEqual => some .le
  | .greaterEqual => some .ge
  | .equal => some .eq
  | .notEqual => some .ne
  | .and => some .and
  | .or => some .or
  | _ => none

end Operator

/-- How strongly a token binds its two sides; zero for one that is no operator. -/
def Token.Kind.precedence : Token.Kind → Nat
  | .star => 6
  | .slash => 6
  | .percent => 6
  | .plus => 5
  | .minus => 5
  | .less => 4
  | .greater => 4
  | .lessEqual => 4
  | .greaterEqual => 4
  | .equal => 3
  | .notEqual => 3
  | .and => 2
  | .or => 1
  | _ => 0

theorem Token.Kind.precedence_pos_iff (kind : Token.Kind) :
    0 < kind.precedence ↔ (Operator.ofKind? kind).isSome = true := by
  cases kind <;> decide

end WhileLang
