import PredicateTrace.Operator
import PredicateTrace.Value.Equality

/-!
# Arithmetic on runtime values

Arithmetic, comparison and conversion of tagged primitives. An operation answers `none` when the kinds
of its operands are outside of what it supports, and fails when an integer is divided by zero.
-/

namespace PredicateTrace.Value

open Host (IntKind FloatKind FaultKind)
open Number (wrap)

/-- The quotient cut toward zero. -/
def integerQuotient (a b : Int) : Int := a.tdiv b

/-- The remainder that goes with the quotient cut toward zero; it has the sign of the dividend. -/
def integerRemainder (a b : Int) : Int := a.tmod b

/-- An operation on two integers of one width; `none` when an integer is divided by zero. -/
def integerOp (bits : Nat) (op : ArithOperator) (a b : Int) : Option Int :=
  match op with
  | .add => some (wrap bits (a + b))
  | .sub => some (wrap bits (a - b))
  | .mul => some (wrap bits (a * b))
  | .div => if b = 0 then none else some (wrap bits (integerQuotient a b))
  | .mod => if b = 0 then none else some (wrap bits (integerRemainder a b))
  | .and => some (Number.wordAnd bits a b)
  | .or => some (Number.wordOr bits a b)
  | .xor => some (Number.wordXor bits a b)

/-- An operation on two floating numbers; bitwise operations do not apply to them. -/
def floatingOp? (op : ArithOperator) (a b : Float) : Option Float :=
  match op with
  | .add => some (a + b)
  | .sub => some (a - b)
  | .mul => some (a * b)
  | .div => some (a / b)
  | .mod => some (Number.remainder a b)
  | .and | .or | .xor => none

/-- The integer that a value of integral kind holds; a character counts by its code. -/
def integer? : Value → Option Int
  | .integral _ n => some n
  | .char code => some code
  | _ => none

/-- A shift. The amount is taken modulo the width of the shifted operand. -/
def shift? (op : ShiftOperator) (left right : Value) : Option Value :=
  match left, right.integer? with
  | .integral .int n, some amount => some (.integral .int (apply 32 n amount))
  | .integral .long n, some amount => some (.integral .long (apply 64 n amount))
  | _, _ => none
where
  apply (bits : Nat) (n amount : Int) : Int :=
    let places := (amount % bits).toNat
    match op with
    | .lshl => Number.shiftLeft bits n places
    | .ashr => Number.shiftRight bits n places
    | .lshr => Number.shiftRightUnsigned bits n places

/-- A binary arithmetic operation, on two operands of the same kind. -/
def arith (op : ArithOperator) (left right : Value) : Except Throwable (Option Value) :=
  match left, right with
  | .integral .int a, .integral .int b => integral .int a b
  | .integral .long a, .integral .long b => integral .long a b
  | .floating k a _, .floating l b _ =>
    if k = l then .ok ((floatingOp? op a b).map (ofFloat k)) else .ok none
  | _, _ => .ok none
where
  integral (kind : IntKind) (a b : Int) : Except Throwable (Option Value) :=
    match integerOp kind.bits op a b with
    | some n => .ok (some (.integral kind n))
    | none => .error .arithmetic

/-- A binary operation by its operator. -/
def binary (op : Operator) (left right : Value) : Except Throwable (Option Value) :=
  match op with
  | .arith op => arith op left right
  | .shift op => .ok (shift? op left right)
  | .compare _ | .other _ => .ok none

/-- The opposite number. -/
def negate? : Value → Option Value
  | .integral .int n => some (int (-n))
  | .integral .long n => some (long (-n))
  | .floating kind x _ => some (ofFloat kind (-x))
  | _ => none

/-- The number that a tagged value takes part in comparisons with. -/
def comparand? (v : Value) : Option Numeric :=
  match v.integer?, v with
  | some n, _ => some (.whole n)
  | none, .floating _ x _ => some (.fractional x)
  | none, _ => none

/-- A number as a double. -/
def Numeric.toFloat : Numeric → Float
  | .whole n => Number.ofInt n
  | .fractional x => x

/-- Whether two doubles stand in a relation. -/
def floatRelation : CompareOperator → Float → Float → Bool
  | .eq, a, b => a == b
  | .neq, a, b => !(a == b)
  | .lt, a, b => a < b
  | .le, a, b => a ≤ b
  | .gt, a, b => b < a
  | .ge, a, b => b ≤ a

/-- Whether two integers stand in a relation. -/
def integerRelation : CompareOperator → Int → Int → Bool
  | .eq, a, b => a == b
  | .neq, a, b => a != b
  | .lt, a, b => a < b
  | .le, a, b => a ≤ b
  | .gt, a, b => b < a
  | .ge, a, b => b ≤ a

/-- Whether two numbers stand in a relation: as doubles if either is floating, else as integers. -/
def Numeric.relation (op : CompareOperator) : Numeric → Numeric → Bool
  | .whole m, .whole n => integerRelation op m n
  | a, b => floatRelation op a.toFloat b.toFloat

/-- A relational test. Only the four orderings are relational; another operator between two numbers is
an error. -/
def relate (op : Operator) (left right : Value) : Except Throwable (Option Bool) :=
  match left.comparand?, right.comparand? with
  | some a, some b =>
    match op with
    | .compare .lt => .ok (some (Numeric.relation .lt a b))
    | .compare .le => .ok (some (Numeric.relation .le a b))
    | .compare .gt => .ok (some (Numeric.relation .gt a b))
    | .compare .ge => .ok (some (Numeric.relation .ge a b))
    | _ => .error (.fault .key)
  | _, _ => .ok none

/-- Value equality: numbers by the number they denote after promotion, `null` only to itself, values of
different kinds never, anything else as the host compares it. -/
def equals (sameObject : Nat → Nat → Bool) (left right : Value) : Bool :=
  match left.comparand?, right.comparand? with
  | some a, some b => Numeric.relation .eq a b
  | _, _ =>
    match left, right with
    | .null, .null => true
    | .null, _ => false
    | _, .null => false
    | _, _ => left.kind? == right.kind? && equalsWith sameObject left right

/-- The equality of the `equals` method: primitives only equal primitives of the same kind. -/
def boxedEquals (sameObject : Nat → Nat → Bool) (left right : Value) : Bool :=
  if left.kind?.isSome || right.kind?.isSome then
    left.kind? == right.kind? && equals sameObject left right
  else
    equalsWith sameObject left right

/-- A floating number cut toward zero into the range from `lo` to `hi`; zero for an undefined one. -/
def floatToInteger (x : Float) (lo hi : Int) : Int :=
  match Number.parts x with
  | .nan => 0
  | .infinite negative => if negative then lo else hi
  | .finite negative m e => max lo (min hi (Number.truncate negative m e))

/-- Primitive conversion of a value to another kind. -/
def convert? (target : Primitive) (v : Value) : Option Value :=
  if v.kind? = some target then none
  else
    match v.integer?, v with
    | some n, _ =>
      match target with
      | .byte => some (ofInt .byte n)
      | .short => some (ofInt .short n)
      | .int => some (ofInt .int n)
      | .long => some (ofInt .long n)
      | .char => some (.char (Number.lowBits 16 n))
      | .float => some (single (Number.singleOfInt n))
      | .double => some (double (Number.ofInt n))
      | .boolean | .void => none
    | none, .floating _ x _ =>
      let narrow := floatToInteger x (-2 ^ 31) (2 ^ 31 - 1)
      match target with
      | .byte => some (ofInt .byte narrow)
      | .short => some (ofInt .short narrow)
      | .int => some (ofInt .int narrow)
      | .long => some (ofInt .long (floatToInteger x (-2 ^ 63) (2 ^ 63 - 1)))
      | .char => some (.char (Number.lowBits 16 narrow))
      | .float => some (ofFloat .float x)
      | .double => some (ofFloat .double x)
      | .boolean | .void => none
    | none, _ => none

end PredicateTrace.Value
