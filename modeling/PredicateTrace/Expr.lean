import PredicateTrace.Operator
import PredicateTrace.Position
import PredicateTrace.TypeRef

/-!
# Expressions

The expressions of the language as trees. Every node carries an annotation: its position after parsing,
and what the type checker found out about it after checking.
-/

namespace PredicateTrace

/-- Literals by kind, with their values. -/
inductive Literal
  | int (n : Int)
  | long (n : Int)
  | float (x : Float)
  | double (x : Float)
  | char (code : Nat)
  | string (text : String)
  /-- A text of which some codes are no characters. -/
  | units (codes : List Nat)
  | boolean (b : Bool)
  | null

/-- The kind of a literal by name. -/
def Literal.kind : Literal → String
  | .int _ => "int"
  | .long _ => "long"
  | .float _ => "float"
  | .double _ => "double"
  | .char _ => "char"
  | .string _ | .units _ => "string"
  | .boolean _ => "boolean"
  | .null => "null"

/-- What a written type names: a primitive, or a class by the parts of a dotted name. -/
inductive TypeBase
  | primitive (p : Primitive)
  | named (parts : List String)
  deriving DecidableEq, Repr

/-- A type as written, with its array dimensions. -/
structure TypeName where
  base : TypeBase
  dims : Nat
  position : Position
  deriving DecidableEq, Repr

/-- The name of a written type, without its dimensions. -/
def TypeName.name (t : TypeName) : String :=
  match t.base with
  | .primitive p => p.name
  | .named parts => String.intercalate "." parts

/-- Operators with one operand. -/
inductive UnaryOperator
  | minus | plus | not | complement
  deriving DecidableEq, Repr

def UnaryOperator.text : UnaryOperator → String
  | .minus => "-"
  | .plus => "+"
  | .not => "!"
  | .complement => "~"

/-- Operators with two operands. -/
inductive BinaryOperator
  | arith (op : ArithOperator)
  | shift (op : ShiftOperator)
  | compare (op : CompareOperator)
  | conjunction
  | disjunction
  deriving DecidableEq, Repr

/-- The operator that an op carries; the logical operators have none. -/
def BinaryOperator.operator? : BinaryOperator → Option Operator
  | .arith op => some (.arith op)
  | .shift op => some (.shift op)
  | .compare op => some (.compare op)
  | .conjunction | .disjunction => none

def BinaryOperator.text (op : BinaryOperator) : String :=
  match op with
  | .conjunction => "&&"
  | .disjunction => "||"
  | _ => (op.operator?.bind Operator.symbol?).getD ""

/-- Expressions with annotations in `α`. -/
inductive Expr (α : Type)
  | literal (note : α) (value : Literal)
  | name (note : α) (name : String)
  | this (note : α)
  | field (note : α) (target : Expr α) (name : String)
  | call (note : α) (target : Expr α) (name : String) (args : List (Expr α))
  | thisCall (note : α) (name : String) (args : List (Expr α))
  | index (note : α) (array index : Expr α)
  | newObject (note : α) (type : TypeName) (args : List (Expr α))
  | newArray (note : α) (element : TypeName) (dims : List (Expr α)) (extraDims : Nat)
  | unary (note : α) (op : UnaryOperator) (operand : Expr α)
  | binary (note : α) (op : BinaryOperator) (left right : Expr α)
  | instanceOf (note : α) (operand : Expr α) (type : TypeName)
  | cast (note : α) (type : TypeName) (operand : Expr α)
  | conditional (note : α) (cond thenArm elseArm : Expr α)
  | assign (note : α) (target value : Expr α)

namespace Expr

variable {α β : Type}

/-- The annotation of the root. -/
def note : Expr α → α
  | .literal a _ | .name a _ | .this a | .field a _ _ | .call a _ _ _ | .thisCall a _ _
  | .index a _ _ | .newObject a _ _ | .newArray a _ _ _ | .unary a _ _ | .binary a _ _ _
  | .instanceOf a _ _ | .cast a _ _ | .conditional a _ _ _ | .assign a _ _ => a

/-- Whether a value can be assigned to the expression. -/
def isAssignable : Expr α → Bool
  | .name .. | .field .. | .index .. => true
  | _ => false

/-- Whether the expression creates an array. -/
def isNewArray : Expr α → Bool
  | .newArray .. => true
  | _ => false

/-- Whether the expression is an assignment. -/
def isAssign : Expr α → Bool
  | .assign .. => true
  | _ => false

mutual

/-- The expression with every annotation replaced. -/
def map (f : α → β) : Expr α → Expr β
  | .literal a v => .literal (f a) v
  | .name a n => .name (f a) n
  | .this a => .this (f a)
  | .field a target n => .field (f a) (target.map f) n
  | .call a target n args => .call (f a) (target.map f) n (mapList f args)
  | .thisCall a n args => .thisCall (f a) n (mapList f args)
  | .index a array place => .index (f a) (array.map f) (place.map f)
  | .newObject a t args => .newObject (f a) t (mapList f args)
  | .newArray a t dims extra => .newArray (f a) t (mapList f dims) extra
  | .unary a op operand => .unary (f a) op (operand.map f)
  | .binary a op left right => .binary (f a) op (left.map f) (right.map f)
  | .instanceOf a operand t => .instanceOf (f a) (operand.map f) t
  | .cast a t operand => .cast (f a) t (operand.map f)
  | .conditional a c t e => .conditional (f a) (c.map f) (t.map f) (e.map f)
  | .assign a target value => .assign (f a) (target.map f) (value.map f)

/-- A list of expressions with every annotation replaced. -/
def mapList (f : α → β) : List (Expr α) → List (Expr β)
  | [] => []
  | e :: rest => e.map f :: mapList f rest

end

end Expr

end PredicateTrace
