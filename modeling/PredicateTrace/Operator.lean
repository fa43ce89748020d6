/-!
# Operators

The operators of the expression language by the names that ops carry, and their symbols.
-/

namespace PredicateTrace

/-- Arithmetic and bitwise operators. -/
inductive ArithOperator
  | add | sub | mul | div | mod | and | or | xor
  deriving DecidableEq, Repr

/-- Shift operators; `ashr` repeats the sign and `lshr` brings in zeros. -/
inductive ShiftOperator
  | lshl | ashr | lshr
  deriving DecidableEq, Repr

/-- Relational and equality operators. -/
inductive CompareOperator
  | eq | neq | lt | le | gt | ge
  deriving DecidableEq, Repr

/-- The operator of a binary op; an op may also carry a name that is no operator. -/
inductive Operator
  | arith (op : ArithOperator)
  | shift (op : ShiftOperator)
  | compare (op : CompareOperator)
  | other (name : String)
  deriving DecidableEq, Repr

namespace Operator

/-- All operators, each with its name and its symbol. -/
def table : List (Operator × String × String) :=
  [(.arith .add, "add", "+"), (.arith .sub, "sub", "-"), (.arith .mul, "mul", "*"),
    (.arith .div, "div", "/"), (.arith .mod, "mod", "%"), (.arith .and, "and", "&"),
    (.arith .or, "or", "|"), (.arith .xor, "xor", "^"), (.shift .lshl, "lshl", "<<"),
    (.shift .ashr, "ashr", ">>"), (.shift .lshr, "lshr", ">>>"), (.compare .eq, "eq", "=="),
    (.compare .neq, "neq", "!="), (.compare .lt, "lt", "<"), (.compare .le, "le", "<="),
    (.compare .gt, "gt", ">"), (.compare .ge, "ge", ">=")]

/-- The name of an operator. -/
def name : Operator → String
  | .other name => name
  | op => ((table.find? fun entry => entry.1 = op).map fun entry => entry.2.1).getD ""

/-- The operator with a given name. -/
def ofName (name : String) : Operator :=
  ((table.find? fun entry => entry.2.1 = name).map Prod.fst).getD (.other name)

/-- The symbol of an operator, if it has one. -/
def symbol? (op : Operator) : Option String :=
  (table.find? fun entry => entry.1 = op).map fun entry => entry.2.2

/-- Whether the operator is one of the language. -/
def isKnown : Operator → Bool
  | .other _ => false
  | _ => true

/-- Whether the operator compares its operands. -/
def isCompare : Operator → Bool
  | .compare _ => true
  | _ => false

end Operator

end PredicateTrace
