import PredicateTrace.Op

/-!
# Traces

What the evaluation of a predicate leaves behind: a tree with one node for every op that was evaluated,
with its outcome. The children of a node are the operands and bodies that were evaluated for it, in that
order.
-/

namespace PredicateTrace

/-- The outcome of an op. -/
inductive Outcome
  | value (v : Value)
  | threw (error : Throwable)
  | unsupported

namespace Outcome

/-- The value of an outcome that is one. -/
def value? : Outcome → Option Value
  | .value v => some v
  | _ => none

end Outcome

/-- A node of a trace. -/
inductive Trace
  | node (op : Op) (outcome : Outcome) (children : List Trace)

namespace Trace

def op : Trace → Op
  | .node op _ _ => op

def outcome : Trace → Outcome
  | .node _ outcome _ => outcome

def children : Trace → List Trace
  | .node _ _ children => children

/-- The value of a node that has one. -/
def value? (t : Trace) : Option Value :=
  t.outcome.value?

/-- The outcome of an op after an operand without a value: an error is handed on. -/
def Outcome.derived : Outcome → Outcome
  | .threw error => .threw error
  | _ => .unsupported

/-- The node of an op whose last child has no value. -/
def failing (op : Op) (children : List Trace) (last : Trace) : Trace :=
  .node op (Outcome.derived last.outcome) children

/-- Whether an op is a constant. -/
def isConstant (op : Op) : Bool :=
  match op.head with
  | .const .. => true
  | _ => false

/-- Whether a node with a value adds nothing to a report: constants, and constants with a sign or a
conversion. -/
def isTrivial : Trace → Bool
  | .node op (.value _) children =>
    (isConstant op && children.isEmpty) ||
      match op.head, children with
      | .neg _, [.node op outcome children] => isTrivial (.node op outcome children)
      | .conv _, [.node inner (.value _) []] => isConstant inner
      | _, _ => false
  | _ => false

end Trace

end PredicateTrace
