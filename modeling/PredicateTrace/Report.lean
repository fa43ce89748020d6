import PredicateTrace.Op.Source
import PredicateTrace.Trace

/-!
# Reports

The text that explains an evaluation: one entry for every node of the trace that is not trivial,
children before parents, each with the source text of its op and its outcome.
-/

namespace PredicateTrace

open Host (FaultKind)

/-- How values are shown whose objects are in a heap. -/
def Host.Heap.formatter (heap : Host.Heap) (budget : Nat) : Formatter :=
  ⟨budget, heap.describe, heap.canDescribe⟩

namespace Outcome

/-- What an entry says about an outcome, after the source text of the op. -/
def describe (f : Formatter) (op : Op) (source : String) : Outcome → Except FaultKind String
  | .value v => do return source ++ " -> " ++ (← f.formatted v)
  | .threw error => do
    return source ++ " -> throws " ++ (← f.formatted (.throwable 0 error.kind error.args))
  | .unsupported => return "Unsupported node: " ++ source ++ " (" ++ op.kind ++ ")"

end Outcome

namespace Trace

/-- The entry of a node alone. There is none if its op has no source text or its value no text. -/
def entry (f : Formatter) (t : Trace) : Except FaultKind String :=
  match t.op.source? f with
  | none => throw .index
  | some source =>
    if t.isTrivial then return "" else return (← t.outcome.describe f t.op source) ++ "\n"

mutual

/-- The report on a node and all below it. -/
def report (f : Formatter) : Trace → Except FaultKind String
  | .node op outcome children => do
    let below ← reports f children
    return below ++ (← entry f (.node op outcome children))

/-- The reports on some nodes, one after the other. -/
def reports (f : Formatter) : List Trace → Except FaultKind String
  | [] => return ""
  | t :: rest => do
    return (← report f t) ++ (← reports f rest)

end

end Trace

end PredicateTrace
