import PredicateTrace.Evaluation
import PredicateTrace.Report

/-!
# Assertions

Whether the trace of a predicate makes an assertion hold, and the text with which it fails otherwise. A
predicate that evaluation does not support can only be decided by another evaluation of it.
-/

namespace PredicateTrace

/-- What an assertion comes to. -/
inductive Verdict
  | holds
  | fails (text : String)
  deriving DecidableEq, Repr

namespace Verdict

/-- The first line of the text of a failed assertion. -/
def headline (message : Option String) : String :=
  match message with
  | some text => if text.isEmpty then "failed" else text
  | none => "failed"

/-- The verdict on a trace. `decided` is what another evaluation of the predicate gave, if there is one;
it counts only when the trace is unsupported. -/
def ofTrace (f : Formatter) (message : Option String) (decided : Option Bool) (t : Trace) :
    Except Host.FaultKind Verdict :=
  match t.outcome, decided with
  | .value (.bool true), _ => return .holds
  | .unsupported, some true => return .holds
  | .unsupported, some false => return .fails (headline message)
  | _, _ => do return .fails (headline message ++ "\n" ++ (← t.report f))

end Verdict

end PredicateTrace
