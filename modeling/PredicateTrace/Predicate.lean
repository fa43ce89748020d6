import PredicateTrace.Expr.Parser
import PredicateTrace.Lowering

/-!
# Predicates from source

Quoting a source: it is parsed, checked against a scope and lowered.
-/

namespace PredicateTrace

open Host (Heap)

/-- Why a source is no predicate. -/
inductive QuoteError
  | syntactic (e : SyntaxError)
  | typing (e : TypeError)

/-- A complaint about a place in a source. -/
def Position.locate (p : Position) (source : Option String) (message : String) : String :=
  locatedText message (some (toString p.line)) (some (toString p.column)) source

/-- The message of an error in a source with the given name; an unreadable number has none. -/
def QuoteError.message? (source : Option String) : QuoteError → Option String
  | .syntactic .unreadableNumber => none
  | .syntactic (.at p cause) => some (p.locate source cause.message)
  | .typing e => some (e.position.locate source e.cause.message)

/-- The predicate that a source stands for in a scope. -/
def quote {α : Type} [Text.Coded α] (scope : Scope) (heap : Heap) (source : α) : Except QuoteError Quoted :=
  match Parser.parse source with
  | .error e => .error (.syntactic e)
  | .ok e =>
    match Typing.checkPredicate scope heap e with
    | .error e => .error (.typing e)
    | .ok e => .ok (Lowering.quote scope heap e)

end PredicateTrace
