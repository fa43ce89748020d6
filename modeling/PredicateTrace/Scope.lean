import PredicateTrace.Resolver

/-!
# Scopes

What the names of a predicate can refer to: the captured local variables and the object bound as
`this`. A captured variable is a value, or a place of the heap. A place that is shared with the program
can get another value later; a private one only sees changes inside the container it holds.
-/

namespace PredicateTrace

open Host (Heap)

/-- What a captured variable is bound to. -/
inductive Capture
  | value (v : Value)
  | slot (place : Nat) (shared : Bool)

namespace Capture

/-- The value that reading the variable gives; a cell is opened once. What a private place holds has been
boxed for good, anything else is boxed anew. -/
def content (heap : Heap) : Capture → Value
  | .value (.cell _ v) => v.box
  | .value v => v.box
  | .slot place true => (heap.slot place).box
  | .slot place false => (heap.slot place).boxOnce

/-- The form in which the binding is shown: a place shows as a cell. -/
def literal (heap : Heap) : Capture → String
  | .value v => v.literal heap.describe
  | .slot place shared =>
    let v := heap.slot place
    "Cell(" ++ (if shared then v else v.box).literal heap.describe ++ ")"

end Capture

/-- The names that a predicate may use. -/
structure Scope where
  locals : List (String × Capture)
  this : Option Value
  resolver : Resolver

namespace Scope

/-- The value of a captured local variable. -/
def local? (scope : Scope) (heap : Heap) (name : String) : Option Value :=
  (scope.locals.lookup name).map (Capture.content heap)

/-- Whether a name is a captured local variable. -/
def isLocal (scope : Scope) (name : String) : Bool :=
  (scope.locals.lookup name).isSome

/-- Whether a name is an attribute of the object bound as `this`. -/
def isThisField (scope : Scope) (heap : Heap) (name : String) : Bool :=
  scope.this.any fun v => Host.hasAttribute heap v name

/-- Whether a name is a variable. -/
def isVariable (scope : Scope) (heap : Heap) (name : String) : Bool :=
  scope.isLocal name || scope.isThisField heap name

end Scope

end PredicateTrace
