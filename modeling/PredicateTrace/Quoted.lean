import PredicateTrace.Op.Listing
import PredicateTrace.Scope

/-!
# Quoted predicates

A tree of ops together with what its variables and parameters are bound to. The bindings are those of
the moment at which the predicate was quoted.
-/

namespace PredicateTrace

open Host (Heap)

/-- What the variables and the parameters of a tree of ops are bound to. -/
structure Captures where
  vars : List (Var × Capture)
  params : List (Parameter × Value)

namespace Captures

/-- The binding of a variable. -/
def binding? (captures : Captures) (name : String) : Option Capture :=
  (captures.vars.find? fun entry => entry.1.name == name).map Prod.snd

/-- The value of a parameter. -/
def argument? (captures : Captures) (name : String) : Option Value :=
  (captures.params.find? fun entry => entry.1.name == name).map Prod.snd

/-- The bindings by name, as they are shown. -/
def document (heap : Heap) (captures : Captures) : Document :=
  .fields (captures.vars.map (fun (v, capture) => (v.name, .text (capture.literal heap)))
    ++ captures.params.map fun (p, v) => (p.name, .text (v.literal heap.describe)))

end Captures

/-- A tree of ops with its bindings. -/
structure Quoted where
  op : Op
  captures : Captures

namespace Quoted

/-- The block of a predicate, if the tree has the form of one. -/
def entry? (q : Quoted) : Option Block :=
  match q.op with
  | .mk .lambda _ [.mk [block]] => some block
  | _ => none

/-- The value that a predicate returns, if the tree has the form of one. -/
def returned? (q : Quoted) : Option Operand :=
  match q.entry? with
  | some (.ending _ _ (.mk .ret [value] _)) => some value
  | _ => none

/-- The predicate as a document. -/
def document? (heap : Heap) (q : Quoted) : Option Document :=
  (q.op.document? heap.describe).map fun op =>
    .fields [("op", op), ("captured", q.captures.document heap)]

end Quoted

end PredicateTrace
