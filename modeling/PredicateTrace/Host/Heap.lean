import PredicateTrace.Value.Equality
import PredicateTrace.Value.Text

/-!
# The heap of host objects

Objects of the sample classes are mutable, so they live in a heap. Everything that the host does may
read and change the heap and may fail; the changes made before a failure stay.
-/

namespace PredicateTrace.Host

/-- An object: its class and its attributes. -/
structure Object where
  kind : SampleClass
  attributes : List (String × Value)

/-- The objects made so far, the places that hold the values of captured variables, and the next
number that tells arrays and the like apart. -/
structure Heap where
  objects : Array Object
  slots : Array Value
  nextId : Nat

/-- The attributes that the text of an object of a class shows. -/
def SampleClass.shownAttributes : SampleClass → List String
  | .point => ["x", "y"]
  | .point3 => ["x", "y", "z"]
  | .shape => ["name"]
  | .account => ["balance", "calls"]
  | .picky => ["n"]
  | _ => []

namespace Heap

/-- The heap without objects. -/
def empty : Heap := ⟨#[], #[], Value.firstId⟩

/-- An attribute of an object. -/
def attribute? (heap : Heap) (ref : Nat) (name : String) : Option Value :=
  heap.objects[ref]?.bind fun object => object.attributes.lookup name

/-- A list of attributes with one of them set; a new one goes to the end. -/
def setAttribute (name : String) (v : Value) : List (String × Value) → List (String × Value)
  | [] => [(name, v)]
  | (key, w) :: rest => if key = name then (key, v) :: rest else (key, w) :: setAttribute name v rest

/-- The heap with an attribute of an object set. -/
def store (heap : Heap) (ref : Nat) (name : String) (v : Value) : Heap :=
  { heap with
    objects := heap.objects.modify ref fun object =>
      { object with attributes := setAttribute name v object.attributes } }

/-- The value in a place of captured variables. -/
def slot (heap : Heap) (place : Nat) : Value :=
  heap.slots[place]?.getD .null

/-- The heap with a new value in a place of captured variables. -/
def setSlot (heap : Heap) (place : Nat) (v : Value) : Heap :=
  { heap with slots := heap.slots.modify place fun _ => v }

/-- The heap with a new place for a captured variable, and that place. -/
def newSlot (heap : Heap) (v : Value) : Heap × Nat :=
  ({ heap with slots := heap.slots.push v }, heap.slots.size)

/-- The text of an object. Objects refer to older ones only, so that `depth`, the number of objects,
is never used up. -/
def objectText (heap : Heap) : Nat → Nat → String
  | 0, _ => ""
  | depth + 1, ref =>
    let get := fun name =>
      Value.hostText (objectText heap depth) ((heap.attribute? ref name).getD .null)
    match heap.objects[ref]? with
    | none => ""
    | some object =>
      match object.kind with
      | .point => "Point(" ++ get "x" ++ ", " ++ get "y" ++ ")"
      | .point3 => "Point3(" ++ get "x" ++ ", " ++ get "y" ++ ", " ++ get "z" ++ ")"
      | .shape => "Shape<" ++ get "name" ++ ">"
      | .odd => "Odd"
      | .account => "Account[" ++ get "balance" ++ "; " ++ get "calls" ++ "]"
      | .thrower => "Thrower"
      | .dyn => "Dyn"
      | .picky => "Picky#" ++ get "n" ++ get "n" ++ get "n"
      | .outer => "Outer"
      | .inner => "Inner"

/-- The text of an object. -/
def describe (heap : Heap) (ref : Nat) : String :=
  objectText heap (heap.objects.size + 1) ref

/-- Whether an object can be written, which takes a text for every attribute that it shows. -/
def canDescribeAt (heap : Heap) : Nat → Nat → Bool
  | 0, _ => true
  | depth + 1, ref =>
    let has := fun name =>
      Value.hasHostText (canDescribeAt heap depth) ((heap.attribute? ref name).getD .null)
    (heap.objects[ref]?.map fun object => object.kind.shownAttributes.all has).getD true

/-- Whether an object can be written. -/
def canDescribe (heap : Heap) (ref : Nat) : Bool :=
  canDescribeAt heap (heap.objects.size + 1) ref

/-- Whether two objects are equal: points, also of the derived class, by their coordinates, all
others by identity. -/
def sameAt (heap : Heap) : Nat → Nat → Nat → Bool
  | 0, a, b => a == b
  | depth + 1, a, b =>
    a == b ||
      match heap.objects[a]?, heap.objects[b]? with
      | some x, some y =>
        let isPoint := fun kind : SampleClass => (HostClass.sample kind).isSubclass (.sample .point)
        let get := fun ref name => (heap.attribute? ref name).getD .null
        let agree := fun name => Value.elementEquals (sameAt heap depth) (get a name) (get b name)
        isPoint x.kind && isPoint y.kind && agree "x" && agree "y"
      | _, _ => false

/-- Whether two objects are equal. -/
def same (heap : Heap) (a b : Nat) : Bool :=
  sameAt heap (heap.objects.size + 1) a b

end Heap

/-- Why something that the host was asked to do has no result. -/
inductive Failure
  /-- An error was raised. -/
  | raised (error : Throwable)
  /-- A member does not exist. -/
  | unresolved (message : String)

/-- What the host does: it may fail, and keeps its changes of the heap in any case. -/
abbrev Run := ExceptT Failure (StateM Heap)

namespace Run

/-- Raises an error. -/
def raise {α : Type} (e : Throwable) : Run α :=
  throw (.raised e)

/-- Raises a built-in error of the host. -/
def fault {α : Type} (kind : FaultKind) : Run α :=
  raise (.fault kind)

/-- The result of a computation that may fail with a built-in error. -/
def ofExcept {α : Type} : Except FaultKind α → Run α
  | .ok a => pure a
  | .error kind => fault kind

/-- A present value, or a built-in error. -/
def orFault {α : Type} (kind : FaultKind) : Option α → Run α
  | some a => pure a
  | none => fault kind

/-- The heap as it is now. -/
def heap : Run Heap :=
  get

/-- A number that was not used before. -/
def freshId : Run Nat := do
  let heap ← get
  set { heap with nextId := heap.nextId + 1 }
  return heap.nextId

/-- A value that others can refer to from now on: an undefined number that is new gets a number that
tells it apart. -/
def identify (v : Value) : Run Value := do
  match v with
  | .floating kind x 0 => if x.isNaN then return .floating kind x (← freshId) else return v
  | .hostFloat x 0 => if x.isNaN then return .hostFloat x (← freshId) else return v
  | v => return v

/-- A new object. -/
def allocate (kind : SampleClass) (attributes : List (String × Value)) : Run Value := do
  let heap ← get
  set { heap with objects := heap.objects.push ⟨kind, attributes⟩ }
  return .object kind heap.objects.size

/-- The text that the host writes for a value. -/
def textOf (v : Value) : Run String := do
  let heap ← heap
  if v.hasHostText heap.canDescribe then return v.hostText heap.describe else fault .type

/-- The form in which the host shows a value inside another. -/
def literalOf (v : Value) : Run String := do
  let heap ← heap
  if v.hasLiteral heap.canDescribe then return v.literal heap.describe else fault .type

/-- The codes of the text that the host writes for a value. -/
def codesOf (v : Value) : Run (List Nat) := do
  match v.codes? with
  | some codes => return codes
  | none => return Text.codes (← textOf v)

/-- The text of a value in the expression language. -/
def sourceTextOf (v : Value) : Run String := do
  let heap ← heap
  if v.hasSourceText heap.canDescribe then return v.sourceText heap.describe else fault .type

/-- The codes of the text of a value in the expression language. -/
def sourceCodesOf (v : Value) : Run (List Nat) := do
  match v.codes? with
  | some codes => return codes
  | none => return Text.codes (← sourceTextOf v)

/-- An attribute of an object, which must be there. -/
def attributeOf (ref : Nat) (name : String) : Run Value := do
  orFault .attribute ((← heap).attribute? ref name)

/-- Sets an attribute of an object. -/
def setAttribute (ref : Nat) (name : String) (v : Value) : Run Unit :=
  modify fun heap => heap.store ref name v

end Run

end PredicateTrace.Host
