import PredicateTrace.Evaluation
import PredicateTrace.Host.Array
import PredicateTrace.Predicate

/-!
# Sessions

A program in which predicates are quoted and evaluated while its variables change. Every variable has a
place in the heap. Binding it anew gives it another place, so that predicates quoted before keep the old
one; a change inside the container that it holds, or of the cell that it is, is seen by all of them.
-/

namespace PredicateTrace

open Host (Heap Run)

/-- The variables of a program and the predicates quoted so far. -/
structure Session where
  locals : List (String × Capture)
  this : Option Value
  resolver : Resolver
  quoted : List (String × Quoted)

namespace Session

/-- A new place for the value of a variable; a cell shares its place with all that refer to it. -/
def allocate (v : Value) : Run Capture := do
  let heap ← Run.heap
  let (heap, place, shared) := match v with
    | .cell _ content =>
      let (heap, place) := heap.newSlot content
      (heap, place, true)
    | v =>
      let (heap, place) := heap.newSlot v
      (heap, place, false)
  set heap
  return .slot place shared

/-- The session of a program with the given variables. -/
def start (locals : List (String × Value)) (this : Option Value) (resolver : Resolver) :
    Run Session := do
  let locals ← locals.mapM fun (name, v) => return (name, ← allocate v)
  return ⟨locals, this, resolver, []⟩

/-- The names that a predicate of the session may use. -/
def scope (s : Session) : Scope :=
  ⟨s.locals, s.this, s.resolver⟩

/-- The session with an association set. -/
def assign {α : Type} (name : String) (a : α) (known : List (String × α)) : List (String × α) :=
  (name, a) :: known.filter fun entry => entry.1 != name

/-- Quotes a predicate and keeps it under a name. -/
def quote (s : Session) (name source : String) (heap : Heap) : Except QuoteError Session :=
  (PredicateTrace.quote s.scope heap source).map fun q =>
    { s with quoted := assign name q s.quoted }

/-- Binds a variable to a value. -/
def bind (s : Session) (name : String) (v : Value) : Run Session := do
  return { s with locals := assign name (← allocate v) s.locals }

/-- The place of a variable, and whether it is that of a cell. -/
def place (s : Session) (name : String) : Run (Nat × Bool) := do
  match s.locals.lookup name with
  | some (.slot place shared) => return (place, shared)
  | _ => Run.fault .key

/-- The value of a variable as the program sees it. -/
def valueOf (s : Session) (name : String) : Run Value := do
  let (place, shared) ← s.place name
  let v := (← Run.heap).slot place
  return if shared then .cell place v else v


/-- The place in a list that an index means; a negative one counts from the end. -/
def listPlace (items : List Value) (index : Value) : Run Nat := do
  match index.whole? with
  | none => Run.fault .type
  | some i =>
    let i := if i < 0 then i + items.length else i
    if 0 ≤ i ∧ i < items.length then return i.toNat else Run.fault .index

/-- A container with an element or an entry set. -/
def withItem (container key v : Value) : Run Value := do
  match container with
  | .list items => return .list (items.set (← listPlace items key) v)
  | .array id component items =>
    match key.whole? with
    | some i => return .array id component (← Host.setElement component items i v)
    | none => Run.fault .type
  | .map entries =>
    if key.isHashable then return .map (Value.insertEntry (← Run.heap).same key v entries)
    else Run.fault .type
  | _ => Run.fault .type

/-- Sets an element or an entry of the container that a variable holds. -/
def setItem (s : Session) (name : String) (key v : Value) : Run Unit := do
  let (place, shared) ← s.place name
  if shared then Run.fault .type
  else
    let changed ← withItem ((← Run.heap).slot place) key v
    modify fun heap => heap.setSlot place changed

/-- Adds an element to the list that a variable holds. -/
def append (s : Session) (name : String) (v : Value) : Run Unit := do
  match ← s.valueOf name with
  | .list items =>
    let (place, _) ← s.place name
    modify fun heap => heap.setSlot place (.list (items ++ [v]))
  | _ => Run.fault .attribute

/-- Sets an attribute of an object; properties cannot be set. -/
def setAttribute (object : Value) (field : String) (v : Value) : Run Unit := do
  match object with
  | .object kind ref =>
    match kind.definition? field with
    | some d => if d.binding = .property then Run.fault .attribute else Run.setAttribute ref field v
    | none => Run.setAttribute ref field v
  | _ => Run.fault .attribute

/-- The attribute of a cell that is its content. -/
def contentField : String := "value"

/-- Sets an attribute of the object or the cell that a variable holds. -/
def setField (s : Session) (name field : String) (v : Value) : Run Unit := do
  let (place, shared) ← s.place name
  if shared then
    if field = contentField then modify fun heap => heap.setSlot place v else Run.fault .attribute
  else setAttribute ((← Run.heap).slot place) field v

end Session

end PredicateTrace
