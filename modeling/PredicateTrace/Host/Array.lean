import PredicateTrace.Host.Heap
import PredicateTrace.Value.Coercion

/-!
# Arrays

Making arrays of one or more dimensions, and access to their elements. An array keeps its length, and an
index outside of it is refused.
-/

namespace PredicateTrace.Host

/-- A value brought into the form in which an array stores it. -/
def stored (component : TypeRef) (v : Value) : Run Value := do
  Run.identify (← Run.ofExcept (v.coerce component))

/-- An array of items, each brought into the form of the component type. -/
def arrayOf (component : TypeRef) (items : List Value) : Run Value := do
  return .array (← Run.freshId) component (← items.mapM (stored component))

/-- A new array with the given dimensions, of which the first is the outermost one. Inner arrays are
made one by one, so that the inner dimensions do not matter to an array without elements. -/
def newArray (component : TypeRef) : List Int → Run Value
  | [] => Run.fault .index
  | [size] => do
    if size < 0 then Run.raise (.failure .negativeArraySize (toString size))
    arrayOf component (List.replicate size.toNat (Value.default component))
  | size :: inner :: others => do
    if size < 0 then Run.raise (.failure .negativeArraySize (toString size))
    match component with
    | .array t =>
      let items ← (List.replicate size.toNat ()).mapM fun _ => newArray t (inner :: others)
      arrayOf component items
    | _ =>
      Run.raise (.withMessage (.fault .value)
        ("too many dimensions for component type " ++ component.text))

/-- The error of an access beyond the elements. -/
def outOfBounds (index : Int) (length : Nat) : Throwable :=
  .failure .arrayIndex
    ("Index " ++ toString index ++ " out of bounds for length " ++ toString length)

/-- The place of an element. -/
def checkIndex (items : List Value) (index : Int) : Except Throwable Nat :=
  if 0 ≤ index ∧ index < items.length then .ok index.toNat
  else .error (outOfBounds index items.length)

/-- An element of an array or a list. -/
def elementAt (items : List Value) (index : Int) : Run Value := do
  match checkIndex items index with
  | .ok place => return items.getD place .null
  | .error e => Run.raise e

/-- The elements of an array with one of them replaced. The new element is brought into form first. -/
def setElement (component : TypeRef) (items : List Value) (index : Int) (v : Value) :
    Run (List Value) := do
  let v ← stored component v
  match checkIndex items index with
  | .ok place => return items.set place v
  | .error e => Run.raise e

end PredicateTrace.Host
