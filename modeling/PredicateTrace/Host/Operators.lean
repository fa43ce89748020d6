import PredicateTrace.Host.Heap
import PredicateTrace.Value.Coercion

/-!
# Operators of the host

The sums, products and comparisons that host code applies to values. Their results carry no kind.
-/

namespace PredicateTrace.Host

open Value (Numeric)

/-- A sum of numbers, or two texts, lists or tuples put together. -/
def add (a b : Value) : Run Value := do
  match a.numeric?, b.numeric? with
  | some (.whole m), some (.whole n) => return .hostInt (m + n)
  | some _, some _ =>
    return .ofHostFloat ((← Run.ofExcept a.toFractional) + (← Run.ofExcept b.toFractional))
  | _, _ =>
    match a.codes?, b.codes? with
    | some s, some t => return .ofCodes (s ++ t)
    | _, _ =>
      match a, b with
      | .list xs, .list ys => return .list (xs ++ ys)
      | .tuple xs, .tuple ys => return .tuple (xs ++ ys)
      | _, _ => Run.fault .type

/-- A difference of numbers. -/
def subtract (a b : Value) : Run Value := do
  match a.numeric?, b.numeric? with
  | some (.whole m), some (.whole n) => return .hostInt (m - n)
  | some _, some _ =>
    return .ofHostFloat ((← Run.ofExcept a.toFractional) - (← Run.ofExcept b.toFractional))
  | _, _ => Run.fault .type

/-- The greatest length that a repetition can have in the memory of the host. -/
def greatestLength : Nat := 2 ^ 24

/-- A list repeated, which a negative number of times gives nothing. The number must be one of 64 bits,
and the result must fit into the memory. -/
def repeated {α : Type} (n : Int) (items : List α) : Run (List α) :=
  if n < -2 ^ 63 ∨ 2 ^ 63 ≤ n then Run.fault .overflow
  else if greatestLength < n.toNat * items.length then Run.fault .memory
  else return if items.isEmpty then [] else (List.replicate n.toNat items).flatten

/-- A product of numbers, or a text, list or tuple repeated. -/
def multiply (a b : Value) : Run Value := do
  match a.numeric?, b.numeric? with
  | some (.whole m), some (.whole n) => return .hostInt (m * n)
  | some _, some _ =>
    return .ofHostFloat ((← Run.ofExcept a.toFractional) * (← Run.ofExcept b.toFractional))
  | none, some (.whole n) =>
    match a, a.codes? with
    | .list xs, _ => return .list (← repeated n xs)
    | .tuple xs, _ => return .tuple (← repeated n xs)
    | _, some s => return .ofCodes (← repeated n s)
    | _, none => Run.fault .type
  | _, _ => Run.fault .type

/-- The magnitude of a number. -/
def magnitude (v : Value) : Run Value :=
  match v.numeric? with
  | some (.whole n) => return .hostInt n.natAbs
  | some (.fractional x) => return .ofHostFloat x.abs
  | none => Run.fault .type

/-- Whether `a < b`. -/
def less (a b : Value) : Run Bool := do
  Run.orFault .type (Value.lessWith (← Run.heap).same a b)

/-- Whether `a ≤ b` for two numbers. -/
def atMost (a b : Value) : Run Bool :=
  match a.numeric?, b.numeric? with
  | some x, some y =>
    let order := Numeric.compare x y
    return order == some .lt || order == some .eq
  | _, _ => Run.fault .type

/-- Whether two values are equal. -/
def equal (a b : Value) : Run Bool := do
  return Value.equalsWith (← Run.heap).same a b

/-- The elements of a value that can be gone through. -/
def elements (v : Value) : Run (List Value) :=
  Run.orFault .type v.elements?

/-- A set of the given elements. -/
def distinct (items : List Value) : Run (List Value) := do
  if Value.allHashable items then
    return Value.distinct (← Run.heap).same items
  else
    Run.fault .type

/-- A map of the given entries; a later one replaces an earlier one with the same key. -/
def mapOf (entries : List (Value × Value)) : Run Value := do
  if Value.allHashable (entries.map Prod.fst) then
    let same := (← Run.heap).same
    return .map (entries.foldl (fun kept entry => Value.insertEntry same entry.1 entry.2 kept) [])
  else
    Run.fault .type

/-- The entry that a sequence of two elements stands for. -/
def pairOf (v : Value) : Run (Value × Value) := do
  match ← elements v with
  | [key, value] => return (key, value)
  | _ => Run.fault .value

/-- A map of the entries that some values stand for, one after the other. -/
def mapOfPairs (items : List Value) : Run Value := do
  let same := (← Run.heap).same
  let entries ← items.foldlM (fun kept item => do
    let (key, v) ← pairOf item
    if key.isHashable then return Value.insertEntry same key v kept else Run.fault .type) []
  return .map entries

end PredicateTrace.Host
