import PredicateTrace.Value.Basic

/-!
# Equality and order of host values

Numbers of different kinds are equal when they denote the same number, texts when they have the same
characters; containers compare by content, and whatever has an identity compares by it. Objects are
compared by a given relation on their places in the heap.

An element of a container also equals itself, so that an undefined number inside a container equals
the same undefined number. A method bound to an object equals the same method of the same object, but not
that of an equal one.
-/

namespace PredicateTrace.Value

/-- A number as the host sees it. -/
inductive Numeric
  | whole (n : Int)
  | fractional (x : Float)

/-- The number that a value is for the host. -/
def numeric? (v : Value) : Option Numeric :=
  match v.whole?, v.fractional? with
  | some n, _ => some (.whole n)
  | none, some x => some (.fractional x)
  | none, none => none

/-- The exact order of two numbers; `none` beside an undefined one. -/
def Numeric.compare : Numeric → Numeric → Option Ordering
  | .whole m, .whole n => some (Ord.compare m n)
  | .whole m, .fractional y => Number.compareInt m y
  | .fractional x, .whole n => (Number.compareInt n x).map Ordering.swap
  | .fractional x, .fractional y =>
    if x < y then some .lt else if y < x then some .gt else if x == y then some .eq else none

/-- Whether two receivers are the same object or the same class. -/
def sameReceiver : Value → Value → Bool
  | .object _ r, .object _ s => r == s
  | .classObject c, .classObject d => c == d
  | _, _ => false

/-- Equality of two values neither of which is a container. -/
def atomEquals (sameObject : Nat → Nat → Bool) (a b : Value) : Bool :=
  match a.numeric?, b.numeric? with
  | some x, some y => Numeric.compare x y == some .eq
  | _, _ =>
    match a.codes?, b.codes? with
    | some s, some t => s == t
    | _, _ =>
      match a, b with
      | .null, .null => true
      | .array i _ _, .array j _ _ => i == j
      | .cell i _, .cell j _ => i == j
      | .object _ r, .object _ s => r == s || sameObject r s
      | .bare i, .bare j => i == j
      | .classObject c, .classObject d => c == d
      | .boundMethod v c m, .boundMethod w d n => c == d && m == n && sameReceiver v w
      | .function c m, .function d n => c == d && m == n
      | .counter i, .counter j => i == j
      | .property c m, .property d n => c == d && m == n
      | _, _ => false

/-- Whether two values are the same undefined number. -/
def bothUndefined : Value → Value → Bool
  | .floating k x i, .floating l y j => k == l && x.isNaN && y.isNaN && i == j && i != 0
  | .hostFloat x i, .hostFloat y j => x.isNaN && y.isNaN && i == j && i != 0
  | _, _ => false

mutual

/-- Equality of host values, where `sameObject` compares two places of the heap. -/
def equalsWith (sameObject : Nat → Nat → Bool) : Value → Value → Bool
  | .list xs, .list ys => itemsEqual sameObject xs ys
  | .tuple xs, .tuple ys => itemsEqual sameObject xs ys
  | .set xs, .set ys => xs.length == ys.length && itemsIn sameObject xs ys
  | .set xs, .frozenset ys => xs.length == ys.length && itemsIn sameObject xs ys
  | .frozenset xs, .set ys => xs.length == ys.length && itemsIn sameObject xs ys
  | .frozenset xs, .frozenset ys => xs.length == ys.length && itemsIn sameObject xs ys
  | .map xs, .map ys => xs.length == ys.length && entriesIn sameObject xs ys
  | .view k xs, .view l ys =>
    k != .values && l != .values && xs.length == ys.length && itemsIn sameObject xs ys
  | .throwable i k xs, .throwable j l ys =>
    i == j || (k.isComplaint && k == l && itemsEqual sameObject xs ys)
  | a, b => atomEquals sameObject a b

/-- Equality of lists of elements, place by place. -/
def itemsEqual (sameObject : Nat → Nat → Bool) : List Value → List Value → Bool
  | [], [] => true
  | x :: xs, y :: ys =>
    (bothUndefined x y || equalsWith sameObject x y) && itemsEqual sameObject xs ys
  | _, _ => false

/-- Whether every element of a list equals some element of another. -/
def itemsIn (sameObject : Nat → Nat → Bool) : List Value → List Value → Bool
  | [], _ => true
  | x :: xs, ys =>
    ys.any (fun y => bothUndefined x y || equalsWith sameObject x y) && itemsIn sameObject xs ys

/-- Whether every entry of a map occurs in another. -/
def entriesIn (sameObject : Nat → Nat → Bool) : List (Value × Value) → List (Value × Value) → Bool
  | [], _ => true
  | (k, v) :: rest, entries =>
    (match entries.find? fun entry => bothUndefined k entry.1 || equalsWith sameObject k entry.1 with
      | some (_, w) => bothUndefined v w || equalsWith sameObject v w
      | none => false) && entriesIn sameObject rest entries

end

/-- Equality of elements of a container. -/
def elementEquals (sameObject : Nat → Nat → Bool) (a b : Value) : Bool :=
  bothUndefined a b || equalsWith sameObject a b

/-- Whether an element occurs in a list. -/
def occursIn (sameObject : Nat → Nat → Bool) (v : Value) (items : List Value) : Bool :=
  items.any fun item => elementEquals sameObject v item

mutual

/-- Whether `a < b`; `none` when the two have no order. -/
def lessWith (sameObject : Nat → Nat → Bool) : Value → Value → Option Bool
  | .list xs, .list ys => itemsLess sameObject xs ys
  | .tuple xs, .tuple ys => itemsLess sameObject xs ys
  | .set xs, .set ys => some (xs.length < ys.length && itemsIn sameObject xs ys)
  | .set xs, .frozenset ys => some (xs.length < ys.length && itemsIn sameObject xs ys)
  | .frozenset xs, .set ys => some (xs.length < ys.length && itemsIn sameObject xs ys)
  | .frozenset xs, .frozenset ys => some (xs.length < ys.length && itemsIn sameObject xs ys)
  | a, b =>
    match a.numeric?, b.numeric? with
    | some x, some y => some (Numeric.compare x y == some .lt)
    | _, _ =>
      match a.codes?, b.codes? with
      | some s, some t => some (s < t)
      | _, _ => none

/-- The order of two lists by their first difference. -/
def itemsLess (sameObject : Nat → Nat → Bool) : List Value → List Value → Option Bool
  | _, [] => some false
  | [], _ :: _ => some true
  | x :: xs, y :: ys =>
    if elementEquals sameObject x y then itemsLess sameObject xs ys else lessWith sameObject x y

end

mutual

/-- Whether a value can be an element of a set or a key of a map. -/
def isHashable : Value → Bool
  | .list _ | .set _ | .map _ | .view .keys _ | .view .items _ => false
  | .tuple items => allHashable items
  | .object .point _ | .object .point3 _ => false
  | .throwable _ kind _ => !kind.isComplaint
  | _ => true

/-- Whether all elements of a list can be keys. -/
def allHashable : List Value → Bool
  | [] => true
  | v :: rest => isHashable v && allHashable rest

end

/-- The elements of a set made of a list: each value once, at its first occurrence. -/
def distinct (sameObject : Nat → Nat → Bool) (items : List Value) : List Value :=
  (items.foldl (fun kept v => if occursIn sameObject v kept then kept else v :: kept) []).reverse

/-- A map with the entry for `key` set: a new key goes to the end, a known one keeps its place. -/
def insertEntry (sameObject : Nat → Nat → Bool) (key v : Value) :
    List (Value × Value) → List (Value × Value)
  | [] => [(key, v)]
  | (k, w) :: rest =>
    if elementEquals sameObject k key then (k, v) :: rest
    else (k, w) :: insertEntry sameObject key v rest

/-- The value that a map holds for `key`. -/
def lookupEntry (sameObject : Nat → Nat → Bool) (key : Value) (entries : List (Value × Value)) :
    Option Value :=
  (entries.find? fun entry => elementEquals sameObject entry.1 key).map Prod.snd

end PredicateTrace.Value
