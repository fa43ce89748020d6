import PredicateTrace.Value.Basic

/-!
# Hash codes

The hash of a number depends only on the number it denotes: it is its residue modulo a Mersenne
prime, with the sign of the number. Tuples and frozen sets mix the hashes of their elements, and null
has a fixed hash. Values that are told apart by identity have no hash that could be relied on, and get
zero.
-/

namespace PredicateTrace.Value

/-- The prime modulus of the hashes of numbers. -/
def hashModulus : Nat := 2 ^ 61 - 1

/-- The code -1 is reserved. -/
def avoidReserved (n : Int) : Int :=
  if n = -1 then -2 else n

/-- The hash of a whole number. -/
def wholeHash (n : Int) : Int :=
  avoidReserved (n.sign * (n.natAbs % hashModulus : Nat))

/-- The hash of a floating number. Powers of two have period 61 modulo the prime. -/
def floatHash (x : Float) : Int :=
  match Number.parts x with
  | .nan => 0
  | .infinite negative => if negative then -314159 else 314159
  | .finite negative significand exponent =>
    let residue : Int := (significand * 2 ^ (exponent % 61).toNat % hashModulus : Nat)
    avoidReserved (if negative then -residue else residue)

/-- The signed number that a word of 64 bits denotes. -/
def signed (w : UInt64) : Int :=
  w.toInt64.toInt

/-- One step of the hash of a tuple. -/
def mixTuple (acc lane : UInt64) : UInt64 :=
  let sum := acc + lane * 14029467366897019727
  ((sum <<< 31) ||| (sum >>> 33)) * 11400714785074694791

/-- The hash of a tuple whose elements have the given hashes. -/
def tupleHash (lanes : List UInt64) : Int :=
  let seed : UInt64 := 2870177450012600261
  let acc := lanes.foldl mixTuple seed + (UInt64.ofNat lanes.length ^^^ (seed ^^^ (3527539 : UInt64)))
  if acc = 0xffffffffffffffff then 1546275796 else signed acc

/-- The share of one element in the hash of a frozen set. -/
def shuffle (h : UInt64) : UInt64 :=
  ((h ^^^ (89869747 : UInt64)) ^^^ (h <<< 16)) * 3644798167

/-- The hash of a frozen set whose elements have the given hashes; it does not depend on order. -/
def frozensetHash (lanes : List UInt64) : Int :=
  let mixed := lanes.foldl (fun acc h => acc ^^^ shuffle h) 0
  let counted := mixed ^^^ ((UInt64.ofNat lanes.length + 1) * 1927868237)
  let spread := counted ^^^ ((counted >>> 11) ^^^ (counted >>> 25))
  let hash := spread * 69069 + 907133923
  if hash = 0xffffffffffffffff then 590923713 else signed hash

mutual

/-- The hash of a value. -/
def hash : Value → Int
  | .bool b => if b then 1 else 0
  | .integral _ n => wholeHash n
  | .hostInt n => wholeHash n
  | .floating _ x _ => floatHash x
  | .hostFloat x _ => floatHash x
  | .tuple items => tupleHash (hashes items)
  | .frozenset items => frozensetHash (hashes items)
  | .null => 0xfca86420
  | _ => 0

/-- The hashes of a list of values. -/
def hashes : List Value → List UInt64
  | [] => []
  | v :: rest => UInt64.ofInt (hash v) :: hashes rest

end

/-- The hash code of a text with the given codes: a polynomial in 31 over them, on 32 bits. -/
def textHash (codes : List Nat) : Nat :=
  codes.foldl (fun acc code => (31 * acc + code) % 2 ^ 32) 0

end PredicateTrace.Value
