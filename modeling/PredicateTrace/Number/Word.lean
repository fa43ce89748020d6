/-!
# Fixed-width integers

Two's complement words of a given width, as the integers they denote, with the division that
truncates toward zero and the shifts that work on the bits of a word.
-/

namespace PredicateTrace

/-- Powers of numbers are computed, also where numbers are known to be a monoid. -/
@[default_instance high]
scoped instance (priority := high) powInt : Pow Int Nat :=
  instPowNat

@[inherit_doc powInt, default_instance high]
scoped instance (priority := high) powNat : Pow Nat Nat :=
  instPowNat

end PredicateTrace

namespace PredicateTrace.Number

/-- The integer that the low `bits` bits of `n` denote in two's complement. -/
def wrap (bits : Nat) (n : Int) : Int :=
  n.bmod (2 ^ bits)

/-- The low `bits` bits of `n` as an unsigned number. -/
def lowBits (bits : Nat) (n : Int) : Nat :=
  (n % 2 ^ bits).toNat

/-- Bitwise conjunction of two words of width `bits`. -/
def wordAnd (bits : Nat) (a b : Int) : Int :=
  wrap bits (lowBits bits a &&& lowBits bits b : Nat)

/-- Bitwise disjunction of two words of width `bits`. -/
def wordOr (bits : Nat) (a b : Int) : Int :=
  wrap bits (lowBits bits a ||| lowBits bits b : Nat)

/-- Bitwise exclusive disjunction of two words of width `bits`. -/
def wordXor (bits : Nat) (a b : Int) : Int :=
  wrap bits (lowBits bits a ^^^ lowBits bits b : Nat)

/-- Shift to the left, dropping the bits that leave the word. -/
def shiftLeft (bits : Nat) (n : Int) (amount : Nat) : Int :=
  wrap bits (n * 2 ^ amount)

/-- Shift to the right that repeats the sign. -/
def shiftRight (bits : Nat) (n : Int) (amount : Nat) : Int :=
  wrap bits (n / 2 ^ amount)

/-- Shift to the right that brings in zeros. -/
def shiftRightUnsigned (bits : Nat) (n : Int) (amount : Nat) : Int :=
  wrap bits (lowBits bits n / 2 ^ amount : Nat)

end PredicateTrace.Number
