import PredicateTrace.Number.Word

/-!
# Binary floating point

A binary floating number is a sign, a whole significand and a power of two. This file reads such a
triple off a `Float`, rounds exact fractions to the nearest number of a binary format, and rounds to
the single format inside the double one. All rounding is to nearest with ties to even, and all of it
is exact arithmetic on natural numbers.
-/

namespace PredicateTrace.Number

/-- A floating number taken apart; a finite one is `(-1)^negative · significand · 2^exponent`. -/
inductive Parts
  | nan
  | infinite (negative : Bool)
  | finite (negative : Bool) (significand : Nat) (exponent : Int)
  deriving DecidableEq, Repr

/-- The parts of a double. -/
def parts (x : Float) : Parts :=
  let bits := x.toBits.toNat
  let negative := decide (2 ^ 63 ≤ bits)
  let biased := bits / 2 ^ 52 % 2 ^ 11
  let fraction := bits % 2 ^ 52
  if biased = 2047 then
    if fraction = 0 then .infinite negative else .nan
  else if biased = 0 then
    .finite negative fraction (-1074)
  else
    .finite negative (fraction + 2 ^ 52) (Int.ofNat biased - 1075)

/-- `n / 2^places` rounded to the nearest integer, a tie to the even one. -/
def roundHalfEven (n places : Nat) : Nat :=
  let quotient := n / 2 ^ places
  let remainder := n % 2 ^ places
  if 2 * remainder > 2 ^ places ∨ (2 * remainder = 2 ^ places ∧ quotient % 2 = 1) then
    quotient + 1
  else
    quotient

/-- The number of binary digits of `n`. -/
def bitLength (n : Nat) : Nat :=
  if n = 0 then 0 else n.log2 + 1

/-- A binary format: the digits of a significand, the exponent of the smallest positive number and
the exponent of the first power of two that is too large. -/
structure Format where
  precision : Nat
  minExponent : Int
  overflow : Int

/-- Numbers of 32 bits. -/
def Format.single : Format := ⟨24, -149, 128⟩

/-- Numbers of 64 bits. -/
def Format.double : Format := ⟨53, -1074, 1024⟩

/-- The number of the format nearest to `significand · 2^exponent`, as a significand and an
exponent; `none` when it lies beyond the largest finite number. -/
def Format.nearest? (format : Format) (significand : Nat) (exponent : Int) : Option (Nat × Int) :=
  let target := max (exponent + bitLength significand - format.precision) format.minExponent
  let rounded :=
    if target ≤ exponent then significand * 2 ^ (exponent - target).toNat
    else roundHalfEven significand (target - exponent).toNat
  if format.overflow < target + bitLength rounded then none else some (rounded, target)

/-- The double with the given sign that is nearest to `significand · 2^exponent`. -/
def ofParts (negative : Bool) (significand : Nat) (exponent : Int) : Float :=
  let sign := if negative then 2 ^ 63 else 0
  match Format.double.nearest? significand exponent with
  | none => Float.ofBits (UInt64.ofNat (sign + 2047 * 2 ^ 52))
  | some (rounded, target) =>
    if rounded < 2 ^ 52 then Float.ofBits (UInt64.ofNat (sign + rounded))
    else Float.ofBits (UInt64.ofNat (sign + (target + 1074).toNat * 2 ^ 52 + rounded))

/-- The signed infinity. -/
def infinity (negative : Bool) : Float :=
  Float.ofBits (UInt64.ofNat ((if negative then 2 ^ 63 else 0) + 2047 * 2 ^ 52))

/-- The number that stands for an undefined result. -/
def notANumber : Float :=
  Float.ofBits 0x7ff8000000000000

/-- The double nearest to an integer. -/
def ofInt (n : Int) : Float :=
  ofParts (decide (n < 0)) n.natAbs 0

/-- The double nearest to `numerator / denominator`, for a positive denominator. The quotient is
taken to more digits than any format holds, and a last digit records whether anything is left. -/
def ofRatio (negative : Bool) (numerator denominator : Nat) : Float :=
  let places := bitLength denominator + 64 - bitLength numerator
  let scaled := numerator * 2 ^ places
  let quotient := scaled / denominator
  let sticky := if scaled % denominator = 0 then 0 else 1
  ofParts negative (2 * quotient + sticky) (-(places : Int) - 1)

/-- A double rounded to the nearest single, as a double. -/
def toSingle (x : Float) : Float :=
  match parts x with
  | .finite negative significand exponent =>
    match Format.single.nearest? significand exponent with
    | none => infinity negative
    | some (rounded, target) => ofParts negative rounded target
  | _ => x

/-- The single significand nearest to `n`, scaled back to the size of `n`: at most 24 significant
binary digits, a tie to the even neighbour. -/
def nearestSingle (n : Nat) : Nat :=
  let excess := bitLength n - 24
  roundHalfEven n excess * 2 ^ excess

/-- The single nearest to an integer, rounded once. -/
def singleOfInt (n : Int) : Float :=
  toSingle (ofParts (decide (n < 0)) (nearestSingle n.natAbs) 0)

/-- The integer part of a finite number, toward zero. -/
def truncate (negative : Bool) (significand : Nat) (exponent : Int) : Int :=
  let magnitude :=
    if 0 ≤ exponent then significand * 2 ^ exponent.toNat
    else significand / 2 ^ (-exponent).toNat
  if negative then -magnitude else magnitude

/-- The exact order of an integer and a double; `none` beside an undefined number. -/
def compareInt (n : Int) (x : Float) : Option Ordering :=
  match parts x with
  | .nan => none
  | .infinite negative => some (if negative then .gt else .lt)
  | .finite negative significand exponent =>
    let signed : Int := if negative then -significand else significand
    if 0 ≤ exponent then some (compare n (signed * 2 ^ exponent.toNat))
    else some (compare (n * 2 ^ (-exponent).toNat) signed)

/-- Whether the sign bit is set. -/
def isNegative (x : Float) : Bool :=
  decide (2 ^ 63 ≤ x.toBits.toNat)

/-- The remainder of a division whose quotient is truncated, computed exactly; undefined for an
infinite dividend, a zero divisor or an undefined operand. -/
def remainder (a b : Float) : Float :=
  match parts a, parts b with
  | .finite negative m e, .finite _ n f =>
    if n = 0 then notANumber
    else
      let common := min e f
      let dividend := m * 2 ^ (e - common).toNat
      let divisor := n * 2 ^ (f - common).toNat
      ofParts negative (dividend % divisor) common
  | .finite .., .infinite _ => a
  | _, _ => notANumber

end PredicateTrace.Number
