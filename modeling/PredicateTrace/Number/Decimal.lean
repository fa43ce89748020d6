import PredicateTrace.Number.Binary

/-!
# Decimal text of numbers

A decimal is a sign, a list of digits and the exponent of its last digit. Three things are done with
it: reading it into the nearest double, finding the digits that a double is shown by, and laying the
digits out in positional or exponent notation.
-/

namespace PredicateTrace.Number

/-- The decimal `(-1)^negative · d₁…dₙ · 10^exponent`. -/
structure Decimal where
  negative : Bool
  digits : List Nat
  exponent : Int
  deriving DecidableEq, Repr

namespace Decimal

/-- The whole number that the digits write. -/
def significand (d : Decimal) : Nat :=
  d.digits.foldl (fun acc digit => 10 * acc + digit) 0

/-- The exponent of the leading digit. -/
def point (d : Decimal) : Int :=
  d.exponent + d.digits.length - 1

/-- The decimal without the zeros at its end. -/
def trimmed (d : Decimal) : Decimal :=
  let kept := (d.digits.reverse.dropWhile (· = 0)).reverse
  ⟨d.negative, kept, d.exponent + (d.digits.length - kept.length : Nat)⟩

/-- The nearest double. A number whose leading digit lies far outside the range of doubles is
settled without computing its power of ten. -/
def toFloat (d : Decimal) : Float :=
  let n := d.significand
  if n = 0 then ofParts d.negative 0 0
  else
    let digits := (Nat.toDigits 10 n).length
    let leading := d.exponent + digits - 1
    if 400 < leading then infinity d.negative
    else if leading < -400 then ofParts d.negative 0 0
    else if 0 ≤ d.exponent then ofParts d.negative (n * 10 ^ d.exponent.toNat) 0
    else ofRatio d.negative n (10 ^ (-d.exponent).toNat)

end Decimal

/-- The digits of a number in base ten, leading digit first. -/
def decimalDigits (n : Nat) : List Nat :=
  (Nat.toDigits 10 n).map fun c => c.toNat - 48

/-- A positive fraction, as a numerator and a denominator, of `significand · 2^exponent`. -/
def fraction (significand : Nat) (exponent : Int) : Nat × Nat :=
  if 0 ≤ exponent then (significand * 2 ^ exponent.toNat, 1)
  else (significand, 2 ^ (-exponent).toNat)

/-- Whether `numerator / denominator` is at least `10^power`. -/
def reachesPower (numerator denominator : Nat) (power : Int) : Bool :=
  if 0 ≤ power then denominator * 10 ^ power.toNat ≤ numerator
  else denominator ≤ numerator * 10 ^ (-power).toNat

/-- The exponent of the leading digit of a positive fraction: the estimate from the binary lengths
is off by at most one. -/
def leadingExponent (numerator denominator : Nat) : Int :=
  let estimate :=
    ((bitLength numerator : Int) - bitLength denominator) * 30103 / 100000
  if reachesPower numerator denominator (estimate + 1) then estimate + 1
  else if reachesPower numerator denominator estimate then estimate
  else estimate - 1

/-- The fraction in units of `10^power`: the whole units and whether the rest is below, at or above
one half. -/
def inUnits (numerator denominator : Nat) (power : Int) : Nat × Ordering :=
  let (n, d) :=
    if 0 ≤ power then (numerator, denominator * 10 ^ power.toNat)
    else (numerator * 10 ^ (-power).toNat, denominator)
  (n / d, compare (2 * (n % d)) d)

/-- Whether `units · 10^power` is exactly the fraction. -/
def isExact (numerator denominator units : Nat) (power : Int) : Bool :=
  if 0 ≤ power then numerator = units * 10 ^ power.toNat * denominator
  else numerator * 10 ^ (-power).toNat = units * denominator

/-- The decimal of `count` significant digits nearest to a positive fraction, a tie to the even
last digit. -/
def roundedDecimal (negative : Bool) (numerator denominator count : Nat) : Decimal :=
  let power := leadingExponent numerator denominator - count + 1
  let (units, rest) := inUnits numerator denominator power
  let rounded :=
    match rest with
    | .lt => units
    | .gt => units + 1
    | .eq => units + units % 2
  ⟨negative, decimalDigits rounded, power⟩

/-- The decimal of `count` significant digits that reads back as `x`, if there is one: of the two
neighbours of the fraction on the grid, the one that reads back, and the nearer when both do. -/
def neighbour? (x : Float) (negative : Bool) (numerator denominator count : Nat) : Option Decimal :=
  let power := leadingExponent numerator denominator - count + 1
  let (units, rest) := inUnits numerator denominator power
  let below : Decimal := ⟨negative, decimalDigits units, power⟩
  let above : Decimal := ⟨negative, decimalDigits (units + 1), power⟩
  let reads := fun d : Decimal => d.toFloat == x
  if isExact numerator denominator units power then some below
  else
    let (first, second) :=
      match rest with
      | .lt => (below, above)
      | .gt => (above, below)
      | .eq => if units % 2 = 0 then (below, above) else (above, below)
    if reads first then some first else if reads second then some second else none

/-- The fewest digits that read back as the finite nonzero double `x`. -/
def shortest (x : Float) (negative : Bool) (significand : Nat) (exponent : Int) : Decimal :=
  let (numerator, denominator) := fraction significand exponent
  match (List.range 17).findSome? fun k => neighbour? x negative numerator denominator (k + 1) with
  | some d => d.trimmed
  | none => (roundedDecimal negative numerator denominator 17).trimmed

/-- The digits that a single is shown by: the fewest, from one to nine, whose nearest decimal reads
back once it is rounded to a single. -/
def shortestSingle (x : Float) (negative : Bool) (significand : Nat) (exponent : Int) : Decimal :=
  let (numerator, denominator) := fraction significand exponent
  let candidate := fun k => roundedDecimal negative numerator denominator (k + 1)
  match (List.range 9).find? fun k => toSingle (candidate k).toFloat == x with
  | some k => (candidate k).trimmed
  | none => shortest x negative significand exponent

/-- How a decimal is laid out. Positional notation is used while the exponent of the leading digit
is at least `lowest` and below `highest`. -/
structure Layout where
  lowest : Int
  highest : Int
  /-- What separates the digits from the exponent. -/
  mark : String
  /-- Whether a nonnegative exponent has a plus sign, and exponents two digits at least. -/
  wideExponent : Bool
  /-- Whether exponent notation has a fraction even when there is a single digit. -/
  alwaysFraction : Bool

/-- The layout of source literals. -/
def Layout.source : Layout := ⟨-3, 7, "E", false, true⟩

/-- The layout of host numbers. -/
def Layout.host : Layout := ⟨-4, 16, "e", true, false⟩

/-- A list of digits as text. -/
def digitText (digits : List Nat) : String :=
  String.ofList (digits.map Nat.digitChar)

/-- The text of an exponent. -/
def Layout.exponentText (layout : Layout) (e : Int) : String :=
  if layout.wideExponent then
    let digits := toString e.natAbs
    (if e < 0 then "-" else "+") ++ (if digits.length < 2 then "0" ++ digits else digits)
  else toString e

/-- A text, or a zero in place of an empty one. -/
def orZero (text : String) : String :=
  if text.isEmpty then "0" else text

/-- The text of a decimal, without the zeros at the end of its fraction. -/
def Layout.render (layout : Layout) (d : Decimal) : String :=
  let digits := if d.trimmed.digits.isEmpty then [0] else d.trimmed.digits
  let point := d.point
  let sign := if d.negative then "-" else ""
  if layout.lowest ≤ point ∧ point < layout.highest then
    if 0 ≤ point then
      let whole := digits.take (point.toNat + 1)
      let padding := List.replicate (point.toNat + 1 - digits.length) 0
      sign ++ digitText (whole ++ padding) ++ "." ++ orZero (digitText (digits.drop (point.toNat + 1)))
    else
      sign ++ "0." ++ digitText (List.replicate ((-point).toNat - 1) 0 ++ digits)
  else
    let rest := digitText digits.tail
    let fraction := if layout.alwaysFraction then "." ++ orZero rest
      else if rest.isEmpty then "" else "." ++ rest
    sign ++ digitText (digits.take 1) ++ fraction ++ layout.mark ++ layout.exponentText point

/-- A double as a source literal shows it. -/
def sourceDouble (x : Float) : String :=
  match parts x with
  | .nan => "NaN"
  | .infinite negative => if negative then "-Infinity" else "Infinity"
  | .finite negative 0 _ => if negative then "-0.0" else "0.0"
  | .finite negative m e => Layout.source.render (shortest x negative m e)

/-- A single as a source literal shows it. -/
def sourceSingle (x : Float) : String :=
  match parts x with
  | .nan => "NaN"
  | .infinite negative => if negative then "-Infinity" else "Infinity"
  | .finite negative 0 _ => if negative then "-0.0" else "0.0"
  | .finite negative m e => Layout.source.render (shortestSingle x negative m e)

/-- A double as the host shows it. -/
def hostDouble (x : Float) : String :=
  match parts x with
  | .nan => "nan"
  | .infinite negative => if negative then "-inf" else "inf"
  | .finite negative 0 _ => if negative then "-0.0" else "0.0"
  | .finite negative m e => Layout.host.render (shortest x negative m e)

end PredicateTrace.Number
