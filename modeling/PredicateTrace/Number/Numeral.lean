import PredicateTrace.Number.Decimal
import PredicateTrace.Text.CharClass

/-!
# Numerals in text

Reading whole and floating numbers from a text the way the host does: white space around the numeral
is skipped, digits of every decimal series count, and single underscores may stand between digits.
-/

namespace PredicateTrace.Number

open PredicateTrace.Text

/-- The most digits that a whole number may be read from. -/
def maxDigits : Nat := 4300

/-- A sign in front of a numeral, if there is one, and the rest. -/
def splitSign : List Char → Bool × List Char
  | '-' :: rest => (true, rest)
  | '+' :: rest => (false, rest)
  | text => (false, text)

/-- Digits with single underscores between them, as values and what follows them. `joined` says that
a digit came just before, so that an underscore may follow. -/
def spanDigits (joined : Bool) : List Char → List Nat × List Char
  | [] => ([], [])
  | '_' :: c :: rest =>
    match joined, decimalValue? c with
    | true, some value =>
      let (digits, after) := spanDigits true rest
      (value :: digits, after)
    | _, _ => ([], '_' :: c :: rest)
  | c :: rest =>
    match decimalValue? c with
    | some value =>
      let (digits, after) := spanDigits true rest
      (value :: digits, after)
    | none => ([], c :: rest)

/-- The number that digits write. -/
def ofDigits (digits : List Nat) : Nat :=
  digits.foldl (fun acc digit => 10 * acc + digit) 0

/-- The whole number that a text writes. -/
def wholeNumber? (text : String) : Option Int :=
  let (negative, unsigned) := splitSign (trim isNumeralSpace text.toList)
  match spanDigits false unsigned with
  | (digits, []) =>
    if digits.isEmpty || maxDigits < digits.length then none
    else some (if negative then -(ofDigits digits : Int) else ofDigits digits)
  | _ => none

/-- The exponent at the end of a floating numeral: `some 0` at the end of the text, `none` when what
follows is no exponent. -/
def exponentPart? : List Char → Option Int
  | [] => some 0
  | e :: rest =>
    if e = 'e' ∨ e = 'E' then
      let (negative, unsigned) := splitSign rest
      match spanDigits false unsigned with
      | (digits, []) =>
        if digits.isEmpty then none
        else some (if negative then -(ofDigits digits : Int) else ofDigits digits)
      | _ => none
    else none

/-- The decimal that an unsigned floating numeral writes. -/
def unsignedDecimal? (negative : Bool) (text : List Char) : Option Decimal :=
  let (whole, rest) := spanDigits false text
  match rest with
  | '.' :: afterPoint =>
    let (fraction, tail) := spanDigits false afterPoint
    if whole.isEmpty && fraction.isEmpty then none
    else (exponentPart? tail).map fun e => ⟨negative, whole ++ fraction, e - fraction.length⟩
  | _ =>
    if whole.isEmpty then none
    else (exponentPart? rest).map fun e => ⟨negative, whole, e⟩

/-- The lower case of an ASCII letter. -/
def lowerAscii (text : List Char) : List Char :=
  text.map Char.toLower

/-- The double that a text writes. -/
def floatingNumber? (text : String) : Option Float :=
  let (negative, unsigned) := splitSign (trim isNumeralSpace text.toList)
  let word := String.ofList (lowerAscii unsigned)
  if word = "inf" ∨ word = "infinity" then some (infinity negative)
  else if word = "nan" then some notANumber
  else (unsignedDecimal? negative unsigned).map Decimal.toFloat

end PredicateTrace.Number
