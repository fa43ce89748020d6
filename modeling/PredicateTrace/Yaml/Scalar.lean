import PredicateTrace.Number.Numeral
import PredicateTrace.Value.Basic

/-!
# Plain scalars

What an unquoted word of YAML stands for: nothing, a truth value, a number in one of several notations,
or else itself.
-/

namespace PredicateTrace.Yaml

open Number (splitSign)

/-- A word in its three usual spellings. -/
def spellings (lower capital upper : String) : List String :=
  [lower, capital, upper]

def nullWords : List String :=
  ["", "~"] ++ spellings "null" "Null" "NULL"

def trueWords : List String :=
  spellings "true" "True" "TRUE" ++ spellings "yes" "Yes" "YES" ++ spellings "on" "On" "ON"

def falseWords : List String :=
  spellings "false" "False" "FALSE" ++ spellings "no" "No" "NO" ++ spellings "off" "Off" "OFF"

def infinityWords : List String :=
  spellings ".inf" ".Inf" ".INF"

def undefinedWords : List String :=
  spellings ".nan" ".NaN" ".NAN"

/-- The value of a digit in any base up to sixteen. -/
def digitValue? (c : Char) : Option Nat :=
  if '0' ≤ c && c ≤ '9' then some (c.toNat - '0'.toNat)
  else if 'a' ≤ c && c ≤ 'f' then some (c.toNat - 'a'.toNat + 10)
  else if 'A' ≤ c && c ≤ 'F' then some (c.toNat - 'A'.toNat + 10)
  else none

/-- The value of a digit of a base. -/
def baseDigit? (base : Nat) (c : Char) : Option Nat :=
  (digitValue? c).filter (· < base)

/-- The number that the digits of a base write. Underscores may stand anywhere among them. -/
def wholeOfBase? (base : Nat) (text : List Char) : Option Nat :=
  if text.all fun c => c = '_' || (baseDigit? base c).isSome then
    some ((text.filterMap (baseDigit? base)).foldl (fun n digit => base * n + digit) 0)
  else none

/-- The number of the parts of an hour, minute and second notation, each but the first below sixty. -/
def sexagesimal? (text : String) : Option Nat :=
  let part := fun part : String =>
    (wholeOfBase? 10 part.toList).filter fun n => part.length ≤ 2 && !part.isEmpty && n < 60
  match text.splitOn ":" with
  | first :: second :: others => do
    let first ← if first.startsWith "0" then none else wholeOfBase? 10 first.toList
    let others ← (second :: others).mapM part
    return others.foldl (fun n digit => 60 * n + digit) first
  | _ => none

/-- The magnitude of a whole number in one of its notations. -/
def unsignedWhole? : List Char → Option Nat
  | ['0'] => some 0
  | '0' :: 'b' :: digits => if digits.isEmpty then none else wholeOfBase? 2 digits
  | '0' :: 'x' :: digits => if digits.isEmpty then none else wholeOfBase? 16 digits
  | '0' :: digits => wholeOfBase? 8 digits
  | c :: rest =>
    if c.isDigit then
      match wholeOfBase? 10 (c :: rest) with
      | some n => some n
      | none => sexagesimal? (String.ofList (c :: rest))
    else none
  | [] => none

/-- The whole number that a word writes. -/
def whole? (text : List Char) : Option Int :=
  let (negative, unsigned) := splitSign text
  (unsignedWhole? unsigned).map fun n => if negative then -(n : Int) else n

/-- Digits and underscores. -/
def isFractionText (c : Char) : Bool :=
  c.isDigit || c = '_'

/-- Whether a text is empty or an exponent, which has to show its sign. -/
def isExponent : List Char → Bool
  | [] => true
  | e :: sign :: digits =>
    (e = 'e' || e = 'E') && (sign = '+' || sign = '-') && !digits.isEmpty && digits.all Char.isDigit
  | _ => false

/-- Whether a word is a floating number, which has to show its point. -/
def isFractional (text : List Char) : Bool :=
  let (_, unsigned) := splitSign text
  match unsigned.span isFractionText with
  | ([], '.' :: fraction) =>
    unsigned.length = text.length && fraction.head?.any Char.isDigit
      && isExponent (fraction.dropWhile isFractionText)
  | (c :: _, '.' :: fraction) => c.isDigit && isExponent (fraction.dropWhile isFractionText)
  | _ => false

/-- The floating number that a word writes. -/
def fractional? (text : List Char) : Option Float :=
  let (negative, unsigned) := splitSign text
  let word := String.ofList unsigned
  if infinityWords.contains word then some (Number.infinity negative)
  else if undefinedWords.contains (String.ofList text) then some Number.notANumber
  else if isFractional text then
    Number.floatingNumber? (String.ofList (text.filter fun c => c ≠ '_'))
  else none

/-- What a plain word stands for. -/
def plainValue (word : String) : Value :=
  if nullWords.contains word then .null
  else if trueWords.contains word then .bool true
  else if falseWords.contains word then .bool false
  else
    match whole? word.toList, fractional? word.toList with
    | some n, _ => .hostInt n
    | none, some x => if x.isNaN then .undefinedScalar else .ofHostFloat x
    | none, none => .str word

end PredicateTrace.Yaml
