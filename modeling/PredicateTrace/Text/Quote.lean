import PredicateTrace.Text.CharClass
import PredicateTrace.Text.Codes
import PredicateTrace.Text.Unprintable

/-!
# Quoted text

Two ways of showing a text between quotes. `quote` is the one that names things in messages: it
prefers single quotes, and shows whatever has no visible form by its code point. `escapeSource`
writes a text as it would stand in a source literal, and stops once it has used up a budget.
-/

namespace PredicateTrace.Text

/-- The lower case hexadecimal digits of `n`, with zeros in front up to `width` digits. -/
def hex (width n : Nat) : String :=
  let digits := Nat.toDigits 16 n
  String.ofList (List.replicate (width - digits.length) '0' ++ digits)

/-- Whether a character is shown as it is. -/
def isPrintable (c : Char) : Bool :=
  !covers unprintableRanges c.toNat

/-- The form of one character between the quotes `mark`. -/
def quoteChar (mark c : Char) : String :=
  if c = mark ∨ c = '\\' then String.ofList ['\\', c]
  else if c = '\n' then "\\n"
  else if c = '\r' then "\\r"
  else if c = '\t' then "\\t"
  else if isPrintable c then c.toString
  else if c.toNat < 0x100 then "\\x" ++ hex 2 c.toNat
  else if c.toNat < 0x10000 then "\\u" ++ hex 4 c.toNat
  else "\\U" ++ hex 8 c.toNat

/-- The quotes around a text: single ones unless only double ones avoid an escape. -/
def quoteMark (text : String) : Char :=
  if text.toList.contains '\x27' && !text.toList.contains '"' then '"' else '\x27'

/-- A text between quotes, on one line. -/
def quote (text : String) : String :=
  let mark := quoteMark text
  mark.toString ++ String.join (text.toList.map (quoteChar mark)) ++ mark.toString

/-- The form of one code between the quotes `mark`. -/
def quoteCode (mark : Char) (code : Nat) : String :=
  if code.isValidChar then quoteChar mark (Char.ofNat code) else "\\u" ++ hex 4 code

/-- A text between quotes, given by its codes. -/
def quoteCodes (codes : List Nat) : String :=
  let mark := quoteMark (ofCodes codes)
  mark.toString ++ String.join (codes.map (quoteCode mark)) ++ mark.toString

/-- The two-character escape of a source literal, for the characters that have one. -/
def sourceEscape? : Char → Option String
  | '\\' => some "\\\\"
  | '\t' => some "\\t"
  | '\n' => some "\\n"
  | '\x0c' => some "\\f"
  | '\x08' => some "\\b"
  | '\r' => some "\\r"
  | '\x27' => some "\\\x27"
  | '"' => some "\\\""
  | _ => none

/-- One character as it stands in a source literal. -/
def sourcePiece (c : Char) : String :=
  match sourceEscape? c with
  | some escape => escape
  | none => if c.toNat < 32 then "\\u" ++ hex 4 c.toNat else c.toString

/-- One code as it stands in a source literal; one that is no character stands there itself. -/
def sourcePieceCodes (code : Nat) : List Nat :=
  if code.isValidChar then codes (sourcePiece (Char.ofNat code)) else [code]

/-- The pieces of a source literal up to and including the one that uses up the budget, which an
ellipsis then follows. `used` counts the codes already out. -/
def escapeWithin (budget used : Nat) : List Nat → List Nat
  | [] => []
  | code :: rest =>
    let piece := sourcePieceCodes code
    if budget ≤ used + piece.length then piece ++ codes "..."
    else piece ++ escapeWithin budget (used + piece.length) rest

/-- A text as it stands in a source literal, cut after `budget` characters. -/
def escapeSource (text : String) (budget : Nat) : String :=
  ofCodes (escapeWithin budget 0 (codes text))

/-- A text cut after `limit` characters; a negative limit counts from the end of the text. -/
def abbreviate (text : String) (limit : Int) : String :=
  if limit < text.length then
    let kept := if limit < 0 then text.length - limit.natAbs else limit.toNat
    String.ofList (text.toList.take kept) ++ "..."
  else text

end PredicateTrace.Text
