import PredicateTrace.Number.Numeral
import PredicateTrace.SyntaxError

/-!
# Reading tokens

A source is read from left to right. At each place `readLexeme` tells what begins there: something to
skip, a lexeme, or a mistake; the scanner then steps over the characters of it one by one and keeps
the position. A source is a list of codes. Those that are no characters are nothing but themselves in
the literals between quotes, and mistakes elsewhere.
-/

namespace PredicateTrace.Token

open PredicateTrace.Text (isDigit isLetter isLetterOrNumeral shown)

/-- A mistake inside a lexeme, with its distance from the beginning. -/
inductive Mistake
  | at (offset : Nat) (cause : SyntaxCause)
  | unreadableNumber

/-! ### Numbers -/

/-- What a number literal turns out to be. -/
inductive NumberValue
  | lexeme (l : Lexeme)
  | malformed
  | unreadable

/-- A number literal, its length and what follows it. -/
structure NumberScan where
  value : NumberValue
  length : Nat
  rest : List Char

/-- The value of a hexadecimal digit. -/
def hexValue? (c : Char) : Option Nat :=
  if '0' ≤ c ∧ c ≤ '9' then some (c.toNat - 48)
  else if 'a' ≤ c ∧ c ≤ 'f' then some (c.toNat - 87)
  else if 'A' ≤ c ∧ c ≤ 'F' then some (c.toNat - 55)
  else none

/-- Whether a character is a digit of a base up to sixteen. -/
def isBaseDigit (base : Nat) (c : Char) : Bool :=
  (hexValue? c).any (· < base)

/-- The number that digits of a base write; underscores do not count. -/
def ofBase (base : Nat) (digits : List Char) : Nat :=
  digits.foldl (fun acc c => match hexValue? c with
    | some d => base * acc + d
    | none => acc) 0

/-- A letter that marks a long literal. -/
def isLongMark (c : Char) : Bool :=
  c = 'l' || c = 'L'

/-- An integer lexeme, and whether it is long. -/
def integerLexeme (isLong : Bool) (n : Nat) : NumberValue :=
  .lexeme (if isLong then .long n else .int n)

/-- Whether a run of digits begins or ends with an underscore. -/
def hasEdgeUnderscore (body : List Char) : Bool :=
  body.head? == some '_' || body.getLast? == some '_'

/-- A suffix that marks a long literal, if it comes next: whether it does, and what follows. -/
def splitLongMark : List Char → Bool × List Char
  | c :: rest => if isLongMark c then (true, rest) else (false, c :: rest)
  | [] => (false, [])

/-- A literal with a base prefix; `text` is what follows the prefix. -/
def scanBased (base : Nat) (text : List Char) : NumberScan :=
  let body := text.takeWhile fun c => isBaseDigit base c || c = '_'
  let (isLong, rest) := splitLongMark (text.drop body.length)
  let length := 2 + body.length + (if isLong then 1 else 0)
  if body.isEmpty || hasEdgeUnderscore body then ⟨.malformed, length, rest⟩
  else ⟨integerLexeme isLong (ofBase base body), length, rest⟩

/-- A digit or an underscore between digits. -/
def isDigitOrUnderscore (c : Char) : Bool :=
  isDigit c || c = '_'

/-- The fraction that follows the whole part of a number: a point, unless it begins the name of a
member, and the digits after it. -/
def fractionPart : List Char → List Char
  | '.' :: c :: rest =>
    if isLetter c && !"eEfFdD".toList.contains c then []
    else '.' :: (c :: rest).takeWhile isDigitOrUnderscore
  | '.' :: [] => ['.']
  | _ => []

/-- The exponent that follows a number. -/
inductive ExponentScan
  | absent
  | present (text : List Char)
  | malformed (length : Nat)

/-- Reads an exponent: a letter, perhaps a sign, and digits. -/
def scanExponent : List Char → ExponentScan
  | e :: rest =>
    if e = 'e' || e = 'E' then
      let sign := match rest with
        | '+' :: _ => ['+']
        | '-' :: _ => ['-']
        | _ => []
      let after := rest.drop sign.length
      if after.head?.any isDigit then
        .present (e :: sign ++ after.takeWhile isDigitOrUnderscore)
      else .malformed (1 + sign.length)
    else .absent
  | [] => .absent

/-- Whether an underscore of a number stands elsewhere than alone between two digits. -/
def hasStrayUnderscore : List Char → Bool
  | [] => false
  | '_' :: rest =>
    (match rest with
      | [] => true
      | c :: _ => c = '_' || c = '.') || hasStrayUnderscore rest
  | '.' :: '_' :: _ => true
  | _ :: rest => hasStrayUnderscore rest

/-- The floating lexeme that a numeral gives. -/
def floatingValue (make : Float → Lexeme) (numeral : List Char) : NumberValue :=
  match Number.floatingNumber? (String.ofList numeral) with
  | some x => .lexeme (make x)
  | none => .unreadable

/-- The integer lexeme that a numeral gives; a zero in front makes it octal. -/
def integerValue (isLong : Bool) (numeral : List Char) : NumberValue :=
  match numeral with
  | '0' :: _ :: _ =>
    if numeral.all (isBaseDigit 8) then integerLexeme isLong (ofBase 8 numeral) else .malformed
  | _ =>
    match Number.wholeNumber? (String.ofList numeral) with
    | some n => integerLexeme isLong n.toNat
    | none => .unreadable

/-- A literal without a base prefix. -/
def scanDecimal (text : List Char) : NumberScan :=
  let whole := text.takeWhile isDigitOrUnderscore
  let fraction := fractionPart (text.drop whole.length)
  let mantissa := whole ++ fraction
  let finish := fun isFloating (body : List Char) =>
    let rest := text.drop body.length
    let numeral := body.filter (· ≠ '_')
    if hasEdgeUnderscore body || hasStrayUnderscore body then
      ⟨.malformed, body.length, rest⟩
    else
      match rest with
      | c :: after =>
        if c = 'f' || c = 'F' then ⟨floatingValue .float numeral, body.length + 1, after⟩
        else if c = 'd' || c = 'D' then ⟨floatingValue .double numeral, body.length + 1, after⟩
        else if isFloating then ⟨floatingValue .double numeral, body.length, rest⟩
        else if isLongMark c then ⟨integerValue true numeral, body.length + 1, after⟩
        else ⟨integerValue false numeral, body.length, rest⟩
      | [] =>
        ⟨if isFloating then floatingValue .double numeral else integerValue false numeral,
          body.length, rest⟩
  match scanExponent (text.drop mantissa.length) with
  | .absent => finish (!fraction.isEmpty) mantissa
  | .present exponent => finish true (mantissa ++ exponent)
  | .malformed n => ⟨.malformed, mantissa.length + n, text.drop (mantissa.length + n)⟩

/-- Reads a number literal. -/
def scanNumber (text : List Char) : NumberScan :=
  match text with
  | '0' :: c :: rest =>
    if c = 'x' || c = 'X' then scanBased 16 rest
    else if c = 'b' || c = 'B' then scanBased 2 rest
    else scanDecimal text
  | _ => scanDecimal text

/-- What a number literal is, with its length. What follows it must not continue a name. -/
def readNumber (text : List Char) : Except Mistake (Lexeme × Nat) :=
  let scan := scanNumber text
  let invalid := fun n => Except.error (.at 0 (.invalidNumber (String.ofList (text.take n))))
  match scan.value with
  | .unreadable => .error .unreadableNumber
  | .lexeme l =>
    if scan.rest.head?.any fun c => isLetterOrNumeral c || c = '_' then invalid (scan.length + 1)
    else .ok (l, scan.length)
  | .malformed =>
    if scan.rest.head?.any fun c => isLetterOrNumeral c || c = '_' then invalid (scan.length + 1)
    else invalid scan.length

/-! ### Quoted literals -/

/-- The character of a simple escape. -/
def simpleEscape? (c : Char) : Option Nat :=
  match c with
  | 'b' => some 8
  | 't' => some 9
  | 'n' => some 10
  | 'f' => some 12
  | 'r' => some 13
  | 's' => some 32
  | '"' => some 34
  | '\x27' => some 39
  | '\\' => some 92
  | _ => none

/-- The escape after a backslash: its code and the number of characters after the backslash. -/
def readEscape (text : List Char) : Except SyntaxCause (Nat × Nat) :=
  match text with
  | [] => .error .unterminatedEscape
  | c :: _ =>
    match simpleEscape? c with
    | some code => .ok (code, 1)
    | none =>
      if c = 'u' then
        let marks := (text.takeWhile (· = 'u')).length
        let digits := (text.drop marks).take 4
        if digits.length = 4 ∧ digits.all (isBaseDigit 16) then
          .ok (ofBase 16 digits, marks + 4)
        else .error .badUnicodeEscape
      else if isBaseDigit 8 c then
        let limit := if isBaseDigit 4 c then 3 else 2
        let digits := (text.take limit).takeWhile (isBaseDigit 8)
        .ok (ofBase 8 digits, digits.length)
      else .error (.badEscape c)

/-- The decoded codes of a literal up to its closing quote, and the place after that. `offset` counts
from the opening quote, and `skip` characters still belong to the escape before. -/
def readQuoted (mark : Char) (unclosed : SyntaxCause) (offset : Nat) :
    Nat → List Nat → Except Mistake (List Nat × Nat)
  | _, [] => .error (.at 0 unclosed)
  | skip + 1, _ :: rest => readQuoted mark unclosed (offset + 1) skip rest
  | 0, code :: rest =>
    if shown code = '\n' then .error (.at 0 unclosed)
    else if shown code = mark then .ok ([], offset + 1)
    else if shown code = '\\' then
      match readEscape (rest.map shown) with
      | .error cause => .error (.at offset cause)
      | .ok (code, length) => do
        let (codes, stop) ← readQuoted mark unclosed (offset + 1) length rest
        return (code :: codes, stop)
    else do
      let (codes, stop) ← readQuoted mark unclosed (offset + 1) 0 rest
      return (code :: codes, stop)

/-! ### Comments, names and symbols -/

/-- The length of a comment up to and including its closing mark. -/
def commentLength? : List Char → Option Nat
  | '*' :: '/' :: _ => some 2
  | _ :: rest => (commentLength? rest).map (· + 1)
  | [] => none

/-- Whether a symbol stands at the beginning of a text. -/
def Symbol.fits (s : Symbol) (text : List Char) : Bool :=
  s.text.toList == text.take s.text.length

/-- A character that may begin a name. -/
def isNameStart (c : Char) : Bool :=
  isLetter c || c = '_' || c = '$'

/-- A character that may continue a name. -/
def isNamePart (c : Char) : Bool :=
  isLetterOrNumeral c || c = '_' || c = '$'

/-- What begins at a place of the source. Lengths count all characters of it. -/
inductive Piece
  | skipped (length : Nat)
  | token (lexeme : Lexeme) (length : Nat)
  | mistake (m : Mistake)

/-- White space between tokens. -/
def isBlank (c : Char) : Bool :=
  c = ' ' || c = '\t' || c = '\r' || c = '\x0c' || c = '\n'

/-- The lexeme that a result gives, or its mistake. -/
def Piece.ofResult : Except Mistake (Lexeme × Nat) → Piece
  | .ok (lexeme, length) => .token lexeme length
  | .error m => .mistake m

/-- The symbol that was found at a character, if there is one. -/
def Piece.ofSymbol (c : Char) : Option Symbol → Piece
  | some s => .token (.symbol s) s.text.length
  | none => .mistake (.at 0 (.unexpectedCharacter c))

/-- The lexeme of a word: a keyword or a name. -/
def wordLexeme (word : String) : Lexeme :=
  match Keyword.ofText? word with
  | some k => .keyword k
  | none => .ident word

/-- Reads a character literal after its opening quote. -/
def readCharacter (rest : List Nat) : Except Mistake (Lexeme × Nat) := do
  let (codes, length) ← readQuoted '\x27' .unclosedCharacter 1 0 rest
  match codes with
  | [code] => return (.char code, length)
  | _ => throw (.at 0 .characterLength)

/-- Reads a string literal after its opening quote. -/
def readString (rest : List Nat) : Except Mistake (Lexeme × Nat) := do
  let (codes, length) ← readQuoted '"' .unclosedString 1 0 rest
  return (.ofCodes codes, length)

/-- Reads what begins with the character `c`, followed by `rest`, where nothing is between quotes. -/
def readPlain (c : Char) (rest : List Char) : Piece :=
  let text := c :: rest
  if isBlank c then .skipped 1
  else if c = '/' && rest.head? == some '/' then
    .skipped (text.takeWhile (· ≠ '\n')).length
  else if c = '/' && rest.head? == some '*' then
    match commentLength? rest.tail with
    | some n => .skipped (n + 2)
    | none => .mistake (.at 0 .unclosedComment)
  else if isDigit c || (c = '.' && rest.head?.any isDigit) then
    .ofResult (readNumber text)
  else if isNameStart c then
    let word := String.ofList (text.takeWhile isNamePart)
    .token (wordLexeme word) word.length
  else .ofSymbol c (Symbol.all.find? fun s => Symbol.fits s text)

/-- Reads what begins with a code, followed by `rest`. -/
def readPiece (code : Nat) (rest : List Nat) : Piece :=
  if shown code = '\x27' then .ofResult (readCharacter rest)
  else if shown code = '"' then .ofResult (readString rest)
  else readPlain (shown code) (rest.map shown)

/-! ### The scanner -/

/-- Reads the tokens of a text that begins at `position`; the next `skip` codes belong to what was read
last. -/
def scan (position : Position) : Nat → List Nat → Except SyntaxError Tokens
  | _, [] => .ok ⟨[], position⟩
  | skip + 1, code :: rest => scan (position.advance (shown code)) skip rest
  | 0, code :: rest =>
    match readPiece code rest with
    | .skipped length => scan (position.advance (shown code)) (length - 1) rest
    | .token lexeme length => do
      let following ← scan (position.advance (shown code)) (length - 1) rest
      let token := ⟨lexeme, position, Text.ofCodes ((code :: rest).take length)⟩
      return { following with tokens := token :: following.tokens }
    | .mistake (.at offset cause) => .error (.at (position.shift offset) cause)
    | .mistake .unreadableNumber => .error .unreadableNumber

/-- The tokens of a source. -/
def tokenize {α : Type} [Text.Coded α] (source : α) : Except SyntaxError Tokens :=
  scan .start 0 (Text.Coded.codesOf source)

end PredicateTrace.Token
