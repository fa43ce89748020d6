import PredicateTrace.Position
import PredicateTrace.Text.Quote
import PredicateTrace.Yaml.Scalar

/-!
# Marks

The scalars and the punctuation of a text in YAML, with their places. Inside of brackets a plain word ends
at punctuation, outside of them only at the end of its line or at a colon. When a text breaks off, what
comes before it is still read.
-/

namespace PredicateTrace.Yaml

/-- Scalars and punctuation. -/
inductive Mark
  | openList | closeList | openMap | closeMap | comma | colon
  | scalar (v : Value)

/-- The name of a mark in messages. -/
def Mark.name : Mark → String
  | .openList => "["
  | .closeList => "]"
  | .openMap => "\x7b"
  | .closeMap => "\x7d"
  | .comma => ","
  | .colon => ":"
  | .scalar _ => "<scalar>"

/-- What is wrong with a text. -/
inductive Cause
  | expectedSeparator (closing : Mark) (found : Option Mark)
  | expectedNode (found : Option Mark)
  | expectedEnd (found : Mark)
  | expectedEntry (found : Mark)
  | nestedEntry
  | unhashableKey
  | unexpectedEnd
  | unknownEscape (c : Char)
  | expectedHex (count : Nat) (found : Char)
  | badStart (c : Char)
  | undeterminedValue

/-- The name of what was found; the end of a text has one too. -/
def foundName : Option Mark → String
  | some mark => Text.quote mark.name
  | none => Text.quote "<stream end>"

def Cause.message : Cause → String
  | .expectedSeparator closing found =>
    "expected \x27,\x27 or " ++ Text.quote closing.name ++ ", but got " ++ foundName found
  | .expectedNode found => "expected the node content, but found " ++ foundName found
  | .expectedEnd found => "expected \x27<document start>\x27, but found " ++ foundName (some found)
  | .expectedEntry found => "expected <block end>, but found " ++ foundName (some found)
  | .nestedEntry => "mapping values are not allowed here"
  | .unhashableKey => "found unhashable key"
  | .unexpectedEnd => "found unexpected end of stream"
  | .unknownEscape c => "found unknown escape character " ++ Text.quote c.toString
  | .expectedHex count found =>
    "expected escape sequence of " ++ toString count ++ " hexadecimal numbers, but found "
      ++ Text.quote found.toString
  | .badStart c => "found character " ++ Text.quote c.toString ++ " that cannot start any token"
  | .undeterminedValue =>
    "could not determine a constructor for the tag \x27tag:yaml.org,2002:value\x27"

/-- What is wrong with a text, and where. -/
structure Error where
  position : Position
  cause : Cause

/-- A mark with its place. -/
structure Placed where
  mark : Mark
  position : Position

/-- The marks of a text, the place of its end, and what is wrong there if it breaks off. -/
structure Marks where
  marks : List Placed
  finish : Position
  broken : Option Cause

def isBlank (c : Char) : Bool :=
  c = ' ' || c = '\t' || c = '\n' || c = '\r'

def isLineEnd (c : Char) : Bool :=
  c = '\n' || c = '\r'

def isBracketOrComma (c : Char) : Bool :=
  c = ',' || c = '[' || c = ']' || c = '{' || c = '}'

/-- Whether a colon that this text follows is punctuation. -/
def endsKey (inFlow : Bool) (after : List Char) : Bool :=
  match after with
  | [] => true
  | c :: _ => isBlank c || (inFlow && isBracketOrComma c)

/-- The characters of a plain word, and of the blanks after it. -/
def plainSpan (inFlow : Bool) : List Char → List Char
  | [] => []
  | c :: rest =>
    if isLineEnd c || (c = ':' && endsKey inFlow rest)
      || (inFlow && (isBracketOrComma c || c = '?')) || (isBlank c && rest.head? == some '#')
    then []
    else c :: plainSpan inFlow rest

/-- Characters with a meaning of their own at the start of a word. -/
def isIndicator (c : Char) : Bool :=
  "-?:,[]\x7b\x7d#&*!|>\x27\"%@`".toList.contains c

/-- Whether a plain word begins with the character `c`, which is followed by `after`. -/
def beginsPlain (inFlow : Bool) (c : Char) (after : List Char) : Bool :=
  !isIndicator c
    || ((c = '-' || (!inFlow && (c = '?' || c = ':'))) && !after.head?.all isBlank)

/-- What a backslash and one character stand for. -/
def simpleEscape? (c : Char) : Option Char :=
  [('0', '\x00'), ('a', '\x07'), ('b', '\x08'), ('t', '\t'), ('\t', '\t'), ('n', '\n'), ('v', '\x0b'),
    ('f', '\x0c'), ('r', '\r'), ('e', '\x1b'), (' ', ' '), ('"', '"'), ('\\', '\\'), ('/', '/'),
    ('N', '\u0085'), ('_', '\u00a0'), ('L', '\u2028'), ('P', '\u2029')].lookup c

/-- The number of digits of an escape by code point. -/
def hexCount? (c : Char) : Option Nat :=
  [('x', 2), ('u', 4), ('U', 8)].lookup c

/-- Something wrong inside of quotes, with the number of characters before it. -/
structure Fault where
  offset : Nat
  cause : Cause

/-- The code point that hexadecimal digits write. -/
def hexCode (offset count : Nat) : Nat → List Char → Except Fault Nat
  | 0, _ => .ok 0
  | _ + 1, [] => .error ⟨offset, .unexpectedEnd⟩
  | left + 1, c :: rest =>
    match digitValue? c with
    | some digit => (hexCode (offset + 1) count left rest).map fun code => digit * 16 ^ left + code
    | none => .error ⟨offset, .expectedHex count c⟩

/-- The text between double quotes and its length up to and including the closing one. `offset` counts
the characters read before, and `skip` those that belong to an escape. -/
def doubleQuoted (offset : Nat) : Nat → List Char → Except Fault (List Char × Nat)
  | _, [] => .error ⟨offset, .unexpectedEnd⟩
  | skip + 1, _ :: rest => doubleQuoted (offset + 1) skip rest
  | 0, '"' :: _ => .ok ([], offset + 1)
  | 0, '\\' :: rest =>
    match rest with
    | [] => .error ⟨offset + 1, .unexpectedEnd⟩
    | c :: digits =>
      match simpleEscape? c, hexCount? c with
      | some escaped, _ => (doubleQuoted (offset + 1) 1 rest).map fun (text, n) => (escaped :: text, n)
      | none, some count => do
        let code ← hexCode (offset + 2) count count digits
        let (text, n) ← doubleQuoted (offset + 1) (count + 1) rest
        return (Char.ofNat code :: text, n)
      | none, none => .error ⟨offset + 1, .unknownEscape c⟩
  | 0, c :: rest => (doubleQuoted (offset + 1) 0 rest).map fun (text, n) => (c :: text, n)

/-- The text between single quotes, where a quote is written twice, and its length up to and including
the closing one. -/
def singleQuoted (offset : Nat) : List Char → Except Fault (List Char × Nat)
  | [] => .error ⟨offset, .unexpectedEnd⟩
  | '\x27' :: '\x27' :: rest =>
    (singleQuoted (offset + 2) rest).map fun (text, n) => ('\x27' :: text, n)
  | c :: rest =>
    if c = '\x27' then .ok ([], offset + 1)
    else (singleQuoted (offset + 1) rest).map fun (text, n) => (c :: text, n)

/-- What begins at a place. -/
inductive Piece
  | skipped (length : Nat)
  | mark (m : Mark) (length : Nat)
  | fault (f : Fault)

/-- A quoted scalar. -/
def Piece.quoted (read : Except Fault (List Char × Nat)) : Piece :=
  match read with
  | .ok (text, length) => .mark (.scalar (.str (String.ofList text))) length
  | .error f => .fault f

/-- The punctuation that a character is. -/
def punctuation? (inFlow : Bool) (c : Char) (after : List Char) : Option Mark :=
  match c with
  | '[' => some .openList
  | ']' => some .closeList
  | '{' => some .openMap
  | '}' => some .closeMap
  | ',' => some .comma
  | ':' => if inFlow || endsKey false after then some .colon else none
  | _ => none

/-- Whether a plain word, followed by some text, has no value of its own: an equals sign, unless it is
the key of an entry. -/
def isUndetermined (word after : List Char) : Bool :=
  word = ['='] && (after.dropWhile isBlank).head? != some ':'

/-- Reads what begins with the character `c`, followed by `rest`. -/
def readPiece (inFlow : Bool) (c : Char) (rest : List Char) : Piece :=
  if isBlank c then .skipped 1
  else if c = '#' then .skipped ((c :: rest).takeWhile fun c => !isLineEnd c).length
  else if c = '"' then .quoted (doubleQuoted 1 0 rest)
  else if c = '\x27' then .quoted (singleQuoted 1 rest)
  else
    match punctuation? inFlow c rest with
    | some mark => .mark mark 1
    | none =>
      if beginsPlain inFlow c rest then
        let word := ((c :: plainSpan inFlow rest).reverse.dropWhile isBlank).reverse
        if isUndetermined word ((c :: rest).drop word.length) then .fault ⟨0, .undeterminedValue⟩
        else .mark (.scalar (plainValue (String.ofList word))) word.length
      else .fault ⟨0, .badStart c⟩

/-- The depth of brackets after a mark. -/
def Mark.depthAfter (depth : Nat) : Mark → Nat
  | .openList | .openMap => depth + 1
  | .closeList | .closeMap => depth - 1
  | _ => depth

/-- The place some characters further on. -/
def advanceOver (position : Position) (text : List Char) : Position :=
  text.foldl Position.advance position

/-- The marks of a text that begins at `position` inside of `depth` brackets; the next `skip` characters
belong to what was read last. -/
def scan (position : Position) (depth : Nat) : Nat → List Char → Marks
  | _, [] => ⟨[], position, none⟩
  | skip + 1, c :: rest => scan (position.advance c) depth skip rest
  | 0, c :: rest =>
    match readPiece (0 < depth) c rest with
    | .skipped length => scan (position.advance c) depth (length - 1) rest
    | .mark m length =>
      let following := scan (position.advance c) (m.depthAfter depth) (length - 1) rest
      { following with marks := ⟨m, position⟩ :: following.marks }
    | .fault f => ⟨[], advanceOver position ((c :: rest).take f.offset), some f.cause⟩

/-- The marks of a text. -/
def marksOf (text : String) : Marks :=
  scan .start 0 0 text.toList

end PredicateTrace.Yaml
