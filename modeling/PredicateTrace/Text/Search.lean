import PredicateTrace.Text.CharClass

/-!
# Searching texts

Where a text occurs in another, and the pieces between its occurrences. Texts are given by their codes.
A number of occurrences may be limited; no limit is `none`.
-/

namespace PredicateTrace.Text

/-- Whether a text occurs at the head of another. -/
def isAtHead : List Nat → List Nat → Bool
  | [], _ => true
  | c :: cs, d :: ds => c == d && isAtHead cs ds
  | _ :: _, [] => false

/-- Whether a text occurs at the end of another. -/
def isAtEnd (part text : List Nat) : Bool :=
  isAtHead part.reverse text.reverse

/-- The first place where `part` occurs, if the text begins at `place`. -/
def find (part : List Nat) : List Nat → Nat → Option Nat
  | [], place => if part.isEmpty then some place else none
  | c :: rest, place => if isAtHead part (c :: rest) then some place else find part rest (place + 1)

/-- The last place where `part` occurs. -/
def findLast (part text : List Nat) : Option Nat :=
  (find part.reverse text.reverse 0).map fun place => text.length - place - part.length

/-- A limit after one more occurrence. -/
def spend (limit : Option Nat) : Option Nat :=
  limit.map (· - 1)

/-- The pieces between the occurrences of `part`, which is not empty. `skip` codes still belong to the
last occurrence, and `piece` holds, in reverse, the piece that was begun. -/
def pieces (part : List Nat) (limit : Option Nat) (skip : Nat) (piece : List Nat) :
    List Nat → List (List Nat)
  | [] => [piece.reverse]
  | c :: rest =>
    if 0 < skip then pieces part limit (skip - 1) piece rest
    else if limit ≠ some 0 && isAtHead part (c :: rest) then
      piece.reverse :: pieces part (spend limit) (part.length - 1) [] rest
    else pieces part limit 0 (c :: piece) rest

/-- Whether a code is white space. -/
def isBlank (code : Nat) : Bool :=
  code.isValidChar && isSpace (Char.ofNat code)

/-- The words between white space; beyond the limit the rest is one word. `word` holds, in reverse, the
word that was begun. -/
def words (limit : Option Nat) (word : List Nat) : List Nat → List (List Nat)
  | [] => if word.isEmpty then [] else [word.reverse]
  | c :: rest =>
    match isBlank c, word with
    | true, [] => words limit [] rest
    | true, word => word.reverse :: words (spend limit) [] rest
    | false, word => if word.isEmpty && limit = some 0 then [c :: rest] else words limit (c :: word) rest

/-- A text with another put in front of every code and at the end. -/
def interleave (part : List Nat) (limit : Option Nat) (text : List Nat) : List Nat :=
  let more := if limit = some 0 then [] else part
  match text with
  | [] => more
  | c :: rest => more ++ c :: interleave part (spend limit) rest

/-- A text with the occurrences of `old` replaced. -/
def replace (old new : List Nat) (limit : Option Nat) (text : List Nat) : List Nat :=
  if old.isEmpty then interleave new limit text
  else List.intercalate new (pieces old limit 0 [] text)

/-- The number of occurrences of a text that do not overlap. -/
def count (part text : List Nat) : Nat :=
  if part.isEmpty then text.length + 1 else (pieces part none 0 [] text).length - 1

end PredicateTrace.Text
