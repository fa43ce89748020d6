import PredicateTrace.Value.Text

/-!
# Values as source literals

The form in which diagnostics show values: numbers and characters as literals, texts quoted and
escaped, containers in brackets. A formatter has a budget of characters: a container stops with an
ellipsis once the text written so far exceeds it, and texts and other objects are cut to what is left
of it, though never to less than ten characters.
-/

namespace PredicateTrace

/-- How values are shown: the budget, the texts of the objects in the heap, and which of them have
one. -/
structure Formatter where
  budget : Nat
  showObject : Nat → String
  canShow : Nat → Bool

namespace Formatter

/-- The budget that is used when none is given. -/
def defaultBudget : Nat := 100

/-- The fewest characters that a text or an object is cut to. -/
def floor : Nat := 10

/-- How many characters a text may take when `used` characters are already out. -/
def textBudget (f : Formatter) (used : Nat) : Nat :=
  max floor (f.budget - used - 1)

/-- How many characters the text of an object may take when `used` characters are already out. -/
def objectBudget (f : Formatter) (used : Nat) : Nat :=
  max floor (f.budget - used)

/-- A floating literal: `named` is the class that the special numbers belong to. -/
def floatingLiteral (named : String) (ordinary : Float → String) (x : Float) : String :=
  match Number.parts x with
  | .nan => named ++ ".NaN"
  | .infinite negative =>
    named ++ (if negative then ".NEGATIVE_INFINITY" else ".POSITIVE_INFINITY")
  | .finite .. => ordinary x

def singleLiteral (x : Float) : String :=
  floatingLiteral "Float" (fun x => Number.sourceSingle x ++ "F") x

def doubleLiteral (x : Float) : String :=
  floatingLiteral "Double" Number.sourceDouble x

/-- A literal of codes between quotes. -/
def quotedLiteral (mark : Char) (literal : List Nat) (budget : Nat) : List Nat :=
  mark.toNat :: Text.escapeWithin budget 0 literal ++ [mark.toNat]

/-- The budget for the one code of a character literal. -/
def charBudget : Nat := 100

/-- A character literal. -/
def charLiteral (code : Nat) : String :=
  Text.ofCodes (quotedLiteral '\x27' [code] charBudget)

/-- A string literal of the given codes, written when `used` characters are already out. -/
def stringLiteral (f : Formatter) (used : Nat) (literal : List Nat) : String :=
  Text.ofCodes (quotedLiteral '"' literal (f.textBudget used))

/-- The text of an object, cut when it is too long. -/
def cut (f : Formatter) (used : Nat) (text : String) : String :=
  Text.abbreviate text (f.objectBudget used)

/-- The entry of a map. -/
def entryText (f : Formatter) (entry : Value × Value) : String :=
  entry.1.sourceText f.showObject ++ "=" ++ entry.2.sourceText f.showObject

/-- The entries of a map, when `used` characters are already out and `separator` has to come first. -/
def formatEntries (f : Formatter) (used : Nat) (separator : String) : List (Value × Value) → String
  | [] => ""
  | entry :: rest =>
    let begun := used + separator.length
    if f.budget < begun then separator ++ "..."
    else
      let text := f.cut begun (f.entryText entry)
      separator ++ text ++ formatEntries f (begun + text.length) ", " rest

mutual

/-- A value, when `used` characters are already out. -/
def formatAt (f : Formatter) (used : Nat) : Value → String
  | .null => "null"
  | .bool b => if b then "true" else "false"
  | .char code => charLiteral code
  | .integral .long n => toString n ++ "L"
  | .integral _ n | .hostInt n => toString n
  | .floating .float x _ => singleLiteral x
  | .floating .double x _ | .hostFloat x _ => doubleLiteral x
  | .str text => f.stringLiteral used (Text.codes text)
  | .units codes => f.stringLiteral used codes
  | .map entries => "[" ++ f.formatEntries (used + 1) "" entries ++ "]"
  | .array _ _ items => "[" ++ formatItems f (used + 1) "" items ++ "]"
  | .list items => "[" ++ formatItems f (used + 1) "" items ++ "]"
  | .tuple items => "[" ++ formatItems f (used + 1) "" items ++ "]"
  | .set items => "[" ++ formatItems f (used + 1) "" items ++ "]"
  | .frozenset items => "[" ++ formatItems f (used + 1) "" items ++ "]"
  | v => f.cut used (v.sourceText f.showObject)

/-- The elements of a container, when `used` characters are already out and `separator` has to come
first. -/
def formatItems (f : Formatter) (used : Nat) (separator : String) : List Value → String
  | [] => ""
  | item :: rest =>
    let begun := used + separator.length
    if f.budget < begun then separator ++ "..."
    else
      let text := formatAt f begun item
      separator ++ text ++ formatItems f (begun + text.length) ", " rest

end

/-- The form in which a value is shown. -/
def format (f : Formatter) (v : Value) : String :=
  f.formatAt 0 v

/-- The form in which a value is shown, by its codes. A literal keeps those that are no characters. -/
def formatCodes (f : Formatter) : Value → List Nat
  | .char code => quotedLiteral '\x27' [code] charBudget
  | .units codes => quotedLiteral '"' codes (f.textBudget 0)
  | v => Text.codes (f.format v)

/-- Whether an entry of a map has a text. -/
def hasEntryText (f : Formatter) (entry : Value × Value) : Bool :=
  entry.1.hasSourceText f.canShow && entry.2.hasSourceText f.canShow

/-- Whether the entries of a map that `formatEntries` shows have texts. -/
def canFormatEntries (f : Formatter) (used : Nat) (separator : String) : List (Value × Value) → Bool
  | [] => true
  | entry :: rest =>
    let begun := used + separator.length
    if f.budget < begun then true
    else
      f.hasEntryText entry &&
        canFormatEntries f (begun + (f.cut begun (f.entryText entry)).length) ", " rest

mutual

/-- Whether a value can be shown, when `used` characters are already out. What the budget leaves out
does not need a text. -/
def canFormatAt (f : Formatter) (used : Nat) : Value → Bool
  | .map entries => f.canFormatEntries (used + 1) "" entries
  | .array _ _ items | .list items | .tuple items | .set items | .frozenset items =>
    canFormatItems f (used + 1) "" items
  | v => v.hasSourceText f.canShow

/-- Whether the elements of a container that `formatItems` shows have texts. -/
def canFormatItems (f : Formatter) (used : Nat) (separator : String) : List Value → Bool
  | [] => true
  | item :: rest =>
    let begun := used + separator.length
    if f.budget < begun then true
    else
      canFormatAt f begun item &&
        canFormatItems f (begun + (f.formatAt begun item).length) ", " rest

end

/-- The form in which a value is shown, or a fault if it has no text. -/
def formatted (f : Formatter) (v : Value) : Except Host.FaultKind String :=
  if f.canFormatAt 0 v then .ok (f.format v) else .error .type

end Formatter

end PredicateTrace
