/-!
# Codes

A text as the list of its codes. A code need not belong to a character of Unicode: escapes and conversions
of numbers also give the codes that are reserved for the halves of pairs. Such a code has no case and is
no blank; where it has to be shown, a replacement stands for it.
-/

namespace PredicateTrace.Text

/-- The codes of a text. -/
def codes (text : String) : List Nat :=
  text.toList.map Char.toNat

/-- What has codes: a text, or the codes themselves. -/
class Coded (α : Type) where
  codesOf : α → List Nat

instance : Coded String := ⟨codes⟩

instance : Coded (List Nat) := ⟨id⟩

/-- Whether all codes belong to characters. -/
def isProper (codes : List Nat) : Bool :=
  codes.all fun code => code.isValidChar

/-- The character that shows a code. -/
def shown (code : Nat) : Char :=
  if code.isValidChar then Char.ofNat code else '\ufffd'

/-- The text that shows some codes. -/
def ofCodes (codes : List Nat) : String :=
  String.ofList (codes.map shown)

/-- Changes the stretches of characters between the other codes. `before` holds, in reverse, the
characters of the stretch that was begun. -/
def mapStretches (change : String → String) (before : List Char) : List Nat → List Nat
  | [] => codes (change (String.ofList before.reverse))
  | code :: rest =>
    if code.isValidChar then mapStretches change (Char.ofNat code :: before) rest
    else codes (change (String.ofList before.reverse)) ++ code :: mapStretches change [] rest

end PredicateTrace.Text
