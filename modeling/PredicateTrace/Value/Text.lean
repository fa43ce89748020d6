import PredicateTrace.Number.Decimal
import PredicateTrace.Text.Quote
import PredicateTrace.Value.Basic

/-!
# Texts of values

A value has three texts. `literal` is what the host writes to show a value inside another,
`hostText` what it writes for the value alone, and `sourceText` is the text that the expression
language concatenates. Objects are written by a given function on their places in the heap.

What has no text of its own shows its address. An address says nothing about a value, so that all are
written with the same one.
-/

namespace PredicateTrace

/-- A complaint with its place in front: the source unless it is empty, then line and column as far as
known. -/
def locatedText (message : String) (line column source : Option String) : String :=
  let named := match source with
    | some name => if name.isEmpty then "" else name ++ ":"
    | none => ""
  let place := match line, column with
    | some l, some c => named ++ l ++ ":" ++ c ++ ": "
    | some l, none => named ++ l ++ ": "
    | none, _ => if named.isEmpty then "" else named ++ " "
  place ++ message

namespace Value

/-- The form of something that has no text of its own. -/
def addressed (what : String) : String :=
  "<" ++ what ++ " at 0x7f0000000000>"

/-- The names of what a complaint holds, in order. -/
def complaintFields : List String :=
  ["message", "line", "column", "source"]

/-- Texts separated by commas. -/
def commaSeparated (texts : List String) : String :=
  String.intercalate ", " texts

mutual

/-- The form in which the host shows a value inside another. -/
def literal (showObject : Nat → String) : Value → String
  | .null => "None"
  | .bool b => if b then "True" else "False"
  | .str text => Text.quote text
  | .units codes => Text.quoteCodes codes
  | .char code => "JChar(" ++ Text.quoteCodes [code] ++ ")"
  | .integral kind n => (Host.HostClass.integral kind).name ++ "(" ++ toString n ++ ")"
  | .floating kind x _ => (Host.HostClass.floating kind).name ++ "(" ++ Number.hostDouble x ++ ")"
  | .hostInt n => toString n
  | .hostFloat x _ => Number.hostDouble x
  | .array _ component items =>
    "JArray(" ++ component.text ++ ", [" ++ commaSeparated (literals showObject items) ++ "])"
  | .list items => "[" ++ commaSeparated (literals showObject items) ++ "]"
  | .tuple [item] => "(" ++ literal showObject item ++ ",)"
  | .tuple items => "(" ++ commaSeparated (literals showObject items) ++ ")"
  | .set [] => "set()"
  | .set items => "\x7b" ++ commaSeparated (literals showObject items) ++ "\x7d"
  | .frozenset [] => "frozenset()"
  | .frozenset items => "frozenset(\x7b" ++ commaSeparated (literals showObject items) ++ "\x7d)"
  | .map entries => "\x7b" ++ commaSeparated (entryLiterals showObject entries) ++ "\x7d"
  | .view kind items =>
    (Host.HostClass.view kind).name ++ "([" ++ commaSeparated (literals showObject items) ++ "])"
  | .cell _ content => "Cell(" ++ literal showObject content ++ ")"
  | .object _ ref => showObject ref
  | .bare _ => addressed "object object"
  | .classObject c => "<class " ++ Text.quote c.qualifiedName ++ ">"
  | .throwable _ kind args =>
    let texts := literals showObject args
    match kind with
    | .complaint _ =>
      let named := (complaintFields.zip texts).map fun (name, text) => name ++ "=" ++ text
      kind.name ++ "(" ++ commaSeparated named ++ ")"
    | _ => kind.name ++ "(" ++ commaSeparated texts ++ ")"
  | .boundMethod self owner name =>
    "<bound method " ++ owner.localName ++ "." ++ name ++ " of " ++ literal showObject self ++ ">"
  | .function owner name => addressed ("function " ++ owner.localName ++ "." ++ name)
  | .counter _ => addressed "function Dyn.callMe"
  | .property _ _ => addressed "property object"

/-- The forms of a list of values. -/
def literals (showObject : Nat → String) : List Value → List String
  | [] => []
  | v :: rest => literal showObject v :: literals showObject rest

/-- The forms of the entries of a map. -/
def entryLiterals (showObject : Nat → String) : List (Value × Value) → List String
  | [] => []
  | (k, v) :: rest =>
    (literal showObject k ++ ": " ++ literal showObject v) :: entryLiterals showObject rest

end

mutual

/-- The text that the host writes for a value alone. -/
def hostText (showObject : Nat → String) : Value → String
  | .str text => text
  | .units codes => Text.ofCodes codes
  | .char code => Text.ofCodes [code]
  | .integral _ n => toString n
  | .floating _ x _ => Number.hostDouble x
  | .throwable _ kind args => messageOf showObject kind args
  | v => literal showObject v

/-- The message of an error with the given arguments. -/
def messageOf (showObject : Nat → String) : Host.ErrorClass → List Value → String
  | .complaint _, args =>
    let texts := optionalTexts showObject args
    let source := if (args[3]?.map isTruthy).getD false then texts[3]?.join else none
    locatedText ((texts[0]?.join).getD "None") texts[1]?.join texts[2]?.join source
  | _, [] => ""
  | .failure _, .null :: _ => ""
  | .failure _, arg :: _ => if arg.isTruthy then hostText showObject arg else ""
  | _, [arg] => hostText showObject arg
  | _, args => "(" ++ commaSeparated (literals showObject args) ++ ")"

/-- The texts of arguments, where an absent value has none. -/
def optionalTexts (showObject : Nat → String) : List Value → List (Option String)
  | [] => []
  | .null :: rest => none :: optionalTexts showObject rest
  | v :: rest => some (hostText showObject v) :: optionalTexts showObject rest

end

mutual

/-- Whether the host can show a value inside another, if `canShow` tells it of the objects. -/
def hasLiteral (canShow : Nat → Bool) : Value → Bool
  | .array _ _ items | .list items | .tuple items | .set items | .frozenset items
  | .view _ items => allHaveLiteral canShow items
  | .map entries => entriesHaveLiteral canShow entries
  | .cell _ content => hasLiteral canShow content
  | .object _ ref => canShow ref
  | .throwable _ _ args => allHaveLiteral canShow args
  | .boundMethod self _ _ => hasLiteral canShow self
  | _ => true

/-- Whether the host can show all values of a list inside another. -/
def allHaveLiteral (canShow : Nat → Bool) : List Value → Bool
  | [] => true
  | v :: rest => hasLiteral canShow v && allHaveLiteral canShow rest

/-- Whether the host can show all entries of a map. -/
def entriesHaveLiteral (canShow : Nat → Bool) : List (Value × Value) → Bool
  | [] => true
  | (k, v) :: rest =>
    hasLiteral canShow k && hasLiteral canShow v && entriesHaveLiteral canShow rest

end

mutual

/-- Whether the host can write a value alone. It cannot write an error without a message. -/
def hasHostText (canShow : Nat → Bool) : Value → Bool
  | .throwable _ kind args => hasMessage canShow kind args
  | v => hasLiteral canShow v

/-- Whether an error with the given arguments has a message: that of a failure is a text, or else it
counts as empty. The column of a complaint is written only after a line. -/
def hasMessage (canShow : Nat → Bool) : Host.ErrorClass → List Value → Bool
  | .complaint _, message :: .null :: _ :: source =>
    hasHostText canShow message && allHaveHostText canShow source
  | .complaint _, args => allHaveHostText canShow args
  | .failure _, arg :: _ => !arg.isTruthy || arg.text?.isSome
  | _, [arg] => hasHostText canShow arg
  | _, args => allHaveLiteral canShow args

/-- Whether the host can write all values of a list. -/
def allHaveHostText (canShow : Nat → Bool) : List Value → Bool
  | [] => true
  | v :: rest => hasHostText canShow v && allHaveHostText canShow rest

end

mutual

/-- Whether a value has a text in the expression language. -/
def hasSourceText (canShow : Nat → Bool) : Value → Bool
  | .map entries => entriesHaveSourceText canShow entries
  | .array _ _ items | .list items | .tuple items | .set items | .frozenset items =>
    allHaveSourceText canShow items
  | v => v.hasHostText canShow

/-- Whether all values of a list have a text in the expression language. -/
def allHaveSourceText (canShow : Nat → Bool) : List Value → Bool
  | [] => true
  | v :: rest => hasSourceText canShow v && allHaveSourceText canShow rest

/-- Whether all entries of a map have a text in the expression language. -/
def entriesHaveSourceText (canShow : Nat → Bool) : List (Value × Value) → Bool
  | [] => true
  | (k, v) :: rest =>
    hasSourceText canShow k && hasSourceText canShow v && entriesHaveSourceText canShow rest

end

/-- The text of an error: its name, and its message unless that is empty. -/
def throwableText (showObject : Nat → String) (kind : Host.ErrorClass) (args : List Value) : String :=
  let name := (Host.HostClass.error kind).typeName
  let message := messageOf showObject kind args
  if message.isEmpty then name else name ++ ": " ++ message

mutual

/-- The text of a value in the expression language. -/
def sourceText (showObject : Nat → String) : Value → String
  | .null => "null"
  | .bool b => if b then "true" else "false"
  | .floating .float x _ => Number.sourceSingle x
  | .floating .double x _ => Number.sourceDouble x
  | .hostFloat x _ => Number.sourceDouble x
  | .throwable _ kind args => throwableText showObject kind args
  | .map entries => "\x7b" ++ commaSeparated (entrySourceTexts showObject entries) ++ "\x7d"
  | .array _ _ items => "[" ++ commaSeparated (sourceTexts showObject items) ++ "]"
  | .list items => "[" ++ commaSeparated (sourceTexts showObject items) ++ "]"
  | .tuple items => "[" ++ commaSeparated (sourceTexts showObject items) ++ "]"
  | .set items => "[" ++ commaSeparated (sourceTexts showObject items) ++ "]"
  | .frozenset items => "[" ++ commaSeparated (sourceTexts showObject items) ++ "]"
  | v => hostText showObject v

/-- The texts of a list of values. -/
def sourceTexts (showObject : Nat → String) : List Value → List String
  | [] => []
  | v :: rest => sourceText showObject v :: sourceTexts showObject rest

/-- The texts of the entries of a map. -/
def entrySourceTexts (showObject : Nat → String) : List (Value × Value) → List String
  | [] => []
  | (k, v) :: rest =>
    (sourceText showObject k ++ "=" ++ sourceText showObject v) :: entrySourceTexts showObject rest

end

end Value

namespace Throwable

/-- The text of an error that was raised. -/
def text (showObject : Nat → String) (e : Throwable) : String :=
  Value.throwableText showObject e.kind e.args

/-- The message of an error that was raised. -/
def message (showObject : Nat → String) (e : Throwable) : String :=
  Value.messageOf showObject e.kind e.args

end Throwable

end PredicateTrace
