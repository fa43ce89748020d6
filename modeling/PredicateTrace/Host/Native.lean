import PredicateTrace.Host.Sample
import PredicateTrace.Text.Search

/-!
# Methods of the built-in values

The methods that texts, lists and maps of the host have themselves. A method of the library comes before
one of these with the same name. Only methods that leave their receiver as it is are here.
-/

namespace PredicateTrace.Host

/-- Methods of built-in values. -/
inductive NativeMethod
  | upper | lower | title
  | strip | stripLeft | stripRight | split | replace | join | format
  | find | findLast | index | indexLast | count | startsWith | endsWith
  | isDigit | isLetter | isLetterOrNumeral | isBlank
  | copy | keys | values | pairs
  deriving DecidableEq, Repr

/-- The methods of texts. -/
def textMethods : List (String × NativeMethod) :=
  [("upper", .upper), ("lower", .lower), ("title", .title), ("strip", .strip),
    ("lstrip", .stripLeft), ("rstrip", .stripRight), ("split", .split), ("replace", .replace),
    ("join", .join), ("format", .format), ("find", .find), ("rfind", .findLast), ("index", .index),
    ("rindex", .indexLast), ("count", .count), ("startswith", .startsWith),
    ("endswith", .endsWith), ("isdigit", .isDigit), ("isalpha", .isLetter),
    ("isalnum", .isLetterOrNumeral), ("isspace", .isBlank)]

/-- The methods of lists and tuples. -/
def sequenceMethods : List (String × NativeMethod) :=
  [("index", .index), ("count", .count)]

/-- The methods of maps. -/
def mapMethods : List (String × NativeMethod) :=
  [("keys", .keys), ("values", .values), ("items", .pairs)]

/-- The methods of containers that can be copied. -/
def copyMethods : List (String × NativeMethod) :=
  [("copy", .copy)]

/-- The method that a built-in class has under a name. -/
def nativeMethod? (c : HostClass) (name : String) : Option NativeMethod :=
  match c with
  | .str | .char => textMethods.lookup name
  | .list => (sequenceMethods ++ copyMethods).lookup name
  | .tuple => sequenceMethods.lookup name
  | .set | .frozenset => copyMethods.lookup name
  | .dict => (mapMethods ++ copyMethods).lookup name
  | _ => none

/-- The codes of a text that an argument must be. -/
def textArgument (v : Value) : Run (List Nat) :=
  Run.orFault .type v.codes?

/-- A number that can be a position; a floating one cannot. -/
def position (v : Value) : Run Int :=
  Run.orFault .type v.whole?

/-- Whether `test` holds of a text, or of one of several, and another text. -/
def matchesAny (test : List Nat → List Nat → Bool) (pattern : Value) (text : List Nat) : Run Bool := do
  match pattern with
  | .tuple patterns =>
    patterns.foldlM (fun found p => do
      if found then return true else return test (← textArgument p) text) false
  | p => return test (← textArgument p) text

/-- A bound of a part of something of a given size; a negative one counts from the end. -/
def bound (size : Nat) (i : Int) : Nat :=
  (if i < 0 then i + size else i).toNat

/-- The part of a list between two bounds that may be left out, and where it begins. There is none if the
bounds are in the wrong order. -/
def window {α : Type} (items : List α) (bounds : List Value) : Run (Option (Nat × List α)) := do
  let size := items.length
  let boundOf := fun (v : Value) (missing : Nat) => do
    match v with
    | .null => return missing
    | v => return bound size (← position v)
  match bounds with
  | [] | [_] | [_, _] =>
    let start ← boundOf (bounds.getD 0 .null) 0
    let stop ← boundOf (bounds.getD 1 .null) size
    return if min stop size < start then none else some (start, (items.take stop).drop start)
  | _ => Run.fault .type

/-- A limit that an argument gives; a negative one is none. -/
def limitOf (v : Value) : Run (Option Nat) := do
  let n ← position v
  return if n < 0 then none else some n.toNat

/-- Texts of the given codes, in a list. -/
def textsOf (texts : List (List Nat)) : Value :=
  .list (texts.map .ofCodes)

/-- Whether a text is not empty and all its characters have a property. -/
def allCharacters (test : Char → Bool) (codes : List Nat) : Bool :=
  !codes.isEmpty && codes.all fun code => code.isValidChar && test (Char.ofNat code)

/-- Whether a code is removed from the ends of a text, where an argument may tell which ones are. -/
def stripTest (args : List Value) : Run (Nat → Bool) := do
  match ← atMostOne args with
  | none | some .null => return Text.isBlank
  | some v => return (← textArgument v).contains

/-- A place in a part that begins at `start`, as the result of a search. -/
def placeFrom (start : Nat) (place : Option Nat) : Option Value :=
  place.map fun n => .hostInt (start + n)

/-- Searches a text in a part of another. -/
def searchText (search : List Nat → List Nat → Option Nat) (codes : List Nat) (part : Value)
    (bounds : List Value) : Run (Option Value) := do
  let part ← textArgument part
  match ← window codes bounds with
  | some (start, inside) => return placeFrom start (search part inside)
  | none => return none

/-- How the fields of a pattern name their arguments: not known yet, in order with the next one given, or by
number. -/
inductive Numbering
  | unknown
  | inOrder (next : Nat)
  | byNumber
  deriving DecidableEq, Repr

/-- The argument that a field of a pattern names, and the numbering from there on. A field holds a number
or nothing. -/
def fieldArgument (numbering : Numbering) (name : List Nat) (args : List Value) :
    Run (Numbering × Value) := do
  let numbered := (Text.ofCodes name).toNat?
  match numbering, numbered with
  | .byNumber, some n | .unknown, some n => return (.byNumber, ← Run.orFault .index args[n]?)
  | .inOrder _, some _ => Run.fault .value
  | numbering, none =>
    if !name.isEmpty then Run.fault .key
    else
      match numbering with
      | .unknown => return (.inOrder 1, ← Run.orFault .index args[0]?)
      | .inOrder next => return (.inOrder (next + 1), ← Run.orFault .index args[next]?)
      | .byNumber => Run.fault .value

/-- A pattern with its fields, which stand in braces, replaced by the texts of arguments; a brace of the text
itself is written twice. `field` holds, in reverse, the field that was begun. -/
def fillPattern (args : List Value) (numbering : Numbering) (field : Option (List Nat)) :
    List Nat → Run (List Nat)
  | [] => if field.isSome then Run.fault .value else return []
  | c :: rest => do
    let opening := 0x7b
    let closing := 0x7d
    match field with
    | some name =>
      if c = closing then
        let (numbering, v) ← fieldArgument numbering name.reverse args
        return (← Run.codesOf v) ++ (← fillPattern args numbering none rest)
      else if c = opening then Run.fault .value
      else fillPattern args numbering (some (c :: name)) rest
    | none =>
      if c = opening ∨ c = closing then
        match rest with
        | d :: after =>
          if d = c then return c :: (← fillPattern args numbering none after)
          else if c = opening then fillPattern args numbering (some []) (d :: after)
          else Run.fault .value
        | [] => Run.fault .value
      else return c :: (← fillPattern args numbering none rest)

/-- Runs a method on a text. -/
def NativeMethod.runOnText (method : NativeMethod) (codes : List Nat) (args : List Value) :
    Run Value := do
  let first := fun part text => Text.find part text 0
  let mapped := fun change => Value.ofCodes (Text.mapStretches change [] codes)
  let holds := fun test => Value.bool (allCharacters test codes)
  let compares := fun test (pattern : Value) bounds => do
    match ← window codes bounds with
    | some (_, inside) => return Value.bool (← matchesAny test pattern inside)
    | none => return Value.bool (← matchesAny (fun _ _ => false) pattern [])
  let missing := Value.hostInt (-1)
  match method, args with
  | .upper, [] => return mapped Text.toUpper
  | .lower, [] => return mapped Text.toLower
  | .title, [] => return mapped Text.toTitle
  | .strip, args => return .ofCodes (Text.trim (← stripTest args) codes)
  | .stripLeft, args => return .ofCodes (codes.dropWhile (← stripTest args))
  | .stripRight, args => return .ofCodes (codes.reverse.dropWhile (← stripTest args)).reverse
  | .split, [] | .split, [.null] => return textsOf (Text.words none [] codes)
  | .split, [.null, limit] => return textsOf (Text.words (← limitOf limit) [] codes)
  | .split, separator :: rest => do
    let separator ← textArgument separator
    let limit ← match ← atMostOne rest with
      | some v => limitOf v
      | none => pure none
    if separator.isEmpty then Run.fault .value
    else return textsOf (Text.pieces separator limit 0 [] codes)
  | .replace, [old, new] =>
    return .ofCodes (Text.replace (← textArgument old) (← textArgument new) none codes)
  | .replace, [old, new, limit] =>
    return .ofCodes
      (Text.replace (← textArgument old) (← textArgument new) (← limitOf limit) codes)
  | .join, [v] => return .ofCodes (List.intercalate codes (← (← elements v).mapM textArgument))
  | .format, args => return .ofCodes (← fillPattern args .unknown none codes)
  | .find, part :: bounds => return (← searchText first codes part bounds).getD missing
  | .findLast, part :: bounds => return (← searchText Text.findLast codes part bounds).getD missing
  | .index, part :: bounds => Run.orFault .value (← searchText first codes part bounds)
  | .indexLast, part :: bounds =>
    Run.orFault .value (← searchText Text.findLast codes part bounds)
  | .count, part :: bounds => do
    let part ← textArgument part
    return .hostInt (((← window codes bounds).map fun w => Text.count part w.2).getD 0)
  | .startsWith, pattern :: bounds => compares Text.isAtHead pattern bounds
  | .endsWith, pattern :: bounds => compares Text.isAtEnd pattern bounds
  | .isDigit, [] => return holds Text.isDigit
  | .isLetter, [] => return holds Text.isLetter
  | .isLetterOrNumeral, [] => return holds Text.isLetterOrNumeral
  | .isBlank, [] => return holds Text.isSpace
  | _, _ => Run.fault .type

/-- Runs a method on a list, a tuple, a set or a map. -/
def NativeMethod.runOnContainer (method : NativeMethod) (receiver : Value) (args : List Value) :
    Run Value := do
  let same := (← Run.heap).same
  match method, receiver, args with
  | .copy, v, [] => return v
  | .keys, .map entries, [] => return .view .keys (entries.map Prod.fst)
  | .values, .map entries, [] => return .view .values (entries.map Prod.snd)
  | .pairs, .map entries, [] =>
    return .view .items (entries.map fun (key, v) => .tuple [key, v])
  | .count, .list items, [v] | .count, .tuple items, [v] =>
    return .hostInt (items.countP fun item => Value.elementEquals same item v)
  | .index, .list items, v :: bounds | .index, .tuple items, v :: bounds => do
    if bounds.any fun b => b.classOf == .nothing then Run.fault .type
    match ← window items bounds with
    | some (start, inside) =>
      Run.orFault .value
        (placeFrom start (inside.findIdx? fun item => Value.elementEquals same item v))
    | none => Run.fault .value
  | _, _, _ => Run.fault .type

/-- Runs a method of a built-in value. -/
def NativeMethod.run (method : NativeMethod) (receiver : Value) (args : List Value) : Run Value :=
  match receiver.codes? with
  | some codes => method.runOnText codes args
  | none => method.runOnContainer receiver args

end PredicateTrace.Host
