import PredicateTrace.Host.Native
import PredicateTrace.Library.Registry
import PredicateTrace.Value.Arithmetic
import PredicateTrace.Value.Hash

/-!
# Library methods

The methods of the expression language that work on built-in values: what they are called, on which
host classes, what types they declare, and what they do.
-/

namespace PredicateTrace.Library

open Host (HostClass Run textArgument matchesAny position)

/-- The types that a method declares. Without a result type the result has the promoted type of the
arguments; without parameter types the arguments are passed as they are. -/
structure Signature where
  result : Option TypeRef
  params : Option (List Primitive)
  deriving Repr

/-- Static methods. -/
inductive StaticMethod
  | abs | max | min | floorDiv | sqrt | pow
  | parseInt | integerValueOf | longValueOf | doubleValueOf | compare | isNaN
  | stringValueOf | isDigit | isLetter
  | objectsEquals | isNull | nonNull | requireNonNull
  | listOf | setOf | mapOf | asList
  deriving DecidableEq, Repr

/-- Instance methods. -/
inductive InstanceMethod
  | length | size | isEmpty | contains | containsKey | containsValue | get | indexOf | charAt
  | startsWith | endsWith | substring | toUpperCase | toLowerCase | trim
  | equals | toString | hashCode | intValue | longValue | doubleValue
  deriving DecidableEq, Repr

def listType : TypeRef := .ofName "java.util.List"
def setType : TypeRef := .ofName "java.util.Set"
def mapType : TypeRef := .ofName "java.util.Map"

/-- The static methods by owner and name, with their signatures. -/
def staticMethods : List ((String × String) × StaticMethod × Signature) :=
  [(("java.lang.Math", "abs"), .abs, ⟨none, none⟩),
    (("java.lang.Math", "max"), .max, ⟨none, none⟩),
    (("java.lang.Math", "min"), .min, ⟨none, none⟩),
    (("java.lang.Math", "floorDiv"), .floorDiv, ⟨none, none⟩),
    (("java.lang.Math", "sqrt"), .sqrt, ⟨some (.prim .double), some [.double]⟩),
    (("java.lang.Math", "pow"), .pow, ⟨some (.prim .double), some [.double, .double]⟩),
    (("java.lang.Integer", "parseInt"), .parseInt, ⟨some (.prim .int), none⟩),
    (("java.lang.Integer", "valueOf"), .integerValueOf, ⟨some (.prim .int), none⟩),
    (("java.lang.Integer", "compare"), .compare, ⟨some (.prim .int), some [.int, .int]⟩),
    (("java.lang.Long", "valueOf"), .longValueOf, ⟨some (.prim .long), some [.long]⟩),
    (("java.lang.Long", "compare"), .compare, ⟨some (.prim .int), some [.long, .long]⟩),
    (("java.lang.Double", "valueOf"), .doubleValueOf, ⟨some (.prim .double), some [.double]⟩),
    (("java.lang.Double", "isNaN"), .isNaN, ⟨some (.prim .boolean), some [.double]⟩),
    (("java.lang.Double", "compare"), .compare, ⟨some (.prim .int), some [.double, .double]⟩),
    (("java.lang.Float", "isNaN"), .isNaN, ⟨some (.prim .boolean), some [.float]⟩),
    (("java.lang.String", "valueOf"), .stringValueOf, ⟨some .string, none⟩),
    (("java.lang.Character", "isDigit"), .isDigit, ⟨some (.prim .boolean), some [.char]⟩),
    (("java.lang.Character", "isLetter"), .isLetter, ⟨some (.prim .boolean), some [.char]⟩),
    (("java.util.Objects", "equals"), .objectsEquals, ⟨some (.prim .boolean), none⟩),
    (("java.util.Objects", "isNull"), .isNull, ⟨some (.prim .boolean), none⟩),
    (("java.util.Objects", "nonNull"), .nonNull, ⟨some (.prim .boolean), none⟩),
    (("java.util.Objects", "requireNonNull"), .requireNonNull, ⟨some .object, none⟩),
    (("java.util.List", "of"), .listOf, ⟨some listType, none⟩),
    (("java.util.Set", "of"), .setOf, ⟨some setType, none⟩),
    (("java.util.Map", "of"), .mapOf, ⟨some mapType, none⟩),
    (("java.util.Arrays", "asList"), .asList, ⟨some listType, none⟩)]

/-- A static method, by owner and name. -/
def staticMethod? (owner name : String) : Option (StaticMethod × Signature) :=
  staticMethods.lookup (owner, name)

def collections : List HostClass := [.list, .tuple, .set, .frozenset, .array]
def sequences : List HostClass := [.list, .tuple]

/-- The instance methods by name, with the host classes of their receivers and their signatures. -/
def instanceMethods : List (String × InstanceMethod × List HostClass × Signature) :=
  [("length", .length, [.str], ⟨some (.prim .int), none⟩),
    ("size", .size, collections ++ [.mapping], ⟨some (.prim .int), none⟩),
    ("isEmpty", .isEmpty, [.str, .mapping] ++ collections, ⟨some (.prim .boolean), none⟩),
    ("contains", .contains, .str :: collections, ⟨some (.prim .boolean), none⟩),
    ("containsKey", .containsKey, [.mapping], ⟨some (.prim .boolean), none⟩),
    ("containsValue", .containsValue, [.mapping], ⟨some (.prim .boolean), none⟩),
    ("get", .get, sequences ++ [.mapping], ⟨some .object, none⟩),
    ("indexOf", .indexOf, .str :: sequences, ⟨some (.prim .int), none⟩),
    ("charAt", .charAt, [.str], ⟨some (.prim .char), some [.int]⟩),
    ("startsWith", .startsWith, [.str], ⟨some (.prim .boolean), none⟩),
    ("endsWith", .endsWith, [.str], ⟨some (.prim .boolean), none⟩),
    ("substring", .substring, [.str], ⟨some .string, some [.int, .int]⟩),
    ("toUpperCase", .toUpperCase, [.str], ⟨some .string, none⟩),
    ("toLowerCase", .toLowerCase, [.str], ⟨some .string, none⟩),
    ("trim", .trim, [.str], ⟨some .string, none⟩),
    ("equals", .equals, [.object], ⟨some (.prim .boolean), none⟩),
    ("toString", .toString, [.object], ⟨some .string, none⟩),
    ("hashCode", .hashCode, [.object], ⟨some (.prim .int), none⟩),
    ("intValue", .intValue, numberClasses, ⟨some (.prim .int), none⟩),
    ("longValue", .longValue, numberClasses, ⟨some (.prim .long), none⟩),
    ("doubleValue", .doubleValue, numberClasses, ⟨some (.prim .double), none⟩)]

/-- The instance method of a receiver that belongs to one of the given classes. -/
def instanceMethod? (classes : List HostClass) (name : String) : Option (InstanceMethod × Signature) :=
  match instanceMethods.lookup name with
  | some (method, receivers, signature) =>
    if classes.any fun c => receivers.any c.isSubclass then some (method, signature) else none
  | none => none

/-- A value that must not be null. -/
def present (v : Value) : Run Value :=
  match v with
  | .null => Run.raise .nullPointer
  | v => return v

/-- The double that a number is. -/
def numberAsFloat (v : Value) : Run Float :=
  match v.numeric? with
  | some _ => Run.ofExcept v.toFractional
  | none => Run.fault .type

/-- Whether a number is undefined. -/
def isUndefined (v : Value) : Run Bool := do
  return (← numberAsFloat v).isNaN

/-- The greater or the lesser of two values: the second one if `better` says so. An undefined number
wins over everything beside a floating number. -/
def extremum (better : Value → Value → Run Bool) (a b : Value) : Run Value := do
  match a with
  | .floating kind x _ =>
    if ← (if x.isNaN then pure true else isUndefined b) then return .ofFloat kind Number.notANumber
    else if ← better a b then return b
    else return a
  | _ => if ← better a b then return b else return a

/-- A whole number in the kind of another value. -/
def likewise (model : Value) (n : Int) : Run Value := do
  match model with
  | .integral kind _ => return .ofInt kind n
  | .floating kind _ _ => return .ofFloat kind (← Run.ofExcept (Value.wholeToFloat n))
  | .bool _ => return .bool (n != 0)
  | .hostFloat _ _ => return .ofHostFloat (← Run.ofExcept (Value.wholeToFloat n))
  | .str _ | .units _ => return .str (ToString.toString n)
  | .char _ => return .char (Number.lowBits 16 n)
  | _ => return .hostInt n

/-- The quotient of two whole numbers rounded down. -/
def floorQuotient (a b : Value) : Run Value := do
  let divisor ← Run.ofExcept b.toWhole
  if divisor = 0 then Run.raise .arithmetic
  else likewise a (Int.fdiv (← Run.ofExcept a.toWhole) divisor)

/-- The square root of a number; that of a negative one is undefined. -/
def squareRoot (v : Value) : Run Value := do
  if ← Host.atMost (.hostInt 0) v then return .double (← numberAsFloat v).sqrt
  else return .double Number.notANumber

/-- The power of two doubles. A result outside the doubles is infinite, except that a zero has no
negative powers; a result that is no real number is undefined. -/
def power (a b : Float) : Float :=
  let result := Float.pow a b
  if a.isFinite && b.isFinite && result.isInf then
    if a == 0 then Number.notANumber else Number.infinity false
  else result

/-- Whether a text is a decimal numeral with an optional sign, in ASCII digits. -/
def isNumeral (text : String) : Bool :=
  let digits := match text.toList with
    | '+' :: rest => rest
    | '-' :: rest => rest
    | all => all
  !digits.isEmpty && digits.all Char.isDigit

/-- The `int` that a text writes. -/
def readInt (v : Value) : Run Value := do
  let malformed : Run Value := do
    Run.raise (.failure .numberFormat ("For input string: \"" ++ (← Run.textOf v) ++ "\""))
  match v, v.text? with
  | .null, _ => malformed
  | _, none => Run.fault .type
  | _, some text =>
    if isNumeral text then
      match Number.wholeNumber? text with
      | none => Run.fault .value
      | some n => if Number.wrap 32 n = n then return .integral .int n else malformed
    else malformed

/-- The sign of a comparison. -/
def compareSign (a b : Value) : Run Value := do
  let greater ← Host.less b a
  let lesser ← Host.less a b
  return .int ((if greater then 1 else 0) - (if lesser then 1 else 0))

/-- Pairs of neighbours; an odd last element is dropped. -/
def pairs : List Value → List (Value × Value)
  | key :: v :: rest => (key, v) :: pairs rest
  | _ => []

/-- Whether every character of a nonempty text satisfies a test. -/
def allChars (test : Char → Bool) (v : Value) : Run Value := do
  let text ← Run.orFault .attribute v.text?
  return .bool (!text.isEmpty && text.toList.all test)

/-- Runs a static method. -/
def StaticMethod.run (method : StaticMethod) (args : List Value) : Run Value := do
  match method, args with
  | .abs, [.integral kind n] => return .ofInt kind n.natAbs
  | .abs, [.floating kind x _] => return .ofFloat kind x.abs
  | .abs, [v] => Host.magnitude v
  | .max, [a, b] => extremum (fun a b => Host.less a b) a b
  | .min, [a, b] => extremum (fun a b => Host.less b a) a b
  | .floorDiv, [a, b] => floorQuotient a b
  | .sqrt, [v] => squareRoot v
  | .pow, [a, b] =>
    try
      return .double (power (← numberAsFloat a) (← numberAsFloat b))
    catch
      | .raised ⟨.fault .overflow, _⟩ => return .double (Number.infinity false)
      | e => throw e
  | .parseInt, [v] => readInt v
  | .integerValueOf, [v] =>
    if v.text?.isSome then readInt v else Run.ofExcept (v.makeIntegral .int)
  | .longValueOf, args => (HostClass.integral .long).construct args
  | .doubleValueOf, args => (HostClass.floating .double).construct args
  | .compare, [a, b] => compareSign a b
  | .isNaN, [v] => return .bool (← isUndefined v)
  | .stringValueOf, [v] => return .ofCodes (← Run.sourceCodesOf v)
  | .isDigit, [v] => allChars Text.isDigit v
  | .isLetter, [v] => allChars Text.isLetter v
  | .objectsEquals, [a, b] => do
    let same := (← Run.heap).same
    return .bool (a.bothUndefined b || Value.boxedEquals same a b)
  | .isNull, [v] => return .bool (v.classOf == .nothing)
  | .nonNull, [v] => return .bool (v.classOf != .nothing)
  | .requireNonNull, [v] => present v
  | .listOf, items => return .tuple (← items.mapM present)
  | .setOf, items => return .frozenset (← Host.distinct items)
  | .mapOf, items => Host.mapOf (pairs items)
  | .asList, items => return .list items
  | _, _ => Run.fault .type

/-- The element of a sequence at an index, which must lie inside. -/
def elementAt (items : List Value) (index : Value) : Run Value := do
  let negative ← Host.less index (.hostInt 0)
  let beyond ← Host.atMost (.hostInt items.length) index
  if negative || beyond then
    Run.raise (.failure .index ("Index " ++ (← Run.textOf index) ++ " out of bounds for length "
      ++ ToString.toString items.length))
  else
    Run.orFault .type items[(← position index).toNat]?

/-- The character of a text at an index, which must lie inside. -/
def charAt (text : List Nat) (index : Value) : Run Value := do
  let negative ← Host.less index (.hostInt 0)
  let beyond ← Host.atMost (.hostInt text.length) index
  if negative || beyond then
    Run.raise (.failure .stringIndex ("Index " ++ (← Run.textOf index) ++ " out of bounds for length "
      ++ ToString.toString text.length))
  else
    match text[(← position index).toNat]? with
    | some code => return .char code
    | none => Run.fault .type

/-- The part of a text from `first` up to `last`. -/
def substring (text : List Nat) (first last : Value) : Run Value := do
  let size := text.length
  let last := match last with
    | .null => .hostInt size
    | v => v
  if ← (do
      if ← Host.less first (.hostInt 0) then return true
      if ← Host.less (.hostInt size) last then return true
      Host.less last first) then
    Run.raise (.failure .stringIndex ("begin " ++ (← Run.textOf first) ++ ", end "
      ++ (← Run.textOf last) ++ ", length " ++ ToString.toString size))
  else
    let start := (← position first).toNat
    let stop := (← position last).toNat
    return .ofCodes ((text.take stop).drop start)

/-- Whether some element equals a value as the `equals` method tells. -/
def containsElement (items : List Value) (v : Value) : Run Bool := do
  let same := (← Run.heap).same
  return items.any fun item => Value.boxedEquals same item v

/-- The place of the first element that equals a value. -/
def indexOfElement (items : List Value) (v : Value) : Run Value := do
  let same := (← Run.heap).same
  match items.findIdx? fun item => Value.boxedEquals same item v with
  | some n => return .int n
  | none => return .int (-1)

/-- A key, which a map or a set must be able to look up. -/
def key (v : Value) : Run Value :=
  if v.isHashable then return v else Run.fault .type

/-- The hash code of a value. -/
def hashOf (v : Value) : Run Value :=
  match v.codes? with
  | some codes => return .int (Value.textHash codes)
  | none => if v.isHashable then return .int v.hash else Run.fault .type

/-- A number converted to a kind, or left alone if it has that kind. -/
def unboxTo (target : Primitive) (v : Value) : Run Value :=
  if v.kind? = some target then return v else return (v.convert? target).getD .null

/-- White space at the ends of a text that trimming removes, by its codes. -/
def isTrimmed (code : Nat) : Bool :=
  (" \t\n\r\x0c\x0b\x00".toList.map Char.toNat).contains code

/-- Runs an instance method on a text, which is given by its codes. -/
def runOnText (method : InstanceMethod) (codes : List Nat) (args : List Value) :
    Run (Option Value) := do
  match method, args with
  | .length, [] => return some (.int codes.length)
  | .isEmpty, [] => return some (.bool codes.isEmpty)
  | .contains, [v] => return some (.bool (Text.find (← textArgument v) codes 0).isSome)
  | .indexOf, [v] => do
    match Text.find (← textArgument v) codes 0 with
    | some n => return some (.int n)
    | none => return some (.int (-1))
  | .charAt, [index] => return some (← charAt codes index)
  | .startsWith, [p] => return some (.bool (← matchesAny Text.isAtHead p codes))
  | .endsWith, [p] => do
    return some (.bool (← matchesAny Text.isAtEnd p codes))
  | .substring, [first] => return some (← substring codes first .null)
  | .substring, [first, last] => return some (← substring codes first last)
  | .toUpperCase, [] => return some (.ofCodes (Text.mapStretches Text.toUpper [] codes))
  | .toLowerCase, [] => return some (.ofCodes (Text.mapStretches Text.toLower [] codes))
  | .trim, [] => return some (.ofCodes (Text.trim isTrimmed codes))
  | _, _ => return none

/-- Runs an instance method on a container. -/
def runOnContainer (method : InstanceMethod) (receiver : Value) (items args : List Value) :
    Run (Option Value) := do
  match method, receiver, args with
  | .size, _, [] => return some (.int items.length)
  | .isEmpty, _, [] => return some (.bool items.isEmpty)
  | .contains, _, [v] => return some (.bool (← containsElement items v))
  | .containsKey, .map _, [v] => do
    return some (.bool (Value.occursIn (← Run.heap).same (← key v) items))
  | .containsValue, .map entries, [v] =>
    return some (.bool (← containsElement (entries.map Prod.snd) v))
  | .get, .map entries, [v] => do
    return some ((Value.lookupEntry (← Run.heap).same (← key v) entries).getD .null)
  | .get, _, [index] => return some (← elementAt items index)
  | .indexOf, _, [v] => return some (← indexOfElement items v)
  | _, _, _ => return none

/-- Runs an instance method. -/
def InstanceMethod.run (method : InstanceMethod) (receiver : Value) (args : List Value) :
    Run Value := do
  match method, args with
  | .equals, [other] => return .bool (Value.boxedEquals (← Run.heap).same receiver other)
  | .toString, [] => return .ofCodes (← Run.sourceCodesOf receiver)
  | .hashCode, [] => hashOf receiver
  | .intValue, [] => unboxTo .int receiver
  | .longValue, [] => unboxTo .long receiver
  | .doubleValue, [] => unboxTo .double receiver
  | _, _ =>
    let result ← match receiver.codes?, receiver.elements? with
      | some codes, _ => runOnText method codes args
      | none, some items => runOnContainer method receiver items args
      | none, none => pure none
    Run.orFault .type result

end PredicateTrace.Library
