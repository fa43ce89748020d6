import PredicateTrace.Number.Binary
import PredicateTrace.Number.Word
import PredicateTrace.Text.Codes
import PredicateTrace.TypeRef

/-!
# Runtime values

The values that predicates are evaluated over. Primitives are tagged with their kind; numbers that
come from the host without a tag are kept apart until they are boxed. Containers are trees, while the
objects of the sample classes live in a heap and are referred to by their place in it. Arrays, cells,
errors and bare objects carry a number that tells them apart from their equals.

An undefined floating number equals no number, itself included, but the host can tell whether two
undefined numbers are the same one. They carry a number for this purpose as well; it is zero for a number
that has just been computed, which nobody else can refer to, and for all numbers that are defined.
-/

namespace PredicateTrace

open Host (IntKind FloatKind ErrorClass SampleClass)

/-- Runtime values. -/
inductive Value
  | null
  | bool (b : Bool)
  | str (text : String)
  /-- A text of which some codes are no characters. -/
  | units (codes : List Nat)
  /-- One code point, or any unit that conversions of numbers produce. -/
  | char (code : Nat)
  | integral (kind : IntKind) (n : Int)
  | floating (kind : FloatKind) (x : Float) (id : Nat)
  /-- A whole number of the host, without a kind. -/
  | hostInt (n : Int)
  /-- A floating number of the host, without a kind. -/
  | hostFloat (x : Float) (id : Nat)
  | array (id : Nat) (component : TypeRef) (items : List Value)
  | list (items : List Value)
  | tuple (items : List Value)
  | set (items : List Value)
  | frozenset (items : List Value)
  | map (entries : List (Value × Value))
  /-- The keys, the values or the entries of a map. -/
  | view (kind : Host.ViewKind) (items : List Value)
  /-- A holder for the value of a captured variable. -/
  | cell (id : Nat) (content : Value)
  | object (kind : SampleClass) (ref : Nat)
  | bare (id : Nat)
  | classObject (c : Host.HostClass)
  | throwable (id : Nat) (kind : ErrorClass) (args : List Value)
  /-- A method with its receiver; `owner` is the class that defines it. -/
  | boundMethod (self : Value) (owner : SampleClass) (name : String)
  /-- A function of the class that defines it. -/
  | function (owner : SampleClass) (name : String)
  | property (owner : SampleClass) (name : String)
  /-- A function made on demand, which counts its arguments. -/
  | counter (id : Nat)
  deriving Inhabited

/-- An error that was raised. -/
structure Throwable where
  kind : ErrorClass
  args : List Value

namespace Throwable

/-- An error with a text. -/
def withMessage (kind : ErrorClass) (message : String) : Throwable :=
  ⟨kind, [.str message]⟩

/-- A failure of the evaluated program with a text. -/
def failure (kind : Host.FailureKind) (message : String) : Throwable :=
  withMessage (.failure kind) message

/-- A failure of the evaluated program without a text. -/
def bareFailure (kind : Host.FailureKind) : Throwable :=
  ⟨.failure kind, [.null]⟩

/-- A built-in error of the host; its wording is never shown. -/
def fault (kind : Host.FaultKind) : Throwable :=
  ⟨.fault kind, []⟩

def arithmetic : Throwable :=
  failure .arithmetic "/ by zero"

def nullPointer : Throwable :=
  bareFailure .nullPointer

def classNotFound (name : String) : Throwable :=
  failure .classNotFound name

end Throwable

/-- The number of bits of an integral kind. -/
def Host.IntKind.bits : IntKind → Nat
  | .byte => 8
  | .short => 16
  | .int => 32
  | .long => 64

/-- The primitive type of an integral kind. -/
def Host.IntKind.primitive : IntKind → Primitive
  | .byte => .byte
  | .short => .short
  | .int => .int
  | .long => .long

/-- The primitive type of a floating kind. -/
def Host.FloatKind.primitive : FloatKind → Primitive
  | .float => .float
  | .double => .double

namespace Value

/-- An integer of the given kind, wrapped to its width. -/
def ofInt (kind : IntKind) (n : Int) : Value :=
  .integral kind (Number.wrap kind.bits n)

/-- An `int`. -/
def int (n : Int) : Value := ofInt .int n

/-- A `long`. -/
def long (n : Int) : Value := ofInt .long n

/-- A new `double`. -/
def double (x : Float) : Value := .floating .double x 0

/-- A new `float`, of a number that has its format. -/
def single (x : Float) : Value := .floating .float x 0

/-- A new floating number of the given kind, rounded to its format. -/
def ofFloat (kind : FloatKind) (x : Float) : Value :=
  match kind with
  | .float => single (Number.toSingle x)
  | .double => double x

/-- The undefined number that the constant of a kind holds. -/
def undefinedConstant (kind : FloatKind) : Value :=
  .floating kind Number.notANumber 1

/-- The undefined number that documents write: it is one and the same in all of them. -/
def undefinedScalar : Value :=
  .hostFloat Number.notANumber 2

/-- The first number for telling apart what is made later. -/
def firstId : Nat := 3

/-- A new floating number of the host. -/
def ofHostFloat (x : Float) : Value := .hostFloat x 0

/-- The primitive kind of a value; references and untagged numbers have none. -/
def kind? : Value → Option Primitive
  | .bool _ => some .boolean
  | .char _ => some .char
  | .integral kind _ => some kind.primitive
  | .floating kind _ _ => some kind.primitive
  | _ => none

/-- Tags a number of the host with the narrowest kind among `int`, `long` and `double` that holds
it; whatever is not such a number is left as it is. A floating number becomes a new one. -/
def box : Value → Value
  | .hostInt n =>
    if -2 ^ 31 ≤ n ∧ n < 2 ^ 31 then .integral .int n
    else if -2 ^ 63 ≤ n ∧ n < 2 ^ 63 then .integral .long n
    else .hostInt n
  | .hostFloat x _ => double x
  | v => v

/-- The value that boxing gives when it is done once and the result is kept: it is one and the same
number whenever it is looked at. -/
def boxOnce : Value → Value
  | .hostFloat x id => .floating .double x id
  | v => v.box

/-- The host class of a value. -/
def classOf : Value → Host.HostClass
  | .null => .nothing
  | .bool _ => .bool
  | .str _ | .units _ => .str
  | .char _ => .char
  | .integral kind _ => .integral kind
  | .floating kind _ _ => .floating kind
  | .hostInt _ => .int
  | .hostFloat _ _ => .float
  | .array .. => .array
  | .list _ => .list
  | .tuple _ => .tuple
  | .set _ => .set
  | .frozenset _ => .frozenset
  | .map _ => .dict
  | .view kind _ => .view kind
  | .cell .. => .cell
  | .object kind _ => .sample kind
  | .bare _ => .object
  | .classObject _ => .metaclass
  | .throwable _ kind _ => .error kind
  | .boundMethod .. => .method
  | .function .. | .counter _ => .function
  | .property .. => .property

/-- Whether a value is an instance of a host class. -/
def isInstance (v : Value) (c : Host.HostClass) : Bool :=
  v.classOf.isSubclass c

/-- The type that the front end takes a captured value to have. -/
def staticType : Value → TypeRef
  | .null => .object
  | .str _ | .units _ => .string
  | .array _ component _ => .array component
  | .list _ | .tuple _ => .ofName "java.util.List"
  | .set _ | .frozenset _ => .ofName "java.util.Set"
  | .map _ => .ofName "java.util.Map"
  | v =>
    match v.kind? with
    | some p => .prim p
    | none => .ofClass v.classOf

/-- The text with the given codes. -/
def ofCodes (codes : List Nat) : Value :=
  if Text.isProper codes then .str (Text.ofCodes codes) else .units codes

/-- The codes of a text or of a character. -/
def codes? : Value → Option (List Nat)
  | .str text => some (Text.codes text)
  | .units codes => some codes
  | .char code => some [code]
  | _ => none

/-- The text that shows a text or a character. -/
def text? : Value → Option String
  | .str text => some text
  | .units codes => some (Text.ofCodes codes)
  | .char code => some (Text.ofCodes [code])
  | _ => none

/-- Whether a value is a text; a character is none. -/
def isText : Value → Bool
  | .str _ | .units _ => true
  | _ => false

/-- The whole number that a value is for the host, where truth values count as 0 and 1. -/
def whole? : Value → Option Int
  | .bool b => some (if b then 1 else 0)
  | .integral _ n => some n
  | .hostInt n => some n
  | _ => none

/-- The floating number that a value is for the host. -/
def fractional? : Value → Option Float
  | .floating _ x _ => some x
  | .hostFloat x _ => some x
  | _ => none

/-- The elements of a container or of a text, in order; for a map its keys. -/
def elements? : Value → Option (List Value)
  | .array _ _ items => some items
  | .list items => some items
  | .tuple items => some items
  | .set items => some items
  | .frozenset items => some items
  | .view _ items => some items
  | .map entries => some (entries.map Prod.fst)
  | .str text => some (text.toList.map fun c => .str c.toString)
  | .units codes => some (codes.map fun code => ofCodes [code])
  | .char code => some [ofCodes [code]]
  | _ => none

/-- The number of elements of a container or of characters of a text. -/
def length? (v : Value) : Option Nat :=
  v.elements?.map List.length

/-- Whether the host takes the value for true. -/
def isTruthy (v : Value) : Bool :=
  match v with
  | .null => false
  | _ =>
    match v.whole?, v.fractional?, v.length? with
    | some n, _, _ => n != 0
    | _, some x, _ => x != 0
    | _, _, some n => n != 0
    | _, _, _ => true

end Value

end PredicateTrace
