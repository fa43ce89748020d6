/-!
# Host classes

The classes that a value of the host can belong to: the built-in ones, the tagged primitives, the
errors, and the sample classes that predicates are evaluated against. A class has a qualified name,
possibly a second name under which the expression language knows it, and its superclasses.
-/

namespace PredicateTrace.Host

/-- Tagged integers, by width. -/
inductive IntKind
  | byte | short | int | long
  deriving DecidableEq, Repr

/-- Tagged floating numbers. -/
inductive FloatKind
  | float | double
  deriving DecidableEq, Repr

/-- Errors that the engine itself reports, with a place in a source. -/
inductive ComplaintKind
  | general | parse | typeCheck | config | resolution
  deriving DecidableEq, Repr

/-- Failures of an evaluated program that have a name in the expression language. -/
inductive FailureKind
  | runtime | arithmetic | classCast | arrayIndex | negativeArraySize | nullPointer
  | classNotFound | index | stringIndex | numberFormat
  deriving DecidableEq, Repr

/-- Built-in errors of the host. -/
inductive FaultKind
  | type | value | key | index | overflow | attribute | memory
  deriving DecidableEq, Repr

/-- Classes of errors. -/
inductive ErrorClass
  | base | exception
  | fault (kind : FaultKind)
  | complaint (kind : ComplaintKind)
  | failure (kind : FailureKind)
  | insufficientFunds | plain
  deriving DecidableEq, Repr

/-- The sample classes. -/
inductive SampleClass
  | point | point3 | shape | odd | account | thrower | dyn | picky | outer | inner
  deriving DecidableEq, Repr

/-- What a view of a map shows. -/
inductive ViewKind
  | keys | values | items
  deriving DecidableEq, Repr

/-- Every class of the host. -/
inductive HostClass
  | object | nothing | bool | int | float | str
  | list | tuple | set | frozenset | dict | mapping
  | view (kind : ViewKind)
  | metaclass | function | method | property
  | integral (kind : IntKind) | floating (kind : FloatKind) | char | array | cell
  | error (kind : ErrorClass)
  | sample (kind : SampleClass)
  deriving DecidableEq, Repr

/-- Whether the errors of the class are those that the engine reports itself; they compare by content. -/
def ErrorClass.isComplaint : ErrorClass → Bool
  | .complaint _ => true
  | _ => false

/-- Whether the class stands in the host's own name space, without a module in front. -/
def ErrorClass.isBuiltin : ErrorClass → Bool
  | .base | .exception | .fault _ => true
  | _ => false

/-- The name of an error class, without its module. -/
def ErrorClass.name : ErrorClass → String
  | .base => "BaseException"
  | .exception => "Exception"
  | .fault .type => "TypeError"
  | .fault .value => "ValueError"
  | .fault .key => "KeyError"
  | .fault .index => "IndexError"
  | .fault .overflow => "OverflowError"
  | .fault .attribute => "AttributeError"
  | .fault .memory => "MemoryError"
  | .complaint .general => "PowerAssertError"
  | .complaint .parse => "ParseError"
  | .complaint .typeCheck => "TypeCheckError"
  | .complaint .config => "ConfigError"
  | .complaint .resolution => "ResolutionError"
  | .failure .runtime => "JavaException"
  | .failure .arithmetic => "ArithmeticException"
  | .failure .classCast => "ClassCastException"
  | .failure .arrayIndex => "ArrayIndexOutOfBoundsException"
  | .failure .negativeArraySize => "NegativeArraySizeException"
  | .failure .nullPointer => "NullPointerException"
  | .failure .classNotFound => "ClassNotFoundException"
  | .failure .index => "IndexOutOfBoundsException"
  | .failure .stringIndex => "StringIndexOutOfBoundsException"
  | .failure .numberFormat => "NumberFormatException"
  | .insufficientFunds => "InsufficientFunds"
  | .plain => "PlainError"

/-- The name of a sample class inside its module, with the classes that enclose it. -/
def SampleClass.path : SampleClass → List String
  | .point => ["Point"]
  | .point3 => ["Point3"]
  | .shape => ["Shape"]
  | .odd => ["Odd"]
  | .account => ["Account"]
  | .thrower => ["Thrower"]
  | .dyn => ["Dyn"]
  | .picky => ["Picky"]
  | .outer => ["Outer"]
  | .inner => ["Outer", "Inner"]

/-- The name of a sample class inside its module. -/
def SampleClass.localName (c : SampleClass) : String :=
  String.intercalate "." c.path

/-- The simple name of a class. -/
def HostClass.name : HostClass → String
  | .object => "object"
  | .nothing => "NoneType"
  | .bool => "bool"
  | .int => "int"
  | .float => "float"
  | .str => "str"
  | .list => "list"
  | .tuple => "tuple"
  | .set => "set"
  | .frozenset => "frozenset"
  | .dict => "dict"
  | .mapping => "Mapping"
  | .view .keys => "dict_keys"
  | .view .values => "dict_values"
  | .view .items => "dict_items"
  | .metaclass => "type"
  | .function => "function"
  | .method => "method"
  | .property => "property"
  | .integral .byte => "JByte"
  | .integral .short => "JShort"
  | .integral .int => "JInt"
  | .integral .long => "JLong"
  | .floating .float => "JFloat"
  | .floating .double => "JDouble"
  | .char => "JChar"
  | .array => "JArray"
  | .cell => "Cell"
  | .error kind => kind.name
  | .sample kind => kind.path.getLastD ""

/-- The name of a class with its module in front; built-in classes have none. -/
def HostClass.qualifiedName : HostClass → String
  | .mapping => "collections.abc.Mapping"
  | c@(.integral _) | c@(.floating _) | c@.char | c@.array | c@.cell =>
    "powerassert.runtime.values." ++ c.name
  | .error kind =>
    if kind.isBuiltin then kind.name
    else
      match kind with
      | .insufficientFunds | .plain => "hostlib." ++ kind.name
      | _ => "powerassert.errors." ++ kind.name
  | .sample kind => "hostlib." ++ kind.localName
  | c => c.name

/-- The name under which the expression language knows a class, when it differs. -/
def HostClass.languageName? : HostClass → Option String
  | .error (.failure .runtime) => some "java.lang.RuntimeException"
  | .error (.failure kind) => some ("java.lang." ++ (ErrorClass.failure kind).name)
  | .error .insufficientFunds => some "bank.InsufficientFunds"
  | .sample .account => some "bank.Account"
  | _ => none

/-- The name by which a type refers to the class. -/
def HostClass.typeName (c : HostClass) : String :=
  c.languageName?.getD c.qualifiedName

/-- The direct superclass; only the root class has none. -/
def HostClass.parent? : HostClass → Option HostClass
  | .object => none
  | .bool => some .int
  | .integral _ => some .int
  | .floating _ => some .float
  | .char => some .str
  | .dict => some .mapping
  | .error .base => some .object
  | .error .exception => some (.error .base)
  | .error (.complaint .general) => some (.error .exception)
  | .error (.complaint _) => some (.error (.complaint .general))
  | .error (.failure .runtime) => some (.error .exception)
  | .error (.failure .stringIndex) => some (.error (.failure .index))
  | .error (.failure _) => some (.error (.failure .runtime))
  | .error _ => some (.error .exception)
  | .sample .point3 => some (.sample .point)
  | _ => some .object

/-- The class and its superclasses, nearest first; no chain is longer than six classes. -/
def HostClass.ancestors (c : HostClass) : List HostClass :=
  go 6 c
where
  go : Nat → HostClass → List HostClass
    | 0, c => [c]
    | depth + 1, c =>
      match c.parent? with
      | none => [c]
      | some parent => c :: go depth parent

/-- Whether every instance of `c` is an instance of `d`. -/
def HostClass.isSubclass (c d : HostClass) : Bool :=
  c.ancestors.contains d

/-- The sample classes, in the order of their definition. -/
def SampleClass.all : List SampleClass :=
  [.point, .point3, .shape, .odd, .account, .thrower, .dyn, .picky, .outer, .inner]

/-- The classes of complaints. -/
def ComplaintKind.all : List ComplaintKind :=
  [.general, .parse, .typeCheck, .config, .resolution]

/-- The classes of failures. -/
def FailureKind.all : List FailureKind :=
  [.runtime, .arithmetic, .classCast, .arrayIndex, .negativeArraySize, .nullPointer, .classNotFound,
    .index, .stringIndex, .numberFormat]

/-- The classes that stand in a module, in which they can be looked up by name. -/
def HostClass.inModules : List HostClass :=
  SampleClass.all.map .sample
    ++ [.error .insufficientFunds, .error .plain]
    ++ ComplaintKind.all.map (fun kind => .error (.complaint kind))
    ++ FailureKind.all.map (fun kind => .error (.failure kind))
    ++ [.integral .byte, .integral .short, .integral .int, .integral .long, .floating .float,
      .floating .double, .char, .array, .cell]

/-- The class that a qualified name denotes. -/
def HostClass.named? (name : String) : Option HostClass :=
  inModules.find? fun c => c.qualifiedName = name

end PredicateTrace.Host
