import PredicateTrace.Host.Array
import PredicateTrace.Host.Operators
import PredicateTrace.Text.Case

/-!
# The sample classes

What the sample classes define: constants, methods, properties, the types that their annotations give,
and how their objects are made.
-/

namespace PredicateTrace.Host

/-- Everything that the sample classes define by code. -/
inductive Method
  | norm1 | norm13 | plus | sameX | boom
  | doubled | untyped | broken | unit | twice | label | title | isBig | bytes | initial | ratio
  | anything | getHuge
  | size2 | one
  | next | deposit | withdraw | yes | no | equals
  | plain | empty | npe | java | cast
  deriving DecidableEq, Repr

/-- How a method is bound when it is looked up. -/
inductive Binding
  | ofObject | static | ofClass | property
  deriving DecidableEq, Repr

/-- A method as a class defines it. `arity` counts the arguments besides the receiver, and `result` is
the type that the annotation gives. -/
structure Definition where
  method : Method
  binding : Binding
  arity : Nat
  result : Option TypeRef

namespace SampleClass

/-- The methods that a class defines itself. -/
def ownDefinitions : SampleClass → List (String × Definition)
  | .point =>
    [("norm1", ⟨.norm1, .ofObject, 0, some (.prim .int)⟩),
      ("plus", ⟨.plus, .ofObject, 1, some (.ofClass (.sample .point))⟩),
      ("sameX", ⟨.sameX, .ofObject, 1, some (.prim .boolean)⟩),
      ("boom", ⟨.boom, .ofObject, 0, some (.prim .int)⟩)]
  | .point3 => [("norm1", ⟨.norm13, .ofObject, 0, some (.prim .int)⟩)]
  | .shape =>
    [("doubled", ⟨.doubled, .property, 0, some (.prim .double)⟩),
      ("untyped", ⟨.untyped, .property, 0, none⟩),
      ("broken", ⟨.broken, .property, 0, some (.prim .int)⟩),
      ("unit", ⟨.unit, .static, 1, some (.ofClass (.sample .shape))⟩),
      ("twice", ⟨.twice, .static, 1, some (.prim .int)⟩),
      ("label", ⟨.label, .ofClass, 0, some .string⟩),
      ("title", ⟨.title, .ofObject, 0, some .string⟩),
      ("isBig", ⟨.isBig, .ofObject, 0, some (.prim .boolean)⟩),
      ("bytes", ⟨.bytes, .ofObject, 0, some (.prim .byte)⟩),
      ("initial", ⟨.initial, .ofObject, 0, some (.prim .char)⟩),
      ("ratio", ⟨.ratio, .ofObject, 0, some (.prim .float)⟩),
      ("anything", ⟨.anything, .ofObject, 0, none⟩),
      ("getHuge", ⟨.getHuge, .ofObject, 0, none⟩)]
  | .odd =>
    [("size2", ⟨.size2, .property, 0, none⟩),
      ("one", ⟨.one, .ofObject, 0, none⟩)]
  | .account =>
    [("next", ⟨.next, .ofObject, 0, some (.prim .int)⟩),
      ("deposit", ⟨.deposit, .ofObject, 1, some (.prim .long)⟩),
      ("withdraw", ⟨.withdraw, .ofObject, 1, some (.prim .long)⟩),
      ("yes", ⟨.yes, .ofObject, 0, some (.prim .boolean)⟩),
      ("no", ⟨.no, .ofObject, 0, some (.prim .boolean)⟩),
      ("equals", ⟨.equals, .ofObject, 1, some (.prim .boolean)⟩)]
  | .thrower =>
    [("plain", ⟨.plain, .ofObject, 0, none⟩),
      ("empty", ⟨.empty, .ofObject, 0, none⟩),
      ("npe", ⟨.npe, .ofObject, 0, none⟩),
      ("java", ⟨.java, .ofObject, 0, some (.prim .boolean)⟩),
      ("cast", ⟨.cast, .ofObject, 1, none⟩)]
  | .dyn | .picky | .outer | .inner => []

/-- The constants that a class defines itself. -/
def ownConstants : SampleClass → List (String × Value)
  | .shape => [("COUNT", .hostInt 4), ("LABEL", .str "shape")]
  | .account => [("java_name", .str "bank.Account")]
  | .outer => [("Inner", .classObject (.sample .inner))]
  | .inner => [("SIZE", .integral .int 7)]
  | _ => []

/-- The types that the annotations of a class give to its attributes. -/
def annotations : SampleClass → List (String × TypeRef)
  | .shape =>
    [("COUNT", .prim .int), ("name", .string), ("area", .prim .double),
      ("owner", .ofClass (.sample .point)), ("tag", .prim .char)]
  | .inner => [("SIZE", .prim .int)]
  | _ => []

/-- The class and the sample class that it derives from. -/
def lineage : SampleClass → List SampleClass
  | .point3 => [.point3, .point]
  | c => [c]

/-- A method of a class, its own or an inherited one. -/
def definition? (c : SampleClass) (name : String) : Option Definition :=
  c.lineage.findSome? fun d => d.ownDefinitions.lookup name

/-- The class that defines a method of a class: itself, or the one that it inherits the method from. -/
def definer (c : SampleClass) (name : String) : SampleClass :=
  (c.lineage.find? fun d => (d.ownDefinitions.lookup name).isSome).getD c

/-- A constant of a class. -/
def constant? (c : SampleClass) (name : String) : Option Value :=
  c.lineage.findSome? fun d => d.ownConstants.lookup name

end SampleClass

/-- An attribute that is not defined but answered on demand: names that begin with `dyn` give their
length, and one name a function, another one each time. -/
def dynamicAttribute? (name : String) : Option (Run Value) :=
  if name.startsWith "dyn" then some (return .hostInt name.length)
  else if name = "callMe" then some (return .counter (← Run.freshId))
  else none

/-- A constant of a class of errors. -/
def ErrorClass.constant? (kind : ErrorClass) (name : String) : Option Value :=
  match kind with
  | .failure _ | .insufficientFunds =>
    if name = "java_name" then (HostClass.error kind).languageName?.map .str else none
  | .complaint _ => if Value.complaintFields.tail.contains name then some .null else none
  | _ => none

/-- An attribute that an error has. -/
def throwableAttribute? (kind : ErrorClass) (args : List Value) (name : String) : Option Value :=
  match kind with
  | .complaint _ => (Value.complaintFields.zip args).lookup name
  | .failure _ => if name = "message" then some (args.headD .null) else kind.constant? name
  | _ => kind.constant? name

/-- The arguments that an error was made with; the last ones of a complaint can be left out. -/
def givenArguments (kind : ErrorClass) (args : List Value) : List Value :=
  let isLeftOut := fun v : Value => kind.isComplaint && v.classOf == .nothing
  (args.reverse.dropWhile isLeftOut).reverse

/-- An attribute that the host computes when it is asked for. -/
def computedAttribute? (heap : Heap) (v : Value) (name : String) : Option Value :=
  match v, name with
  | v, "__class__" => some (.classObject v.classOf)
  | .object _ ref, "__dict__" =>
    heap.objects[ref]?.map fun object => .map (object.attributes.map fun (key, w) => (.str key, w))
  | .classObject c, "__name__" => some (.str c.name)
  | .throwable _ kind args, "args" => some (.tuple (givenArguments kind args))
  | .cell _ content, "value" => some content
  | .char code, "code" => some (.hostInt code)
  | .integral kind _, "bits" | .classObject (.integral kind), "bits" => some (.hostInt kind.bits)
  | _, _ => none

/-- What a class member is, looked up without running any code. -/
inductive Member
  | value (v : Value)
  /-- What the class `owner` defines by code. -/
  | code (owner : SampleClass) (d : Definition)

/-- A member as it is stored. A property hides an attribute of the object, which in turn hides any
other member of the class. -/
def storedMember? (heap : Heap) (v : Value) (name : String) : Option Member :=
  match v with
  | .object kind ref =>
    match kind.definition? name with
    | some d =>
      if d.binding = .property then some (.code (kind.definer name) d)
      else
        match heap.attribute? ref name with
        | some w => some (.value w)
        | none => some (.code (kind.definer name) d)
    | none =>
      match heap.attribute? ref name with
      | some w => some (.value w)
      | none => (kind.constant? name).map .value
  | .classObject (.sample kind) =>
    match kind.definition? name with
    | some d => some (.code (kind.definer name) d)
    | none => (kind.constant? name).map .value
  | .classObject (.error kind) => (kind.constant? name).map .value
  | .throwable _ kind args => (throwableAttribute? kind args name).map .value
  | _ => none

/-- Whether a value has an attribute, stored, computed or answered on demand. -/
def hasAttribute (heap : Heap) (v : Value) (name : String) : Bool :=
  (storedMember? heap v name).isSome || (computedAttribute? heap v name).isSome ||
    match v with
    | .object .dyn _ => (dynamicAttribute? name).isSome
    | _ => false

/-- An attribute of the receiver of a method, whatever value that is. -/
def fieldOf (v : Value) (name : String) : Run Value := do
  match storedMember? (← Run.heap) v name with
  | some (.value w) => return w
  | _ => Run.fault .attribute

/-- Sets an attribute of the receiver of a method. -/
def setField (v : Value) (name : String) (w : Value) : Run Unit :=
  match v with
  | .object _ ref => Run.setAttribute ref name w
  | _ => Run.fault .attribute

/-- A new shape. -/
def newShape (name area owner : Value) : Run Value :=
  Run.allocate .shape
    [("name", name), ("area", area), ("owner", owner), ("big", .hostInt (2 ^ 40)),
      ("huge", .hostInt (2 ^ 70))]

/-- Counts a call of an account. -/
def countCall (self : Value) : Run Unit := do
  setField self "calls" (← add (← fieldOf self "calls") (.hostInt 1))

/-- A whole number as a `long`. -/
def toLong (v : Value) : Run Value :=
  Run.ofExcept (v.makeIntegral .long)

/-- The text of a value in upper case. -/
def upperOf (v : Value) : Run Value := do
  return .ofCodes (Text.mapStretches Text.toUpper [] (← Run.orFault .attribute v.codes?))

/-- What a value holds at the index zero. -/
def firstOf (v : Value) : Run Value := do
  match v with
  | .char code => return .char code
  | .map entries =>
    Run.orFault .key (Value.lookupEntry (← Run.heap).same (.hostInt 0) entries)
  | .array _ _ items => elementAt items 0
  | .set _ | .frozenset _ => Run.fault .type
  | v =>
    match v.elements? with
    | some items => Run.orFault .index items.head?
    | none => Run.fault .type

/-- Runs a method on a receiver. -/
def Method.run (method : Method) (self : Value) (args : List Value) : Run Value := do
  match method, args with
  | .norm1, [] => add (← magnitude (← fieldOf self "x")) (← magnitude (← fieldOf self "y"))
  | .norm13, [] => do
    if !self.isInstance (.sample .point3) then Run.fault .type
    let flat ← add (← magnitude (← fieldOf self "x")) (← magnitude (← fieldOf self "y"))
    add flat (← magnitude (← fieldOf self "z"))
  | .plus, [other] => do
    let x ← add (← fieldOf self "x") (← fieldOf other "x")
    let y ← add (← fieldOf self "y") (← fieldOf other "y")
    Run.allocate .point [("x", x), ("y", y)]
  | .sameX, [other] => return .bool (← equal (← fieldOf self "x") (← fieldOf other "x"))
  | .boom, [] => Run.raise (.withMessage (.fault .value) "boom")
  | .doubled, [] => multiply (← fieldOf self "area") (.hostInt 2)
  | .untyped, [] => do
    return .hostInt (← Run.orFault .type (← fieldOf self "name").length?)
  | .broken, [] => Run.raise (.withMessage (.fault .value) "broken property")
  | .unit, [n] => do newShape (.str "unit") (← multiply n (.ofHostFloat 1.0)) .null
  | .twice, [n] => multiply n (.hostInt 2)
  | .label, [] => return .str "Shape!"
  | .title, [] => do upperOf (← fieldOf self "name")
  | .isBig, [] => return .bool (← less (.hostInt 10) (← fieldOf self "area"))
  | .bytes, [] => return .ofInt .byte 200
  | .initial, [] => do Run.ofExcept (← firstOf (← fieldOf self "name")).toChar
  | .ratio, [] => return .ofFloat .float 0.1
  | .anything, [] => fieldOf self "owner"
  | .getHuge, [] => fieldOf self "huge"
  | .size2, [] => return .hostInt 2
  | .one, [] => return .hostInt 1
  | .next, [] => do
    countCall self
    fieldOf self "calls"
  | .deposit, [amount] => do
    countCall self
    let balance ← toLong (← add (← fieldOf self "balance") amount)
    setField self "balance" balance
    return balance
  | .withdraw, [amount] => do
    countCall self
    let balance ← fieldOf self "balance"
    if ← less balance amount then
      Run.raise (.withMessage .insufficientFunds
        ("need " ++ (← Run.textOf amount) ++ ", have " ++ (← Run.textOf balance)))
    else
      let rest ← toLong (← subtract balance amount)
      setField self "balance" rest
      return rest
  | .yes, [] => do
    countCall self
    return .bool true
  | .no, [] => do
    countCall self
    return .bool false
  | .equals, [other] => do
    match other with
    | .object .account _ =>
      return .bool (← equal (← fieldOf self "balance") (← fieldOf other "balance"))
    | _ => return .bool false
  | .plain, [] => Run.raise (.withMessage .plain "plain\nproblem")
  | .empty, [] => Run.raise ⟨.plain, []⟩
  | .npe, [] => Run.raise (.failure .nullPointer "from host")
  | .java, [] => Run.raise (.failure .runtime "generic")
  | .cast, [long] => do
    Run.raise ⟨.failure .classCast, [← multiply (.str "x") long]⟩
  | _, _ => Run.fault .type

/-- The value of a member of the class `owner` that is looked up on an object or a class. -/
def Definition.bind (d : Definition) (owner : SampleClass) (receiver : Value) (name : String) :
    Run Value :=
  match d.binding, receiver with
  | .property, .classObject _ => return .property owner name
  | .property, _ => d.method.run receiver []
  | .ofObject, .classObject _ | .static, _ => return .function owner name
  | .ofObject, _ => return .boundMethod receiver owner name
  | .ofClass, .classObject c => return .boundMethod (.classObject c) owner name
  | .ofClass, v => return .boundMethod (.classObject v.classOf) owner name

/-- The value of an attribute, if the value has it; properties run. -/
def getAttribute? (v : Value) (name : String) : Run (Option Value) := do
  let heap ← Run.heap
  match storedMember? heap v name, computedAttribute? heap v name, v with
  | some (.value w), _, _ => return some w
  | some (.code owner d), _, _ => return some (← d.bind owner v name)
  | none, some w, _ => return some w
  | none, none, .object .dyn _ => (dynamicAttribute? name).mapM id
  | none, none, _ => return none

/-- The first of some arguments, if there is at most one. -/
def atMostOne (args : List Value) : Run (Option Value) :=
  match args with
  | [] => return none
  | [v] => return some v
  | _ => Run.fault .type

/-- Makes an object of a sample class. -/
def SampleClass.construct (kind : SampleClass) (args : List Value) : Run Value :=
  let zero : Value := .hostInt 0
  match kind, args with
  | .point, [] => Run.allocate kind [("x", zero), ("y", zero)]
  | .point, [x] => Run.allocate kind [("x", x), ("y", zero)]
  | .point, [x, y] => Run.allocate kind [("x", x), ("y", y)]
  | .point3, [] => Run.allocate kind [("x", zero), ("y", zero), ("z", zero)]
  | .point3, [x] => Run.allocate kind [("x", x), ("y", zero), ("z", zero)]
  | .point3, [x, y] => Run.allocate kind [("x", x), ("y", y), ("z", zero)]
  | .point3, [x, y, z] => Run.allocate kind [("x", x), ("y", y), ("z", z)]
  | .shape, [name] => newShape name (.ofHostFloat 2.5) .null
  | .shape, [name, area] => newShape name area .null
  | .shape, [name, area, owner] => newShape name area owner
  | .odd, [] => Run.allocate kind [("name", .str "odd")]
  | .account, [] => Run.allocate kind [("balance", .long 0), ("calls", zero)]
  | .account, [balance] => do
    Run.allocate kind [("balance", ← toLong balance), ("calls", zero)]
  | .thrower, [] => Run.allocate kind []
  | .dyn, [] => Run.allocate kind []
  | .picky, [n] => do
    if ← less n zero then
      let whole ← Run.ofExcept n.toWhole
      Run.raise (.withMessage (.fault .value) ("negative: " ++ toString whole))
    else
      Run.allocate kind [("n", n)]
  | .outer, [] => Run.allocate kind []
  | .inner, [] => Run.allocate kind []
  | _, _ => Run.fault .type

/-- An error object that is not raised. -/
def constructError (kind : ErrorClass) (args : List Value) : Run Value := do
  let accepted : Bool := match kind with
    | .failure _ => args.length ≤ 1
    | .complaint _ => 1 ≤ args.length && args.length ≤ 4
    | _ => true
  let args := match kind, args with
    | .failure _, [] => [.null]
    | .complaint _, args => args ++ List.replicate (4 - args.length) .null
    | _, args => args
  if accepted then return .throwable (← Run.freshId) kind args else Run.fault .type

/-- Makes an instance of a class. -/
def HostClass.construct (c : HostClass) (args : List Value) : Run Value := do
  match c with
  | .object =>
    if args.isEmpty then return .bare (← Run.freshId) else Run.fault .type
  | .nothing => if args.isEmpty then return .null else Run.fault .type
  | .bool => return .bool (((← atMostOne args).map Value.isTruthy).getD false)
  | .int =>
    match ← atMostOne args with
    | none => return .hostInt 0
    | some v => return .hostInt (← Run.ofExcept v.toWhole)
  | .float =>
    match ← atMostOne args with
    | none => return .ofHostFloat 0
    | some v => return .ofHostFloat (← Run.ofExcept v.toFractional)
  | .str =>
    match ← atMostOne args with
    | none => return .str ""
    | some v => return .ofCodes (← Run.codesOf v)
  | .integral kind => Run.ofExcept (((← atMostOne args).getD (.hostInt 0)).makeIntegral kind)
  | .floating kind => Run.ofExcept (((← atMostOne args).getD (.ofHostFloat 0)).makeFloating kind)
  | .char => Run.ofExcept ((← atMostOne args).getD (.char 0)).toChar
  | .list =>
    match ← atMostOne args with
    | none => return .list []
    | some v => return .list (← elements v)
  | .tuple =>
    match ← atMostOne args with
    | none => return .tuple []
    | some v => return .tuple (← elements v)
  | .set =>
    match ← atMostOne args with
    | none => return .set []
    | some v => return .set (← distinct (← elements v))
  | .frozenset =>
    match ← atMostOne args with
    | none => return .frozenset []
    | some v => return .frozenset (← distinct (← elements v))
  | .dict =>
    match ← atMostOne args with
    | none => return .map []
    | some (.map entries) => return .map entries
    | some v => mapOfPairs (← elements v)
  | .error kind => constructError kind args
  | .sample kind => kind.construct args
  | .cell =>
    match args with
    | [v] => return .cell (← Run.freshId) v
    | _ => Run.fault .type
  | .mapping | .view _ | .metaclass | .function | .method | .property | .array => Run.fault .type

/-- Calls a method that was found in a class, with its receiver. -/
def callDefinition (d : Definition) (self : Value) (args : List Value) : Run Value :=
  if args.length = d.arity then d.method.run self args else Run.fault .type

/-- Calls a function that belongs to a class: a static method as it is, any other with its first
argument as the receiver. -/
def callFunction (owner : SampleClass) (name : String) (args : List Value) : Run Value :=
  match owner.definition? name with
  | some d =>
    if d.binding = .static then callDefinition d .null args
    else
      match args with
      | self :: rest => callDefinition d self rest
      | [] => Run.fault .type
  | none => Run.fault .type

/-- Calls a value. -/
def callValue (f : Value) (args : List Value) : Run Value :=
  match f with
  | .boundMethod self owner name =>
    match owner.definition? name with
    | some d => callDefinition d self args
    | none => Run.fault .type
  | .function owner name => callFunction owner name args
  | .counter _ => return .hostInt args.length
  | .classObject c => c.construct args
  | _ => Run.fault .type

end PredicateTrace.Host
