import PredicateTrace.Library.Method
import PredicateTrace.Text.Quote

/-!
# Name resolution

A resolver finds what the names of a predicate stand for: classes by simple or qualified name, fields,
methods and constructors. Its imports extend the registered classes. A member that does not exist is
unresolved, which is not an error of the evaluated program; a class that does not exist is.
-/

namespace PredicateTrace

open Host (HostClass Run Heap)

/-- What an import brings in: a qualified name that is looked up when it is needed, or a class. -/
inductive Import
  | name (qualified : String)
  | hostClass (c : HostClass)

/-- The imports by simple name. -/
structure Resolver where
  imports : List (String × Import)

namespace Resolver

/-- The resolver that knows the registered classes only. -/
def empty : Resolver := ⟨[]⟩

/-- The class type that a name written in a predicate denotes, if it is known. -/
def lookupType? (r : Resolver) (name : String) : Option TypeRef :=
  match r.imports.lookup name with
  | some (.hostClass c) => some (.ofClass c)
  | some (.name qualified) => some (.ofName qualified)
  | none =>
    match Library.defaultImport? name with
    | some qualified => some (.ofName qualified)
    | none => if (Library.hostClasses? name).isSome then some (.ofName name) else none

/-- The class with a qualified name. -/
def loadClass (name : String) : Except Throwable HostClass :=
  match HostClass.named? name with
  | some c => .ok c
  | none => .error (.classNotFound name)

/-- The host class behind a reference type, the first one if there are several. -/
def resolveClass (t : TypeRef) : Except Throwable HostClass :=
  match t with
  | .named _ (some c) => .ok c
  | .named name none =>
    match Library.hostClasses? name with
    | some (c :: _) => .ok c
    | some [] => .error (.classNotFound name)
    | none => loadClass name
  | .array _ => .ok .array
  | .prim p => .error (.classNotFound p.name)

/-- The host classes whose instances are instances of a type. -/
def hostTypes (t : TypeRef) : Except Throwable (List HostClass) :=
  match t with
  | .prim .boolean => .ok [.bool]
  | .prim _ => .ok []
  | .named name none =>
    match Library.hostClasses? name with
    | some classes => .ok classes
    | none => (resolveClass t).map fun c => [c]
  | _ => (resolveClass t).map fun c => [c]

/-- The simple name of a class type, by its class where there is one. -/
def simpleName (t : TypeRef) : Except Throwable String :=
  match t with
  | .named _ (some c) => .ok c.name
  | .named name none =>
    if (Library.hostClasses? name).isSome then .ok (TypeRef.lastComponent name)
    else (loadClass name).map HostClass.name
  | t => .ok t.simpleName

/-- Whether a value of one type can be assigned to another. -/
def isAssignable (source target : TypeRef) : Except Throwable Bool :=
  if source == target then .ok true
  else if source.isPrimitive || target.isPrimitive then .ok false
  else if target == .object then .ok true
  else
    match source, target with
    | .array s, .array t => isAssignable s t
    | .array _, _ => .ok false
    | _, .array _ => .ok false
    | _, _ => do
      let targets ← hostTypes target
      let sources ← hostTypes source
      return sources.all fun c => targets.any c.isSubclass

/-- Whether a value is an instance of a type. -/
def isInstance (v : Value) (t : TypeRef) : Except Throwable Bool :=
  match v, t with
  | .null, _ => .ok false
  | v, .prim p => .ok (v.kind? == some p)
  | .array _ component _, .array t => isAssignable component t
  | _, .array _ => .ok false
  | v, .named name _ =>
    match v with
    | .char _ =>
      if name = "java.lang.String" ∨ name = "java.lang.CharSequence" then .ok false
      else (hostTypes t).map fun classes => classes.any v.isInstance
    | .array .. => .ok (t == .object)
    | v => (hostTypes t).map fun classes => classes.any v.isInstance

/-- The static type that the annotation of a member with a host class gives. -/
def annotatedType (c : HostClass) : TypeRef :=
  match c with
  | .bool => .prim .boolean
  | .int => .prim .int
  | .float => .prim .double
  | .str => .string
  | .integral kind => .prim kind.primitive
  | .floating kind => .prim kind.primitive
  | .char => .prim .char
  | .object => .object
  | c => .named c.qualifiedName (some c)

/-- A result that may be an error of the evaluated program. -/
def lift {α : Type} : Except Throwable α → Run α
  | .ok a => pure a
  | .error e => Run.raise e

/-- Reports a member that does not exist. -/
def unresolved {α : Type} (message : String) : Run α :=
  throw (.unresolved message)

/-! ### Fields -/

/-- The class whose static member is meant; the member must exist. -/
def memberOwner (owner : TypeRef) (name : String) : Run HostClass := do
  match resolveClass owner with
  | .error _ => unresolved ("cannot resolve " ++ owner.text ++ " for member " ++ Text.quote name)
  | .ok c =>
    if Host.hasAttribute (← Run.heap) (.classObject c) name then return c
    else unresolved ("no member " ++ Text.quote name ++ " on " ++ owner.text)

/-- The value of a static member. -/
def staticMember (owner : TypeRef) (name : String) : Run Value := do
  let c ← memberOwner owner name
  return (← Host.getAttribute? (.classObject c) name).getD .null

/-- The value of a static field. -/
def loadStaticField (owner : TypeRef) (name : String) : Run Value := do
  match Library.constant? owner.text name with
  | some v => return v
  | none => return (← staticMember owner name).box

/-- The value of a field of an object. -/
def loadField (receiver : Value) (name : String) : Run Value := do
  match ← Host.getAttribute? receiver name with
  | some v => return v.box
  | none =>
    unresolved ("no field " ++ Text.quote name ++ " on " ++ receiver.classOf.qualifiedName)

/-- The type that the class of a field declares for it. -/
def declaredFieldType (owner : TypeRef) (name : String) : TypeRef :=
  match resolveClass owner with
  | .ok (.sample kind) =>
    match kind.annotations.lookup name with
    | some t => t
    | none =>
      match kind.definition? name with
      | some d => if d.binding = .property then d.result.getD .object else .object
      | none => .object
  | .ok (.error (.complaint .general)) => if name = "message" then .string else .object
  | _ => .object

/-- The static type of a field: that of a library constant, of the value that a known object holds, or
the declared one. -/
def fieldType (heap : Heap) (owner : TypeRef) (name : String) (known : Option Value) : TypeRef :=
  match Library.constant? owner.text name with
  | some v => v.staticType
  | none =>
    match known.bind fun v => Host.storedMember? heap v name with
    | some (.value v) => v.box.staticType
    | _ => declaredFieldType owner name

/-! ### Methods -/

/-- Classes whose library methods come before any attribute of the same name. -/
def libraryFirst : List HostClass :=
  [.str, .list, .tuple, .dict, .set, .frozenset, .bool, .array] ++ Library.numberClasses

/-- Whether library methods come first for a class. -/
def prefersLibrary (c : HostClass) : Bool :=
  libraryFirst.any c.isSubclass

/-- The signature of the library method that a call with a receiver or owner of the given type may
mean. -/
def librarySignature? (owner : TypeRef) (name : String) (isStatic : Bool) :
    Option Library.Signature :=
  if isStatic then (Library.staticMethod? owner.text name).map Prod.snd
  else
    let classes := match hostTypes owner with
      | .ok [] => [.object]
      | .ok classes => classes
      | .error _ => [.object]
    (Library.instanceMethod? classes name).map Prod.snd

/-- The type that a class declares for the result of a method. -/
def declaredResult? (c : HostClass) (name : String) : Option TypeRef :=
  match c with
  | .sample kind =>
    match kind.definition? name with
    | some d => if d.binding = .property then none else d.result
    | none => none
  | _ => none

/-- The declared result type of a method; `none` when it is the promoted type of the arguments. -/
def resultType (owner : TypeRef) (name : String) (isStatic : Bool) : Option TypeRef :=
  let signature := librarySignature? owner name isStatic
  match signature, resolveClass owner with
  | some s, .error _ => s.result
  | none, .error _ => some .object
  | some s, .ok c =>
    if isStatic || prefersLibrary c then s.result
    else
      match declaredResult? c name with
      | some t => some t
      | none => s.result
  | none, .ok c => some ((declaredResult? c name).getD .object)

/-- The primitive types that a method converts its arguments to. -/
def parameterTypes (owner : TypeRef) (name : String) (isStatic : Bool) : Option (List Primitive) :=
  (librarySignature? owner name isStatic).bind Library.Signature.params

/-- Calls a method of a value. -/
def callMethod (receiver : Value) (name : String) (args : List Value) : Run Value := do
  let library := (Library.instanceMethod? [receiver.classOf] name).map Prod.fst
  match library with
  | some method =>
    if prefersLibrary receiver.classOf then
      return (← method.run receiver args).box
    else
      match ← Host.getAttribute? receiver name with
      | some f => return (← Host.callValue f args).box
      | none => return (← method.run receiver args).box
  | none =>
    match ← Host.getAttribute? receiver name, Host.nativeMethod? receiver.classOf name with
    | some f, _ => return (← Host.callValue f args).box
    | none, some method => return (← method.run receiver args).box
    | none, none =>
      unresolved ("no method " ++ Text.quote name ++ " on " ++ receiver.classOf.qualifiedName)

/-- The method of a built-in class that a static call means. It takes its receiver as the first
argument. -/
def nativeStatic? (owner : TypeRef) (name : String) : Option (HostClass × Host.NativeMethod) := do
  let c ← (resolveClass owner).toOption
  return (c, ← Host.nativeMethod? c name)

/-- Calls a static method. -/
def callStatic (owner : TypeRef) (name : String) (args : List Value) : Run Value := do
  match Library.staticMethod? owner.text name, nativeStatic? owner name, args with
  | some (method, _), _, args => return (← method.run args).box
  | none, some (c, method), receiver :: rest =>
    if receiver.isInstance c then return (← method.run receiver rest).box else Run.fault .type
  | none, some _, [] => Run.fault .type
  | none, none, args => return (← Host.callValue (← staticMember owner name) args).box

/-! ### Construction -/

/-- Makes an instance of a registered class that is constructed in a way of its own; `none` for any
other class. -/
def constructRegistered? (name : String) (args : List Value) : Option (Run Value) :=
  match name with
  | "java.lang.Object" => some (HostClass.object.construct args)
  | "java.lang.String" => some (HostClass.str.construct args)
  | "java.util.ArrayList" => some (HostClass.list.construct args)
  | "java.util.HashSet" => some (HostClass.set.construct args)
  | "java.util.HashMap" =>
    some do
      match ← Host.atMostOne args with
      | none => return .map []
      | some v => if v.isTruthy then HostClass.dict.construct [v] else return .map []
  | _ => none

/-- Makes an instance of a type. -/
def instantiate (t : TypeRef) (args : List Value) : Run Value := do
  let registered := match t with
    | .named name none => constructRegistered? name args
    | _ => none
  match registered with
  | some made => return (← made).box
  | none => return (← (← lift (resolveClass t)).construct args).box

end Resolver

end PredicateTrace
