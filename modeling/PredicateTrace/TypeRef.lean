import PredicateTrace.Host.Class

/-!
# Type references

The static types of the expression language: primitives, arrays and classes by name. A class type may
carry the host class that was found for it; this does not take part in comparisons.
-/

namespace PredicateTrace

/-- Primitive types. -/
inductive Primitive
  | byte | short | char | int | long | float | double | boolean | void
  deriving DecidableEq, Repr

namespace Primitive

def all : List Primitive :=
  [.byte, .short, .char, .int, .long, .float, .double, .boolean, .void]

def name : Primitive → String
  | .byte => "byte"
  | .short => "short"
  | .char => "char"
  | .int => "int"
  | .long => "long"
  | .float => "float"
  | .double => "double"
  | .boolean => "boolean"
  | .void => "void"

def ofName? (name : String) : Option Primitive :=
  all.find? fun p => p.name = name

def isIntegral : Primitive → Bool
  | .byte | .short | .char | .int | .long => true
  | _ => false

def isFloating : Primitive → Bool
  | .float | .double => true
  | _ => false

def isNumeric (p : Primitive) : Bool :=
  p.isIntegral || p.isFloating

end Primitive

/-- Types as the front end and the ops carry them. -/
inductive TypeRef
  | prim (p : Primitive)
  | array (component : TypeRef)
  | named (name : String) (host : Option Host.HostClass)
  deriving Repr

namespace TypeRef

/-- A class type known by name only. -/
def ofName (name : String) : TypeRef :=
  .named name none

/-- The type of the instances of a host class. -/
def ofClass (c : Host.HostClass) : TypeRef :=
  .named c.typeName (some c)

/-- Types are the same when they read the same; the host class does not matter. -/
def beq : TypeRef → TypeRef → Bool
  | .prim p, .prim q => p == q
  | .array s, .array t => beq s t
  | .named m _, .named n _ => m == n
  | _, _ => false

instance : BEq TypeRef := ⟨beq⟩

def object : TypeRef := .ofName "java.lang.Object"
def string : TypeRef := .ofName "java.lang.String"

/-- The type of the literal `null`. -/
def null : TypeRef := .ofName "<null>"

/-- The type as it is written out in full. -/
def text : TypeRef → String
  | .prim p => p.name
  | .array t => t.text ++ "[]"
  | .named name _ => name

/-- The part of a dotted name after its last dot. -/
def lastComponent (name : String) : String :=
  (name.splitOn ".").getLastD name

/-- The type without its package. -/
def simpleName : TypeRef → String
  | .prim p => p.name
  | .array t => t.simpleName ++ "[]"
  | .named _ (some host) => host.name
  | .named name none => lastComponent name

/-- What the innermost array holds. -/
def deepComponent : TypeRef → TypeRef
  | .array t => t.deepComponent
  | t => t

/-- The number of array dimensions. -/
def dimensions : TypeRef → Nat
  | .array t => t.dimensions + 1
  | _ => 0

/-- The array type with `n` more dimensions. -/
def arrays : Nat → TypeRef → TypeRef
  | 0, t => t
  | n + 1, t => arrays n (.array t)

def isPrimitive : TypeRef → Bool
  | .prim _ => true
  | _ => false

/-- The class that wraps a primitive. -/
def boxed : Primitive → TypeRef
  | .byte => .ofName "java.lang.Byte"
  | .short => .ofName "java.lang.Short"
  | .char => .ofName "java.lang.Character"
  | .int => .ofName "java.lang.Integer"
  | .long => .ofName "java.lang.Long"
  | .float => .ofName "java.lang.Float"
  | .double => .ofName "java.lang.Double"
  | .boolean => .ofName "java.lang.Boolean"
  | .void => .prim .void

/-- The primitive that a type is or wraps. -/
def unboxed? : TypeRef → Option Primitive
  | .prim p => some p
  | .array _ => none
  | .named name _ => Primitive.all.find? fun p => boxed p == .ofName name

/-- The primitive that a wrapper class wraps, or the type itself. -/
def unboxed (t : TypeRef) : TypeRef :=
  match t.unboxed? with
  | some p => .prim p
  | none => t

def isNumeric (t : TypeRef) : Bool :=
  t.unboxed?.any Primitive.isNumeric

def isIntegral (t : TypeRef) : Bool :=
  t.unboxed?.any Primitive.isIntegral

def isBoolean (t : TypeRef) : Bool :=
  t.unboxed? == some .boolean

/-- Promotion of a single operand: the small integral types become `int`. -/
def unaryPromotion (t : TypeRef) : TypeRef :=
  match t.unboxed? with
  | some .byte | some .short | some .char => .prim .int
  | some p => .prim p
  | none => t

/-- Promotion of two operands to the wider kind, `int` at least. -/
def binaryPromotion (s t : TypeRef) : Primitive :=
  let has := fun p => s.unboxed? == some p || t.unboxed? == some p
  if has .double then .double
  else if has .float then .float
  else if has .long then .long
  else .int

end TypeRef

end PredicateTrace
