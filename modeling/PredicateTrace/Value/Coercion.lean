import PredicateTrace.Number.Numeral
import PredicateTrace.Value.Basic

/-!
# Making values of a kind

The constructors of the tagged primitives, which accept any value of the host and refuse those that
denote no number or no single character, and the arrays built from them.
-/

namespace PredicateTrace.Value

open Host (IntKind FloatKind FaultKind)

/-- The whole number that the host makes of a value: numbers are cut toward zero, texts are read. -/
def toWhole (v : Value) : Except FaultKind Int :=
  match v.whole?, v.fractional?, v.text? with
  | some n, _, _ => .ok n
  | none, some x, _ =>
    match Number.parts x with
    | .nan => .error .value
    | .infinite _ => .error .overflow
    | .finite negative m e => .ok (Number.truncate negative m e)
  | none, none, some text =>
    match Number.wholeNumber? text with
    | some n => .ok n
    | none => .error .value
  | none, none, none => .error .type

/-- The double nearest to a whole number, which must not lie beyond the largest one. -/
def wholeToFloat (n : Int) : Except FaultKind Float :=
  let x := Number.ofInt n
  if x.isInf then .error .overflow else .ok x

/-- The floating number that the host makes of a value. -/
def toFractional (v : Value) : Except FaultKind Float :=
  match v.whole?, v.fractional?, v.text? with
  | some n, _, _ => wholeToFloat n
  | none, some x, _ => .ok x
  | none, none, some text =>
    match Number.floatingNumber? text with
    | some x => .ok x
    | none => .error .value
  | none, none, none => .error .type

/-- The character that the host makes of a value: a number gives its low 16 bits, anything with a
length must have the length one, and be a text. -/
def toChar (v : Value) : Except FaultKind Value :=
  match v.whole?, v with
  | some n, _ => .ok (.char (Number.lowBits 16 n))
  | none, .char code => .ok (.char code)
  | none, _ =>
    match v.codes?, v.length? with
    | some [code], _ => .ok (.char code)
    | some _, _ => .error .value
    | none, some 1 => .error .type
    | none, some _ => .error .value
    | none, none => .error .type

/-- The tagged integer that the host makes of a value. -/
def makeIntegral (kind : IntKind) (v : Value) : Except FaultKind Value :=
  (toWhole v).map (ofInt kind)

/-- The tagged floating number that the host makes of a value. -/
def makeFloating (kind : FloatKind) (v : Value) : Except FaultKind Value :=
  (toFractional v).map (ofFloat kind)

/-- The value of a primitive type that the host makes of a value. -/
def makePrimitive (p : Primitive) (v : Value) : Except FaultKind Value :=
  match p with
  | .boolean => .ok (.bool v.isTruthy)
  | .byte => makeIntegral .byte v
  | .short => makeIntegral .short v
  | .int => makeIntegral .int v
  | .long => makeIntegral .long v
  | .float => makeFloating .float v
  | .double => makeFloating .double v
  | .char => toChar v
  | .void => .ok v

/-- The form in which an array of component type `t` stores a value. -/
def coerce (t : TypeRef) (v : Value) : Except FaultKind Value :=
  match t with
  | .prim p => makePrimitive p v
  | _ => .ok v

/-- What a fresh array of component type `t` holds. -/
def default (t : TypeRef) : Value :=
  match t with
  | .prim .boolean => .bool false
  | .prim .byte => .integral .byte 0
  | .prim .short => .integral .short 0
  | .prim .int => .integral .int 0
  | .prim .long => .integral .long 0
  | .prim .float => single 0
  | .prim .double => double 0
  | .prim .char => .char 0
  | _ => .null

/-- The component type of an array made of host values: their common kind, the wider of `int`, `long`
and `double` for a mixture of these, strings for texts. -/
def commonComponent (items : List Value) : TypeRef :=
  let kinds := items.map kind?
  match kinds with
  | [] => .object
  | first :: _ =>
    let within := fun allowed : List Primitive => kinds.all fun k => k.any allowed.contains
    match first with
    | some p =>
      if within [p] then .prim p
      else if within [.int, .long] then .prim .long
      else if within [.int, .long, .double] then .prim .double
      else .object
    | none =>
      if items.all isText then .string else .object

end PredicateTrace.Value
