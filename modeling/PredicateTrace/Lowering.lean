import PredicateTrace.Quoted
import PredicateTrace.Typing

/-!
# Lowering

A checked expression becomes a tree of ops. Every op is recorded in the block in which it is evaluated;
the operands of the logical operators and the parts of a conditional get bodies of their own, each ending
in a `yield`. Conversions to primitive types become ops.
-/

namespace PredicateTrace

open Host (Heap)

namespace Lowering

/-- The variables in the order of their first use, and the ops of the block under construction. -/
structure Builder where
  vars : List Var
  ops : List Op

/-- A part of the construction. -/
abbrev Build := StateM Builder

/-- Records an op at the end of the block. -/
def emit (op : Op) : Build Operand := do
  modify fun b => { b with ops := b.ops ++ [op] }
  return .op op

/-- Builds something in a block of its own, and gives the ops of that block. -/
def inBlock {α : Type} (build : Build α) : Build (α × List Op) := do
  let outer := (← get).ops
  modify fun b => { b with ops := [] }
  let result ← build
  let inner := (← get).ops
  modify fun b => { b with ops := outer }
  return (result, inner)

/-- The variable with a name, which is numbered when it is met for the first time. -/
def useVariable (scope : Scope) (heap : Heap) (name : String) : Build Var := do
  let known := (← get).vars
  match known.find? fun v => v.name == name with
  | some v => return v
  | none =>
    let type := ((scope.local? heap name).getD .null).staticType
    let fresh : Var := ⟨name, known.length, type⟩
    modify fun b => { b with vars := b.vars ++ [fresh] }
    return fresh

/-- The parameter that stands for `this`. -/
def thisParameter (scope : Scope) : Parameter :=
  ⟨"this", (scope.this.getD .null).staticType⟩

/-- Whether a value of type `source` needs an op to become one of the primitive type `target`. -/
def needsConversion (source : TypeRef) (target : Primitive) : Bool :=
  source != .object && source != .null && source != .prim target && source.unboxed?.isSome

/-- Converts a value to a primitive type where this changes its type. -/
def convert (value : Operand) (source : TypeRef) : Option Primitive → Build Operand
  | some target =>
    if needsConversion source target then emit (.of (.conv (.prim target)) [value])
    else return value
  | none => return value

/-- Builds a body that yields the built value, converted if a target is given. -/
def body (source : TypeRef) (target : Option Primitive) (build : Build Operand) : Build Body := do
  let (value, ops) ← inBlock (do convert (← build) source target)
  return .mk [.ending [] ops (.of .yield [value])]

/-- The conversion of the operand at a place. -/
def conversionAt (note : Typing) (place : Nat) : Option Primitive :=
  ((note.conversions.getD [])[place]?).join

/-- The constant of a literal. -/
def literalValue : Literal → Value
  | .int n => .integral .int n
  | .long n => .integral .long n
  | .float x => .single x
  | .double x => .double x
  | .char code => .char code
  | .string text => .str text
  | .units codes => .units codes
  | .boolean b => .bool b
  | .null => .null

/-- The constant op of a literal; `null` is an object. -/
def constant (type : TypeRef) : Literal → Op
  | .null => .leaf (.const .null .object)
  | v => .leaf (.const (literalValue v) type)

/-- The constant of all ones in the type of a complement. -/
def allOnes (type : TypeRef) : Op :=
  if type == .prim .long then .leaf (.const (.integral .long (-1)) (.prim .long))
  else .leaf (.const (.integral .int (-1)) (.prim .int))

/-- The op of a short-circuit operator. -/
def chainHead? : BinaryOperator → Option Head
  | .conjunction => some .condAnd
  | .disjunction => some .condOr
  | _ => none

/-- Whether an expression is an operation with the given operator. -/
def continues (op : BinaryOperator) : TypedExpr → Bool
  | .binary _ other _ _ => other = op
  | _ => false

/-- The bodies of the left operand of a short-circuit operator. A chain of the same operator gives the
bodies that it has, anything else becomes a body. -/
def chainBodies (op : BinaryOperator) (left : TypedExpr) (build : Build Operand) :
    Build (List Body) := do
  if continues op left then
    match ← inBlock build with
    | (.op chain, _) => return chain.bodies
    | (.param _, _) => return []
  else
    return [← body left.type none build]

/-- The types of the parameters of a call: what an argument is converted to, or its own type. -/
def paramTypes (note : Typing) (args : List TypedExpr) : List TypeRef :=
  args.mapIdx fun place arg =>
    match conversionAt note place with
    | some p => .prim p
    | none => arg.type

/-- The ops of an operation with two evaluated operands. -/
def operation (note : Typing) (op : BinaryOperator) (left right : Operand) : Build Operand :=
  match op.operator? with
  | some (.compare c) => emit (.of (.compare (.compare c)) [left, right])
  | some op => emit (.of (.binary op (note.type.getD .object)) [left, right])
  | none => return left

/-- The ops of a unary operation. -/
def unaryOperation (type : TypeRef) (operand : Operand) : UnaryOperator → Build Operand
  | .not => emit (.of .not [operand])
  | .plus => return operand
  | .minus => emit (.of (.neg type) [operand])
  | .complement => do
    let ones ← emit (allOnes type)
    emit (.of (.binary (.arith .xor) type) [operand, ones])

/-- The ops of a cast. -/
def castOperation (source target : TypeRef) (operand : Operand) : Build Operand :=
  match target with
  | .prim p =>
    if source == .object then emit (.of (.conv target) [operand])
    else convert operand source (some p)
  | _ => emit (.of (.cast target) [operand])

mutual

/-- The value of an expression. -/
def lower (scope : Scope) (heap : Heap) : TypedExpr → Build Operand
  | .literal note v => emit (constant (note.type.getD .object) v)
  | .name note n => do
    match note.role with
    | some (.thisField owner) =>
      let field := FieldRef.mk owner n (note.type.getD .object)
      emit (.of (.fieldLoad field) [.param (thisParameter scope)])
    | _ => emit (.leaf (.varLoad (← useVariable scope heap n)))
  | .this _ => return .param (thisParameter scope)
  | .field note target n => do
    let type := note.type.getD .object
    match note.role with
    | some (.staticField owner) => emit (.leaf (.fieldLoad ⟨owner, n, type⟩))
    | some .length => emit (.of .arrayLength [← lower scope heap target])
    | some (.field owner) => emit (.of (.fieldLoad ⟨owner, n, type⟩) [← lower scope heap target])
    | _ => emit (.of (.fieldLoad ⟨target.type, n, type⟩) [← lower scope heap target])
  | .call note target n args => do
    let type := note.type.getD .object
    match note.role with
    | some (.staticMethod owner) =>
      let method := MethodRef.mk owner n (paramTypes note args) type
      emit (.of (.invoke method false) (← lowerArgs scope heap note 0 args))
    | role =>
      let owner := match role with
        | some (.method owner) => owner
        | _ => target.type
      let method := MethodRef.mk owner n (paramTypes note args) type
      let receiver ← lower scope heap target
      emit (.of (.invoke method true) (receiver :: (← lowerArgs scope heap note 0 args)))
  | .thisCall note n args => do
    let this := thisParameter scope
    let method := MethodRef.mk this.type n (paramTypes note args) (note.type.getD .object)
    emit (.of (.invoke method true) (.param this :: (← lowerArgs scope heap note 0 args)))
  | .index note array place => do
    let array ← lower scope heap array
    let index ← convert (← lower scope heap place) place.type (conversionAt note 1)
    emit (.of (.arrayLoad (note.type.getD .object)) [array, index])
  | .newObject note _ args => do
    emit (.of (.new (note.type.getD .object)) (← lowerArgs scope heap note 0 args))
  | .newArray note _ dims _ => do
    emit (.of (.new (note.type.getD .object)) (← lowerArgs scope heap note 0 dims))
  | .unary note op operand => do
    let value ← convert (← lower scope heap operand) operand.type (conversionAt note 0)
    unaryOperation (note.type.getD .object) value op
  | .binary note op left right => do
    match chainHead? op with
    | some head =>
      let earlier ← chainBodies op left (lower scope heap left)
      let last ← body right.type none (lower scope heap right)
      emit (.mk head [] (earlier ++ [last]))
    | none =>
      let l ← convert (← lower scope heap left) left.type (conversionAt note 0)
      let r ← convert (← lower scope heap right) right.type (conversionAt note 1)
      operation note op l r
  | .instanceOf note operand _ => do
    emit (.of (.instanceOf (note.target.getD .object)) [← lower scope heap operand])
  | .cast note _ operand => do
    castOperation operand.type (note.type.getD .object) (← lower scope heap operand)
  | .conditional note cond thenArm elseArm => do
    let cond ← body cond.type none (lower scope heap cond)
    let thenBody ← body thenArm.type (conversionAt note 1) (lower scope heap thenArm)
    let elseBody ← body elseArm.type (conversionAt note 2) (lower scope heap elseArm)
    emit (.mk (.ternary (note.type.getD .object)) [] [cond, thenBody, elseBody])
  | .assign _ target value => do
    let value ← lower scope heap value
    let name := match target with
      | .name _ n => n
      | _ => ""
    emit (.of (.varStore (← useVariable scope heap name)) [value])

/-- The values of arguments, converted as the note of their call says. -/
def lowerArgs (scope : Scope) (heap : Heap) (note : Typing) (place : Nat) :
    List TypedExpr → Build (List Operand)
  | [] => return []
  | arg :: rest => do
    let value ← convert (← lower scope heap arg) arg.type (conversionAt note place)
    return value :: (← lowerArgs scope heap note (place + 1) rest)

end

/-- What a captured variable is bound to in a quoted predicate: the place or the cell that it has, or a
new cell with its value. -/
def quoteCapture : Capture → Capture
  | .value (.cell id v) => .value (.cell id v)
  | .value v => .value (.cell 0 v.boxOnce)
  | .slot place shared => .slot place shared

/-- The predicate of a checked expression. -/
def quote (scope : Scope) (heap : Heap) (e : TypedExpr) : Quoted :=
  let (value, builder) := (lower scope heap e).run ⟨[], []⟩
  let this? := if Typing.usesThis e then scope.this else none
  let params := match this? with
    | some _ => [thisParameter scope]
    | none => []
  let entry := Block.ending params builder.ops (.of .ret [value])
  let vars := builder.vars.map fun v =>
    (v, quoteCapture ((scope.locals.lookup v.name).getD (.value .null)))
  ⟨.mk .lambda [] [.mk [entry]], ⟨vars, this?.toList.map fun v => (thisParameter scope, v)⟩⟩

end Lowering

end PredicateTrace
