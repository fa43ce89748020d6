import PredicateTrace.Operator
import PredicateTrace.Value.Basic

/-!
# Ops

The tree that a predicate is lowered to and that evaluation walks. An op has operands, which are other
ops or parameters, and bodies, which are evaluated only when the op asks for them. Trees may also be
built by hand, so that a body can have any number of blocks, and a block can be empty.
-/

namespace PredicateTrace

/-- A captured local variable. Variables are numbered in the order of their first use. -/
structure Var where
  name : String
  slot : Nat
  type : TypeRef

/-- A parameter of a block; the receiver of a predicate is the parameter `this`. -/
structure Parameter where
  name : String
  type : TypeRef

/-- A field by its owner, its name and its type. -/
structure FieldRef where
  owner : TypeRef
  name : String
  type : TypeRef

/-- A method by its owner, its name, and the types of its parameters and of its result. -/
structure MethodRef where
  owner : TypeRef
  name : String
  params : List TypeRef
  result : TypeRef

def FieldRef.text (field : FieldRef) : String :=
  field.owner.text ++ "::" ++ field.name

def MethodRef.text (method : MethodRef) : String :=
  method.owner.text ++ "::" ++ method.name ++ "("
    ++ String.intercalate ", " (method.params.map TypeRef.text) ++ ")" ++ method.result.text

/-- What an op does, operands and bodies aside. -/
inductive Head
  | const (value : Value) (type : TypeRef)
  | varLoad (var : Var)
  | varStore (var : Var)
  /-- A field of the object that is the operand, or a static field without one. -/
  | fieldLoad (field : FieldRef)
  /-- A call; with a receiver, this is the first operand. -/
  | invoke (method : MethodRef) (hasReceiver : Bool)
  /-- A new object, or a new array with the operands as its dimensions. -/
  | new (type : TypeRef)
  | arrayLoad (type : TypeRef)
  | arrayLength
  | binary (op : Operator) (type : TypeRef)
  | compare (op : Operator)
  | not
  | neg (type : TypeRef)
  /-- Conversion to a primitive type. -/
  | conv (type : TypeRef)
  /-- Cast to a reference type. -/
  | cast (type : TypeRef)
  | instanceOf (type : TypeRef)
  /-- Conjunction of the bodies, which stops at the first false one. -/
  | condAnd
  /-- Disjunction of the bodies, which stops at the first true one. -/
  | condOr
  /-- The second or the third of three bodies, by the value of the first one. -/
  | ternary (type : TypeRef)
  | ret
  | yield
  | lambda
  /-- A parameter with the value it is bound to. -/
  | this (param : Parameter) (value : Value)
  /-- An op without a meaning of its own. -/
  | bare

namespace Head

/-- The name of the kind of an op. -/
def kind : Head → String
  | .const .. => "constant"
  | .varLoad _ => "var.load"
  | .varStore _ => "var.store"
  | .fieldLoad _ => "field.load"
  | .invoke .. => "invoke"
  | .new _ => "new"
  | .arrayLoad _ => "array.load"
  | .arrayLength => "array.length"
  | .binary op _ => op.name
  | .compare op => op.name
  | .not => "not"
  | .neg _ => "neg"
  | .conv _ => "conv"
  | .cast _ => "cast"
  | .instanceOf _ => "instanceof"
  | .condAnd => "java.cand"
  | .condOr => "java.cor"
  | .ternary _ => "java.cexpression"
  | .ret => "return"
  | .yield => "yield"
  | .lambda => "lambda"
  | .this .. => "this"
  | .bare => "op"

/-- The type of the value of an op, if it has one. -/
def resultType? : Head → Option TypeRef
  | .const _ t | .new t | .arrayLoad t | .binary _ t | .neg t | .conv t | .cast t | .ternary t => some t
  | .varLoad v => some v.type
  | .varStore _ => some (.prim .void)
  | .fieldLoad field => some field.type
  | .invoke method _ => some method.result
  | .arrayLength => some (.prim .int)
  | .compare _ | .not | .instanceOf _ | .condAnd | .condOr | .lambda => some (.prim .boolean)
  | .this param _ => some param.type
  | .ret | .yield | .bare => none

end Head

mutual

/-- What an op is applied to. -/
inductive Operand
  | op (op : Op)
  | param (param : Parameter)

/-- An op with its operands and bodies. -/
inductive Op
  | mk (head : Head) (operands : List Operand) (bodies : List Body)

/-- A region of an op; evaluation enters it at its first block. -/
inductive Body
  | mk (blocks : List Block)

/-- Ops in the order of their evaluation, the last of which ends the block and gives its value. -/
inductive Block
  | empty (params : List Parameter)
  | ending (params : List Parameter) (earlier : List Op) (terminator : Op)

end

namespace Op

def head : Op → Head
  | .mk head _ _ => head

def operands : Op → List Operand
  | .mk _ operands _ => operands

def bodies : Op → List Body
  | .mk _ _ bodies => bodies

def kind (op : Op) : String :=
  op.head.kind

/-- An op without operands. -/
def leaf (head : Head) : Op :=
  .mk head [] []

/-- An op on other ops or parameters. -/
def of (head : Head) (operands : List Operand) : Op :=
  .mk head operands []

end Op

namespace Block

def params : Block → List Parameter
  | .empty params => params
  | .ending params _ _ => params

/-- The ops of a block in order. -/
def ops : Block → List Op
  | .empty _ => []
  | .ending _ earlier terminator => earlier ++ [terminator]

/-- The op that ends a block. -/
def terminator? : Block → Option Op
  | .empty _ => none
  | .ending _ _ terminator => some terminator

/-- The block with the given ops. -/
def ofOps (params : List Parameter) (ops : List Op) : Block :=
  match ops.reverse with
  | [] => .empty params
  | last :: earlier => .ending params earlier.reverse last

end Block

namespace Body

def blocks : Body → List Block
  | .mk blocks => blocks

/-- The op that ends the first block of a body. -/
def terminator? (body : Body) : Option Op :=
  body.blocks.head?.bind Block.terminator?

end Body

end PredicateTrace
