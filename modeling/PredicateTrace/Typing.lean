import PredicateTrace.Expr
import PredicateTrace.Scope

/-!
# Typing

The static types of an expression. Names are captured locals first, then fields of `this`, then types.
A value of the type `Object` is not checked any further: evaluation goes by what it holds. The result
of checking is the same tree, annotated with types, with what the names refer to, and with the
primitive types that operands are converted to.
-/

namespace PredicateTrace

open Host (Heap)

/-- What a name, an access or a call refers to. -/
inductive Role
  | local
  | thisField (owner : TypeRef)
  | field (owner : TypeRef)
  | staticField (owner : TypeRef)
  | length
  | staticMethod (owner : TypeRef)
  | method (owner : TypeRef)
  | thisMethod (owner : TypeRef)

/-- The name of a role and the type that owns the member. -/
def Role.describe : Role → String × Option TypeRef
  | .local => ("local", none)
  | .thisField owner => ("this_field", some owner)
  | .field owner => ("field", some owner)
  | .staticField owner => ("static_field", some owner)
  | .length => ("length", none)
  | .staticMethod owner => ("static", some owner)
  | .method owner => ("virtual", some owner)
  | .thisMethod owner => ("this_method", some owner)

/-- What checking finds out about a node. A name that is part of a type name has no type. -/
structure Typing where
  position : Position
  type : Option TypeRef
  role : Option Role
  /-- For each operand the primitive type it is converted to, if any. -/
  conversions : Option (List (Option Primitive))
  /-- The type that `instanceof` tests for. -/
  target : Option TypeRef

namespace Typing

/-- Nothing but a position. -/
def untyped (position : Position) : Typing :=
  ⟨position, none, none, none, none⟩

/-- A type. -/
def plain (position : Position) (type : TypeRef) : Typing :=
  ⟨position, some type, none, none, none⟩

/-- A type and a role. -/
def named (position : Position) (type : TypeRef) (role : Role) : Typing :=
  ⟨position, some type, some role, none, none⟩

/-- A type and the conversions of the operands. -/
def converting (position : Position) (type : TypeRef) (conversions : List (Option Primitive)) :
    Typing :=
  ⟨position, some type, none, some conversions, none⟩

end Typing

/-- A checked expression. -/
abbrev TypedExpr := Expr Typing

/-- The type of a checked expression. -/
def Expr.type (e : TypedExpr) : TypeRef :=
  e.note.type.getD .object

/-- What a type error is about. -/
inductive TypeCause
  | unknownName (name : String)
  | unknownMethod (name : String)
  | unboundThis
  | dereference (t : TypeRef)
  | indexType (t : TypeRef)
  | arrayRequired (t : TypeRef)
  | dimensionType (t : TypeRef)
  | unaryOperand (op : UnaryOperator) (t : TypeRef)
  | binaryOperands (op : BinaryOperator) (left right : TypeRef)
  | instanceofOperand (t : TypeRef)
  | instanceofTarget (t : TypeRef)
  | conversion (source target : TypeRef)
  | assignmentTarget
  | notBoolean (t : TypeRef)

/-- A type error with its place. -/
structure TypeError where
  position : Position
  cause : TypeCause

def TypeCause.message : TypeCause → String
  | .unknownName name => "Cannot find symbol: " ++ name
  | .unknownMethod name => "Cannot find symbol: " ++ name ++ "()"
  | .unboundThis => "\x27this\x27 is not bound"
  | .dereference t => t.text ++ " cannot be dereferenced"
  | .indexType t => "Array index must be int, found " ++ t.text
  | .arrayRequired t => "Array required, but " ++ t.text ++ " found"
  | .dimensionType t => "Array dimension must be int, found " ++ t.text
  | .unaryOperand op t =>
    "Bad operand type " ++ t.text ++ " for unary operator \x27" ++ op.text ++ "\x27"
  | .binaryOperands op left right =>
    "Bad operand types for binary operator \x27" ++ op.text ++ "\x27: " ++ left.text ++ " and "
      ++ right.text
  | .instanceofOperand t => "Unexpected type " ++ t.text ++ ": instanceof needs a reference"
  | .instanceofTarget t => "Unexpected type " ++ t.text ++ ": instanceof needs a reference type"
  | .conversion source target =>
    "Incompatible types: " ++ source.text ++ " cannot be converted to " ++ target.text
  | .assignmentTarget => "Only captured local variables can be assigned"
  | .notBoolean t => "Predicate must be boolean, found " ++ t.text

namespace TypeRef

/-- Whether a value of the type is taken as it comes. -/
def isDynamic (t : TypeRef) : Bool :=
  t == .object

/-- Whether a type can be the operand of a logical operator. -/
def isCondition (t : TypeRef) : Bool :=
  t.isBoolean || t.isDynamic

/-- Whether a type can be the operand of an arithmetic operator. -/
def isNumericOrDynamic (t : TypeRef) : Bool :=
  t.isNumeric || t.isDynamic

/-- Whether a type is promoted to `int`. -/
def isIndex (t : TypeRef) : Bool :=
  t.isIntegral && t.unaryPromotion == .prim .int

/-- The primitive that a type promotes to on its own. -/
def promoted (t : TypeRef) : Primitive :=
  t.unaryPromotion.unboxed?.getD .int

end TypeRef

namespace Typing

/-- The type that a class name denotes when the class can be found by it. -/
def importable? (dotted : String) : Option TypeRef :=
  if dotted.contains '.' then
    match Resolver.loadClass dotted with
    | .ok c => some (.named (c.languageName?.getD dotted) (some c))
    | .error _ => none
  else none

/-- The class type that a name denotes, if it can be found. -/
def namedType? (resolver : Resolver) (name : String) : Option TypeRef :=
  match resolver.lookupType? name with
  | some t => some t
  | none => importable? name

/-- The type that is written; the name of an unknown class stays as it is. -/
def writtenType (resolver : Resolver) (t : TypeName) : TypeRef :=
  let base : TypeRef := match t.base with
    | .primitive p => .prim p
    | .named _ => (namedType? resolver t.name).getD (.ofName t.name)
  base.arrays t.dims

variable {α : Type}

/-- The parts of a chain of names, last one first, when its first name is no variable. -/
def nameParts? (scope : Scope) (heap : Heap) : Expr α → Option (List String)
  | .name _ n => if scope.isVariable heap n then none else some [n]
  | .field _ target n => (nameParts? scope heap target).map (n :: ·)
  | _ => none

/-- The type that a chain of names denotes, if it is the name of a type. -/
def typeOfName? (scope : Scope) (heap : Heap) (e : Expr α) : Option TypeRef :=
  (nameParts? scope heap e).bind fun parts =>
    namedType? scope.resolver (String.intercalate "." parts.reverse)

/-- The value that a checked expression is known to have: that of a local variable or of `this`. -/
def sample? (scope : Scope) (heap : Heap) : TypedExpr → Option Value
  | .name note n =>
    match note.role with
    | some .local => scope.local? heap n
    | _ => none
  | .this _ => scope.this
  | _ => none

/-- The type of a literal. -/
def literalType : Literal → TypeRef
  | .int _ => .prim .int
  | .long _ => .prim .long
  | .float _ => .prim .float
  | .double _ => .prim .double
  | .char _ => .prim .char
  | .string _ | .units _ => .string
  | .boolean _ => .prim .boolean
  | .null => .null

/-- The type and the conversions of a call, by the types of its arguments. Parameters of a primitive
type convert numeric arguments; a result that depends on the arguments has their promoted type, to
which all of them are converted. -/
def callType (owner : TypeRef) (name : String) (isStatic : Bool) (args : List TypeRef) :
    TypeRef × List (Option Primitive) :=
  let declared := match Resolver.parameterTypes owner name isStatic with
    | some params =>
      let converted := (params.zip args).map fun (p, a) => if a.isNumeric then some p else none
      converted ++ List.replicate (args.length - converted.length) none
    | none => args.map fun _ => none
  match Resolver.resultType owner name isStatic with
  | some t => (t, declared)
  | none =>
    match args with
    | first :: others =>
      if args.all TypeRef.isNumeric then
        let p := others.foldl (fun p a => TypeRef.binaryPromotion (TypeRef.prim p) a) first.promoted
        (.prim p, args.map fun _ => some p)
      else (.object, declared)
    | [] => (.object, declared)

/-- The type of a unary operation. -/
def unaryType (position : Position) (op : UnaryOperator) (t : TypeRef) :
    Except TypeError Typing :=
  let bad := Except.error ⟨position, .unaryOperand op t⟩
  match op with
  | .not => if t.isCondition then .ok (converting position (.prim .boolean) [none]) else bad
  | _ =>
    if t.isDynamic then .ok (converting position .object [none])
    else if op = .complement && !t.isIntegral then bad
    else if !t.isNumeric then bad
    else .ok (converting position (.prim t.promoted) [some t.promoted])

/-- The type of an operation on numbers, given the operand types that the operator needs and what it
makes of them. -/
def numericType (position : Position) (op : BinaryOperator) (left right : TypeRef)
    (accepts : TypeRef → Bool) (promote : Primitive × Primitive × Primitive) :
    Except TypeError Typing :=
  if (left.isDynamic || right.isDynamic) && left.isNumericOrDynamic && right.isNumericOrDynamic then
    .ok (converting position .object [none, none])
  else if accepts left && accepts right then
    let (result, l, r) := promote
    .ok (converting position (.prim result) [some l, some r])
  else .error ⟨position, .binaryOperands op left right⟩

/-- Whether an operator is bitwise. -/
def isBitwise : ArithOperator → Bool
  | .and | .or | .xor => true
  | _ => false

/-- The type of an equality test. -/
def equalityType (position : Position) (op : BinaryOperator) (left right : TypeRef) :
    Except TypeError Typing :=
  let boolean := fun conversions => Except.ok (converting position (.prim .boolean) conversions)
  let bothReferences := !left.isPrimitive && !right.isPrimitive
  if left.isNumeric && right.isNumeric && !bothReferences then
    let p := TypeRef.binaryPromotion left right
    boolean [some p, some p]
  else if (left.isBoolean && right.isBoolean) || bothReferences || left.isDynamic || right.isDynamic then
    boolean [none, none]
  else .error ⟨position, .binaryOperands op left right⟩

/-- The type of a relational test. -/
def relationalType (position : Position) (op : BinaryOperator) (left right : TypeRef) :
    Except TypeError Typing :=
  if (left.isDynamic || right.isDynamic) && left.isNumericOrDynamic && right.isNumericOrDynamic then
    .ok (converting position (.prim .boolean) [none, none])
  else if left.isNumeric && right.isNumeric then
    let p := TypeRef.binaryPromotion left right
    .ok (converting position (.prim .boolean) [some p, some p])
  else .error ⟨position, .binaryOperands op left right⟩

/-- The type of a binary operation. -/
def binaryType (position : Position) (op : BinaryOperator) (left right : TypeRef) :
    Except TypeError Typing :=
  let promotion := TypeRef.binaryPromotion left right
  match op with
  | .conjunction | .disjunction =>
    if left.isCondition && right.isCondition then
      .ok (converting position (.prim .boolean) [none, none])
    else .error ⟨position, .binaryOperands op left right⟩
  | .compare .eq | .compare .neq => equalityType position op left right
  | .compare _ => relationalType position op left right
  | .shift _ =>
    numericType position op left right TypeRef.isIntegral (left.promoted, left.promoted, right.promoted)
  | .arith a =>
    if a = .add && (left == .string || right == .string) then
      .ok (converting position .string [none, none])
    else if isBitwise a then
      if left.isBoolean && right.isBoolean then
        .ok (converting position (.prim .boolean) [some .boolean, some .boolean])
      else numericType position op left right TypeRef.isIntegral (promotion, promotion, promotion)
    else numericType position op left right TypeRef.isNumeric (promotion, promotion, promotion)

/-- The type of an access by index. -/
def indexType (position : Position) (array index : TypeRef) : Except TypeError Typing :=
  let conversions := [none, if index.isIntegral then some Primitive.int else none]
  if !index.isIndex && !index.isDynamic then .error ⟨position, .indexType index⟩
  else
    match array with
    | .array component => .ok (converting position component conversions)
    | t =>
      if t.isDynamic || t == .ofName "java.util.List" then
        .ok (converting position .object conversions)
      else .error ⟨position, .arrayRequired t⟩

/-- The type of a conditional: the promoted type of numeric arms, else the type that both arms share,
where `null` fits any type. -/
def conditionalType (position : Position) (cond thenArm elseArm : TypeRef) :
    Except TypeError Typing :=
  let asTheyAre := fun t => Except.ok (converting position t [none, none, none])
  if !cond.isCondition then .error ⟨position, .conversion cond (.prim .boolean)⟩
  else if thenArm.isNumeric && elseArm.isNumeric && (thenArm.isPrimitive || elseArm.isPrimitive) then
    let p := TypeRef.binaryPromotion thenArm elseArm
    .ok (converting position (.prim p) [none, some p, some p])
  else if thenArm.isBoolean && elseArm.isBoolean then asTheyAre (.prim .boolean)
  else if thenArm == elseArm || elseArm == .null then asTheyAre thenArm
  else if thenArm == .null then asTheyAre elseArm
  else asTheyAre .object

/-- The type of a cast. -/
def castType (position : Position) (source target : TypeRef) : Except TypeError Typing :=
  match target with
  | .prim p =>
    if (p.isNumeric && source.isNumericOrDynamic) || (p = .boolean && source.isCondition) then
      .ok (converting position target [some p])
    else .error ⟨position, .conversion source target⟩
  | _ =>
    if source.isPrimitive then .error ⟨position, .conversion source target⟩
    else .ok (plain position target)

mutual

/-- Checks an expression. -/
def check (scope : Scope) (heap : Heap) : Expr Position → Except TypeError TypedExpr
  | .literal p value => .ok (.literal (plain p (literalType value)) value)
  | .name p n =>
    match scope.local? heap n with
    | some v => .ok (.name (named p v.staticType .local) n)
    | none =>
      match scope.this with
      | some this =>
        if Host.hasAttribute heap this n then
          let owner := this.staticType
          .ok (.name (named p (Resolver.fieldType heap owner n (some this)) (.thisField owner)) n)
        else .error ⟨p, .unknownName n⟩
      | none => .error ⟨p, .unknownName n⟩
  | .this p =>
    match scope.this with
    | some this => .ok (.this (plain p this.staticType))
    | none => .error ⟨p, .unboundThis⟩
  | .field p target n =>
    match typeOfName? scope heap target with
    | some owner =>
      .ok (.field (named p (Resolver.fieldType heap owner n none) (.staticField owner))
        (target.map untyped) n)
    | none => do
      let target ← check scope heap target
      match target.type with
      | .array _ =>
        if n = "length" then return .field (named p (.prim .int) .length) target n
        else throw ⟨p, .unknownName n⟩
      | .prim q => throw ⟨p, .dereference (.prim q)⟩
      | owner =>
        let type := Resolver.fieldType heap owner n (sample? scope heap target)
        return .field (named p type (.field owner)) target n
  | .call p target n args =>
    match typeOfName? scope heap target with
    | some owner => do
      let args ← checkAll scope heap args
      let (type, conversions) := callType owner n true (args.map Expr.type)
      return .call ⟨p, some type, some (.staticMethod owner), some conversions, none⟩
        (target.map untyped) n args
    | none => do
      let target ← check scope heap target
      match target.type with
      | .prim q => throw ⟨p, .dereference (.prim q)⟩
      | owner =>
        let args ← checkAll scope heap args
        let (type, conversions) := callType owner n false (args.map Expr.type)
        return .call ⟨p, some type, some (.method owner), some conversions, none⟩ target n args
  | .thisCall p n args =>
    match scope.this with
    | some this => do
      let owner := this.staticType
      let args ← checkAll scope heap args
      let (type, conversions) := callType owner n false (args.map Expr.type)
      return .thisCall ⟨p, some type, some (.thisMethod owner), some conversions, none⟩ n args
    | none => .error ⟨p, .unknownMethod n⟩
  | .index p array place => do
    let array ← check scope heap array
    let place ← check scope heap place
    return .index (← indexType p array.type place.type) array place
  | .newObject p t args => do
    let type := writtenType scope.resolver t
    return .newObject (plain p type) t (← checkAll scope heap args)
  | .newArray p element dims extra => do
    let dims ← checkDimensions scope heap dims
    let type := (writtenType scope.resolver element).arrays (dims.length + extra)
    return .newArray (converting p type (dims.map fun _ => some .int)) element dims extra
  | .unary p op operand => do
    let operand ← check scope heap operand
    return .unary (← unaryType p op operand.type) op operand
  | .binary p op left right => do
    let left ← check scope heap left
    let right ← check scope heap right
    return .binary (← binaryType p op left.type right.type) op left right
  | .instanceOf p operand t => do
    let operand ← check scope heap operand
    match operand.type, writtenType scope.resolver t with
    | .prim q, _ => throw ⟨p, .instanceofOperand (.prim q)⟩
    | _, .prim q => throw ⟨p, .instanceofTarget (.prim q)⟩
    | _, target =>
      return .instanceOf ⟨p, some (.prim .boolean), none, none, some target⟩ operand t
  | .cast p t operand => do
    let operand ← check scope heap operand
    return .cast (← castType p operand.type (writtenType scope.resolver t)) t operand
  | .conditional p cond thenArm elseArm => do
    let cond ← check scope heap cond
    if !cond.type.isCondition then throw ⟨p, .conversion cond.type (.prim .boolean)⟩
    let thenArm ← check scope heap thenArm
    let elseArm ← check scope heap elseArm
    return .conditional (← conditionalType p cond.type thenArm.type elseArm.type) cond thenArm elseArm
  | .assign p target value =>
    match target with
    | .name q n =>
      match scope.local? heap n with
      | some v => do
        let target := .name (named q v.staticType .local) n
        return .assign (plain p v.staticType) target (← check scope heap value)
      | none => .error ⟨p, .assignmentTarget⟩
    | _ => .error ⟨p, .assignmentTarget⟩

/-- Checks a list of expressions, one after the other. -/
def checkAll (scope : Scope) (heap : Heap) : List (Expr Position) → Except TypeError (List TypedExpr)
  | [] => .ok []
  | e :: rest => do
    let e ← check scope heap e
    return e :: (← checkAll scope heap rest)

/-- Checks the sizes of a new array, each of which must be an `int`. -/
def checkDimensions (scope : Scope) (heap : Heap) :
    List (Expr Position) → Except TypeError (List TypedExpr)
  | [] => .ok []
  | e :: rest => do
    let size ← check scope heap e
    if !size.type.isIndex then throw ⟨e.note, .dimensionType size.type⟩
    return size :: (← checkDimensions scope heap rest)

end

/-- Checks a predicate, whose value must be a truth value; an assignment passes as well. -/
def checkPredicate (scope : Scope) (heap : Heap) (e : Expr Position) :
    Except TypeError TypedExpr := do
  let checked ← check scope heap e
  if checked.type.isCondition || e.isAssign then return checked
  else throw ⟨e.note, .notBoolean checked.type⟩

mutual

/-- Whether a checked expression refers to `this`, written or not. -/
def usesThis : TypedExpr → Bool
  | .literal .. => false
  | .name note _ =>
    match note.role with
    | some (.thisField _) => true
    | _ => false
  | .this _ => true
  | .field _ target _ => usesThis target
  | .call _ target _ args => usesThis target || anyUsesThis args
  | .thisCall .. => true
  | .index _ array place => usesThis array || usesThis place
  | .newObject _ _ args => anyUsesThis args
  | .newArray _ _ dims _ => anyUsesThis dims
  | .unary _ _ operand => usesThis operand
  | .binary _ _ left right => usesThis left || usesThis right
  | .instanceOf _ operand _ => usesThis operand
  | .cast _ _ operand => usesThis operand
  | .conditional _ cond thenArm elseArm => usesThis cond || usesThis thenArm || usesThis elseArm
  | .assign _ target value => usesThis target || usesThis value

/-- Whether some expression of a list refers to `this`. -/
def anyUsesThis : List TypedExpr → Bool
  | [] => false
  | e :: rest => usesThis e || anyUsesThis rest

end

end Typing

end PredicateTrace
