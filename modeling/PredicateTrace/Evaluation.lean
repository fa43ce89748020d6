import PredicateTrace.Host.Array
import PredicateTrace.Quoted
import PredicateTrace.Trace

/-!
# Evaluation

Ops are evaluated from left to right, and every outcome is recorded. An operand without a value ends the
evaluation of its op; the short-circuit operators and the conditional only evaluate the bodies that they
need. Errors are outcomes like others. The evaluation as a whole stops only at a member that does not
exist, or at a body that has no op to give its value.
-/

namespace PredicateTrace

open Host (Heap Run)

/-- Why there is no trace. -/
inductive Abort
  /-- A member does not exist. -/
  | unresolved (message : String)
  /-- A body has no op that gives its value. -/
  | missingTerminator

/-- The state of the host, and the ops that were computed by the host so far, in order. -/
structure Progress where
  heap : Heap
  journal : List Op

/-- Evaluation, which keeps what it did to the host in any case. -/
abbrev Evaluating := ExceptT Abort (StateM Progress)

namespace Head

/-- Whether the host computes the value of an op. -/
def isHostComputation : Head → Bool
  | .fieldLoad _ | .invoke .. | .new _ => true
  | _ => false

/-- A value that must be present. -/
def present : Value → Run Value
  | .null => Run.raise .nullPointer
  | v => return v

/-- The index that a value is; a `long` is none. -/
def index? (v : Value) : Option Int :=
  match v with
  | .integral .long _ => none
  | v => v.integer?

/-- The name of the class of a value in the message of a failed cast. -/
def className (v : Value) : String :=
  match v.staticType with
  | .prim p => (TypeRef.boxed p).text
  | .array t => "[" ++ (TypeRef.array t).simpleName
  | t => t.text

/-- Makes an array; the class of its elements must exist. -/
def makeArray (component : TypeRef) (sizes : List Value) : Run (Option Value) := do
  match sizes.mapM index? with
  | none => return none
  | some sizes =>
    match component.deepComponent with
    | .named name host => do
      let _ ← Resolver.lift (Resolver.resolveClass (.named name host))
      return some (← Host.newArray component sizes)
    | _ => return some (← Host.newArray component sizes)

/-- An element of an array or a list. -/
def loadElement (array index : Value) : Run (Option Value) := do
  match index? index with
  | none => return none
  | some i =>
    match ← present array with
    | .array _ _ items => return some (← Host.elementAt items i)
    | .list items | .tuple items => return some (← Host.elementAt items i).box
    | _ => return none

/-- The length of an array or a list. -/
def lengthOf (array : Value) : Run (Option Value) := do
  match ← present array with
  | .array _ _ items | .list items | .tuple items => return some (.int items.length)
  | _ => return none

/-- A binary operation; a sum with a text puts texts together. -/
def applyBinary (op : Operator) (left right : Value) : Run (Option Value) := do
  if op = .arith .add && (left.isText || right.isText) then
    return some (.ofCodes ((← Run.sourceCodesOf left) ++ (← Run.sourceCodesOf right)))
  else
    Resolver.lift (Value.binary op left right)

/-- A comparison. -/
def applyCompare (op : Operator) (left right : Value) : Run (Option Value) := do
  let same := (← Run.heap).same
  match op with
  | .compare .eq => return some (.bool (Value.equals same left right))
  | .compare .neq => return some (.bool (!Value.equals same left right))
  | op => return (← Resolver.lift (Value.relate op left right)).map .bool

/-- Conversion to a primitive type. -/
def applyConversion (target : TypeRef) (v : Value) : Run (Option Value) := do
  match target with
  | .prim p =>
    let v ← present v
    if v.kind? = some p then return some v else return v.convert? p
  | _ => return none

/-- A cast. -/
def applyCast (target : TypeRef) (v : Value) : Run (Option Value) := do
  match target, v with
  | .prim _, v => applyConversion target v
  | _, .null => return some .null
  | _, v =>
    if ← Resolver.lift (Resolver.isInstance v target) then return some v
    else
      Run.raise (.failure .classCast
        ("class " ++ className v ++ " cannot be cast to class " ++ target.text))

/-- A call. -/
def applyCall (method : MethodRef) (hasReceiver : Bool) (values : List Value) : Run Value := do
  let values ← values.mapM Run.identify
  if hasReceiver then
    match values with
    | receiver :: args => Resolver.callMethod (← present receiver) method.name args
    | [] => Run.fault .index
  else Resolver.callStatic method.owner method.name values

/-- The value of an op by those of its operands; `none` when they are outside of what it supports, or
when the op is evaluated in another way. -/
def apply (head : Head) (values : List Value) : Run (Option Value) := do
  match head, values with
  | .const v _, [] | .this _ v, [] => return some v.box
  | .fieldLoad field, [] => return some (← Resolver.loadStaticField field.owner field.name)
  | .fieldLoad field, [receiver] => return some (← Resolver.loadField (← present receiver) field.name)
  | .invoke method hasReceiver, values => return some (← applyCall method hasReceiver values)
  | .new (.array t), sizes => makeArray t sizes
  | .new t, args => return some (← Resolver.instantiate t (← args.mapM Run.identify))
  | .arrayLoad _, [array, index] => loadElement array index
  | .arrayLength, [array] => lengthOf array
  | .binary op _, [left, right] => applyBinary op left right
  | .compare op, [left, right] => applyCompare op left right
  | .not, [.bool b] => return some (.bool (!b))
  | .neg _, [v] => return v.negate?
  | .conv t, [v] => applyConversion t v
  | .cast t, [v] => applyCast t v
  | .instanceOf t, [v] => return some (.bool (← Resolver.lift (Resolver.isInstance v t)))
  | _, _ => return none

end Head

namespace Evaluation

/-- The outcome of a computation of the host. A missing member stops the evaluation. -/
def outcomeOf (run : Run (Option Value)) : Evaluating Outcome := do
  let progress ← get
  let (result, heap) := run.run.run progress.heap
  set { progress with heap }
  match result with
  | .ok (some v) => return .value v
  | .ok none => return .unsupported
  | .error (.raised error) => return .threw error
  | .error (.unresolved message) => throw (.unresolved message)

/-- The node of an op whose operands all have values. -/
def computed (op : Op) (children : List Trace) (values : List Value) : Evaluating Trace := do
  if op.head.isHostComputation then
    modify fun progress => { progress with journal := progress.journal ++ [op] }
  return .node op (← outcomeOf (op.head.apply values)) children

/-- Some nodes, the last of which may have no value. -/
structure Evaluated where
  nodes : List Trace
  values : List Value
  /-- The last node, if it has no value. -/
  failed : Option Trace

/-- The node of an op from its evaluated operands. -/
def finish (op : Op) (operands : Evaluated) : Evaluating Trace :=
  match operands.failed with
  | some last => return .failing op operands.nodes last
  | none => computed op operands.nodes operands.values

/-- The node of a variable. -/
def loadVariable (captures : Captures) (op : Op) (var : Var) : Evaluating Trace := do
  match captures.binding? var.name with
  | some capture => return .node op (.value (capture.content (← get).heap)) []
  | none => return .node op .unsupported []

/-- The node of a parameter, which stands for the value that it is bound to. -/
def loadParameter (captures : Captures) (p : Parameter) : Trace :=
  match captures.argument? p.name with
  | some v => .node (.leaf (.this p v.box)) (.value v.box) []
  | none => .node (.leaf (.this p .null)) .unsupported []

/-- The truth value of a node that has one. -/
def truth? (t : Trace) : Option Bool :=
  match t.value? with
  | some (.bool b) => some b
  | _ => none

mutual

/-- Evaluates an operand. -/
def evaluateOperand (captures : Captures) : Operand → Evaluating Trace
  | .op op => evaluate captures op
  | .param p => return loadParameter captures p

/-- Evaluates an op. -/
def evaluate (captures : Captures) : Op → Evaluating Trace
  | .mk head operands bodies =>
    let op := Op.mk head operands bodies
    match head with
    | .varLoad var => loadVariable captures op var
    | .condAnd => evaluateChain captures op false [] bodies
    | .condOr => evaluateChain captures op true [] bodies
    | .ternary _ => evaluateChoice captures op bodies
    | .varStore _ | .ret | .yield | .lambda | .bare => return .node op .unsupported []
    | _ => do finish op (← evaluateOperands captures operands)

/-- Evaluates operands from left to right, up to the first one without a value. -/
def evaluateOperands (captures : Captures) : List Operand → Evaluating Evaluated
  | [] => return ⟨[], [], none⟩
  | operand :: rest => do
    let node ← evaluateOperand captures operand
    match node.value? with
    | some v => do
      let others ← evaluateOperands captures rest
      return ⟨node :: others.nodes, v :: others.values, others.failed⟩
    | none => return ⟨[node], [], some node⟩

/-- Evaluates the bodies of a short-circuit operator up to the first one with the value `decisive`.
`before` holds the nodes of the bodies already evaluated. -/
def evaluateChain (captures : Captures) (op : Op) (decisive : Bool) (before : List Trace) :
    List Body → Evaluating Trace
  | [] => return .node op (.value (.bool !decisive)) before
  | body :: rest => do
    let node ← evaluateBody captures body
    let nodes := before ++ [node]
    match node.value? with
    | none => return .failing op nodes node
    | some (.bool b) =>
      if b = decisive then return .node op (.value (.bool decisive)) nodes
      else evaluateChain captures op decisive nodes rest
    | some _ => return .node op .unsupported nodes

/-- Evaluates the condition of a conditional and the part that it chooses. -/
def evaluateChoice (captures : Captures) (op : Op) : List Body → Evaluating Trace
  | [cond, thenArm, elseArm] => do
    let test ← evaluateBody captures cond
    match test.value? with
    | none => return .failing op [test] test
    | some (.bool b) => do
      let arm ← if b then evaluateBody captures thenArm else evaluateBody captures elseArm
      match arm.value? with
      | some v => return .node op (.value v) [test, arm]
      | none => return .failing op [test, arm] arm
    | some _ => return .node op .unsupported [test]
  | _ => return .node op .unsupported []

/-- Evaluates a body of a single block that ends in a `yield`. -/
def evaluateBody (captures : Captures) : Body → Evaluating Trace
  | .mk [] => throw .missingTerminator
  | .mk (.empty _ :: _) => throw .missingTerminator
  | .mk [.ending _ _ (.mk .yield [value] _)] => evaluateOperand captures value
  | .mk (.ending _ _ terminator :: _) => return .node terminator .unsupported []

end

/-- Evaluates a predicate: a body of a single block that ends in a `return`. -/
def evaluateRoot (captures : Captures) (op : Op) : Evaluating Trace :=
  match op with
  | .mk .lambda _ [.mk [.empty _]] => throw .missingTerminator
  | .mk .lambda _ [.mk [.ending _ _ (.mk .ret [value] _)]] => evaluateOperand captures value
  | op => return .node op .unsupported []

end Evaluation

/-- Evaluates a quoted predicate. -/
def Quoted.evaluate (q : Quoted) (heap : Heap) : Except Abort Trace × Progress :=
  (Evaluation.evaluateRoot q.captures q.op).run.run ⟨heap, []⟩

end PredicateTrace
