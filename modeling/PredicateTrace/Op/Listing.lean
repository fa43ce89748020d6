import PredicateTrace.Document
import PredicateTrace.Op
import PredicateTrace.Value.Text

/-!
# Listings of ops

Two ways of writing a tree of ops down as it is: `listing` on one line and `document` as a document.
Of a body both show the op that gives its value; a body without one cannot be written down.
-/

namespace PredicateTrace

/-- The attributes that a listing shows. -/
def Head.attributes (showObject : Nat → String) : Head → List String
  | .const v _ => [v.literal showObject]
  | .varLoad v | .varStore v => [v.name]
  | .fieldLoad field => [field.text]
  | .invoke method _ => [method.text]
  | .new t | .cast t | .instanceOf t => [t.text]
  | _ => []

/-- The listing of a parameter. -/
def Parameter.listing (p : Parameter) : String :=
  "%" ++ p.name

/-- The document of a parameter. -/
def Parameter.document (p : Parameter) : Document :=
  .fields [("param", .text p.name), ("type", .text p.type.text)]

mutual

/-- An operand on one line. -/
def Operand.listing? (showObject : Nat → String) : Operand → Option String
  | .op op => op.listing? showObject
  | .param p => some p.listing

/-- An op on one line. -/
def Op.listing? (showObject : Nat → String) : Op → Option String
  | .mk head operands bodies => do
    let operands ← Op.operandListings? showObject operands
    let bodies ← Op.bodyListings? showObject bodies
    let parts := head.attributes showObject ++ operands ++ bodies
    return head.kind ++ "(" ++ String.intercalate ", " parts ++ ")"

/-- The op that ends a block, on one line. -/
def Block.listing? (showObject : Nat → String) : Block → Option String
  | .empty _ => none
  | .ending _ _ terminator => terminator.listing? showObject

/-- A body on one line. -/
def Body.listing? (showObject : Nat → String) : Body → Option String
  | .mk [] => none
  | .mk (block :: _) => block.listing? showObject

/-- Operands on one line each. -/
def Op.operandListings? (showObject : Nat → String) : List Operand → Option (List String)
  | [] => some []
  | operand :: rest => do
    return (← operand.listing? showObject) :: (← Op.operandListings? showObject rest)

/-- Bodies on one line each, in braces. -/
def Op.bodyListings? (showObject : Nat → String) : List Body → Option (List String)
  | [] => some []
  | body :: rest => do
    return ("\x7b" ++ (← body.listing? showObject) ++ "\x7d") :: (← Op.bodyListings? showObject rest)

end

/-- A field of a document, left out when there is nothing in it. -/
def Document.optionalList (name : String) (items : List Document) : List (String × Document) :=
  if items.isEmpty then [] else [(name, .list items)]

mutual

/-- An operand as a document. -/
def Operand.document? (showObject : Nat → String) : Operand → Option Document
  | .op op => op.document? showObject
  | .param p => some p.document

/-- An op as a document. -/
def Op.document? (showObject : Nat → String) : Op → Option Document
  | .mk head operands bodies => do
    let operands ← Op.operandDocuments? showObject operands
    let bodies ← Op.bodyDocuments? showObject bodies
    let type := head.resultType?.map fun t => ("type", Document.text t.text)
    return .fields (("op", .text head.kind) :: type.toList
      ++ Document.optionalList "attrs" ((head.attributes showObject).map .text)
      ++ Document.optionalList "operands" operands
      ++ Document.optionalList "bodies" bodies)

/-- The op that ends a block, as a document. -/
def Block.document? (showObject : Nat → String) : Block → Option Document
  | .empty _ => none
  | .ending _ _ terminator => terminator.document? showObject

/-- A body as a document. -/
def Body.document? (showObject : Nat → String) : Body → Option Document
  | .mk [] => none
  | .mk (block :: _) => block.document? showObject

/-- Operands as documents. -/
def Op.operandDocuments? (showObject : Nat → String) : List Operand → Option (List Document)
  | [] => some []
  | operand :: rest => do
    return (← operand.document? showObject) :: (← Op.operandDocuments? showObject rest)

/-- Bodies as documents. -/
def Op.bodyDocuments? (showObject : Nat → String) : List Body → Option (List Document)
  | [] => some []
  | body :: rest => do
    return (← body.document? showObject) :: (← Op.bodyDocuments? showObject rest)

end

end PredicateTrace
