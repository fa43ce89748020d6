import PredicateTrace.Op.Listing
import PredicateTrace.Resolver
import PredicateTrace.Value.Format

/-!
# Ops as source text

The expression that a tree of ops stands for, as a reader would write it. An operand is put in
parentheses unless its operator binds more tightly than the one it stands under; accesses chain without
them. Ops that are no expression are shown by their listing. A source text is kept by its codes, since
the literals in it can have some that are no characters.
-/

namespace PredicateTrace

open Text (codes)

/-- Levels of binding, the tightest first. -/
inductive Precedence
  | literal | dereference | postfixed | unary | multiplicative | additive | shift | relational
  | equality | bitwiseAnd | bitwiseXor | bitwiseOr | logicalAnd | logicalOr | ternary | assignment
  | parentheses
  deriving DecidableEq, Repr

namespace Precedence

def all : List Precedence :=
  [.literal, .dereference, .postfixed, .unary, .multiplicative, .additive, .shift, .relational,
    .equality, .bitwiseAnd, .bitwiseXor, .bitwiseOr, .logicalAnd, .logicalOr, .ternary, .assignment,
    .parentheses]

/-- The place of a level in the order. -/
def rank (p : Precedence) : Nat :=
  all.idxOf p

/-- Whether an operand of level `inner` stands under an operator of level `outer` as it is. -/
def standsUnder (inner outer : Precedence) : Bool :=
  inner.rank < outer.rank || (inner = outer && inner = .dereference)

end Precedence

/-- The level of an operator. -/
def Operator.precedence : Operator → Precedence
  | .arith .add | .arith .sub => .additive
  | .arith .mul | .arith .div | .arith .mod => .multiplicative
  | .arith .and => .bitwiseAnd
  | .arith .or => .bitwiseOr
  | .arith .xor => .bitwiseXor
  | .shift _ => .shift
  | .compare .eq | .compare .neq => .equality
  | .compare _ => .relational
  | .other _ => .literal

namespace Head

/-- The level at which an op binds. -/
def precedence : Head → Precedence
  | .binary op _ | .compare op => op.precedence
  | .ternary _ => .ternary
  | .condAnd => .logicalAnd
  | .condOr => .logicalOr
  | .instanceOf _ => .relational
  | .not | .neg _ | .conv _ | .cast _ => .unary
  | .arrayLoad _ | .arrayLength | .invoke .. | .fieldLoad _ => .dereference
  | _ => .literal

/-- The symbol of an op, or the name of its kind if it has none. -/
def symbol : Head → String
  | .binary op _ | .compare op => op.symbol?.getD op.name
  | .neg _ => "-"
  | .not => "!"
  | .condAnd => "&&"
  | .condOr => "||"
  | head => head.kind

end Head

/-- The unqualified name of a type, by its class where that can be found. -/
def TypeRef.shortName : TypeRef → String
  | .array t => t.shortName ++ "[]"
  | .prim p => p.name
  | .named name host =>
    match Resolver.simpleName (.named name host) with
    | .ok simple => simple
    | .error _ => lastComponent name

/-- A piece of source text with the level of its outermost operator; `none` for a name that never needs
parentheses. -/
structure Fragment where
  text : List Nat
  precedence : Option Precedence

namespace Fragment

/-- The fragment as it stands under an operator of level `outer`. -/
def under (outer : Precedence) (f : Fragment) : List Nat :=
  match f.precedence with
  | some inner => if inner.standsUnder outer then f.text else codes "(" ++ f.text ++ codes ")"
  | none => f.text

/-- The fragment where anything can stand. -/
def loose (f : Fragment) : List Nat :=
  f.under .parentheses

end Fragment

/-- The creation of an array with some of its dimensions given. -/
def arrayCreation (type : TypeRef) (sizes : List Fragment) : List Nat :=
  codes ("new " ++ type.deepComponent.shortName)
    ++ sizes.flatMap (fun size => codes "[" ++ size.loose ++ codes "]")
    ++ codes (String.join (List.replicate (type.dimensions - sizes.length) "[]"))

/-- The source text of an op by the fragments of its operands and bodies; `none` when the op is no
expression. -/
def Head.source? (f : Formatter) (head : Head) (operands bodies : List Fragment) : Option (List Nat) :=
  let under := Fragment.under head.precedence
  let listed := fun (separator : String) (args : List Fragment) =>
    codes "(" ++ (codes separator).intercalate (args.map Fragment.loose) ++ codes ")"
  match head, operands with
  | .const v _, [] => some (f.formatCodes v)
  | .varLoad v, [] => some (codes v.name)
  | .this .., [] => some (codes "this")
  | .fieldLoad field, [receiver] => some (under receiver ++ codes ("." ++ field.name))
  | .fieldLoad field, [] => some (codes (field.owner.shortName ++ "." ++ field.name))
  | .invoke method true, receiver :: args =>
    some (under receiver ++ codes ("." ++ method.name) ++ listed ", " args)
  | .invoke method false, args =>
    some (codes (method.owner.shortName ++ "." ++ method.name) ++ listed "," args)
  | .new (.array t), sizes => some (arrayCreation (.array t) sizes)
  | .new t, args => some (codes ("new " ++ t.shortName) ++ listed "," args)
  | .arrayLength, [array] => some (under array ++ codes ".length")
  | .arrayLoad _, [array, index] => some (under array ++ codes "[" ++ index.loose ++ codes "]")
  | .binary op _, [left, right] | .compare op, [left, right] =>
    op.symbol?.map fun symbol => under left ++ codes (" " ++ symbol ++ " ") ++ under right
  | .not, [operand] | .neg _, [operand] => some (codes head.symbol ++ under operand)
  | .conv t, [operand] => some (codes ("(" ++ t.text ++ ")") ++ under operand)
  | .cast t, [operand] => some (codes ("(" ++ t.shortName ++ ")") ++ under operand)
  | .instanceOf t, [operand] => some (under operand ++ codes (" instanceof " ++ t.shortName))
  | .ret, [operand] => some (codes "return " ++ operand.loose)
  | .yield, [operand] => some operand.loose
  | .condAnd, _ | .condOr, _ =>
    some ((codes (" " ++ head.symbol ++ " ")).intercalate (bodies.map under))
  | .ternary _, _ =>
    match bodies with
    | [cond, thenArm, elseArm] =>
      some (under cond ++ codes " ? " ++ under thenArm ++ codes " : " ++ under elseArm)
    | _ => none
  | _, _ => none

/-- Whether an op with a number of bodies is no expression, so that its listing has to do. -/
def Head.isListed (head : Head) (bodyCount : Nat) : Bool :=
  match head with
  | .varStore _ | .lambda | .bare => true
  | .binary op _ | .compare op => !op.isKnown
  | .ternary _ => bodyCount != 3
  | _ => false

/-- Whether an op is a call on a receiver that is not there; such an op cannot be written down. -/
def Head.lacksReceiver (head : Head) (operands : List Operand) : Bool :=
  match head, operands with
  | .invoke _ true, [] => true
  | _, _ => false

/-- The fragment of an op that is shown by its listing. -/
def Op.listedFragment? (f : Formatter) (op : Op) : Option Fragment :=
  (op.listing? f.showObject).map fun listing =>
    ⟨codes (listing ++ ":" ++ op.kind), some op.head.precedence⟩

mutual

/-- The source of an operand; a parameter is always the receiver. -/
def Operand.fragment? (f : Formatter) : Operand → Option Fragment
  | .op op => op.fragment? f
  | .param _ => some ⟨codes "this", none⟩

/-- The source of an op. -/
def Op.fragment? (f : Formatter) : Op → Option Fragment
  | .mk head operands bodies => do
    if head.isListed bodies.length then (Op.mk head operands bodies).listedFragment? f
    else if head.lacksReceiver operands then none
    else
      let operandFragments ← Op.operandFragments? f operands
      let bodyFragments ← Op.bodyFragments? f bodies
      match head.source? f operandFragments bodyFragments with
      | some text => return ⟨text, some head.precedence⟩
      | none => (Op.mk head operands bodies).listedFragment? f

/-- The source of the op that ends a block: what a `yield` gives, or the op itself. -/
def Block.fragment? (f : Formatter) : Block → Option Fragment
  | .empty _ => none
  | .ending _ _ (.mk .yield [operand] _) => operand.fragment? f
  | .ending _ _ terminator => terminator.fragment? f

/-- The source of the value of a body. -/
def Body.fragment? (f : Formatter) : Body → Option Fragment
  | .mk [] => none
  | .mk (block :: _) => block.fragment? f

/-- The sources of operands. -/
def Op.operandFragments? (f : Formatter) : List Operand → Option (List Fragment)
  | [] => some []
  | operand :: rest => do
    return (← operand.fragment? f) :: (← Op.operandFragments? f rest)

/-- The sources of bodies. -/
def Op.bodyFragments? (f : Formatter) : List Body → Option (List Fragment)
  | [] => some []
  | body :: rest => do
    return (← body.fragment? f) :: (← Op.bodyFragments? f rest)

end

/-- The source text of an op. -/
def Op.source? (f : Formatter) (op : Op) : Option String :=
  (op.fragment? f).map fun fragment => Text.ofCodes fragment.text

/-- The source text of an op under an operator of level `outer`. -/
def Op.sourceUnder? (f : Formatter) (outer : Precedence) (op : Op) : Option String :=
  (op.fragment? f).map fun fragment => Text.ofCodes (fragment.under outer)

/-- The source text of an operand, by its codes. -/
def Operand.sourceCodes? (f : Formatter) (operand : Operand) : Option (List Nat) :=
  (operand.fragment? f).map Fragment.loose

/-- The source text of an operand. -/
def Operand.source? (f : Formatter) (operand : Operand) : Option String :=
  (operand.sourceCodes? f).map Text.ofCodes

end PredicateTrace
