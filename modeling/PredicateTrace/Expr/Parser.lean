import PredicateTrace.Expr
import PredicateTrace.Number.Binary
import PredicateTrace.Number.Word
import PredicateTrace.Token.Lexer

/-!
# Parsing expressions

Recursive descent over the tokens of a source. Binary operators have ten levels, from `||`, which binds
weakest, to the multiplicative ones; an operator of a level takes operands of the next one and groups
to the left. The functions call one another with a bound on the depth of the calls, which `parse`
chooses large enough for the number of tokens.
-/

namespace PredicateTrace.Parser

/-- What a parsing function finds: a tree and the tokens after it. -/
abbrev Found (α : Type) := α × List Token

/-- Fails at a token, or at the end of the source. -/
def failAt {α : Type} (finish : Position) (tokens : List Token) (cause : SyntaxCause) :
    Except SyntaxError α :=
  .error (.at ((tokens.head?.map Token.position).getD finish) cause)

/-- Fails because the next token is not what was expected. -/
def failExpected {α : Type} (finish : Position) (tokens : List Token) (what : Expected) :
    Except SyntaxError α :=
  failAt finish tokens (.expected what tokens.head?)

/-- The symbol that a token is. -/
def symbolOf? (t : Token) : Option Symbol :=
  match t.lexeme with
  | .symbol s => some s
  | _ => none

/-- The name that a token is. -/
def nameOf? (t : Token) : Option String :=
  match t.lexeme with
  | .ident name => some name
  | _ => none

/-- The primitive type that a token names; `void` is not the type of a value. -/
def primitiveOf? (t : Token) : Option Primitive :=
  match t.lexeme with
  | .keyword (.primitive p) => if p = .void then none else some p
  | _ => none

/-- Whether the next token is a symbol. -/
def startsWith (s : Symbol) (tokens : List Token) : Bool :=
  (tokens.head?.bind symbolOf?) == some s

/-- Steps over a symbol that must come next. -/
def expectSymbol (finish : Position) (s : Symbol) (tokens : List Token) :
    Except SyntaxError (List Token) :=
  if startsWith s tokens then .ok tokens.tail else failExpected finish tokens (.symbol s)

/-! ### Literals -/

/-- Whether an integer literal is written in base ten, as far as its first two characters tell. -/
def isDecimal (text : String) : Bool :=
  match text.toList with
  | '0' :: c :: _ => !(c = 'x' || c = 'X' || c = 'b' || c = 'B' || Text.isDigit c)
  | _ => true

/-- The value of an integer literal of the given width. A decimal one must fit the signed range, one
in another base may use the sign bit. -/
def integerLiteral (bits : Nat) (t : Token) (n : Nat) : Except SyntaxError Int :=
  let bound := if isDecimal t.text then 2 ^ (bits - 1) - 1 else 2 ^ bits - 1
  if bound < n then .error (.at t.position .integerTooLarge) else .ok (Number.wrap bits n)

/-- Whether the digits before the exponent include one other than zero. -/
def hasNonzeroDigit (text : String) : Bool :=
  (text.toList.takeWhile fun c => c ≠ 'e' ∧ c ≠ 'E').any fun c => '1' ≤ c ∧ c ≤ '9'

/-- Checks that a floating literal was not rounded to infinity, nor to zero from another number. -/
def floatingLiteral (t : Token) (x : Float) (make : Float → Literal) : Except SyntaxError Literal :=
  if x.isInf then .error (.at t.position .floatTooLarge)
  else if x == 0 && hasNonzeroDigit t.text then .error (.at t.position .floatTooSmall)
  else .ok (make x)

/-- The literal that a token is, if it is one. -/
def literal? (t : Token) : Option (Except SyntaxError Literal) :=
  match t.lexeme with
  | .int n => some ((integerLiteral 32 t n).map .int)
  | .long n => some ((integerLiteral 64 t n).map .long)
  | .float x => some (floatingLiteral t (Number.toSingle x) .float)
  | .double x => some (floatingLiteral t x .double)
  | .char code => some (.ok (.char code))
  | .string text => some (.ok (.string text))
  | .units codes => some (.ok (.units codes))
  | .keyword .true => some (.ok (.boolean true))
  | .keyword .false => some (.ok (.boolean false))
  | .keyword .null => some (.ok .null)
  | _ => none

/-- The smallest number of its kind, whose digits are only legal behind a minus sign. -/
def smallest? (t : Token) : Option Literal :=
  if isDecimal t.text then
    match t.lexeme with
    | .int n => if n = 2 ^ 31 then some (.int (-2 ^ 31)) else none
    | .long n => if n = 2 ^ 63 then some (.long (-2 ^ 63)) else none
    | _ => none
  else none

/-! ### Types -/

/-- The parts of a dotted name after its first one. -/
def dottedParts : List Token → List String × List Token
  | dot :: next :: rest =>
    match symbolOf? dot, nameOf? next with
    | some .dot, some name =>
      let (parts, after) := dottedParts rest
      (name :: parts, after)
    | _, _ => ([], dot :: next :: rest)
  | tokens => ([], tokens)

/-- The number of pairs of empty brackets that come next. -/
def emptyBrackets : List Token → Nat × List Token
  | first :: second :: rest =>
    match symbolOf? first, symbolOf? second with
    | some .leftBracket, some .rightBracket =>
      let (n, after) := emptyBrackets rest
      (n + 1, after)
    | _, _ => (0, first :: second :: rest)
  | tokens => (0, tokens)

/-- A primitive or a dotted class name, without dimensions. -/
def typeName (finish : Position) (tokens : List Token) : Except SyntaxError (Found TypeName) :=
  match tokens with
  | t :: rest =>
    match primitiveOf? t, nameOf? t with
    | some p, _ => .ok (⟨.primitive p, 0, t.position⟩, rest)
    | none, some name =>
      let (parts, after) := dottedParts rest
      .ok (⟨.named (name :: parts), 0, t.position⟩, after)
    | none, none => failExpected finish tokens .type
  | [] => failExpected finish tokens .type

/-- A type with its dimensions. -/
def type (finish : Position) (tokens : List Token) : Except SyntaxError (Found TypeName) := do
  let (t, rest) ← typeName finish tokens
  let (dims, after) := emptyBrackets rest
  return ({ t with dims := dims }, after)

/-- Whether a token can begin the operand of a cast to a class type. -/
def beginsCastOperand (t : Token) : Bool :=
  match t.lexeme with
  | .ident _ | .int _ | .long _ | .float _ | .double _ | .char _ | .string _ | .units _ => true
  | .keyword (.primitive _) | .keyword .instanceof => false
  | .keyword _ => true
  | .symbol s => s == .leftParen || s == .bang || s == .tilde

/-- Whether the tokens after an opening parenthesis make it a cast. A primitive type always does; a
class type only if the closing parenthesis and the beginning of an operand follow. -/
def isCast (tokens : List Token) : Bool :=
  match tokens with
  | t :: rest =>
    if (primitiveOf? t).isSome then true
    else if (nameOf? t).isSome then
      match (emptyBrackets (dottedParts rest).2).2 with
      | close :: next :: _ => symbolOf? close == some .rightParen && beginsCastOperand next
      | _ => false
    else false
  | [] => false

/-! ### Operators -/

/-- The number of levels of binary operators. -/
def levels : Nat := 10

/-- The level of a symbol among the binary operators, and the operator. -/
def binary? : Symbol → Option (Nat × BinaryOperator)
  | .or => some (0, .disjunction)
  | .and => some (1, .conjunction)
  | .bar => some (2, .arith .or)
  | .caret => some (3, .arith .xor)
  | .ampersand => some (4, .arith .and)
  | .eq => some (5, .compare .eq)
  | .neq => some (5, .compare .neq)
  | .lt => some (6, .compare .lt)
  | .gt => some (6, .compare .gt)
  | .le => some (6, .compare .le)
  | .ge => some (6, .compare .ge)
  | .lshl => some (7, .shift .lshl)
  | .ashr => some (7, .shift .ashr)
  | .lshr => some (7, .shift .lshr)
  | .plus => some (8, .arith .add)
  | .minus => some (8, .arith .sub)
  | .star => some (9, .arith .mul)
  | .slash => some (9, .arith .div)
  | .percent => some (9, .arith .mod)
  | _ => none

/-- The level at which `instanceof` stands. -/
def instanceofLevel : Nat := 6

/-- The binary operator of a level that a token is. -/
def operatorAt? (level : Nat) (t : Token) : Option BinaryOperator :=
  match (symbolOf? t).bind binary? with
  | some (l, op) => if l = level then some op else none
  | none => none

/-- Whether a token is `instanceof`. -/
def isInstanceof (t : Token) : Bool :=
  match t.lexeme with
  | .keyword .instanceof => true
  | _ => false

/-- The unary operators that stand below the signs. -/
def unary? : Symbol → Option UnaryOperator
  | .bang => some .not
  | .tilde => some .complement
  | _ => none

/-! ### Expressions -/

mutual

/-- An assignment, or what binds tighter; assignments group to the right. -/
def expression (finish : Position) : Nat → List Token → Except SyntaxError (Found (Expr Position))
  | 0, tokens => failExpected finish tokens .expression
  | depth + 1, tokens => do
    let (target, rest) ← conditional finish depth tokens
    match rest with
    | t :: after =>
      if symbolOf? t == some .assign then
        if target.isAssignable then
          let (value, rest) ← expression finish depth after
          return (.assign t.position target value, rest)
        else .error (.at t.position .assignmentTarget)
      else return (target, rest)
    | [] => return (target, rest)

/-- A conditional, or what binds tighter; both arms are conditionals again. -/
def conditional (finish : Position) : Nat → List Token → Except SyntaxError (Found (Expr Position))
  | 0, tokens => failExpected finish tokens .expression
  | depth + 1, tokens => do
    let (cond, rest) ← binary finish depth 0 tokens
    match rest with
    | t :: after =>
      if symbolOf? t == some .question then
        let (thenArm, rest) ← conditional finish depth after
        let rest ← expectSymbol finish .colon rest
        let (elseArm, rest) ← conditional finish depth rest
        return (.conditional t.position cond thenArm elseArm, rest)
      else return (cond, rest)
    | [] => return (cond, rest)

/-- A chain of binary operators of a level. -/
def binary (finish : Position) : Nat → Nat → List Token → Except SyntaxError (Found (Expr Position))
  | 0, _, tokens => failExpected finish tokens .expression
  | depth + 1, level, tokens => do
    if level < levels then
      let (left, rest) ← binary finish depth (level + 1) tokens
      chain finish depth level left rest
    else unary finish depth tokens

/-- The rest of a chain whose left part is known. -/
def chain (finish : Position) : Nat → Nat → Expr Position → List Token → Except SyntaxError (Found (Expr Position))
  | 0, _, _, tokens => failExpected finish tokens .expression
  | depth + 1, level, left, tokens =>
    match tokens with
    | t :: after =>
      match operatorAt? level t with
      | some op => do
        let (right, rest) ← binary finish depth (level + 1) after
        chain finish depth level (.binary t.position op left right) rest
      | none =>
        if level = instanceofLevel ∧ isInstanceof t then do
          let (type, rest) ← type finish after
          chain finish depth level (.instanceOf t.position left type) rest
        else .ok (left, tokens)
    | [] => .ok (left, tokens)

/-- A sign in front of an operand, or what binds tighter. -/
def unary (finish : Position) : Nat → List Token → Except SyntaxError (Found (Expr Position))
  | 0, tokens => failExpected finish tokens .expression
  | depth + 1, tokens =>
    match tokens with
    | t :: after =>
      match symbolOf? t with
      | some .increment => .error (.at t.position (.unsupportedOperator .increment))
      | some .decrement => .error (.at t.position (.unsupportedOperator .decrement))
      | some .minus =>
        match after.head?.bind fun next => (smallest? next).map fun l => (next.position, l) with
        | some (position, literal) => .ok (.literal position literal, after.tail)
        | none => do
          let (operand, rest) ← unary finish depth after
          return (.unary t.position .minus operand, rest)
      | some .plus => do
        let (operand, rest) ← unary finish depth after
        return (.unary t.position .plus operand, rest)
      | _ => unsignedUnary finish depth tokens
    | [] => unsignedUnary finish depth tokens

/-- An operand without a sign: negations, complements, casts, or what binds tighter. -/
def unsignedUnary (finish : Position) : Nat → List Token → Except SyntaxError (Found (Expr Position))
  | 0, tokens => failExpected finish tokens .expression
  | depth + 1, tokens =>
    match tokens with
    | t :: after =>
      match (symbolOf? t).bind unary? with
      | some op => do
        let (operand, rest) ← unary finish depth after
        return (.unary t.position op operand, rest)
      | none =>
        if symbolOf? t == some .leftParen && isCast after then do
          let (type, rest) ← type finish after
          let rest ← expectSymbol finish .rightParen rest
          let (operand, rest) ←
            match type.base, type.dims with
            | .primitive _, 0 => unary finish depth rest
            | _, _ => unsignedUnary finish depth rest
          return (.cast t.position type operand, rest)
        else accessed finish depth tokens
    | [] => accessed finish depth tokens

/-- A primary expression with the accesses and calls behind it. -/
def accessed (finish : Position) : Nat → List Token → Except SyntaxError (Found (Expr Position))
  | 0, tokens => failExpected finish tokens .expression
  | depth + 1, tokens => do
    let (e, rest) ← primary finish depth tokens
    accesses finish depth e rest

/-- The accesses and calls behind an expression. -/
def accesses (finish : Position) : Nat → Expr Position → List Token → Except SyntaxError (Found (Expr Position))
  | 0, _, tokens => failExpected finish tokens .expression
  | depth + 1, e, tokens =>
    match tokens with
    | t :: after =>
      match symbolOf? t with
      | some .dot =>
        match after with
        | nameToken :: rest =>
          match nameOf? nameToken with
          | some name =>
            if startsWith .leftParen rest then do
              let (args, rest) ← arguments finish depth rest
              accesses finish depth (.call nameToken.position e name args) rest
            else accesses finish depth (.field t.position e name) rest
          | none => failExpected finish after .name
        | [] => failExpected finish after .name
      | some .leftBracket =>
        if e.isNewArray then .ok (e, tokens)
        else do
          let (index, rest) ← expression finish depth after
          let rest ← expectSymbol finish .rightBracket rest
          accesses finish depth (.index t.position e index) rest
      | some .increment => .error (.at t.position (.unsupportedOperator .increment))
      | some .decrement => .error (.at t.position (.unsupportedOperator .decrement))
      | _ => .ok (e, tokens)
    | [] => .ok (e, tokens)

/-- Arguments between parentheses. -/
def arguments (finish : Position) : Nat → List Token → Except SyntaxError (Found (List (Expr Position)))
  | 0, tokens => failExpected finish tokens .expression
  | depth + 1, tokens => do
    let rest ← expectSymbol finish .leftParen tokens
    if startsWith .rightParen rest then return ([], rest.tail)
    else
      let (first, rest) ← expression finish depth rest
      let (others, rest) ← moreArguments finish depth rest
      return (first :: others, ← expectSymbol finish .rightParen rest)

/-- The arguments after a first one. -/
def moreArguments (finish : Position) : Nat → List Token → Except SyntaxError (Found (List (Expr Position)))
  | 0, tokens => failExpected finish tokens .expression
  | depth + 1, tokens => do
    if startsWith .comma tokens then
      let (next, rest) ← expression finish depth tokens.tail
      let (others, rest) ← moreArguments finish depth rest
      return (next :: others, rest)
    else return ([], tokens)

/-- A literal, a name, a call, a creation or an expression in parentheses. -/
def primary (finish : Position) : Nat → List Token → Except SyntaxError (Found (Expr Position))
  | 0, tokens => failExpected finish tokens .expression
  | depth + 1, tokens =>
    match tokens with
    | [] => failExpected finish tokens .expression
    | t :: after =>
      match literal? t with
      | some literal => do return (.literal t.position (← literal), after)
      | none =>
        match t.lexeme with
        | .keyword .this => .ok (.this t.position, after)
        | .keyword .new => creation finish depth t.position after
        | .ident name =>
          if startsWith .leftParen after then do
            let (args, rest) ← arguments finish depth after
            return (.thisCall t.position name args, rest)
          else .ok (.name t.position name, after)
        | .symbol .leftParen => do
          let (e, rest) ← expression finish depth after
          return (e, ← expectSymbol finish .rightParen rest)
        | _ => failExpected finish tokens .expression

/-- What follows `new`: an object with arguments, or an array with dimensions. -/
def creation (finish : Position) : Nat → Position → List Token → Except SyntaxError (Found (Expr Position))
  | 0, _, tokens => failExpected finish tokens .expression
  | depth + 1, position, tokens => do
    let (element, rest) ← typeName finish tokens
    if startsWith .leftBracket rest then
      let ((dims, extra), rest) ← dimensions finish depth 0 rest
      if dims.isEmpty then .error (.at position .arrayInitializer)
      else return (.newArray position element dims extra, rest)
    else
      match element.base with
      | .primitive p => .error (.at position (.primitiveInstance p))
      | .named _ =>
        let (args, rest) ← arguments finish depth rest
        return (.newObject position element args, rest)

/-- The dimensions of an array: sizes first, then empty brackets, of which `extra` came before. -/
def dimensions (finish : Position) : Nat → Nat → List Token → Except SyntaxError (Found (List (Expr Position) × Nat))
  | 0, _, tokens => failExpected finish tokens .expression
  | depth + 1, extra, tokens => do
    if startsWith .leftBracket tokens then
      let after := tokens.tail
      if startsWith .rightBracket after then dimensions finish depth (extra + 1) after.tail
      else if extra ≠ 0 then failAt finish tokens .missingDimension
      else
        let (size, rest) ← expression finish depth after
        let rest ← expectSymbol finish .rightBracket rest
        let ((sizes, extra), rest) ← dimensions finish depth extra rest
        return ((size :: sizes, extra), rest)
    else return (([], extra), tokens)

end

/-- A depth of calls that no list of so many tokens exceeds: between two tokens the functions descend
through all levels once. -/
def depthFor (count : Nat) : Nat :=
  20 * (count + 1)

/-- The expression that a list of tokens writes; all of them must be used. -/
def parseTokens (source : Tokens) : Except SyntaxError (Expr Position) := do
  let (e, rest) ← expression source.finish (depthFor source.tokens.length) source.tokens
  match rest with
  | [] => return e
  | t :: _ => .error (.at t.position (.leftOver t))

/-- The expression that a source writes. -/
def parse {α : Type} [Text.Coded α] (source : α) : Except SyntaxError (Expr Position) := do
  parseTokens (← Token.tokenize source)

end PredicateTrace.Parser
