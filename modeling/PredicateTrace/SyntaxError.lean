import PredicateTrace.Text.Quote
import PredicateTrace.Token

/-!
# Syntax errors

What can be wrong with the source of an expression, and how it is reported.
-/

namespace PredicateTrace

/-- What a token was expected to be. -/
inductive Expected
  | symbol (s : Symbol)
  | name
  | type
  | expression

/-- What is wrong with a source. -/
inductive SyntaxCause
  | unterminatedEscape
  | badUnicodeEscape
  | badEscape (c : Char)
  | unclosedString
  | unclosedCharacter
  | unclosedComment
  | characterLength
  | invalidNumber (text : String)
  | unexpectedCharacter (c : Char)
  | expected (what : Expected) (found : Option Token)
  | leftOver (found : Token)
  | assignmentTarget
  | unsupportedOperator (s : Symbol)
  | missingDimension
  | arrayInitializer
  | primitiveInstance (p : Primitive)
  | floatTooLarge
  | floatTooSmall
  | integerTooLarge

/-- A syntax error: a cause with its place, or a number with a digit of no decimal series or with too
many digits, which is refused without a place. -/
inductive SyntaxError
  | at (position : Position) (cause : SyntaxCause)
  | unreadableNumber

namespace Expected

def text : Expected → String
  | .symbol s => Text.quote s.text
  | .name => "IDENT"
  | .type => "type"
  | .expression => "expression"

end Expected

/-- A token as a message names it; the end of the source has no token. -/
def describeToken : Option Token → String
  | some token => Text.quote token.text
  | none => "end of input"

namespace SyntaxCause

def message : SyntaxCause → String
  | .unterminatedEscape => "Unterminated escape sequence"
  | .badUnicodeEscape => "Illegal unicode escape"
  | .badEscape c => "Illegal escape character: \\" ++ c.toString
  | .unclosedString => "Unclosed string literal"
  | .unclosedCharacter => "Unclosed character literal"
  | .unclosedComment => "Unclosed comment"
  | .characterLength => "Character literal must hold exactly one character"
  | .invalidNumber text => "Invalid number: " ++ text
  | .unexpectedCharacter c => "Unexpected character: " ++ Text.quote c.toString
  | .expected what found => "Expected " ++ what.text ++ ", got " ++ describeToken found
  | .leftOver found => "Unexpected " ++ describeToken (some found) ++ " after expression"
  | .assignmentTarget => "Invalid assignment target"
  | .unsupportedOperator s => "Operator " ++ s.text ++ " is not supported in predicates"
  | .missingDimension => "Array dimension missing"
  | .arrayInitializer => "Array initializers are not supported"
  | .primitiveInstance p => "Cannot instantiate primitive type " ++ p.name
  | .floatTooLarge => "Floating-point number too large"
  | .floatTooSmall => "Floating-point number too small"
  | .integerTooLarge => "Integer number too large"

end SyntaxCause

end PredicateTrace
