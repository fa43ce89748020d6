import PredicateTrace.Operator
import PredicateTrace.Position
import PredicateTrace.Text.Codes
import PredicateTrace.TypeRef

/-!
# Tokens

The words of an expression: literals with their decoded values, names, keywords and symbols.
-/

namespace PredicateTrace

/-- Words that are not names. -/
inductive Keyword
  | true | false | null | this | new | instanceof
  | primitive (p : Primitive)
  deriving DecidableEq, Repr

namespace Keyword

def text : Keyword → String
  | .true => "true"
  | .false => "false"
  | .null => "null"
  | .this => "this"
  | .new => "new"
  | .instanceof => "instanceof"
  | .primitive p => p.name

def all : List Keyword :=
  [.true, .false, .null, .this, .new, .instanceof] ++ Primitive.all.map Keyword.primitive

/-- The keyword that a word is. -/
def ofText? (word : String) : Option Keyword :=
  all.find? fun k => k.text = word

end Keyword

/-- Operators and punctuation. -/
inductive Symbol
  | lshr | lshl | ashr | le | ge | eq | neq | and | or | increment | decrement
  | lt | gt | plus | minus | star | slash | percent | ampersand | bar | caret | bang | tilde
  | question | colon | assign
  | leftParen | rightParen | leftBracket | rightBracket | dot | comma
  deriving DecidableEq, Repr

namespace Symbol

def text : Symbol → String
  | .lshr => ">>>"
  | .lshl => "<<"
  | .ashr => ">>"
  | .le => "<="
  | .ge => ">="
  | .eq => "=="
  | .neq => "!="
  | .and => "&&"
  | .or => "||"
  | .increment => "++"
  | .decrement => "--"
  | .lt => "<"
  | .gt => ">"
  | .plus => "+"
  | .minus => "-"
  | .star => "*"
  | .slash => "/"
  | .percent => "%"
  | .ampersand => "&"
  | .bar => "|"
  | .caret => "^"
  | .bang => "!"
  | .tilde => "~"
  | .question => "?"
  | .colon => ":"
  | .assign => "="
  | .leftParen => "("
  | .rightParen => ")"
  | .leftBracket => "["
  | .rightBracket => "]"
  | .dot => "."
  | .comma => ","

/-- The symbols, longer ones first, so that the longest one that fits is found first. -/
def all : List Symbol :=
  [.lshr, .lshl, .ashr, .le, .ge, .eq, .neq, .and, .or, .increment, .decrement,
    .lt, .gt, .plus, .minus, .star, .slash, .percent, .ampersand, .bar, .caret, .bang, .tilde,
    .question, .colon, .assign, .leftParen, .rightParen, .leftBracket, .rightBracket, .dot, .comma]

end Symbol

/-- What a token is, with its value. Characters are code points, since an escape can produce a unit
that is no character. -/
inductive Lexeme
  | int (n : Nat)
  | long (n : Nat)
  | float (x : Float)
  | double (x : Float)
  | char (code : Nat)
  | string (text : String)
  /-- A text of which some codes are no characters. -/
  | units (codes : List Nat)
  | ident (name : String)
  | keyword (k : Keyword)
  | symbol (s : Symbol)

/-- The text literal with the given codes. -/
def Lexeme.ofCodes (codes : List Nat) : Lexeme :=
  if Text.isProper codes then .string (Text.ofCodes codes) else .units codes

/-- A token: what it is, where it begins and how it is written. -/
structure Token where
  lexeme : Lexeme
  position : Position
  text : String

/-- The tokens of a source and the place of its end. -/
structure Tokens where
  tokens : List Token
  finish : Position

end PredicateTrace
