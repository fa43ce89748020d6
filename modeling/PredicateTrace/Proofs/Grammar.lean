import Mathlib.Data.List.Basic
import Mathlib.Tactic.Lemma
import PredicateTrace.Expr.Parser

/-!
# The grammar of expressions

Which lists of tokens write an expression, phrase by phrase. The rules fix the trees with all their
positions. The binary operators, `instanceof` and the accesses group to the left, so that their phrases
begin with a phrase of the same kind.
-/

namespace PredicateTrace.Parser

/-- The members of a dotted name after its first part. -/
inductive Dotted : List String → List Token → Prop
  | nil : Dotted [] []
  | cons {dot next name parts w} (hdot : dot.lexeme = .symbol .dot) (hname : next.lexeme = .ident name)
      (hw : Dotted parts w) : Dotted (name :: parts) (dot :: next :: w)

/-- Pairs of empty brackets. -/
inductive Brackets : Nat → List Token → Prop
  | zero : Brackets 0 []
  | succ {l r n w} (hl : l.lexeme = .symbol .leftBracket) (hr : r.lexeme = .symbol .rightBracket)
      (hw : Brackets n w) : Brackets (n + 1) (l :: r :: w)

/-- A type without dimensions. -/
inductive BaseWritten : TypeName → List Token → Prop
  | primitive {t p} (ht : t.lexeme = .keyword (.primitive p)) (hp : p ≠ .void) :
      BaseWritten ⟨.primitive p, 0, t.position⟩ [t]
  | named {t name parts w} (ht : t.lexeme = .ident name) (hw : Dotted parts w) :
      BaseWritten ⟨.named (name :: parts), 0, t.position⟩ (t :: w)

/-- A type with its dimensions. -/
inductive TypeWritten : TypeName → List Token → Prop
  | mk {type n w w'} (hbase : BaseWritten type w) (hdims : Brackets n w') :
      TypeWritten { type with dims := n } (w ++ w')

/-- The kinds of phrases with what they stand for. `more` holds the arguments after a first one, and `sizes`
the sizes of an array and the number of its further dimensions. -/
inductive Phrase
  | expression (e : Expr Position)
  | conditional (e : Expr Position)
  | binary (level : Nat) (e : Expr Position)
  | unary (e : Expr Position)
  | unsigned (e : Expr Position)
  | accessed (e : Expr Position)
  | arguments (es : List (Expr Position))
  | more (es : List (Expr Position))
  | sizes (es : List (Expr Position)) (extra : Nat)

/-- The phrase behind a cast: it may begin with a sign only if the type is primitive. -/
def castOperand (type : TypeName) (e : Expr Position) : Phrase :=
  match type.base, type.dims with
  | .primitive _, 0 => .unary e
  | _, _ => .unsigned e

lemma castOperand_plain {type : TypeName} {p : Primitive} {e : Expr Position}
    (hbase : type.base = .primitive p) (hdims : type.dims = 0) : castOperand type e = .unary e := by
  simp [castOperand, hbase, hdims]

lemma castOperand_other {type : TypeName} {e : Expr Position}
    (h : ∀ p, type.base = .primitive p → type.dims = 0 → False) : castOperand type e = .unsigned e := by
  unfold castOperand
  split
  · next hbase hdims => exact (h _ hbase hdims).elim
  · rfl

/-- The tokens that write a phrase. -/
inductive Written : Phrase → List Token → Prop
  | ofConditional {e w} (h : Written (.conditional e) w) : Written (.expression e) w
  | assign {target t value w w'} (htarget : Written (.conditional target) w)
      (hassign : target.isAssignable = true) (ht : t.lexeme = .symbol .assign)
      (hvalue : Written (.expression value) w') :
      Written (.expression (.assign t.position target value)) (w ++ t :: w')
  | ofBinary {e w} (h : Written (.binary 0 e) w) : Written (.conditional e) w
  | conditional {cond q yes colon no w w' w''} (hcond : Written (.binary 0 cond) w)
      (hq : q.lexeme = .symbol .question) (hyes : Written (.conditional yes) w')
      (hcolon : colon.lexeme = .symbol .colon) (hno : Written (.conditional no) w'') :
      Written (.conditional (.conditional q.position cond yes no)) (w ++ q :: (w' ++ colon :: w''))
  | ofUnary {e w} (h : Written (.unary e) w) : Written (.binary levels e) w
  | tighter {level e w} (hlevel : level < levels) (h : Written (.binary (level + 1) e) w) :
      Written (.binary level e) w
  | binary {level left t op right w w'} (hlevel : level < levels) (hleft : Written (.binary level left) w)
      (ht : operatorAt? level t = some op) (hright : Written (.binary (level + 1) right) w') :
      Written (.binary level (.binary t.position op left right)) (w ++ t :: w')
  | instanceOf {left t type w w'} (hleft : Written (.binary instanceofLevel left) w)
      (ht : t.lexeme = .keyword .instanceof) (htype : TypeWritten type w') :
      Written (.binary instanceofLevel (.instanceOf t.position left type)) (w ++ t :: w')
  | smallest {t next l} (ht : t.lexeme = .symbol .minus) (hnext : smallest? next = some l) :
      Written (.unary (.literal next.position l)) [t, next]
  | minus {t e w} (ht : t.lexeme = .symbol .minus) (h : Written (.unary e) w) :
      Written (.unary (.unary t.position .minus e)) (t :: w)
  | plus {t e w} (ht : t.lexeme = .symbol .plus) (h : Written (.unary e) w) :
      Written (.unary (.unary t.position .plus e)) (t :: w)
  | ofUnsigned {e w} (h : Written (.unsigned e) w) : Written (.unary e) w
  | unary {t op e w} (ht : (symbolOf? t).bind unary? = some op) (h : Written (.unary e) w) :
      Written (.unsigned (.unary t.position op e)) (t :: w)
  | cast {l type r e w w'} (hl : l.lexeme = .symbol .leftParen) (htype : TypeWritten type w)
      (hr : r.lexeme = .symbol .rightParen) (h : Written (castOperand type e) w') :
      Written (.unsigned (.cast l.position type e)) (l :: (w ++ r :: w'))
  | ofAccessed {e w} (h : Written (.accessed e) w) : Written (.unsigned e) w
  | literal {t v} (ht : literal? t = some (.ok v)) : Written (.accessed (.literal t.position v)) [t]
  | this {t} (ht : t.lexeme = .keyword .this) : Written (.accessed (.this t.position)) [t]
  | name {t name} (ht : t.lexeme = .ident name) : Written (.accessed (.name t.position name)) [t]
  | thisCall {t name args w} (ht : t.lexeme = .ident name) (hargs : Written (.arguments args) w) :
      Written (.accessed (.thisCall t.position name args)) (t :: w)
  | group {l e r w} (hl : l.lexeme = .symbol .leftParen) (h : Written (.expression e) w)
      (hr : r.lexeme = .symbol .rightParen) : Written (.accessed e) (l :: (w ++ [r]))
  | newObject {t type parts args w w'} (ht : t.lexeme = .keyword .new) (htype : BaseWritten type w)
      (hnamed : type.base = .named parts) (hargs : Written (.arguments args) w') :
      Written (.accessed (.newObject t.position type args)) (t :: (w ++ w'))
  | newArray {t type dims extra w w'} (ht : t.lexeme = .keyword .new) (htype : BaseWritten type w)
      (hdims : Written (.sizes dims extra) w') (hne : dims ≠ []) :
      Written (.accessed (.newArray t.position type dims extra)) (t :: (w ++ w'))
  | field {e dot t name w} (h : Written (.accessed e) w) (hdot : dot.lexeme = .symbol .dot)
      (ht : t.lexeme = .ident name) : Written (.accessed (.field dot.position e name)) (w ++ [dot, t])
  | call {e dot t name args w w'} (h : Written (.accessed e) w) (hdot : dot.lexeme = .symbol .dot)
      (ht : t.lexeme = .ident name) (hargs : Written (.arguments args) w') :
      Written (.accessed (.call t.position e name args)) (w ++ dot :: t :: w')
  | index {e l i r w w'} (h : Written (.accessed e) w) (harray : e.isNewArray = false)
      (hl : l.lexeme = .symbol .leftBracket) (hi : Written (.expression i) w')
      (hr : r.lexeme = .symbol .rightBracket) :
      Written (.accessed (.index l.position e i)) (w ++ l :: (w' ++ [r]))
  | noArguments {l r} (hl : l.lexeme = .symbol .leftParen) (hr : r.lexeme = .symbol .rightParen) :
      Written (.arguments []) [l, r]
  | arguments {l e es r w w'} (hl : l.lexeme = .symbol .leftParen) (h : Written (.expression e) w)
      (hmore : Written (.more es) w') (hr : r.lexeme = .symbol .rightParen) :
      Written (.arguments (e :: es)) (l :: (w ++ (w' ++ [r])))
  | noMore : Written (.more []) []
  | more {comma e es w w'} (hcomma : comma.lexeme = .symbol .comma) (h : Written (.expression e) w)
      (hmore : Written (.more es) w') : Written (.more (e :: es)) (comma :: (w ++ w'))
  | noSizes {n w} (h : Brackets n w) : Written (.sizes [] n) w
  | size {l e r es extra w w'} (hl : l.lexeme = .symbol .leftBracket) (h : Written (.expression e) w)
      (hr : r.lexeme = .symbol .rightBracket) (hmore : Written (.sizes es extra) w') :
      Written (.sizes (e :: es) extra) (l :: (w ++ r :: w'))

end PredicateTrace.Parser
