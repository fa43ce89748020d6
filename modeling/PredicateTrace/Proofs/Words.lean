import PredicateTrace.Proofs.ParserCompleteness

/-!
# Words

An expression is listed as words, from left to right, with or without parentheses around its operands. A
word stands for the tokens that write it: one token as a rule, and two for the smallest number of its kind
with its sign.
-/

namespace PredicateTrace

/-- What a token says, however it is written. -/
inductive Word
  | literal (v : Literal)
  | symbol (s : Symbol)
  | keyword (k : Keyword)
  | ident (name : String)

/-- Whether a whole number is one of those that a token of the given width can write. -/
def Token.InRange (t : Token) (bits n : Nat) : Prop :=
  n ≤ if Parser.isDecimal t.text then 2 ^ (bits - 1) - 1 else 2 ^ bits - 1

/-- A token writes a literal: numbers are in range, whole ones are reduced to the width of the kind, and
floating ones are rounded to it, but not to zero. -/
def Token.Denotes (t : Token) : Literal → Prop
  | .int m => ∃ n, t.lexeme = .int n ∧ t.InRange 32 n ∧ m = Number.wrap 32 n
  | .long m => ∃ n, t.lexeme = .long n ∧ t.InRange 64 n ∧ m = Number.wrap 64 n
  | .float y => ∃ x, t.lexeme = .float x ∧ y = Number.toSingle x ∧ y.isInf = false ∧
      (y == 0 && Parser.hasNonzeroDigit t.text) = false
  | .double y => t.lexeme = .double y ∧ y.isInf = false ∧ (y == 0 && Parser.hasNonzeroDigit t.text) = false
  | .char code => t.lexeme = .char code
  | .string text => t.lexeme = .string text
  | .units codes => t.lexeme = .units codes
  | .boolean b => t.lexeme = .keyword (if b then .true else .false)
  | .null => t.lexeme = .keyword .null

/-- A token is the digits of the smallest number of a kind, which is no literal without a sign. -/
def Token.IsSmallest (t : Token) : Literal → Prop
  | .int m => t.lexeme = .int (2 ^ 31) ∧ Parser.isDecimal t.text = true ∧ m = -2 ^ 31
  | .long m => t.lexeme = .long (2 ^ 63) ∧ Parser.isDecimal t.text = true ∧ m = -2 ^ 63
  | _ => False

/-- A token writes a word. -/
def Token.Spells (t : Token) : Word → Prop
  | .literal v => t.Denotes v
  | .symbol s => t.lexeme = .symbol s
  | .keyword k => t.lexeme = .keyword k
  | .ident name => t.lexeme = .ident name

/-- Tokens write words. The smallest number of a kind may be written with its sign. -/
inductive Spelled : List Token → List Word → Prop
  | nil : Spelled [] []
  | word {t word w ws} (ht : t.Spells word) (h : Spelled w ws) : Spelled (t :: w) (word :: ws)
  | smallest {sign t v w ws} (hsign : sign.lexeme = .symbol .minus) (ht : t.IsSmallest v) (h : Spelled w ws) :
      Spelled (sign :: t :: w) (.literal v :: ws)

lemma Spelled.append {w w' : List Token} {ws ws' : List Word} (h : Spelled w ws) (h' : Spelled w' ws') :
    Spelled (w ++ w') (ws ++ ws') := by
  induction h with
  | nil => exact h'
  | word ht _ ih => exact .word ht ih
  | smallest hsign ht _ ih => exact .smallest hsign ht ih

lemma spelled_append {w : List Token} {ws ws' : List Word} :
    Spelled w (ws ++ ws') ↔ ∃ u u', w = u ++ u' ∧ Spelled u ws ∧ Spelled u' ws' := by
  constructor
  · intro h
    induction ws generalizing w with
    | nil => exact ⟨[], w, rfl, .nil, h⟩
    | cons word ws ih =>
      cases h with
      | word ht h =>
        obtain ⟨u, u', rfl, hu, hu'⟩ := ih h
        exact ⟨_ :: u, u', rfl, .word ht hu, hu'⟩
      | smallest hsign ht h =>
        obtain ⟨u, u', rfl, hu, hu'⟩ := ih h
        exact ⟨_ :: _ :: u, u', rfl, .smallest hsign ht hu, hu'⟩
  · rintro ⟨u, u', rfl, hu, hu'⟩
    exact hu.append hu'

@[simp]
lemma spelled_nil {w : List Token} : Spelled w [] ↔ w = [] := by
  constructor
  · rintro ⟨⟩
    rfl
  · rintro rfl
    exact .nil

lemma spelled_symbol {w : List Token} {s : Symbol} {ws : List Word} :
    Spelled w (.symbol s :: ws) ↔ ∃ t u, w = t :: u ∧ t.lexeme = .symbol s ∧ Spelled u ws := by
  constructor
  · rintro ⟨⟩
    next ht h => exact ⟨_, _, rfl, ht, h⟩
  · rintro ⟨t, u, rfl, ht, h⟩
    exact .word ht h

lemma spelled_keyword {w : List Token} {k : Keyword} {ws : List Word} :
    Spelled w (.keyword k :: ws) ↔ ∃ t u, w = t :: u ∧ t.lexeme = .keyword k ∧ Spelled u ws := by
  constructor
  · rintro ⟨⟩
    next ht h => exact ⟨_, _, rfl, ht, h⟩
  · rintro ⟨t, u, rfl, ht, h⟩
    exact .word ht h

lemma spelled_ident {w : List Token} {name : String} {ws : List Word} :
    Spelled w (.ident name :: ws) ↔ ∃ t u, w = t :: u ∧ t.lexeme = .ident name ∧ Spelled u ws := by
  constructor
  · rintro ⟨⟩
    next ht h => exact ⟨_, _, rfl, ht, h⟩
  · rintro ⟨t, u, rfl, ht, h⟩
    exact .word ht h

namespace Parser

lemma floatingLiteral_eq_ok {t : Token} {x : Float} {make : Float → Literal} {v : Literal} :
    floatingLiteral t x make = .ok v ↔
      x.isInf = false ∧ (x == 0 && hasNonzeroDigit t.text) = false ∧ v = make x := by
  unfold floatingLiteral
  split
  · next h => simp [h]
  · next h =>
    split
    · next h' => simp [h']
    · next h' =>
      simp only [Bool.not_eq_true] at h h'
      simp [h, h', eq_comm]

/-- The literals that the parser takes a token for are those that the token denotes. -/
theorem literal?_eq_some_ok {t : Token} {v : Literal} : literal? t = some (.ok v) ↔ t.Denotes v := by
  obtain ⟨lexeme, p, text⟩ := t
  cases lexeme with
  | int n =>
    simp only [literal?, Option.some.injEq, map_eq_ok, integerLiteral_eq_ok]
    cases v with
    | int m =>
      simp only [Literal.int.injEq, Token.Denotes, Token.InRange, Lexeme.int.injEq, exists_eq_left']
      constructor
      · rintro ⟨k, ⟨hbound, hk⟩, hm⟩
        exact ⟨hbound, hm.symm.trans hk⟩
      · rintro ⟨hbound, hm⟩
        exact ⟨m, ⟨hbound, hm⟩, rfl⟩
    | _ => simp [Token.Denotes]
  | long n =>
    simp only [literal?, Option.some.injEq, map_eq_ok, integerLiteral_eq_ok]
    cases v with
    | long m =>
      simp only [Literal.long.injEq, Token.Denotes, Token.InRange, Lexeme.long.injEq, exists_eq_left']
      constructor
      · rintro ⟨k, ⟨hbound, hk⟩, hm⟩
        exact ⟨hbound, hm.symm.trans hk⟩
      · rintro ⟨hbound, hm⟩
        exact ⟨m, ⟨hbound, hm⟩, rfl⟩
    | _ => simp [Token.Denotes]
  | float x =>
    simp only [literal?, Option.some.injEq, floatingLiteral_eq_ok]
    cases v with
    | float y =>
      simp only [Literal.float.injEq, Token.Denotes, Lexeme.float.injEq, exists_eq_left']
      constructor
      · rintro ⟨hinf, hzero, rfl⟩
        exact ⟨rfl, hinf, hzero⟩
      · rintro ⟨rfl, hinf, hzero⟩
        exact ⟨hinf, hzero, rfl⟩
    | _ => simp [Token.Denotes]
  | double x =>
    simp only [literal?, Option.some.injEq, floatingLiteral_eq_ok]
    cases v with
    | double y =>
      simp only [Literal.double.injEq, Token.Denotes, Lexeme.double.injEq]
      constructor
      · rintro ⟨hinf, hzero, rfl⟩
        exact ⟨rfl, hinf, hzero⟩
      · rintro ⟨rfl, hinf, hzero⟩
        exact ⟨hinf, hzero, rfl⟩
    | _ => simp [Token.Denotes]
  | keyword k =>
    cases k <;> cases v <;> simp [literal?, Token.Denotes]
    all_goals next b => cases b <;> simp
  | _ => cases v <;> simp [literal?, Token.Denotes]

/-- The digits that the parser joins with a sign are those of a smallest number. -/
lemma smallest?_eq_some {t : Token} {v : Literal} : smallest? t = some v ↔ t.IsSmallest v := by
  obtain ⟨lexeme, p, text⟩ := t
  unfold smallest?
  by_cases hdecimal : isDecimal text = true
  · rw [if_pos hdecimal]
    cases lexeme with
    | int n =>
      cases v <;> simp [Token.IsSmallest, hdecimal]
      exact fun _ => eq_comm
    | long n =>
      cases v <;> simp [Token.IsSmallest, hdecimal]
      exact fun _ => eq_comm
    | _ => cases v <;> simp [Token.IsSmallest]
  · rw [if_neg hdecimal]
    cases v <;> simp [Token.IsSmallest, hdecimal]

end Parser

/-! ### Listing an expression -/

def UnaryOperator.symbol : UnaryOperator → Symbol
  | .minus => .minus
  | .plus => .plus
  | .not => .bang
  | .complement => .tilde

def BinaryOperator.symbol : BinaryOperator → Symbol
  | .disjunction => .or
  | .conjunction => .and
  | .arith .or => .bar
  | .arith .xor => .caret
  | .arith .and => .ampersand
  | .compare .eq => .eq
  | .compare .neq => .neq
  | .compare .lt => .lt
  | .compare .gt => .gt
  | .compare .le => .le
  | .compare .ge => .ge
  | .shift .lshl => .lshl
  | .shift .ashr => .ashr
  | .shift .lshr => .lshr
  | .arith .add => .plus
  | .arith .sub => .minus
  | .arith .mul => .star
  | .arith .div => .slash
  | .arith .mod => .percent

/-- How tight an operator binds, from `||` to the multiplicative ones. -/
def BinaryOperator.level : BinaryOperator → Nat
  | .disjunction => 0
  | .conjunction => 1
  | .arith .or => 2
  | .arith .xor => 3
  | .arith .and => 4
  | .compare .eq | .compare .neq => 5
  | .compare _ => 6
  | .shift _ => 7
  | .arith .add | .arith .sub => 8
  | .arith _ => 9

/-- The words of a written type. -/
def TypeName.words (t : TypeName) : List Word :=
  (match t.base with
    | .primitive p => [.keyword (.primitive p)]
    | .named [] => []
    | .named (first :: parts) => .ident first :: parts.flatMap fun part => [.symbol .dot, .ident part])
    ++ (List.replicate t.dims [Word.symbol .leftBracket, .symbol .rightBracket]).flatten

/-- Words in parentheses, where they are wanted. -/
def inParens (wanted : Bool) (ws : List Word) : List Word :=
  if wanted then .symbol .leftParen :: ws ++ [.symbol .rightParen] else ws

namespace Expr

variable {α β : Type}

/-- How tight an expression binds: an assignment is `0`, a conditional `1`, binary operators are `2` and up,
signs `12`, the other operators with one operand and casts `13`, and everything else `14`. The smallest
number of a kind counts as one with a sign. -/
def level : Expr α → Nat
  | .assign .. => 0
  | .conditional .. => 1
  | .binary _ op _ _ => op.level + 2
  | .instanceOf .. => Parser.instanceofLevel + 2
  | .unary _ .minus _ | .unary _ .plus _ => 12
  | .unary .. | .cast .. => 13
  | .literal _ (.int n) => if n = -2 ^ 31 then 12 else 14
  | .literal _ (.long n) => if n = -2 ^ 63 then 12 else 14
  | _ => 14

/-- How tight the operand of a cast has to bind: after a primitive type it may have a sign. -/
def castLevel (t : TypeName) : Nat :=
  match t.base, t.dims with
  | .primitive _, 0 => 12
  | _, _ => 13

mutual

/-- The words of an expression, from left to right. An operand is put in parentheses where `group` says so of
it and of the level that its place asks for. -/
def listing (group : Nat → Expr α → Bool) : Expr α → List Word
  | .literal _ v => [.literal v]
  | .name _ n => [.ident n]
  | .this _ => [.keyword .this]
  | .field _ e n => inParens (group 14 e) (e.listing group) ++ [.symbol .dot, .ident n]
  | .call _ e n args =>
    inParens (group 14 e) (e.listing group) ++ .symbol .dot :: .ident n :: listingArguments group args
  | .thisCall _ n args => .ident n :: listingArguments group args
  | .index _ e i =>
    inParens (group 14 e) (e.listing group) ++ .symbol .leftBracket :: (i.listing group ++ [.symbol .rightBracket])
  | .newObject _ t args => .keyword .new :: (t.words ++ listingArguments group args)
  | .newArray _ t dims extra =>
    .keyword .new :: (t.words ++ (listingSizes group dims
      ++ (List.replicate extra [Word.symbol .leftBracket, .symbol .rightBracket]).flatten))
  | .unary _ op e =>
    .symbol op.symbol :: inParens (group 12 e) (e.listing group)
  | .binary _ op l r =>
    inParens (group (op.level + 2) l) (l.listing group)
      ++ .symbol op.symbol :: inParens (group (op.level + 3) r) (r.listing group)
  | .instanceOf _ e t =>
    inParens (group (Parser.instanceofLevel + 2) e) (e.listing group) ++ .keyword .instanceof :: t.words
  | .cast _ t e =>
    .symbol .leftParen :: (t.words ++ .symbol .rightParen :: inParens (group (castLevel t) e) (e.listing group))
  | .conditional _ c yes no =>
    inParens (group 2 c) (c.listing group) ++ .symbol .question ::
      (inParens (group 1 yes) (yes.listing group) ++ .symbol .colon :: inParens (group 1 no) (no.listing group))
  | .assign _ target value =>
    inParens (group 1 target) (target.listing group) ++ .symbol .assign :: value.listing group

/-- The words of arguments with their parentheses. -/
def listingArguments (group : Nat → Expr α → Bool) : List (Expr α) → List Word
  | [] => [.symbol .leftParen, .symbol .rightParen]
  | e :: es => .symbol .leftParen :: (e.listing group ++ (listingMore group es ++ [.symbol .rightParen]))

/-- The words of the arguments after a first one. -/
def listingMore (group : Nat → Expr α → Bool) : List (Expr α) → List Word
  | [] => []
  | e :: es => .symbol .comma :: (e.listing group ++ listingMore group es)

/-- The words of the sizes of an array. -/
def listingSizes (group : Nat → Expr α → Bool) : List (Expr α) → List Word
  | [] => []
  | e :: es => .symbol .leftBracket :: (e.listing group ++ .symbol .rightBracket :: listingSizes group es)

end

/-- The words of an expression without parentheses around its operands. -/
def words (e : Expr α) : List Word :=
  e.listing fun _ _ => false

/-- Whether an expression binds weaker than its place asks for. -/
def isWeaker (limit : Nat) (e : Expr α) : Bool :=
  e.level < limit

/-- The words of an expression with parentheses around the operands that bind weaker than their places ask
for, and around no others. -/
def render (e : Expr α) : List Word :=
  e.listing isWeaker

end Expr

end PredicateTrace
