import PredicateTrace.Proofs.Words

/-!
# The tokens of a parsed expression

A parsed list of tokens, without its grouping parentheses, writes the words of the expression in their order:
parsing drops, adds and moves nothing.
-/

namespace PredicateTrace

open PredicateTrace.Parser

/-- Tokens without some pairs of balanced parentheses. -/
inductive Ungrouped : List Token → List Token → Prop
  | nil : Ungrouped [] []
  | keep {t w kept} (ht : ¬IsParen t) (h : Ungrouped w kept) : Ungrouped (t :: w) (t :: kept)
  | pair {l r w kept w' kept'} (hl : l.lexeme = .symbol .leftParen) (hr : r.lexeme = .symbol .rightParen)
      (h : Ungrouped w kept) (h' : Ungrouped w' kept') : Ungrouped (l :: (w ++ r :: w')) (l :: (kept ++ r :: kept'))
  | group {l r w kept w' kept'} (hl : l.lexeme = .symbol .leftParen) (hr : r.lexeme = .symbol .rightParen)
      (h : Ungrouped w kept) (h' : Ungrouped w' kept') : Ungrouped (l :: (w ++ r :: w')) (kept ++ kept')

variable {w w' kept kept' : List Token}

lemma Ungrouped.append (h : Ungrouped w kept) (h' : Ungrouped w' kept') : Ungrouped (w ++ w') (kept ++ kept') := by
  induction h with
  | nil => exact h'
  | keep ht _ ih => exact .keep ht ih
  | pair hl hr h _ _ ih =>
    have hpair := Ungrouped.pair hl hr h ih
    simpa using hpair
  | group hl hr h _ _ ih =>
    have hgroup := Ungrouped.group hl hr h ih
    simpa using hgroup

lemma ungrouped_of_not_paren (h : ∀ t ∈ w, ¬IsParen t) : Ungrouped w w := by
  induction w with
  | nil => exact .nil
  | cons t w ih =>
    obtain ⟨ht, hw⟩ := List.forall_mem_cons.mp h
    exact .keep ht (ih hw)

/-- Tokens write words once some pairs of balanced parentheses are taken out. -/
def Lists (w : List Token) (ws : List Word) : Prop :=
  ∃ kept, Ungrouped w kept ∧ Spelled kept ws

lemma Lists.append {ws ws' : List Word} (h : Lists w ws) (h' : Lists w' ws') : Lists (w ++ w') (ws ++ ws') := by
  obtain ⟨kept, hkept, hws⟩ := h
  obtain ⟨kept', hkept', hws'⟩ := h'
  exact ⟨kept ++ kept', hkept.append hkept', hws.append hws'⟩

lemma Lists.cons {t : Token} {word : Word} {ws : List Word} (h : Lists w ws) (ht : ¬IsParen t)
    (hword : t.Spells word) : Lists (t :: w) (word :: ws) := by
  obtain ⟨kept, hkept, hws⟩ := h
  exact ⟨t :: kept, .keep ht hkept, .word hword hws⟩

lemma Lists.symbol {t : Token} {s : Symbol} {ws : List Word} (h : Lists w ws) (ht : t.lexeme = .symbol s)
    (hs : s ≠ .leftParen ∧ s ≠ .rightParen) : Lists (t :: w) (.symbol s :: ws) :=
  h.cons (by simpa [IsParen, ht] using hs) ht

lemma Lists.keyword {t : Token} {k : Keyword} {ws : List Word} (h : Lists w ws) (ht : t.lexeme = .keyword k) :
    Lists (t :: w) (.keyword k :: ws) :=
  h.cons (by simp [IsParen, ht]) ht

lemma Lists.ident {t : Token} {name : String} {ws : List Word} (h : Lists w ws) (ht : t.lexeme = .ident name) :
    Lists (t :: w) (.ident name :: ws) :=
  h.cons (by simp [IsParen, ht]) ht

lemma lists_nil : Lists [] [] :=
  ⟨[], .nil, .nil⟩

lemma Lists.pair {l r : Token} {ws ws' : List Word} (hl : l.lexeme = .symbol .leftParen)
    (hr : r.lexeme = .symbol .rightParen) (h : Lists w ws) (h' : Lists w' ws') :
    Lists (l :: (w ++ r :: w')) (.symbol .leftParen :: (ws ++ .symbol .rightParen :: ws')) := by
  obtain ⟨kept, hkept, hws⟩ := h
  obtain ⟨kept', hkept', hws'⟩ := h'
  exact ⟨l :: (kept ++ r :: kept'), .pair hl hr hkept hkept', .word hl (hws.append (.word hr hws'))⟩

lemma Lists.group {l r : Token} {ws : List Word} (hl : l.lexeme = .symbol .leftParen)
    (hr : r.lexeme = .symbol .rightParen) (h : Lists w ws) : Lists (l :: (w ++ [r])) ws := by
  obtain ⟨kept, hkept, hws⟩ := h
  exact ⟨kept, by simpa using Ungrouped.group hl hr hkept .nil, hws⟩

lemma lists_of_not_paren {ws : List Word} (h : ∀ t ∈ w, ¬IsParen t) (hws : Spelled w ws) : Lists w ws :=
  ⟨w, ungrouped_of_not_paren h, hws⟩

/-! ### Types -/

/-- The words of pairs of empty brackets. -/
lemma Parser.Brackets.spelled {n : Nat} (h : Brackets n w) :
    Spelled w (List.replicate n [Word.symbol .leftBracket, .symbol .rightBracket]).flatten := by
  induction h with
  | zero => exact .nil
  | succ hl hr _ ih => exact .word hl (.word hr ih)

lemma Parser.Dotted.spelled {parts : List String} (h : Dotted parts w) :
    Spelled w (parts.flatMap fun part => [.symbol .dot, .ident part]) := by
  induction h with
  | nil => exact .nil
  | cons hdot hname _ ih => exact .word hdot (.word hname ih)

lemma Parser.BaseWritten.spelled {type : TypeName} (h : BaseWritten type w) : Spelled w type.words := by
  cases h with
  | primitive ht => exact spelled_keyword.mpr ⟨_, [], rfl, ht, .nil⟩
  | named ht hw =>
    rw [TypeName.words, List.replicate_zero, List.flatten_nil, List.append_nil]
    exact spelled_ident.mpr ⟨_, _, rfl, ht, hw.spelled⟩

lemma Parser.TypeWritten.spelled {type : TypeName} (h : TypeWritten type w) : Spelled w type.words := by
  cases h with
  | @mk base n _ _ hbase hdims =>
    have hdims₀ : base.dims = 0 := by cases hbase <;> rfl
    have hwords : ({ base with dims := n } : TypeName).words =
        base.words ++ (List.replicate n [Word.symbol .leftBracket, .symbol .rightBracket]).flatten := by
      simp [TypeName.words, hdims₀]
    rw [hwords]
    exact hbase.spelled.append hdims.spelled

/-! ### Phrases -/

/-- The words of a phrase without parentheses around operands. -/
def Parser.Phrase.words : Phrase → List Word
  | .expression e | .conditional e | .binary _ e | .unary e | .unsigned e | .accessed e => e.words
  | .arguments es => Expr.listingArguments (fun _ _ => false) es
  | .more es => Expr.listingMore (fun _ _ => false) es
  | .sizes es n => Expr.listingSizes (fun _ _ => false) es
      ++ (List.replicate n [Word.symbol .leftBracket, .symbol .rightBracket]).flatten

lemma words_castOperand (type : TypeName) (e : Expr Position) : (castOperand type e).words = e.words := by
  unfold castOperand
  split <;> rfl

lemma symbol_of_operatorAt? {level : Nat} {t : Token} {op : BinaryOperator} (h : operatorAt? level t = some op) :
    t.lexeme = .symbol op.symbol := by
  obtain ⟨s, hs, hop⟩ := operatorAt?_eq_some.mp h
  rw [hs]
  cases s <;> simp [binary?] at hop <;> obtain ⟨-, rfl⟩ := hop <;> rfl

lemma symbol_of_unary? {t : Token} {op : UnaryOperator} (h : (symbolOf? t).bind unary? = some op) :
    t.lexeme = .symbol op.symbol := by
  obtain ⟨s, hs, hop⟩ := Option.bind_eq_some_iff.mp h
  rw [symbolOf?_eq_some.mp hs]
  cases s <;> simp [unary?] at hop <;> subst hop <;> rfl

lemma BinaryOperator.symbol_ne_paren (op : BinaryOperator) : op.symbol ≠ .leftParen ∧ op.symbol ≠ .rightParen := by
  rcases op with op | op | op | _ | _
  · cases op <;> decide
  · cases op <;> decide
  · cases op <;> decide
  · decide
  · decide

lemma UnaryOperator.symbol_ne_paren (op : UnaryOperator) : op.symbol ≠ .leftParen ∧ op.symbol ≠ .rightParen := by
  cases op <;> decide

lemma not_paren_of_literal {t : Token} {v : Literal} (ht : literal? t = some (.ok v)) : ¬IsParen t := by
  rintro (h | h) <;> simp [literal?, h] at ht

/-- The tokens of a phrase write its words, and have other parentheses only around its operands. -/
theorem lists_of_written {p : Phrase} (h : Written p w) : Lists w p.words := by
  induction h with
  | ofConditional _ ih | ofBinary _ ih | ofUnary _ ih | tighter _ _ ih | ofUnsigned _ ih
  | ofAccessed _ ih => exact ih
  | assign _ _ ht _ ih ih' => exact ih.append (ih'.symbol ht (by decide))
  | conditional _ hq _ hcolon _ ih ih' ih'' =>
    exact ih.append ((ih'.append (ih''.symbol hcolon (by decide))).symbol hq (by decide))
  | binary _ _ ht _ ih ih' =>
    exact ih.append (ih'.symbol (symbol_of_operatorAt? ht) (BinaryOperator.symbol_ne_paren _))
  | instanceOf _ ht htype ih =>
    exact ih.append ((lists_of_not_paren htype.not_paren htype.spelled).keyword ht)
  | @smallest sign t _ ht hnext =>
    have hsign : ¬IsParen sign := by simp [IsParen, ht]
    have hdigits : ¬IsParen t := by
      rintro (h | h) <;> simp [smallest?, h] at hnext
    exact ⟨[sign, t], .keep hsign (.keep hdigits .nil), .smallest ht (smallest?_eq_some.mp hnext) .nil⟩
  | minus ht _ ih | plus ht _ ih => exact ih.symbol ht (by decide)
  | unary ht _ ih => exact ih.symbol (symbol_of_unary? ht) (UnaryOperator.symbol_ne_paren _)
  | cast hl htype hr _ ih =>
    rw [words_castOperand] at ih
    exact (lists_of_not_paren htype.not_paren htype.spelled).pair hl hr ih
  | group hl _ hr ih => exact ih.group hl hr
  | literal ht => exact lists_nil.cons (not_paren_of_literal ht) (literal?_eq_some_ok.mp ht)
  | this ht => exact lists_nil.keyword ht
  | name ht => exact lists_nil.ident ht
  | thisCall ht _ ih => exact ih.ident ht
  | newObject ht htype _ _ ih =>
    exact ((lists_of_not_paren htype.not_paren htype.spelled).append ih).keyword ht
  | newArray ht htype _ _ ih =>
    exact ((lists_of_not_paren htype.not_paren htype.spelled).append ih).keyword ht
  | field _ hdot ht ih => exact ih.append ((lists_nil.ident ht).symbol hdot (by decide))
  | call _ hdot ht _ ih ih' => exact ih.append ((ih'.ident ht).symbol hdot (by decide))
  | index _ _ hl _ hr ih ih' =>
    exact ih.append ((ih'.append (lists_nil.symbol hr (by decide))).symbol hl (by decide))
  | noArguments hl hr => exact lists_nil.pair hl hr lists_nil
  | arguments hl _ _ hr ih ih' =>
    have hpair := (ih.append ih').pair hl hr lists_nil
    simpa [Phrase.words, Expr.words, Expr.listingArguments] using hpair
  | noMore => exact lists_nil
  | more hcomma _ _ ih ih' => exact (ih.append ih').symbol hcomma (by decide)
  | noSizes h => exact lists_of_not_paren h.not_paren h.spelled
  | size hl _ hr _ ih ih' =>
    have hsize := (ih.append (ih'.symbol hr (by decide))).symbol hl (by decide)
    simpa [Phrase.words, Expr.words, Expr.listingSizes] using hsize

end PredicateTrace
