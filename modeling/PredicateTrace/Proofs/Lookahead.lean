import PredicateTrace.Proofs.ParserSoundness

/-!
# Looking ahead

What the tokens of a phrase and the token after it tell the parser: which token can continue a phrase, which
tokens begin one, and how a cast differs from an expression in parentheses.
-/

namespace PredicateTrace.Parser

variable {finish : Position} {rest w : List Token} {t : Token}

/-! ### The next token -/

/-- How tight a phrase can be that a symbol continues. -/
def reachOf : Symbol → Nat
  | .assign => 1
  | .question => 2
  | .dot | .leftBracket => 15
  | .leftParen | .bang | .tilde | .increment | .decrement => 16
  | s => match binary? s with
    | some (level, _) => level + 3
    | none => 0

/-- How tight a phrase can be that a token continues. -/
def reach (t : Token) : Nat :=
  match t.lexeme with
  | .symbol s => reachOf s
  | .keyword .instanceof => instanceofLevel + 3
  | .keyword (.primitive _) => 0
  | _ => 16

/-- The next token, if there is one, continues no phrase that is tighter than a limit. -/
def Stops (limit : Nat) (rest : List Token) : Prop :=
  ∀ t after, rest = t :: after → reach t ≤ limit

lemma Stops.mono {m n : Nat} (h : Stops m rest) (hmn : m ≤ n) : Stops n rest :=
  fun t after hrest => Nat.le_trans (h t after hrest) hmn

lemma stops_nil (limit : Nat) : Stops limit [] := by
  intro t after h
  simp at h

lemma stops_cons {limit : Nat} (h : reach t ≤ limit) (after : List Token) : Stops limit (t :: after) := by
  intro t' after' heq
  obtain ⟨rfl, rfl⟩ := List.cons.inj heq
  exact h

lemma reach_symbol {s : Symbol} (ht : t.lexeme = .symbol s) : reach t = reachOf s := by
  simp [reach, ht]

lemma operatorAt?_eq_some {level : Nat} {op : BinaryOperator} :
    operatorAt? level t = some op ↔ ∃ s, t.lexeme = .symbol s ∧ binary? s = some (level, op) := by
  unfold operatorAt?
  constructor
  · intro h
    split at h
    · next l op' hsome =>
      obtain ⟨s, hs, hop⟩ := Option.bind_eq_some_iff.mp hsome
      split at h
      · next hl =>
        obtain rfl := Option.some.inj h
        exact ⟨s, symbolOf?_eq_some.mp hs, by rw [hop, hl]⟩
      · simp at h
    · simp at h
  · rintro ⟨s, hs, hop⟩
    simp [symbolOf?_eq_some.mpr hs, hop]

lemma reach_operator {level : Nat} {op : BinaryOperator} (h : operatorAt? level t = some op) :
    reach t = level + 3 := by
  obtain ⟨s, hs, hop⟩ := operatorAt?_eq_some.mp h
  rw [reach_symbol hs]
  cases s <;> simp_all [binary?, reachOf]

lemma reach_instanceof (ht : t.lexeme = .keyword .instanceof) : reach t = instanceofLevel + 3 := by
  simp [reach, ht]

/-- A token that begins the operand of a cast continues nothing. -/
lemma reach_of_begins (ht : beginsCastOperand t = true) : reach t = 16 := by
  obtain ⟨lexeme, p, text⟩ := t
  cases lexeme with
  | keyword k => cases k <;> simp_all [beginsCastOperand, reach]
  | symbol s => cases s <;> simp_all [beginsCastOperand, reach, reachOf]
  | _ => rfl

/-- What follows a phrase of a limit is none of the tokens that reach further. -/
lemma Stops.symbol_ne {limit : Nat} {s : Symbol} {after : List Token} (h : Stops limit (t :: after))
    (hs : limit < reachOf s) : symbolOf? t ≠ some s := by
  intro ht
  have hreach := h t after rfl
  rw [reach_symbol (symbolOf?_eq_some.mp ht)] at hreach
  omega

lemma Stops.operatorAt?_eq_none {level : Nat} {after : List Token} (h : Stops (level + 2) (t :: after)) :
    operatorAt? level t = none := by
  by_contra hne
  obtain ⟨op, hop⟩ := Option.ne_none_iff_exists'.mp hne
  have hreach := h t after rfl
  rw [reach_operator hop] at hreach
  omega

lemma Stops.not_instanceof {limit : Nat} {after : List Token} (h : Stops limit (t :: after))
    (hlimit : limit < instanceofLevel + 3) : isInstanceof t = false := by
  refine Bool.eq_false_iff.mpr fun hne => ?_
  have ht := isInstanceof_eq_true.mp hne
  have hreach := h t after rfl
  rw [reach_instanceof ht] at hreach
  omega

lemma Stops.not_startsWith {limit : Nat} {s : Symbol} (h : Stops limit rest) (hs : limit < reachOf s) :
    startsWith s rest = false := by
  refine Bool.eq_false_iff.mpr fun hne => ?_
  obtain ⟨t, hrest, ht⟩ := startsWith_eq_true.mp hne
  rw [hrest] at h
  exact h.symbol_ne hs (symbolOf?_eq_some.mpr ht)

/-! ### The first token of a phrase -/

/-- A token that begins an operand without an operator in front of it. -/
def BeginsAccessed (t : Token) : Prop :=
  beginsCastOperand t = true ∧ (symbolOf? t).bind unary? = none ∧ smallest? t = none

/-- A token that begins an operand without a sign. -/
def BeginsUnsigned (t : Token) : Prop :=
  beginsCastOperand t = true ∧ smallest? t = none

/-- A token that begins an operand. -/
def BeginsUnary (t : Token) : Prop :=
  (beginsCastOperand t = true ∨ t.lexeme = .symbol .minus ∨ t.lexeme = .symbol .plus) ∧ smallest? t = none

lemma BeginsAccessed.unsigned (h : BeginsAccessed t) : BeginsUnsigned t :=
  ⟨h.1, h.2.2⟩

lemma BeginsUnsigned.unary (h : BeginsUnsigned t) : BeginsUnary t :=
  ⟨Or.inl h.1, h.2⟩

/-- How the tokens of a phrase begin. -/
def Phrase.Begins : Phrase → List Token → Prop
  | .expression _, w | .conditional _, w | .binary _ _, w | .unary _, w => ∃ t u, w = t :: u ∧ BeginsUnary t
  | .unsigned _, w => ∃ t u, w = t :: u ∧ BeginsUnsigned t
  | .accessed _, w => ∃ t u, w = t :: u ∧ BeginsAccessed t
  | .arguments _, w => ∃ t u, w = t :: u ∧ t.lexeme = .symbol .leftParen
  | .more _, _ | .sizes _ _, _ => True

lemma smallest?_symbol {s : Symbol} (ht : t.lexeme = .symbol s) : smallest? t = none := by
  simp [smallest?, ht]

lemma integerLiteral_eq_ok {bits n : Nat} {m : Int} :
    integerLiteral bits t n = .ok m ↔
      n ≤ (if isDecimal t.text then 2 ^ (bits - 1) - 1 else 2 ^ bits - 1) ∧ m = Number.wrap bits n := by
  unfold integerLiteral
  generalize (if isDecimal t.text then 2 ^ (bits - 1) - 1 else 2 ^ bits - 1) = bound
  dsimp only
  split
  · next h =>
    have hnot : ¬n ≤ bound := Nat.not_le_of_lt h
    simp [hnot]
  · next h => simp [Nat.le_of_not_lt h, eq_comm]

lemma beginsAccessed_literal {v : Literal} (ht : literal? t = some (.ok v)) : BeginsAccessed t := by
  obtain ⟨lexeme, p, text⟩ := t
  -- a decimal integer literal is smaller than the number that is only legal behind a sign
  have hinteger {bits n : Nat} {m : Int} (h : integerLiteral bits ⟨lexeme, p, text⟩ n = .ok m)
      (hbits : 0 < bits) : isDecimal text = true → n ≠ 2 ^ (bits - 1) := by
    intro hdecimal heq
    have hbound := (integerLiteral_eq_ok.mp h).1
    have hpos : 0 < 2 ^ (bits - 1) := Nat.two_pow_pos _
    simp only [hdecimal, if_true] at hbound
    omega
  cases lexeme with
  | int n =>
    obtain ⟨m, hm, -⟩ := map_eq_ok.mp (Option.some.inj ht)
    have hne := hinteger hm (by decide)
    simp_all [BeginsAccessed, beginsCastOperand, symbolOf?, smallest?]
  | long n =>
    obtain ⟨m, hm, -⟩ := map_eq_ok.mp (Option.some.inj ht)
    have hne := hinteger hm (by decide)
    simp_all [BeginsAccessed, beginsCastOperand, symbolOf?, smallest?]
  | keyword k => cases k <;> simp_all [literal?, BeginsAccessed, beginsCastOperand, symbolOf?, smallest?]
  | ident => simp [literal?] at ht
  | symbol s => simp [literal?] at ht
  | _ => simp [BeginsAccessed, beginsCastOperand, symbolOf?, smallest?]

/-- Every phrase that is not empty begins as its kind demands. -/
theorem Written.begins {p : Phrase} (h : Written p w) : p.Begins w := by
  have hleft {P : Token → Prop} {u : List Token} (v : List Token) (h : ∃ t x, u = t :: x ∧ P t) :
      ∃ t x, u ++ v = t :: x ∧ P t := by
    obtain ⟨t, x, rfl, ht⟩ := h
    exact ⟨t, x ++ v, rfl, ht⟩
  induction h with
  | ofConditional _ ih | ofBinary _ ih | ofUnary _ ih | tighter _ _ ih => exact ih
  | assign _ _ _ _ ih | conditional _ _ _ _ _ ih | binary _ _ _ _ ih | instanceOf _ _ _ ih
  | field _ _ _ ih | call _ _ _ _ ih | index _ _ _ _ _ ih => exact hleft _ ih
  | smallest ht | minus ht =>  exact ⟨_, _, rfl, Or.inr (Or.inl ht), smallest?_symbol ht⟩
  | plus ht => exact ⟨_, _, rfl, Or.inr (Or.inr ht), smallest?_symbol ht⟩
  | ofUnsigned _ ih =>
    obtain ⟨t, u, rfl, ht⟩ := ih
    exact ⟨t, u, rfl, ht.unary⟩
  | ofAccessed _ ih =>
    obtain ⟨t, u, rfl, ht⟩ := ih
    exact ⟨t, u, rfl, ht.unsigned⟩
  | unary ht =>
    obtain ⟨s, hs, hop⟩ := Option.bind_eq_some_iff.mp ht
    have hs := symbolOf?_eq_some.mp hs
    refine ⟨_, _, rfl, ?_, smallest?_symbol hs⟩
    cases s <;> simp [unary?] at hop <;> simp [beginsCastOperand, hs]
  | cast hl => exact ⟨_, _, rfl, by simp [beginsCastOperand, hl], smallest?_symbol hl⟩
  | group hl =>
    exact ⟨_, _, rfl, by simp [beginsCastOperand, hl], by simp [symbolOf?, hl, unary?], smallest?_symbol hl⟩
  | literal ht => exact ⟨_, _, rfl, beginsAccessed_literal ht⟩
  | this ht | name ht | thisCall ht | newObject ht | newArray ht =>
    exact ⟨_, _, rfl, by simp [beginsCastOperand, ht], by simp [symbolOf?, ht], by simp [smallest?, ht]⟩
  | noArguments hl | arguments hl => exact ⟨_, _, rfl, hl⟩
  | noMore | more | noSizes | size => trivial

/-! ### Types -/

lemma startsWith_cons {s s' : Symbol} (ht : t.lexeme = .symbol s') (w : List Token) :
    startsWith s (t :: w) = decide (s' = s) := by
  simp only [startsWith, List.head?_cons, Option.bind_some, symbolOf?_eq_some.mpr ht, Option.some_beq_some]
  rfl

lemma dottedParts_of_not_dot (h : startsWith .dot rest = false) : dottedParts rest = ([], rest) := by
  unfold dottedParts
  split
  · split
    · next hdot _ => simp [startsWith, hdot] at h
    · rfl
  · rfl

lemma emptyBrackets_of_not_bracket (h : startsWith .leftBracket rest = false) :
    emptyBrackets rest = (0, rest) := by
  unfold emptyBrackets
  split
  · split
    · next hl _ => simp [startsWith, hl] at h
    · rfl
  · rfl

lemma dottedParts_append {parts : List String} (hw : Dotted parts w) (h : startsWith .dot rest = false) :
    dottedParts (w ++ rest) = (parts, rest) := by
  induction hw with
  | nil => exact dottedParts_of_not_dot h
  | cons hdot hname _ ih =>
    rw [List.cons_append, List.cons_append, dottedParts]
    simp only [symbolOf?_eq_some.mpr hdot, nameOf?_eq_some.mpr hname, ih]

lemma emptyBrackets_append {n : Nat} (hw : Brackets n w) (h : startsWith .leftBracket rest = false) :
    emptyBrackets (w ++ rest) = (n, rest) := by
  induction hw with
  | zero => exact emptyBrackets_of_not_bracket h
  | succ hl hr _ ih =>
    rw [List.cons_append, List.cons_append, emptyBrackets]
    simp only [symbolOf?_eq_some.mpr hl, symbolOf?_eq_some.mpr hr, ih]

lemma typeName_append {type : TypeName} (hw : BaseWritten type w) (h : startsWith .dot rest = false) :
    typeName finish (w ++ rest) = .ok (type, rest) := by
  cases hw with
  | primitive ht hp =>
    simp only [List.cons_append, List.nil_append, typeName, primitiveOf?_eq_some.mpr ⟨ht, hp⟩]
  | @named t name parts w ht hw =>
    have hp : primitiveOf? t = none := by simp [primitiveOf?, ht]
    simp only [List.cons_append, typeName, hp, nameOf?_eq_some.mpr ht, dottedParts_append hw h]

lemma Brackets.not_dot {n : Nat} (hw : Brackets n w) (h : startsWith .dot rest = false) :
    startsWith .dot (w ++ rest) = false := by
  cases hw with
  | zero => exact h
  | succ hl => exact startsWith_cons hl _

lemma type_append {type : TypeName} (hw : TypeWritten type w) (hdot : startsWith .dot rest = false)
    (hbracket : startsWith .leftBracket rest = false) :
    Parser.type finish (w ++ rest) = .ok (type, rest) := by
  cases hw with
  | mk hbase hdims =>
    rw [List.append_assoc, Parser.type, typeName_append hbase (hdims.not_dot hdot)]
    simp only [bind, Except.bind, emptyBrackets_append hdims hbracket]
    rfl

/-! ### Parentheses -/

/-- Whether a token is a parenthesis. -/
def IsParen (t : Token) : Prop :=
  t.lexeme = .symbol .leftParen ∨ t.lexeme = .symbol .rightParen

/-- Every closing parenthesis comes after an opening one. -/
def Enclosed (w : List Token) : Prop :=
  ∀ u c v, w = u ++ c :: v → c.lexeme = .symbol .rightParen → ∃ o ∈ u, o.lexeme = .symbol .leftParen

lemma enclosed_nil : Enclosed [] := by
  intro u c v h
  simp at h

lemma enclosed_open (ht : t.lexeme = .symbol .leftParen) (w : List Token) : Enclosed (t :: w) := by
  intro u c v h hc
  cases u with
  | nil =>
    obtain ⟨rfl, -⟩ := List.cons.inj h
    simp [ht] at hc
  | cons first u =>
    obtain ⟨rfl, -⟩ := List.cons.inj h
    exact ⟨t, List.mem_cons_self, ht⟩

lemma Enclosed.cons (hw : Enclosed w) (ht : t.lexeme ≠ .symbol .rightParen) : Enclosed (t :: w) := by
  intro u c v h hc
  cases u with
  | nil =>
    obtain ⟨rfl, -⟩ := List.cons.inj h
    exact absurd hc ht
  | cons first u =>
    obtain ⟨rfl, htail⟩ := List.cons.inj h
    obtain ⟨o, ho, hopen⟩ := hw u c v htail hc
    exact ⟨o, List.mem_cons_of_mem _ ho, hopen⟩

lemma Enclosed.append {w' : List Token} (hw : Enclosed w) (hw' : Enclosed w') : Enclosed (w ++ w') := by
  intro u c v h hc
  rcases List.append_eq_append_iff.mp h with ⟨x, rfl, hx⟩ | ⟨x, rfl, hx⟩
  · obtain ⟨o, ho, hopen⟩ := hw' x c v hx hc
    exact ⟨o, List.mem_append_right _ ho, hopen⟩
  · cases x with
    | nil =>
      obtain ⟨o, ho, -⟩ := hw' [] c v hx.symm hc
      simp at ho
    | cons first x =>
      obtain ⟨rfl, -⟩ := List.cons.inj hx
      exact hw u c x rfl hc

lemma Dotted.not_paren {parts : List String} (hw : Dotted parts w) :
    ∀ t ∈ w, ¬IsParen t := by
  induction hw with
  | nil => simp
  | cons hdot hname _ ih => simpa [IsParen, hdot, hname] using ih

lemma Brackets.not_paren {n : Nat} (hw : Brackets n w) :
    ∀ t ∈ w, ¬IsParen t := by
  induction hw with
  | zero => simp
  | succ hl hr _ ih => simpa [IsParen, hl, hr] using ih

lemma enclosed_of_not_paren (h : ∀ t ∈ w, ¬IsParen t) : Enclosed w := by
  rintro u c v rfl hc
  exact absurd (Or.inr hc) (h c (by simp))

lemma BaseWritten.not_paren {type : TypeName} (hw : BaseWritten type w) : ∀ t ∈ w, ¬IsParen t := by
  cases hw with
  | primitive ht => simp [IsParen, ht]
  | named ht hw => simpa [IsParen, ht] using hw.not_paren

lemma TypeWritten.not_paren {type : TypeName} (hw : TypeWritten type w) : ∀ t ∈ w, ¬IsParen t := by
  cases hw with
  | mk hbase hdims => exact List.forall_mem_append.mpr ⟨hbase.not_paren, hdims.not_paren⟩

lemma ne_rightParen_of_literal {v : Literal} (ht : literal? t = some (.ok v)) :
    t.lexeme ≠ .symbol .rightParen := by
  intro h
  simp [literal?, h] at ht

theorem Written.enclosed {p : Phrase} (h : Written p w) : Enclosed w := by
  induction h with
  | ofConditional _ ih | ofBinary _ ih | ofUnary _ ih | tighter _ _ ih | ofUnsigned _ ih
  | ofAccessed _ ih => exact ih
  | assign _ _ ht _ ih ih' => exact ih.append (ih'.cons (by simp [ht]))
  | conditional _ hq _ hcolon _ ih ih' ih'' =>
    exact ih.append ((ih'.append (ih''.cons (by simp [hcolon]))).cons (by simp [hq]))
  | binary _ _ ht _ ih ih' =>
    refine ih.append (ih'.cons ?_)
    obtain ⟨s, hs, hop⟩ := operatorAt?_eq_some.mp ht
    rintro hr
    obtain rfl : s = .rightParen := by simpa [hs] using hr
    simp [binary?] at hop
  | instanceOf _ ht htype ih => exact ih.append ((enclosed_of_not_paren htype.not_paren).cons (by simp [ht]))
  | smallest ht hnext =>
    refine (enclosed_nil.cons ?_).cons (by simp [ht])
    intro hr
    simp [smallest?, hr] at hnext
  | minus ht _ ih | plus ht _ ih => exact ih.cons (by simp [ht])
  | unary ht _ ih =>
    refine ih.cons fun hr => ?_
    simp [symbolOf?, hr, unary?] at ht
  | cast hl | group hl | noArguments hl | arguments hl => exact enclosed_open hl _
  | literal ht => exact enclosed_nil.cons (ne_rightParen_of_literal ht)
  | this ht | name ht => exact enclosed_nil.cons (by simp [ht])
  | thisCall ht _ ih => exact ih.cons (by simp [ht])
  | newObject ht htype _ _ ih => exact ((enclosed_of_not_paren htype.not_paren).append ih).cons (by simp [ht])
  | newArray ht htype _ _ ih => exact ((enclosed_of_not_paren htype.not_paren).append ih).cons (by simp [ht])
  | field _ hdot ht ih => exact ih.append ((enclosed_nil.cons (by simp [ht])).cons (by simp [hdot]))
  | call _ hdot ht _ ih ih' => exact ih.append ((ih'.cons (by simp [ht])).cons (by simp [hdot]))
  | index _ _ hl _ hr ih ih' =>
    exact ih.append ((ih'.append (enclosed_nil.cons (by simp [hr]))).cons (by simp [hl]))
  | noMore => exact enclosed_nil
  | more hcomma _ _ ih ih' => exact (ih.append ih').cons (by simp [hcomma])
  | noSizes h => exact enclosed_of_not_paren h.not_paren
  | size hl _ hr _ ih ih' => exact (ih.append (ih'.cons (by simp [hr]))).cons (by simp [hl])

/-- An expression in parentheses is not taken for a cast. -/
lemma isCast_group {r : Token} (hw : Enclosed w) (hbegin : ∃ t u, w = t :: u ∧ BeginsUnary t)
    (hr : r.lexeme = .symbol .rightParen) (hrest : Stops 15 rest) : isCast (w ++ r :: rest) = false := by
  obtain ⟨t, u, rfl, ⟨hbegin, -⟩⟩ := hbegin
  have hprimitive : primitiveOf? t = none := by
    rw [Option.eq_none_iff_forall_ne_some]
    intro p hp
    have ht := (primitiveOf?_eq_some.mp hp).1
    simp [beginsCastOperand, ht] at hbegin
  -- the closing parenthesis that ends the name of a type would be that of the group
  have hlast {x : List Token} {next : Token} (hx : r :: rest = x) :
      ∀ close after, x = close :: next :: after → beginsCastOperand next = false := by
    rintro close after rfl
    obtain ⟨rfl, rfl⟩ := List.cons.inj hx
    refine Bool.eq_false_iff.mpr fun hnext => ?_
    have hreach := hrest next after rfl
    rw [reach_of_begins hnext] at hreach
    omega
  simp only [isCast, List.cons_append, hprimitive, Option.isSome_none, Bool.false_eq_true, if_false]
  cases hname : nameOf? t with
  | none => rfl
  | some name =>
    have ht := nameOf?_eq_some.mp hname
    simp only [Option.isSome_some, if_true]
    obtain ⟨w₁, h₁, hdotted⟩ := dotted_dottedParts (u ++ r :: rest)
    obtain ⟨w₂, h₂, hbrackets⟩ := brackets_emptyBrackets (dottedParts (u ++ r :: rest)).2
    generalize (emptyBrackets (dottedParts (u ++ r :: rest)).2).2 = x at h₂
    have htokens : u ++ r :: rest = (w₁ ++ w₂) ++ x := by rw [h₁, h₂, List.append_assoc]
    have hplain : ∀ c ∈ w₁ ++ w₂, ¬IsParen c := by
      intro c hc
      rcases List.mem_append.mp hc with hc | hc
      · exact hdotted.not_paren c hc
      · exact hbrackets.not_paren c hc
    split
    · next close next after =>
      refine Bool.eq_false_iff.mpr fun hboth => ?_
      obtain ⟨hclose, hnext⟩ := Bool.and_eq_true_iff.mp hboth
      have hclose := symbolOf?_eq_some.mp (eq_of_beq hclose)
      rcases List.append_eq_append_iff.mp htokens with ⟨v, hv, hx⟩ | ⟨v, rfl, hx⟩
      · cases v with
        | nil =>
          have hfalse := hlast hx close after rfl
          simp [hnext] at hfalse
        | cons first v =>
          obtain ⟨rfl, -⟩ := List.cons.inj hx
          exact hplain r (by simp [hv]) (Or.inr hr)
      · cases v with
        | nil =>
          have hfalse := hlast hx.symm close after rfl
          simp [hnext] at hfalse
        | cons first v =>
          obtain ⟨rfl, -⟩ := List.cons.inj hx
          obtain ⟨o, ho, hopen⟩ := hw (t :: (w₁ ++ w₂)) close v rfl hclose
          rcases List.mem_cons.mp ho with rfl | ho
          · simp [ht] at hopen
          · exact hplain o ho (Or.inl hopen)
    · rfl

/-- A group with the accesses behind it is not taken for a cast. -/
lemma isCast_accessed {e : Expr Position} (h : Written (.accessed e) w) (hrest : Stops 15 rest)
    {u : List Token} (hw : w = t :: u) (ht : t.lexeme = .symbol .leftParen) : isCast (u ++ rest) = false := by
  have hleft {e : Expr Position} {w v u : List Token} (h : Written (.accessed e) w) (hw : w ++ v = t :: u) :
      ∃ u', w = t :: u' ∧ u = u' ++ v := by
    obtain ⟨t', u', rfl, -⟩ := h.begins
    rw [List.cons_append] at hw
    obtain ⟨rfl, rfl⟩ := List.cons.inj hw
    exact ⟨u', rfl, rfl⟩
  generalize hp : Phrase.accessed e = p at h
  induction h generalizing e u rest with
  | @group l _ r _ _ h hr =>
    obtain ⟨rfl, rfl⟩ := List.cons.inj hw
    rw [List.append_assoc]
    exact isCast_group h.enclosed h.begins hr hrest
  | field h hdot _ ih | call h hdot _ _ ih =>
    obtain ⟨u', rfl, rfl⟩ := hleft h hw
    rw [List.append_assoc]
    exact ih (stops_cons (by rw [reach_symbol hdot]; decide) _) rfl rfl
  | index h _ hl _ _ ih =>
    obtain ⟨u', rfl, rfl⟩ := hleft h hw
    rw [List.append_assoc]
    exact ih (stops_cons (by rw [reach_symbol hl]; decide) _) rfl rfl
  | literal h =>
    obtain ⟨rfl, rfl⟩ := List.cons.inj hw
    simp [literal?, ht] at h
  | this h | name h | thisCall h | newObject h | newArray h =>
    obtain ⟨rfl, rfl⟩ := List.cons.inj hw
    simp [ht] at h
  | _ => cases hp

/-- A type in parentheses in front of its operand is taken for a cast. -/
lemma isCast_type {e : Expr Position} {type : TypeName} {r : Token} {w' : List Token} (hw : TypeWritten type w)
    (hr : r.lexeme = .symbol .rightParen) (hbegin : (castOperand type e).Begins w') :
    isCast (w ++ r :: (w' ++ rest)) = true := by
  cases hw with
  | @mk base n w w₁ hbase hdims =>
    cases hbase with
    | primitive ht hp => simp [isCast, primitiveOf?_eq_some.mpr ⟨ht, hp⟩]
    | @named t name parts w ht hw =>
      rw [castOperand_other (by simp)] at hbegin
      obtain ⟨next, u, rfl, hnext, -⟩ := hbegin
      have hp : primitiveOf? t = none := by simp [primitiveOf?, ht]
      have hdot : startsWith .dot (w₁ ++ r :: (next :: u ++ rest)) = false := hdims.not_dot (startsWith_cons hr _)
      have hbracket : startsWith .leftBracket (r :: (next :: u ++ rest)) = false := startsWith_cons hr _
      rw [List.append_assoc, List.cons_append, isCast, dottedParts_append hw hdot,
        emptyBrackets_append hdims hbracket]
      simp [hp, nameOf?_eq_some.mpr ht, symbolOf?_eq_some.mpr hr, hnext]

end PredicateTrace.Parser
