import PredicateTrace.Proofs.Words

/-!
# Parsing what was rendered

The words of an expression with parentheses around the operands that bind too weakly, and around no others,
are parsed to the same expression, whatever tokens write them. Positions aside, an expression is determined
by its rendering.
-/

namespace PredicateTrace

open PredicateTrace.Parser

variable {α β : Type} {w : List Token}

/-! ### Expressions that can be written -/

/-- A literal has a number of its kind. -/
def Literal.InRange : Literal → Prop
  | .int m => -2 ^ 31 ≤ m ∧ m < 2 ^ 31
  | .long m => -2 ^ 63 ≤ m ∧ m < 2 ^ 63
  | .float y => y.isInf = false ∧ ∃ x, y = Number.toSingle x
  | .double y => y.isInf = false
  | _ => True

/-- A type that a value can have, with a name that is not empty. -/
def TypeName.IsWritable (t : TypeName) : Prop :=
  t.base ≠ .primitive .void ∧ t.base ≠ .named []

namespace Expr

mutual

/-- The expressions that the grammar covers. -/
def Covered : Expr α → Prop
  | .literal _ v => v.InRange
  | .name .. | .this _ => True
  | .field _ e _ => e.Covered
  | .call _ e _ args => e.Covered ∧ CoveredAll args
  | .thisCall _ _ args => CoveredAll args
  | .index _ e i => e.Covered ∧ e.isNewArray = false ∧ i.Covered
  | .newObject _ t args => (t.IsWritable ∧ t.dims = 0 ∧ ∀ p, t.base ≠ .primitive p) ∧ CoveredAll args
  | .newArray _ t dims _ => (t.IsWritable ∧ t.dims = 0 ∧ dims ≠ []) ∧ CoveredAll dims
  | .unary _ _ e => e.Covered
  | .binary _ _ l r => l.Covered ∧ r.Covered
  | .instanceOf _ e t | .cast _ t e => t.IsWritable ∧ e.Covered
  | .conditional _ c yes no => c.Covered ∧ yes.Covered ∧ no.Covered
  | .assign _ target value => (target.isAssignable = true ∧ target.Covered) ∧ value.Covered

def CoveredAll : List (Expr α) → Prop
  | [] => True
  | e :: es => e.Covered ∧ CoveredAll es

end

mutual

/-- An expression without its annotations and positions. -/
def bare : Expr α → Expr Unit
  | .literal _ v => .literal () v
  | .name _ n => .name () n
  | .this _ => .this ()
  | .field _ e n => .field () e.bare n
  | .call _ e n args => .call () e.bare n (bareAll args)
  | .thisCall _ n args => .thisCall () n (bareAll args)
  | .index _ e i => .index () e.bare i.bare
  | .newObject _ t args => .newObject () { t with position := .start } (bareAll args)
  | .newArray _ t dims extra => .newArray () { t with position := .start } (bareAll dims) extra
  | .unary _ op e => .unary () op e.bare
  | .binary _ op l r => .binary () op l.bare r.bare
  | .instanceOf _ e t => .instanceOf () e.bare { t with position := .start }
  | .cast _ t e => .cast () { t with position := .start } e.bare
  | .conditional _ c yes no => .conditional () c.bare yes.bare no.bare
  | .assign _ target value => .assign () target.bare value.bare

def bareAll : List (Expr α) → List (Expr Unit)
  | [] => []
  | e :: es => e.bare :: bareAll es

end

lemma isAssignable_bare (e : Expr α) : e.bare.isAssignable = e.isAssignable := by
  cases e <;> simp [bare, isAssignable]

lemma isNewArray_bare (e : Expr α) : e.bare.isNewArray = e.isNewArray := by
  cases e <;> simp [bare, isNewArray]

end Expr

/-! ### Phrases by their levels -/

/-- The phrase of the expressions that bind as tight as a level. -/
def phraseAt (level : Nat) (e : Expr Position) : Phrase :=
  if level = 0 then .expression e
  else if level = 1 then .conditional e
  else if level < 12 then .binary (level - 2) e
  else if level = 12 then .unary e
  else if level = 13 then .unsigned e
  else .accessed e

lemma written_looser {n : Nat} {e : Expr Position} (hn : n < 14) (h : Written (phraseAt (n + 1) e) w) :
    Written (phraseAt n e) w := by
  by_cases hbinary : 2 ≤ n ∧ n < 11
  · obtain ⟨k, rfl⟩ : ∃ k, n = k + 2 := Nat.exists_eq_add_of_le' hbinary.1
    have hk : k < levels := by
      have hlevels : levels = 10 := rfl
      omega
    have hphrase {m : Nat} (hm : m < 10) : phraseAt (m + 2) e = .binary m e := by
      simp [phraseAt, show m + 2 < 12 by omega]
    rw [show k + 2 + 1 = (k + 1) + 2 by omega, hphrase (by omega)] at h
    rw [hphrase (by omega)]
    exact .tighter hk h
  · obtain rfl | rfl | rfl | rfl | rfl : n = 0 ∨ n = 1 ∨ n = 11 ∨ n = 12 ∨ n = 13 := by omega
    · exact .ofConditional h
    · exact .ofBinary h
    · exact .tighter (by decide) (.ofUnary h)
    · exact .ofUnsigned h
    · exact .ofAccessed h

/-- What binds tight enough stands where less is asked for. -/
lemma written_mono {m n : Nat} {e : Expr Position} (h : Written (phraseAt n e) w) (hmn : m ≤ n) (hn : n ≤ 14) :
    Written (phraseAt m e) w := by
  induction n with
  | zero =>
    obtain rfl : m = 0 := by omega
    exact h
  | succ n ih =>
    rcases Nat.lt_or_ge n m with hlt | hge
    · obtain rfl : m = n + 1 := by omega
      exact h
    · exact ih (written_looser (by omega) h) hge (by omega)

lemma Expr.level_le (e : Expr α) : e.level ≤ 14 := by
  cases e with
  | literal _ v => cases v <;> simp [level] <;> split <;> omega
  | unary _ op => cases op <;> simp [level]
  | binary _ op =>
    rcases op with op | op | op | _ | _ <;> (try cases op) <;> simp [level, BinaryOperator.level]
  | instanceOf => simp [level, instanceofLevel]
  | _ => simp [level]

/-! ### Types -/

lemma Parser.brackets_of_spelled {n : Nat}
    (h : Spelled w (List.replicate n [Word.symbol .leftBracket, .symbol .rightBracket]).flatten) : Brackets n w := by
  induction n generalizing w with
  | zero =>
    obtain rfl := spelled_nil.mp h
    exact .zero
  | succ n ih =>
    rw [List.replicate_succ, List.flatten_cons, List.cons_append, List.cons_append, List.nil_append,
      spelled_symbol] at h
    obtain ⟨l, u, rfl, hl, h⟩ := h
    obtain ⟨r, u, rfl, hr, h⟩ := spelled_symbol.mp h
    exact .succ hl hr (ih h)

lemma Parser.dotted_of_spelled {parts : List String}
    (h : Spelled w (parts.flatMap fun part => [.symbol .dot, .ident part])) : Dotted parts w := by
  induction parts generalizing w with
  | nil =>
    obtain rfl := spelled_nil.mp h
    exact .nil
  | cons part parts ih =>
    rw [List.flatMap_cons, List.cons_append, List.cons_append, List.nil_append, spelled_symbol] at h
    obtain ⟨dot, u, rfl, hdot, h⟩ := h
    obtain ⟨t, u, rfl, ht, h⟩ := spelled_ident.mp h
    exact .cons hdot ht (ih h)

/-- The words of a type are read as the type, wherever they stand. -/
lemma Parser.typeWritten_of_spelled {t : TypeName} (ht : t.IsWritable) (h : Spelled w t.words) :
    ∃ p, TypeWritten { t with position := p } w := by
  obtain ⟨base, dims, position⟩ := t
  obtain ⟨hvoid, hnamed⟩ := ht
  obtain ⟨u, u', rfl, hbase, hdims⟩ := spelled_append.mp h
  have hdims := brackets_of_spelled hdims
  rcases base with p | _ | ⟨first, parts⟩
  · obtain ⟨t, v, rfl, ht, hv⟩ := spelled_keyword.mp hbase
    obtain rfl := spelled_nil.mp hv
    exact ⟨t.position, .mk (.primitive ht fun hp => hvoid (by rw [hp])) hdims⟩
  · exact absurd rfl hnamed
  · obtain ⟨t, v, rfl, ht, hv⟩ := spelled_ident.mp hbase
    exact ⟨t.position, .mk (.named ht (dotted_of_spelled hv)) hdims⟩

lemma Parser.TypeWritten.base {t : TypeName} (h : TypeWritten t w) (hdims : t.dims = 0) : BaseWritten t w := by
  cases h with
  | @mk base n w w' hbase hbrackets =>
    obtain rfl : n = 0 := hdims
    cases hbrackets with
    | zero =>
      rw [List.append_nil]
      cases hbase with
      | primitive ht hp => exact .primitive ht hp
      | named ht hw => exact .named ht hw

/-! ### Operators -/

lemma operatorAt?_symbol {t : Token} {op : BinaryOperator} (ht : t.lexeme = .symbol op.symbol) :
    operatorAt? op.level t = some op := by
  refine operatorAt?_eq_some.mpr ⟨op.symbol, ht, ?_⟩
  rcases op with op | op | op | _ | _ <;> (try cases op) <;> rfl

lemma BinaryOperator.level_lt (op : BinaryOperator) : op.level < levels := by
  rcases op with op | op | op | _ | _ <;> (try cases op) <;> decide

/-! ### Expressions -/

/-- Whatever tokens write words, they are a phrase of an expression that is the given one but for positions. -/
def ReadsBack (level : Nat) (e : Expr α) (ws : List Word) : Prop :=
  ∀ w, Spelled w ws → ∃ e', Written (phraseAt level e') w ∧ e'.bare = e.bare

/-- An operand is read back at the level that its place asks for. -/
lemma readsBack_operand {limit : Nat} {e : Expr α} (hlimit : limit ≤ 14) (h : ReadsBack e.level e e.render) :
    ReadsBack limit e (inParens (e.isWeaker limit) e.render) := by
  intro w hw
  unfold inParens at hw
  split at hw
  · rw [List.cons_append, spelled_symbol] at hw
    obtain ⟨l, rest, rfl, hl, hrest⟩ := hw
    obtain ⟨u, v, rfl, hu, hv⟩ := spelled_append.mp hrest
    obtain ⟨r, v, rfl, hr, hv⟩ := spelled_symbol.mp hv
    obtain rfl := spelled_nil.mp hv
    obtain ⟨e', he', hbare⟩ := h u hu
    have hexpression : Written (phraseAt 0 e') u := written_mono he' (Nat.zero_le _) e.level_le
    have hgroup : Written (phraseAt 14 e') (l :: (u ++ [r])) := .group hl hexpression hr
    exact ⟨e', written_mono hgroup hlimit (Nat.le_refl 14), hbare⟩
  · next hweaker =>
    have hlevel : limit ≤ e.level := by simpa [Expr.isWeaker] using hweaker
    obtain ⟨e', he', hbare⟩ := h w hw
    exact ⟨e', written_mono he' hlevel e.level_le, hbare⟩

lemma ReadsBack.loosest {e : Expr α} {ws : List Word} (h : ReadsBack e.level e ws) : ReadsBack 0 e ws := by
  intro w hw
  obtain ⟨e', he', hbare⟩ := h w hw
  exact ⟨e', written_mono he' (Nat.zero_le _) e.level_le, hbare⟩

lemma TypeName.castLevel_le (t : TypeName) : Expr.castLevel t ≤ 14 := by
  unfold Expr.castLevel
  split <;> omega

/-- Whatever tokens write arguments, sizes or the like, they are a phrase of the given ones but for positions. -/
def ReadsBackAll (phrase : List (Expr Position) → Phrase) (es : List (Expr α)) (ws : List Word) : Prop :=
  ∀ w, Spelled w ws → ∃ es', Written (phrase es') w ∧ Expr.bareAll es' = Expr.bareAll es

section Rules

variable {note : α} {e l r c yes no target value i : Expr α} {es args dims : List (Expr α)} {t : TypeName}
  {ws ws' ws'' : List Word}

lemma readsBack_literal (note : α) {v : Literal} :
    ReadsBack (Expr.literal note v).level (.literal note v) [.literal v] := by
  intro w hw
  cases hw with
  | @word t _ u _ ht hu =>
    obtain rfl := spelled_nil.mp hu
    have hliteral : Written (phraseAt 14 (.literal t.position v)) [t] := .literal (literal?_eq_some_ok.mpr ht)
    exact ⟨_, written_mono hliteral (Expr.level_le _) (Nat.le_refl 14), rfl⟩
  | @smallest sign t _ u _ hsign ht hu =>
    obtain rfl := spelled_nil.mp hu
    have hlevel : (Expr.literal note v).level = 12 := by
      cases v <;> simp_all [Token.IsSmallest, Expr.level]
    rw [hlevel]
    exact ⟨.literal t.position v, .smallest hsign (smallest?_eq_some.mpr ht), rfl⟩

lemma readsBack_name {n : String} : ReadsBack 14 (.name note n) [.ident n] := by
  intro w hw
  obtain ⟨t, u, rfl, ht, hu⟩ := spelled_ident.mp hw
  obtain rfl := spelled_nil.mp hu
  exact ⟨.name t.position n, .name ht, rfl⟩

lemma readsBack_this : ReadsBack 14 (.this note) [.keyword .this] := by
  intro w hw
  obtain ⟨t, u, rfl, ht, hu⟩ := spelled_keyword.mp hw
  obtain rfl := spelled_nil.mp hu
  exact ⟨.this t.position, .this ht, rfl⟩

lemma readsBack_field {n : String} (h : ReadsBack 14 e ws) :
    ReadsBack 14 (.field note e n) (ws ++ [.symbol .dot, .ident n]) := by
  intro w hw
  obtain ⟨u, v, rfl, hu, hv⟩ := spelled_append.mp hw
  obtain ⟨dot, v, rfl, hdot, hv⟩ := spelled_symbol.mp hv
  obtain ⟨t, v, rfl, ht, hv⟩ := spelled_ident.mp hv
  obtain rfl := spelled_nil.mp hv
  obtain ⟨e', he', hbare⟩ := h u hu
  exact ⟨.field dot.position e' n, .field he' hdot ht, by simp [Expr.bare, hbare]⟩

lemma readsBack_call {n : String} (h : ReadsBack 14 e ws) (hargs : ReadsBackAll .arguments args ws') :
    ReadsBack 14 (.call note e n args) (ws ++ .symbol .dot :: .ident n :: ws') := by
  intro w hw
  obtain ⟨u, v, rfl, hu, hv⟩ := spelled_append.mp hw
  obtain ⟨dot, v, rfl, hdot, hv⟩ := spelled_symbol.mp hv
  obtain ⟨t, v, rfl, ht, hv⟩ := spelled_ident.mp hv
  obtain ⟨e', he', hbare⟩ := h u hu
  obtain ⟨args', hargs', hbares⟩ := hargs v hv
  exact ⟨.call t.position e' n args', .call he' hdot ht hargs', by simp [Expr.bare, hbare, hbares]⟩

lemma readsBack_thisCall {n : String} (hargs : ReadsBackAll .arguments args ws) :
    ReadsBack 14 (.thisCall note n args) (.ident n :: ws) := by
  intro w hw
  obtain ⟨t, v, rfl, ht, hv⟩ := spelled_ident.mp hw
  obtain ⟨args', hargs', hbares⟩ := hargs v hv
  exact ⟨.thisCall t.position n args', .thisCall ht hargs', by simp [Expr.bare, hbares]⟩

lemma readsBack_index (h : ReadsBack 14 e ws) (harray : e.isNewArray = false) (hi : ReadsBack 0 i ws') :
    ReadsBack 14 (.index note e i) (ws ++ .symbol .leftBracket :: (ws' ++ [.symbol .rightBracket])) := by
  intro w hw
  obtain ⟨u, rest, rfl, hu, hrest⟩ := spelled_append.mp hw
  obtain ⟨l, rest, rfl, hl, hrest⟩ := spelled_symbol.mp hrest
  obtain ⟨v, x, rfl, hv, hx⟩ := spelled_append.mp hrest
  obtain ⟨r, x, rfl, hr, hx⟩ := spelled_symbol.mp hx
  obtain rfl := spelled_nil.mp hx
  obtain ⟨e', he', hbare⟩ := h u hu
  obtain ⟨i', hi', hbare'⟩ := hi v hv
  have harray' : e'.isNewArray = false := by rw [← Expr.isNewArray_bare, hbare, Expr.isNewArray_bare, harray]
  exact ⟨.index l.position e' i', .index he' harray' hl hi' hr, by simp [Expr.bare, hbare, hbare']⟩

lemma readsBack_newObject (ht : t.IsWritable ∧ t.dims = 0 ∧ ∀ p, t.base ≠ .primitive p)
    (hargs : ReadsBackAll .arguments args ws) :
    ReadsBack 14 (.newObject note t args) (.keyword .new :: (t.words ++ ws)) := by
  intro w hw
  obtain ⟨hwritable, hdims, hclass⟩ := ht
  obtain ⟨new, v, rfl, hnew, hv⟩ := spelled_keyword.mp hw
  obtain ⟨u, v, rfl, hu, hv⟩ := spelled_append.mp hv
  obtain ⟨p, htype⟩ := typeWritten_of_spelled hwritable hu
  obtain ⟨args', hargs', hbares⟩ := hargs v hv
  obtain ⟨parts, hparts⟩ : ∃ parts, t.base = .named parts := by
    cases hbase : t.base with
    | primitive p => exact absurd hbase (hclass p)
    | named parts => exact ⟨parts, rfl⟩
  exact ⟨.newObject new.position { t with position := p } args',
    .newObject hnew (htype.base hdims) hparts hargs', by simp [Expr.bare, hbares]⟩

lemma readsBack_newArray {extra : Nat} (ht : t.IsWritable ∧ t.dims = 0 ∧ dims ≠ [])
    (hdims : ReadsBackAll (fun es => .sizes es extra) dims ws) :
    ReadsBack 14 (.newArray note t dims extra) (.keyword .new :: (t.words ++ ws)) := by
  intro w hw
  obtain ⟨hwritable, hzero, hne⟩ := ht
  obtain ⟨new, v, rfl, hnew, hv⟩ := spelled_keyword.mp hw
  obtain ⟨u, v, rfl, hu, hv⟩ := spelled_append.mp hv
  obtain ⟨p, htype⟩ := typeWritten_of_spelled hwritable hu
  obtain ⟨dims', hdims', hbares⟩ := hdims v hv
  have hne' : dims' ≠ [] := by
    rintro rfl
    cases dims with
    | nil => exact hne rfl
    | cons => simp [Expr.bareAll] at hbares
  exact ⟨.newArray new.position { t with position := p } dims' extra,
    .newArray hnew (htype.base hzero) hdims' hne', by simp [Expr.bare, hbares]⟩

lemma written_unary {op : UnaryOperator} {t : Token} {e : Expr Position} (ht : t.lexeme = .symbol op.symbol)
    (h : Written (phraseAt 12 e) w) :
    Written (phraseAt (Expr.unary t.position op e).level (.unary t.position op e)) (t :: w) := by
  cases op with
  | minus => exact .minus ht h
  | plus => exact .plus ht h
  | not => exact .unary (by rw [symbolOf?_eq_some.mpr ht]; rfl) h
  | complement => exact .unary (by rw [symbolOf?_eq_some.mpr ht]; rfl) h

lemma readsBack_unary (op : UnaryOperator) (h : ReadsBack 12 e ws) :
    ReadsBack (Expr.unary note op e).level (.unary note op e) (.symbol op.symbol :: ws) := by
  intro w hw
  obtain ⟨t, u, rfl, ht, hu⟩ := spelled_symbol.mp hw
  obtain ⟨e', he', hbare⟩ := h u hu
  refine ⟨.unary t.position op e', ?_, by simp [Expr.bare, hbare]⟩
  have hlevel : (Expr.unary note op e).level = (Expr.unary t.position op e').level := by cases op <;> rfl
  rw [hlevel]
  exact written_unary ht he'

lemma phraseAt_binary {level : Nat} (hlevel : level < levels) (e : Expr Position) :
    phraseAt (level + 2) e = .binary level e := by
  have hbound : level < 10 := hlevel
  simp [phraseAt, show level + 2 < 12 by omega]

/-- The right operand of an operator binds tighter than the operator, and the left one as tight. -/
lemma written_binary {op : BinaryOperator} {t : Token} {l r : Expr Position} {w' : List Token}
    (ht : t.lexeme = .symbol op.symbol) (hl : Written (phraseAt (op.level + 2) l) w)
    (hr : Written (phraseAt (op.level + 3) r) w') :
    Written (phraseAt (op.level + 2) (.binary t.position op l r)) (w ++ t :: w') := by
  have hlevel := op.level_lt
  have hright : Written (.binary (op.level + 1) r) w' := by
    rcases Nat.lt_or_ge (op.level + 1) levels with hlt | hge
    · rwa [← phraseAt_binary hlt]
    · have htop : op.level = 9 := by
        have hlevels : levels = 10 := rfl
        omega
      rw [htop] at hr ⊢
      exact .ofUnary hr
  rw [phraseAt_binary hlevel] at hl ⊢
  exact .binary hlevel hl (operatorAt?_symbol ht) hright

lemma readsBack_binary (op : BinaryOperator) (hl : ReadsBack (op.level + 2) l ws)
    (hr : ReadsBack (op.level + 3) r ws') :
    ReadsBack (op.level + 2) (.binary note op l r) (ws ++ .symbol op.symbol :: ws') := by
  intro w hw
  obtain ⟨u, v, rfl, hu, hv⟩ := spelled_append.mp hw
  obtain ⟨t, v, rfl, ht, hv⟩ := spelled_symbol.mp hv
  obtain ⟨l', hl', hbare⟩ := hl u hu
  obtain ⟨r', hr', hbare'⟩ := hr v hv
  exact ⟨.binary t.position op l' r', written_binary ht hl' hr', by simp [Expr.bare, hbare, hbare']⟩

lemma readsBack_instanceOf (h : ReadsBack (instanceofLevel + 2) e ws) (ht : t.IsWritable) :
    ReadsBack (instanceofLevel + 2) (.instanceOf note e t) (ws ++ .keyword .instanceof :: t.words) := by
  intro w hw
  obtain ⟨u, v, rfl, hu, hv⟩ := spelled_append.mp hw
  obtain ⟨k, v, rfl, hk, hv⟩ := spelled_keyword.mp hv
  obtain ⟨e', he', hbare⟩ := h u hu
  obtain ⟨p, htype⟩ := typeWritten_of_spelled ht hv
  exact ⟨.instanceOf k.position e' { t with position := p }, .instanceOf he' hk htype, by simp [Expr.bare, hbare]⟩

lemma readsBack_cast (ht : t.IsWritable) (h : ReadsBack (Expr.castLevel t) e ws) :
    ReadsBack 13 (.cast note t e) (.symbol .leftParen :: (t.words ++ .symbol .rightParen :: ws)) := by
  intro w hw
  obtain ⟨l, v, rfl, hl, hv⟩ := spelled_symbol.mp hw
  obtain ⟨u, v, rfl, hu, hv⟩ := spelled_append.mp hv
  obtain ⟨r, v, rfl, hr, hv⟩ := spelled_symbol.mp hv
  obtain ⟨p, htype⟩ := typeWritten_of_spelled ht hu
  obtain ⟨e', he', hbare⟩ := h v hv
  have hoperand : Written (castOperand { t with position := p } e') v := by
    unfold Expr.castLevel at he'
    unfold castOperand
    split <;> split at he' <;> simp_all [phraseAt]
  exact ⟨.cast l.position { t with position := p } e', .cast hl htype hr hoperand, by simp [Expr.bare, hbare]⟩

lemma readsBack_conditional (hc : ReadsBack 2 c ws) (hyes : ReadsBack 1 yes ws') (hno : ReadsBack 1 no ws'') :
    ReadsBack 1 (.conditional note c yes no) (ws ++ .symbol .question :: (ws' ++ .symbol .colon :: ws'')) := by
  intro w hw
  obtain ⟨u, rest, rfl, hu, hrest⟩ := spelled_append.mp hw
  obtain ⟨q, rest, rfl, hq, hrest⟩ := spelled_symbol.mp hrest
  obtain ⟨v, x, rfl, hv, hx⟩ := spelled_append.mp hrest
  obtain ⟨colon, x, rfl, hcolon, hx⟩ := spelled_symbol.mp hx
  obtain ⟨c', hc', hbare⟩ := hc u hu
  obtain ⟨yes', hyes', hbare'⟩ := hyes v hv
  obtain ⟨no', hno', hbare''⟩ := hno x hx
  exact ⟨.conditional q.position c' yes' no', .conditional hc' hq hyes' hcolon hno',
    by simp [Expr.bare, hbare, hbare', hbare'']⟩

lemma readsBack_assign (htarget : ReadsBack 1 target ws) (hassign : target.isAssignable = true)
    (hvalue : ReadsBack 0 value ws') : ReadsBack 0 (.assign note target value) (ws ++ .symbol .assign :: ws') := by
  intro w hw
  obtain ⟨u, v, rfl, hu, hv⟩ := spelled_append.mp hw
  obtain ⟨t, v, rfl, ht, hv⟩ := spelled_symbol.mp hv
  obtain ⟨target', htarget', hbare⟩ := htarget u hu
  obtain ⟨value', hvalue', hbare'⟩ := hvalue v hv
  have hassign' : target'.isAssignable = true := by
    rw [← Expr.isAssignable_bare, hbare, Expr.isAssignable_bare, hassign]
  exact ⟨.assign t.position target' value', .assign htarget' hassign' ht hvalue', by simp [Expr.bare, hbare, hbare']⟩

lemma readsBackAll_noArguments :
    ReadsBackAll .arguments ([] : List (Expr α)) [.symbol .leftParen, .symbol .rightParen] := by
  intro w hw
  obtain ⟨l, u, rfl, hl, hu⟩ := spelled_symbol.mp hw
  obtain ⟨r, u, rfl, hr, hu⟩ := spelled_symbol.mp hu
  obtain rfl := spelled_nil.mp hu
  exact ⟨[], .noArguments hl hr, rfl⟩

lemma readsBackAll_arguments (h : ReadsBack 0 e ws) (hmore : ReadsBackAll .more es ws') :
    ReadsBackAll .arguments (e :: es) (.symbol .leftParen :: (ws ++ (ws' ++ [.symbol .rightParen]))) := by
  intro w hw
  obtain ⟨l, rest, rfl, hl, hrest⟩ := spelled_symbol.mp hw
  obtain ⟨u, rest, rfl, hu, hrest⟩ := spelled_append.mp hrest
  obtain ⟨v, x, rfl, hv, hx⟩ := spelled_append.mp hrest
  obtain ⟨r, x, rfl, hr, hx⟩ := spelled_symbol.mp hx
  obtain rfl := spelled_nil.mp hx
  obtain ⟨e', he', hbare⟩ := h u hu
  obtain ⟨es', hes', hbares⟩ := hmore v hv
  exact ⟨e' :: es', .arguments hl he' hes' hr, by simp [Expr.bareAll, hbare, hbares]⟩

lemma readsBackAll_noMore : ReadsBackAll .more ([] : List (Expr α)) [] := by
  intro w hw
  obtain rfl := spelled_nil.mp hw
  exact ⟨[], .noMore, rfl⟩

lemma readsBackAll_more (h : ReadsBack 0 e ws) (hmore : ReadsBackAll .more es ws') :
    ReadsBackAll .more (e :: es) (.symbol .comma :: (ws ++ ws')) := by
  intro w hw
  obtain ⟨comma, rest, rfl, hcomma, hrest⟩ := spelled_symbol.mp hw
  obtain ⟨u, v, rfl, hu, hv⟩ := spelled_append.mp hrest
  obtain ⟨e', he', hbare⟩ := h u hu
  obtain ⟨es', hes', hbares⟩ := hmore v hv
  exact ⟨e' :: es', .more hcomma he' hes', by simp [Expr.bareAll, hbare, hbares]⟩

lemma readsBackAll_noSizes {n : Nat} : ReadsBackAll (fun es => .sizes es n) ([] : List (Expr α))
    (List.replicate n [Word.symbol .leftBracket, .symbol .rightBracket]).flatten :=
  fun _ hw => ⟨[], .noSizes (brackets_of_spelled hw), rfl⟩

lemma readsBackAll_size {n : Nat} (h : ReadsBack 0 e ws) (hmore : ReadsBackAll (fun es => .sizes es n) es ws') :
    ReadsBackAll (fun es => .sizes es n) (e :: es)
      (.symbol .leftBracket :: (ws ++ .symbol .rightBracket :: ws')) := by
  intro w hw
  obtain ⟨l, rest, rfl, hl, hrest⟩ := spelled_symbol.mp hw
  obtain ⟨u, v, rfl, hu, hv⟩ := spelled_append.mp hrest
  obtain ⟨r, v, rfl, hr, hv⟩ := spelled_symbol.mp hv
  obtain ⟨e', he', hbare⟩ := h u hu
  obtain ⟨es', hes', hbares⟩ := hmore v hv
  exact ⟨e' :: es', .size hl he' hr hes', by simp [Expr.bareAll, hbare, hbares]⟩

end Rules

mutual

/-- Every expression that the grammar covers is read back, by induction on the expression. -/
theorem readsBack : (e : Expr α) → e.Covered → ReadsBack e.level e e.render
  | .literal note v, _ => readsBack_literal note
  | .name _ _, _ => readsBack_name
  | .this _, _ => readsBack_this
  | .field _ e _, he => readsBack_field (readsBack_operand (Nat.le_refl 14) (readsBack e he))
  | .call _ e _ args, ⟨he, hargs⟩ =>
    readsBack_call (readsBack_operand (Nat.le_refl 14) (readsBack e he)) (readsBack_arguments args hargs)
  | .thisCall _ _ args, hargs => readsBack_thisCall (readsBack_arguments args hargs)
  | .index _ e i, ⟨he, harray, hi⟩ =>
    readsBack_index (readsBack_operand (Nat.le_refl 14) (readsBack e he)) harray (readsBack i hi).loosest
  | .newObject _ _ args, ⟨ht, hargs⟩ => readsBack_newObject ht (readsBack_arguments args hargs)
  | .newArray _ _ dims extra, ⟨ht, hdims⟩ => readsBack_newArray ht (readsBack_sizes extra dims hdims)
  | .unary _ op e, he => readsBack_unary op (readsBack_operand (by decide) (readsBack e he))
  | .binary _ op l r, ⟨hl, hr⟩ => by
    have hlevel : op.level < 10 := op.level_lt
    exact readsBack_binary op (readsBack_operand (by omega) (readsBack l hl))
      (readsBack_operand (by omega) (readsBack r hr))
  | .instanceOf _ e _, ⟨ht, he⟩ => readsBack_instanceOf (readsBack_operand (by decide) (readsBack e he)) ht
  | .cast _ t e, ⟨ht, he⟩ => readsBack_cast ht (readsBack_operand t.castLevel_le (readsBack e he))
  | .conditional _ c yes no, ⟨hc, hyes, hno⟩ =>
    readsBack_conditional (readsBack_operand (by decide) (readsBack c hc))
      (readsBack_operand (by decide) (readsBack yes hyes)) (readsBack_operand (by decide) (readsBack no hno))
  | .assign _ target value, ⟨⟨hassign, htarget⟩, hvalue⟩ =>
    readsBack_assign (readsBack_operand (by decide) (readsBack target htarget)) hassign
      (readsBack value hvalue).loosest

theorem readsBack_arguments : (es : List (Expr α)) → Expr.CoveredAll es →
    ReadsBackAll .arguments es (Expr.listingArguments Expr.isWeaker es)
  | [], _ => readsBackAll_noArguments
  | e :: es, ⟨he, hes⟩ => readsBackAll_arguments (readsBack e he).loosest (readsBack_more es hes)

theorem readsBack_more : (es : List (Expr α)) → Expr.CoveredAll es →
    ReadsBackAll .more es (Expr.listingMore Expr.isWeaker es)
  | [], _ => readsBackAll_noMore
  | e :: es, ⟨he, hes⟩ => readsBackAll_more (readsBack e he).loosest (readsBack_more es hes)

theorem readsBack_sizes (extra : Nat) : (es : List (Expr α)) → Expr.CoveredAll es →
    ReadsBackAll (fun es => .sizes es extra) es (Expr.listingSizes Expr.isWeaker es
      ++ (List.replicate extra [Word.symbol .leftBracket, .symbol .rightBracket]).flatten)
  | [], _ => readsBackAll_noSizes
  | e :: es, ⟨he, hes⟩ => by
    have hsize := readsBackAll_size (readsBack e he).loosest (readsBack_sizes extra es hes)
    simpa [Expr.listingSizes, Expr.render] using hsize

end

/-! ### Tokens for words -/

lemma exists_wrap_eq (bits : Nat) (hbits : 0 < bits) {m : Int} (hlow : -2 ^ (bits - 1) ≤ m)
    (hhigh : m < 2 ^ (bits - 1)) : ∃ n : Nat, n ≤ 2 ^ bits - 1 ∧ m = Number.wrap bits n := by
  have hpow : (2 : Int) ^ bits = 2 * 2 ^ (bits - 1) := by
    rw [← Int.pow_succ']
    congr 1
    omega
  have hpos : (0 : Int) < 2 ^ (bits - 1) := Int.pow_pos (by decide)
  have hmod : 0 ≤ m % 2 ^ bits ∧ m % 2 ^ bits < 2 ^ bits :=
    ⟨Int.emod_nonneg _ (by omega), Int.emod_lt_of_pos _ (by omega)⟩
  have hcast : ((m % 2 ^ bits).toNat : Int) = m % 2 ^ bits := Int.toNat_of_nonneg hmod.1
  have hnat : ((2 ^ bits : Nat) : Int) = 2 ^ bits := Int.natCast_pow 2 bits
  refine ⟨(m % 2 ^ bits).toNat, by omega, ?_⟩
  rw [Number.wrap, hcast, ← hnat, Int.emod_bmod, Int.bmod_eq_of_le] <;> omega

/-- Some token writes a literal in range. Whole numbers are written in hexadecimal, so none needs a sign. -/
lemma Literal.InRange.exists_token {v : Literal} (hv : v.InRange) : ∃ t : Token, t.Denotes v := by
  have htext : isDecimal "0x" = false ∧ hasNonzeroDigit "0" = false := by decide
  cases v with
  | int m =>
    obtain ⟨n, hn, hm⟩ := exists_wrap_eq 32 (by decide) hv.1 hv.2
    exact ⟨⟨.int n, .start, "0x"⟩, n, rfl, by simpa [Token.InRange, htext.1] using hn, hm⟩
  | long m =>
    obtain ⟨n, hn, hm⟩ := exists_wrap_eq 64 (by decide) hv.1 hv.2
    exact ⟨⟨.long n, .start, "0x"⟩, n, rfl, by simpa [Token.InRange, htext.1] using hn, hm⟩
  | float y =>
    obtain ⟨hinf, x, hx⟩ := hv
    exact ⟨⟨.float x, .start, "0"⟩, x, rfl, hx, hinf, by simp [htext.2]⟩
  | double y => exact ⟨⟨.double y, .start, "0"⟩, rfl, hv, by simp [htext.2]⟩
  | char code => exact ⟨⟨.char code, .start, ""⟩, rfl⟩
  | string text => exact ⟨⟨.string text, .start, ""⟩, rfl⟩
  | units codes => exact ⟨⟨.units codes, .start, ""⟩, rfl⟩
  | boolean b => exact ⟨⟨.keyword (if b then .true else .false), .start, ""⟩, rfl⟩
  | null => exact ⟨⟨.keyword .null, .start, ""⟩, rfl⟩

lemma exists_spelled {ws : List Word} (h : ∀ v, .literal v ∈ ws → v.InRange) : ∃ w, Spelled w ws := by
  induction ws with
  | nil => exact ⟨[], .nil⟩
  | cons word ws ih =>
    obtain ⟨w, hw⟩ := ih fun v hv => h v (List.mem_cons_of_mem _ hv)
    obtain ⟨t, ht⟩ : ∃ t : Token, t.Spells word := by
      cases word with
      | literal v => exact (h v List.mem_cons_self).exists_token
      | symbol s => exact ⟨⟨.symbol s, .start, ""⟩, rfl⟩
      | keyword k => exact ⟨⟨.keyword k, .start, ""⟩, rfl⟩
      | ident name => exact ⟨⟨.ident name, .start, ""⟩, rfl⟩
    exact ⟨t :: w, .word ht hw⟩

@[simp]
lemma literal_mem_inParens {v : Literal} {wanted : Bool} {ws : List Word} :
    .literal v ∈ inParens wanted ws ↔ .literal v ∈ ws := by
  unfold inParens
  split <;> simp

@[simp]
lemma literal_not_mem_words {v : Literal} (t : TypeName) : .literal v ∉ t.words := by
  obtain ⟨base, dims, _⟩ := t
  rcases base with _ | _ | _ <;> simp [TypeName.words]

namespace Expr

variable {v : Literal} (group : Nat → Expr α → Bool)

mutual

/-- The literals that are listed are those of an expression that the grammar covers. -/
lemma inRange_of_mem_listing : (e : Expr α) → e.Covered → .literal v ∈ e.listing group → v.InRange
  | .literal _ v', he, hv => by
    obtain rfl : v = v' := by simpa [listing] using hv
    exact he
  | .name .., _, hv | .this _, _, hv => by simp [listing] at hv
  | .field _ e _, he, hv => inRange_of_mem_listing e he (by simpa [listing] using hv)
  | .call _ e _ args, ⟨he, hargs⟩, hv => by
    have hv : .literal v ∈ e.listing group ∨ .literal v ∈ listingArguments group args := by simpa [listing] using hv
    exact hv.elim (inRange_of_mem_listing e he) (inRange_of_mem_arguments args hargs)
  | .thisCall _ _ args, hargs, hv => inRange_of_mem_arguments args hargs (by simpa [listing] using hv)
  | .index _ e i, ⟨he, _, hi⟩, hv => by
    have hv : .literal v ∈ e.listing group ∨ .literal v ∈ i.listing group := by simpa [listing] using hv
    exact hv.elim (inRange_of_mem_listing e he) (inRange_of_mem_listing i hi)
  | .newObject _ _ args, ⟨_, hargs⟩, hv => inRange_of_mem_arguments args hargs (by simpa [listing] using hv)
  | .newArray _ _ dims _, ⟨_, hdims⟩, hv => inRange_of_mem_sizes dims hdims (by simpa [listing] using hv)
  | .unary _ _ e, he, hv => inRange_of_mem_listing e he (by simpa [listing] using hv)
  | .binary _ _ l r, ⟨hl, hr⟩, hv => by
    have hv : .literal v ∈ l.listing group ∨ .literal v ∈ r.listing group := by simpa [listing] using hv
    exact hv.elim (inRange_of_mem_listing l hl) (inRange_of_mem_listing r hr)
  | .instanceOf _ e _, ⟨_, he⟩, hv | .cast _ _ e, ⟨_, he⟩, hv =>
    inRange_of_mem_listing e he (by simpa [listing] using hv)
  | .conditional _ c yes no, ⟨hc, hyes, hno⟩, hv => by
    have hv : .literal v ∈ c.listing group ∨ .literal v ∈ yes.listing group ∨ .literal v ∈ no.listing group := by
      simpa [listing] using hv
    exact hv.elim (inRange_of_mem_listing c hc)
      (Or.rec (inRange_of_mem_listing yes hyes) (inRange_of_mem_listing no hno))
  | .assign _ target value, ⟨⟨_, htarget⟩, hvalue⟩, hv => by
    have hv : .literal v ∈ target.listing group ∨ .literal v ∈ value.listing group := by simpa [listing] using hv
    exact hv.elim (inRange_of_mem_listing target htarget) (inRange_of_mem_listing value hvalue)

lemma inRange_of_mem_arguments : (es : List (Expr α)) → CoveredAll es →
    .literal v ∈ listingArguments group es → v.InRange
  | [], _, hv => by simp [listingArguments] at hv
  | e :: es, ⟨he, hes⟩, hv => by
    have hv : .literal v ∈ e.listing group ∨ .literal v ∈ listingMore group es := by simpa [listingArguments] using hv
    exact hv.elim (inRange_of_mem_listing e he) (inRange_of_mem_more es hes)

lemma inRange_of_mem_more : (es : List (Expr α)) → CoveredAll es → .literal v ∈ listingMore group es → v.InRange
  | [], _, hv => by simp [listingMore] at hv
  | e :: es, ⟨he, hes⟩, hv => by
    have hv : .literal v ∈ e.listing group ∨ .literal v ∈ listingMore group es := by simpa [listingMore] using hv
    exact hv.elim (inRange_of_mem_listing e he) (inRange_of_mem_more es hes)

lemma inRange_of_mem_sizes : (es : List (Expr α)) → CoveredAll es → .literal v ∈ listingSizes group es → v.InRange
  | [], _, hv => by simp [listingSizes] at hv
  | e :: es, ⟨he, hes⟩, hv => by
    have hv : .literal v ∈ e.listing group ∨ .literal v ∈ listingSizes group es := by simpa [listingSizes] using hv
    exact hv.elim (inRange_of_mem_listing e he) (inRange_of_mem_sizes es hes)

end

end Expr

/-- Every expression that the grammar covers can be written, and however its rendering is written, it is parsed
to the same expression but for positions. -/
theorem parse_render {e : Expr α} (he : e.Covered) :
    (∃ w, Spelled w e.render) ∧
      ∀ source : Tokens, Spelled source.tokens e.render → ∃ e', parseTokens source = .ok e' ∧ e'.bare = e.bare := by
  refine ⟨exists_spelled fun v => Expr.inRange_of_mem_listing _ e he, fun source hsource => ?_⟩
  obtain ⟨e', he', hbare⟩ := (readsBack e he).loosest source.tokens hsource
  exact ⟨e', parseTokens_eq_ok.mpr he', hbare⟩

/-- The sum is weaker than its place asks for, and the smallest number under it is not. -/
theorem parse_render_of_product :
    let sum : Expr Unit := .binary () (.arith .add) (.name () "a") (.literal () (.int (-2 ^ 31)))
    let e : Expr Unit := .binary () (.arith .mul) sum (.cast () ⟨.named ["Integer"], 0, .start⟩ (.name () "b"))
    e.Covered ∧ (∃ w, Spelled w e.render) ∧
      ∀ source : Tokens, Spelled source.tokens e.render → ∃ e', parseTokens source = .ok e' ∧ e'.bare = e.bare := by
  intro sum e
  have hsum : sum.Covered := ⟨trivial, by decide, by decide⟩
  have hcovered : e.Covered := ⟨hsum, ⟨by decide, by decide⟩, trivial⟩
  exact ⟨hcovered, parse_render hcovered⟩

end PredicateTrace
