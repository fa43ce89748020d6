import PredicateTrace.Proofs.Lookahead

/-!
# What the parser finds

Every phrase of the grammar is found where the next token cannot continue it. The functions that group to
the left hand a phrase on as the beginning of a longer one, so that their statement is about the call that
goes on with it. A bound of twenty for each token is enough, since between two tokens the functions descend
through all levels once.
-/

namespace PredicateTrace.Parser

variable {finish : Position} {rest w : List Token} {t : Token}

/-! ### Finding phrases -/

/-- A phrase is found in front of tokens that do not continue it. The functions that group to the left go on
with what they have found, a few calls deeper. -/
def Finds (finish : Position) : Phrase → List Token → Prop
  | .expression e, w => ∀ depth rest, 20 * w.length + 17 ≤ depth → Stops 0 rest →
      expression finish depth (w ++ rest) = .ok (e, rest)
  | .conditional e, w => ∀ depth rest, 20 * w.length + 16 ≤ depth → Stops 1 rest →
      conditional finish depth (w ++ rest) = .ok (e, rest)
  | .binary level e, w => ∃ calls ≤ w.length, ∀ depth rest, 20 * w.length + 5 + (10 - level) ≤ depth →
      Stops (level + 3) rest →
      binary finish depth level (w ++ rest) = chain finish (depth - calls) level e rest
  | .unary e, w => ∀ depth rest, 20 * w.length + 4 ≤ depth → Stops 14 rest →
      unary finish depth (w ++ rest) = .ok (e, rest)
  | .unsigned e, w => ∀ depth rest, 20 * w.length + 3 ≤ depth → Stops 14 rest →
      unsignedUnary finish depth (w ++ rest) = .ok (e, rest)
  | .accessed e, w => ∃ calls ≤ w.length, ∀ depth rest, 20 * w.length + 2 ≤ depth → Stops 15 rest →
      (e.isNewArray = true → startsWith .leftBracket rest = false) →
      accessed finish depth (w ++ rest) = accesses finish (depth - calls) e rest
  | .arguments es, w => ∀ depth rest, 20 * w.length + 1 ≤ depth →
      arguments finish depth (w ++ rest) = .ok (es, rest)
  | .more es, w => ∀ depth rest, 20 * w.length + 1 ≤ depth → Stops 0 rest → startsWith .comma rest = false →
      moreArguments finish depth (w ++ rest) = .ok (es, rest)
  | .sizes es n, w => ∀ depth extra rest, 20 * w.length + 1 ≤ depth → (es ≠ [] → extra = 0) →
      startsWith .leftBracket rest = false →
      dimensions finish depth extra (w ++ rest) = .ok ((es, extra + n), rest)

variable {e : Expr Position}

lemma finds_ofConditional (h : Finds finish (.conditional e) w) : Finds finish (.expression e) w := by
  intro depth rest hdepth hrest
  obtain ⟨depth, rfl⟩ : ∃ d, depth = d + 1 := Nat.exists_eq_add_of_le' (by omega)
  rw [expression, h depth rest (by omega) (hrest.mono (by omega))]
  cases rest with
  | nil => rfl
  | cons t after =>
    have ht : symbolOf? t ≠ some .assign := hrest.symbol_ne (by decide)
    simp [bind, Except.bind, ht]
    rfl

lemma finds_assign {target value : Expr Position} {w' : List Token}
    (htarget : Finds finish (.conditional target) w) (hassign : target.isAssignable = true)
    (ht : t.lexeme = .symbol .assign) (hvalue : Finds finish (.expression value) w') :
    Finds finish (.expression (.assign t.position target value)) (w ++ t :: w') := by
  intro depth rest hdepth hrest
  simp only [List.length_append, List.length_cons] at hdepth
  obtain ⟨depth, rfl⟩ : ∃ d, depth = d + 1 := Nat.exists_eq_add_of_le' (by omega)
  have hstop : Stops 1 (t :: (w' ++ rest)) := stops_cons (by rw [reach_symbol ht]; decide) _
  rw [List.append_assoc, List.cons_append, expression, htarget depth _ (by omega) hstop]
  simp [bind, Except.bind, symbolOf?_eq_some.mpr ht, hassign, hvalue depth rest (by omega) hrest]
  rfl

lemma operatorAt?_levels (t : Token) : operatorAt? levels t = none := by
  rw [Option.eq_none_iff_forall_ne_some]
  intro op hop
  obtain ⟨s, -, hs⟩ := operatorAt?_eq_some.mp hop
  cases s <;> simp [binary?, levels] at hs

/-- A chain ends in front of what it cannot go on with. -/
lemma chain_stops {depth level : Nat} (hdepth : 0 < depth) (hrest : Stops (level + 2) rest ∨ level = levels) :
    chain finish depth level e rest = .ok (e, rest) := by
  obtain ⟨depth, rfl⟩ : ∃ d, depth = d + 1 := Nat.exists_eq_add_of_le' hdepth
  cases rest with
  | nil => rw [chain]
  | cons t after =>
    have hop : operatorAt? level t = none := by
      rcases hrest with hrest | rfl
      · exact hrest.operatorAt?_eq_none
      · exact operatorAt?_levels t
    have hinstance : ¬(level = instanceofLevel ∧ isInstanceof t = true) := by
      rintro ⟨rfl, ht⟩
      rcases hrest with hrest | hlevels
      · simp [hrest.not_instanceof (by decide)] at ht
      · cases hlevels
    simp only [chain, hop, if_neg hinstance]

/-- A whole chain of a level is found in front of what cannot go on with it. -/
lemma binary_of_finds {depth level : Nat} (h : Finds finish (.binary level e) w)
    (hdepth : 20 * w.length + 5 + (10 - level) ≤ depth) (hrest : Stops (level + 2) rest) :
    binary finish depth level (w ++ rest) = .ok (e, rest) := by
  obtain ⟨calls, hcalls, h⟩ := h
  rw [h depth rest hdepth (hrest.mono (by omega)), chain_stops (by omega) (Or.inl hrest)]

/-- Nothing is accessed in front of what begins no access. -/
lemma accesses_stops {depth : Nat} (hdepth : 0 < depth) (hrest : Stops 14 rest) :
    accesses finish depth e rest = .ok (e, rest) := by
  obtain ⟨depth, rfl⟩ : ∃ d, depth = d + 1 := Nat.exists_eq_add_of_le' hdepth
  cases rest with
  | nil => rw [accesses]
  | cons t after =>
    have hne {s : Symbol} (hs : 14 < reachOf s) : symbolOf? t ≠ some s := hrest.symbol_ne hs
    unfold accesses
    dsimp only
    split
    · next ht => exact absurd ht (hne (by decide))
    · next ht => exact absurd ht (hne (by decide))
    · next ht => exact absurd ht (hne (by decide))
    · next ht => exact absurd ht (hne (by decide))
    · rfl

lemma finds_ofBinary (h : Finds finish (.binary 0 e) w) : Finds finish (.conditional e) w := by
  intro depth rest hdepth hrest
  obtain ⟨depth, rfl⟩ : ∃ d, depth = d + 1 := Nat.exists_eq_add_of_le' (by omega)
  rw [conditional, binary_of_finds h (by omega) (hrest.mono (by omega))]
  cases rest with
  | nil => rfl
  | cons t after =>
    have ht : symbolOf? t ≠ some .question := hrest.symbol_ne (by decide)
    simp [bind, Except.bind, ht]
    rfl

lemma expectSymbol_cons {s : Symbol} (ht : t.lexeme = .symbol s) (rest : List Token) :
    expectSymbol finish s (t :: rest) = .ok rest :=
  expectSymbol_eq_ok.mpr ⟨t, rfl, ht⟩

lemma finds_conditional {q colon : Token} {cond yes no : Expr Position} {w' w'' : List Token}
    (hcond : Finds finish (.binary 0 cond) w) (hq : q.lexeme = .symbol .question)
    (hyes : Finds finish (.conditional yes) w') (hcolon : colon.lexeme = .symbol .colon)
    (hno : Finds finish (.conditional no) w'') :
    Finds finish (.conditional (.conditional q.position cond yes no)) (w ++ q :: (w' ++ colon :: w'')) := by
  intro depth rest hdepth hrest
  simp only [List.length_append, List.length_cons] at hdepth
  obtain ⟨depth, rfl⟩ : ∃ d, depth = d + 1 := Nat.exists_eq_add_of_le' (by omega)
  have hstop : Stops 2 (q :: (w' ++ colon :: (w'' ++ rest))) := stops_cons (by rw [reach_symbol hq]; decide) _
  have hstop' : Stops 1 (colon :: (w'' ++ rest)) := stops_cons (by rw [reach_symbol hcolon]; decide) _
  simp only [List.append_assoc, List.cons_append]
  rw [conditional, binary_of_finds hcond (by omega) hstop]
  simp [bind, Except.bind, symbolOf?_eq_some.mpr hq, hyes depth _ (by omega) hstop',
    expectSymbol_cons hcolon, hno depth rest (by omega) hrest]
  rfl

lemma finds_ofUnary (h : Finds finish (.unary e) w) (hne : 0 < w.length) : Finds finish (.binary levels e) w := by
  refine ⟨1, hne, fun depth rest hdepth hrest => ?_⟩
  obtain ⟨depth, rfl⟩ : ∃ d, depth = d + 1 := Nat.exists_eq_add_of_le' (by omega)
  rw [binary, if_neg (Nat.lt_irrefl levels), h depth rest (by omega) (hrest.mono (by decide)),
    chain_stops (by omega) (Or.inr rfl)]

lemma finds_tighter {level : Nat} (hlevel : level < levels) (h : Finds finish (.binary (level + 1) e) w)
    (hne : 0 < w.length) : Finds finish (.binary level e) w := by
  refine ⟨1, hne, fun depth rest hdepth hrest => ?_⟩
  obtain ⟨depth, rfl⟩ : ∃ d, depth = d + 1 := Nat.exists_eq_add_of_le' (by omega)
  have hbound : level < 10 := hlevel
  rw [binary, if_pos hlevel, binary_of_finds h (by omega) hrest]
  rfl

lemma finds_binary {level : Nat} {op : BinaryOperator} {left right : Expr Position} {w' : List Token}
    (hlevel : level < levels) (hleft : Finds finish (.binary level left) w) (ht : operatorAt? level t = some op)
    (hright : Finds finish (.binary (level + 1) right) w') :
    Finds finish (.binary level (.binary t.position op left right)) (w ++ t :: w') := by
  obtain ⟨calls, hcalls, hleft⟩ := hleft
  simp only [Finds, List.length_append, List.length_cons]
  refine ⟨calls + 1, by omega, fun depth rest hdepth hrest => ?_⟩
  have hbound : level < 10 := hlevel
  obtain ⟨deeper, hdeeper⟩ : ∃ d, depth - calls = d + 1 := Nat.exists_eq_add_of_le' (by omega)
  have hstop : Stops (level + 3) (t :: (w' ++ rest)) := stops_cons (Nat.le_of_eq (reach_operator ht)) _
  rw [List.append_assoc, List.cons_append, hleft depth _ (by omega) hstop, hdeeper, chain]
  simp only [ht, bind, Except.bind, binary_of_finds hright (show _ ≤ deeper by omega) hrest]
  congr 1
  omega

lemma finds_instanceOf {left : Expr Position} {type : TypeName} {w' : List Token}
    (hleft : Finds finish (.binary instanceofLevel left) w) (ht : t.lexeme = .keyword .instanceof)
    (htype : TypeWritten type w') :
    Finds finish (.binary instanceofLevel (.instanceOf t.position left type)) (w ++ t :: w') := by
  obtain ⟨calls, hcalls, hleft⟩ := hleft
  simp only [Finds, List.length_append, List.length_cons]
  refine ⟨calls + 1, by omega, fun depth rest hdepth hrest => ?_⟩
  obtain ⟨deeper, hdeeper⟩ : ∃ d, depth - calls = d + 1 := Nat.exists_eq_add_of_le' (by omega)
  have hstop : Stops (instanceofLevel + 3) (t :: (w' ++ rest)) := stops_cons (Nat.le_of_eq (reach_instanceof ht)) _
  have hop : operatorAt? instanceofLevel t = none := by simp [operatorAt?, symbolOf?, ht]
  rw [List.append_assoc, List.cons_append, hleft depth _ (by omega) hstop, hdeeper, chain]
  simp only [hop, isInstanceof_eq_true.mpr ht, and_self, if_true, bind, Except.bind,
    type_append htype (hrest.not_startsWith (by decide)) (hrest.not_startsWith (by decide))]
  congr 1
  omega

lemma finds_smallest {next : Token} {l : Literal} (ht : t.lexeme = .symbol .minus) (hnext : smallest? next = some l) :
    Finds finish (.unary (.literal next.position l)) [t, next] := by
  intro depth rest hdepth hrest
  obtain ⟨depth, rfl⟩ : ∃ d, depth = d + 1 := Nat.exists_eq_add_of_le' (by omega)
  simp [unary, symbolOf?_eq_some.mpr ht, hnext]

lemma finds_minus (ht : t.lexeme = .symbol .minus) (h : Finds finish (.unary e) w)
    (hbegin : ∃ t u, w = t :: u ∧ BeginsUnary t) : Finds finish (.unary (.unary t.position .minus e)) (t :: w) := by
  obtain ⟨first, u, rfl, -, hfirst⟩ := hbegin
  intro depth rest hdepth hrest
  rw [List.length_cons] at hdepth
  obtain ⟨depth, rfl⟩ : ∃ d, depth = d + 1 := Nat.exists_eq_add_of_le' (by omega)
  have hfound := h depth rest (by omega) hrest
  simp only [List.cons_append, unary, symbolOf?_eq_some.mpr ht, List.head?_cons, Option.bind_some, hfirst,
    Option.map_none] at hfound ⊢
  simp only [hfound, bind, Except.bind]
  rfl

lemma finds_plus (ht : t.lexeme = .symbol .plus) (h : Finds finish (.unary e) w) :
    Finds finish (.unary (.unary t.position .plus e)) (t :: w) := by
  intro depth rest hdepth hrest
  rw [List.length_cons] at hdepth
  obtain ⟨depth, rfl⟩ : ∃ d, depth = d + 1 := Nat.exists_eq_add_of_le' (by omega)
  rw [List.cons_append, unary]
  simp only [symbolOf?_eq_some.mpr ht, h depth rest (by omega) hrest, bind, Except.bind]
  rfl

lemma finds_ofUnsigned (h : Finds finish (.unsigned e) w) (hbegin : ∃ t u, w = t :: u ∧ BeginsUnsigned t) :
    Finds finish (.unary e) w := by
  obtain ⟨t, u, rfl, ht, -⟩ := hbegin
  intro depth rest hdepth hrest
  obtain ⟨depth, rfl⟩ : ∃ d, depth = d + 1 := Nat.exists_eq_add_of_le' (by omega)
  have hsymbol {s : Symbol} (hs : symbolOf? t = some s) : (s == .leftParen || s == .bang || s == .tilde) = true := by
    simpa [beginsCastOperand, symbolOf?_eq_some.mp hs] using ht
  have hfound := h depth rest (by omega) hrest
  rw [List.cons_append] at hfound ⊢
  rw [unary]
  split
  · next hs => cases hsymbol hs
  · next hs => cases hsymbol hs
  · next hs => cases hsymbol hs
  · next hs => cases hsymbol hs
  · exact hfound

lemma finds_unary {op : UnaryOperator} (ht : (symbolOf? t).bind unary? = some op) (h : Finds finish (.unary e) w) :
    Finds finish (.unsigned (.unary t.position op e)) (t :: w) := by
  intro depth rest hdepth hrest
  rw [List.length_cons] at hdepth
  obtain ⟨depth, rfl⟩ : ∃ d, depth = d + 1 := Nat.exists_eq_add_of_le' (by omega)
  rw [List.cons_append, unsignedUnary]
  simp only [ht, h depth rest (by omega) hrest, bind, Except.bind]
  rfl

lemma finds_cast {l r : Token} {type : TypeName} {w' : List Token} (hl : l.lexeme = .symbol .leftParen)
    (htype : TypeWritten type w) (hr : r.lexeme = .symbol .rightParen)
    (hbegin : (castOperand type e).Begins w') (h : Finds finish (castOperand type e) w') :
    Finds finish (.unsigned (.cast l.position type e)) (l :: (w ++ r :: w')) := by
  intro depth rest hdepth hrest
  simp only [List.length_append, List.length_cons] at hdepth
  obtain ⟨depth, rfl⟩ : ∃ d, depth = d + 1 := Nat.exists_eq_add_of_le' (by omega)
  have hread : Parser.type finish (w ++ r :: (w' ++ rest)) = .ok (type, r :: (w' ++ rest)) :=
    type_append htype (startsWith_cons hr _) (startsWith_cons hr _)
  have hnone : (symbolOf? l).bind unary? = none := by simp [symbolOf?, hl, unary?]
  simp only [List.cons_append, List.append_assoc]
  rw [unsignedUnary]
  simp only [hnone]
  simp only [symbolOf?_eq_some.mpr hl, isCast_type htype hr hbegin, beq_self_eq_true, Bool.and_self,
    if_true, hread, bind, Except.bind, expectSymbol_cons hr]
  split
  · next hbase hdims =>
    rw [castOperand_plain hbase hdims] at h
    rw [h depth rest (by omega) hrest]
    rfl
  · next hplain =>
    rw [castOperand_other hplain] at h
    rw [h depth rest (by omega) hrest]
    rfl

lemma finds_ofAccessed (h : Finds finish (.accessed e) w) (hw : Written (.accessed e) w) :
    Finds finish (.unsigned e) w := by
  obtain ⟨calls, hcalls, h⟩ := h
  obtain ⟨t, u, rfl, -, hnone, -⟩ := hw.begins
  intro depth rest hdepth hrest
  obtain ⟨depth, rfl⟩ : ∃ d, depth = d + 1 := Nat.exists_eq_add_of_le' (by omega)
  have hfound := h depth rest (by omega) (hrest.mono (by omega)) fun _ => hrest.not_startsWith (by decide)
  have hcast : (symbolOf? t == some .leftParen && isCast (u ++ rest)) = false := by
    by_cases ht : symbolOf? t = some .leftParen
    · rw [isCast_accessed hw (hrest.mono (by omega)) rfl (symbolOf?_eq_some.mp ht), Bool.and_false]
    · simp [ht]
  rw [List.cons_append] at hfound ⊢
  rw [unsignedUnary]
  simp only [hnone, hcast, Bool.false_eq_true, if_false, hfound]
  exact accesses_stops (by omega) hrest

/-- A primary expression is the beginning of the accesses behind it. -/
lemma finds_primary (hne : 0 < w.length)
    (h : ∀ depth rest, 20 * w.length + 1 ≤ depth → Stops 15 rest →
      (e.isNewArray = true → startsWith .leftBracket rest = false) →
      primary finish depth (w ++ rest) = .ok (e, rest)) : Finds finish (.accessed e) w := by
  refine ⟨1, hne, fun depth rest hdepth hrest harray => ?_⟩
  obtain ⟨depth, rfl⟩ : ∃ d, depth = d + 1 := Nat.exists_eq_add_of_le' (by omega)
  rw [accessed, h depth rest (by omega) hrest harray]
  rfl

lemma finds_literal {v : Literal} (ht : literal? t = some (.ok v)) :
    Finds finish (.accessed (.literal t.position v)) [t] := by
  refine finds_primary (by simp) fun depth rest hdepth _ _ => ?_
  obtain ⟨depth, rfl⟩ : ∃ d, depth = d + 1 := Nat.exists_eq_add_of_le' (by omega)
  simp only [List.cons_append, List.nil_append, primary, ht, bind, Except.bind]
  rfl

lemma finds_this (ht : t.lexeme = .keyword .this) : Finds finish (.accessed (.this t.position)) [t] := by
  refine finds_primary (by simp) fun depth rest hdepth _ _ => ?_
  obtain ⟨depth, rfl⟩ : ∃ d, depth = d + 1 := Nat.exists_eq_add_of_le' (by omega)
  have hliteral : literal? t = none := by simp [literal?, ht]
  simp only [List.cons_append, List.nil_append, primary, hliteral, ht]

lemma finds_name {name : String} (ht : t.lexeme = .ident name) :
    Finds finish (.accessed (.name t.position name)) [t] := by
  refine finds_primary (by simp) fun depth rest hdepth hrest _ => ?_
  obtain ⟨depth, rfl⟩ : ∃ d, depth = d + 1 := Nat.exists_eq_add_of_le' (by omega)
  have hliteral : literal? t = none := by simp [literal?, ht]
  have hopen : startsWith .leftParen rest = false := hrest.not_startsWith (by decide)
  simp [primary, hliteral, ht, hopen]

lemma arguments_start {es : List (Expr Position)} (hbegin : (Phrase.arguments es).Begins w) (rest : List Token) :
    startsWith .leftParen (w ++ rest) = true := by
  obtain ⟨l, u, rfl, hl⟩ := hbegin
  exact startsWith_cons hl _

lemma finds_thisCall {name : String} {args : List (Expr Position)} (ht : t.lexeme = .ident name)
    (h : Finds finish (.arguments args) w) (hbegin : (Phrase.arguments args).Begins w) :
    Finds finish (.accessed (.thisCall t.position name args)) (t :: w) := by
  refine finds_primary (by simp) fun depth rest hdepth _ _ => ?_
  rw [List.length_cons] at hdepth
  obtain ⟨depth, rfl⟩ : ∃ d, depth = d + 1 := Nat.exists_eq_add_of_le' (by omega)
  have hliteral : literal? t = none := by simp [literal?, ht]
  simp only [List.cons_append, primary, hliteral, ht, arguments_start hbegin rest, if_true,
    h depth rest (by omega), bind, Except.bind]
  rfl

lemma finds_group {l r : Token} (hl : l.lexeme = .symbol .leftParen) (h : Finds finish (.expression e) w)
    (hr : r.lexeme = .symbol .rightParen) : Finds finish (.accessed e) (l :: (w ++ [r])) := by
  refine finds_primary (by simp) fun depth rest hdepth _ _ => ?_
  simp only [List.length_append, List.length_cons, List.length_nil] at hdepth
  obtain ⟨depth, rfl⟩ : ∃ d, depth = d + 1 := Nat.exists_eq_add_of_le' (by omega)
  have hliteral : literal? l = none := by simp [literal?, hl]
  have hstop : Stops 0 (r :: rest) := stops_cons (by rw [reach_symbol hr]; decide) _
  simp only [List.cons_append, List.append_assoc, List.nil_append, primary, hliteral, hl,
    h depth (r :: rest) (by omega) hstop, bind, Except.bind, expectSymbol_cons hr]
  rfl

lemma creation_start {depth : Nat} (ht : t.lexeme = .keyword .new) (rest : List Token) :
    primary finish (depth + 1) (t :: rest) = creation finish depth t.position rest := by
  have hliteral : literal? t = none := by simp [literal?, ht]
  simp only [primary, hliteral, ht]

lemma finds_newObject {type : TypeName} {parts : List String} {args : List (Expr Position)} {w' : List Token}
    (ht : t.lexeme = .keyword .new) (htype : BaseWritten type w) (hnamed : type.base = .named parts)
    (h : Finds finish (.arguments args) w') (hbegin : (Phrase.arguments args).Begins w') :
    Finds finish (.accessed (.newObject t.position type args)) (t :: (w ++ w')) := by
  refine finds_primary (by simp) fun depth rest hdepth _ _ => ?_
  simp only [List.length_append, List.length_cons] at hdepth
  obtain ⟨depth, rfl⟩ : ∃ d, depth = d + 2 := Nat.exists_eq_add_of_le' (by omega)
  obtain ⟨l, u, rfl, hl⟩ := hbegin
  have hread : typeName finish (w ++ (l :: u ++ rest)) = .ok (type, l :: u ++ rest) :=
    typeName_append htype (startsWith_cons hl _)
  have hbracket : startsWith .leftBracket (l :: u ++ rest) = false := startsWith_cons hl _
  rw [List.cons_append, List.append_assoc, creation_start ht, creation]
  simp only [hread, bind, Except.bind, hbracket, Bool.false_eq_true, if_false, hnamed,
    h depth rest (by omega)]
  rfl

lemma finds_newArray {type : TypeName} {dims : List (Expr Position)} {extra : Nat} {w' : List Token}
    (ht : t.lexeme = .keyword .new) (htype : BaseWritten type w) (hne : dims ≠ [])
    (h : Finds finish (.sizes dims extra) w') (hw : Written (.sizes dims extra) w') :
    Finds finish (.accessed (.newArray t.position type dims extra)) (t :: (w ++ w')) := by
  refine finds_primary (by simp) fun depth rest hdepth hrest harray => ?_
  simp only [List.length_append, List.length_cons] at hdepth
  obtain ⟨depth, rfl⟩ : ∃ d, depth = d + 2 := Nat.exists_eq_add_of_le' (by omega)
  obtain ⟨l, u, rfl, hl⟩ : ∃ l u, w' = l :: u ∧ l.lexeme = .symbol .leftBracket := by
    cases hw with
    | noSizes => exact absurd rfl hne
    | size hl => exact ⟨_, _, rfl, hl⟩
  have hread : typeName finish (w ++ (l :: u ++ rest)) = .ok (type, l :: u ++ rest) :=
    typeName_append htype (startsWith_cons hl _)
  have hbracket : startsWith .leftBracket (l :: u ++ rest) = true := startsWith_cons hl _
  rw [List.cons_append, List.append_assoc, creation_start ht, creation]
  simp only [hread, bind, Except.bind, hbracket, if_true, h depth 0 rest (by omega) (fun _ => rfl) (harray rfl)]
  simp [hne]
  rfl

lemma finds_field {dot : Token} {name : String} (h : Finds finish (.accessed e) w)
    (hdot : dot.lexeme = .symbol .dot) (ht : t.lexeme = .ident name) :
    Finds finish (.accessed (.field dot.position e name)) (w ++ [dot, t]) := by
  obtain ⟨calls, hcalls, h⟩ := h
  simp only [Finds, List.length_append, List.length_cons, List.length_nil]
  refine ⟨calls + 1, by omega, fun depth rest hdepth hrest _ => ?_⟩
  obtain ⟨deeper, hdeeper⟩ : ∃ d, depth - calls = d + 1 := Nat.exists_eq_add_of_le' (by omega)
  have hstop : Stops 15 (dot :: t :: rest) := stops_cons (by rw [reach_symbol hdot]; decide) _
  have hopen : startsWith .leftParen rest = false := hrest.not_startsWith (by decide)
  have hfound := h depth _ (by omega) hstop fun _ => startsWith_cons hdot _
  rw [List.append_assoc, List.cons_append, List.cons_append, List.nil_append, hfound, hdeeper, accesses.eq_def]
  simp only [symbolOf?_eq_some.mpr hdot, nameOf?_eq_some.mpr ht, hopen, Bool.false_eq_true, if_false]
  congr 1
  omega

lemma finds_call {dot : Token} {name : String} {args : List (Expr Position)} {w' : List Token}
    (h : Finds finish (.accessed e) w) (hdot : dot.lexeme = .symbol .dot) (ht : t.lexeme = .ident name)
    (hargs : Finds finish (.arguments args) w') (hbegin : (Phrase.arguments args).Begins w') :
    Finds finish (.accessed (.call t.position e name args)) (w ++ dot :: t :: w') := by
  obtain ⟨calls, hcalls, h⟩ := h
  simp only [Finds, List.length_append, List.length_cons]
  refine ⟨calls + 1, by omega, fun depth rest hdepth hrest _ => ?_⟩
  obtain ⟨deeper, hdeeper⟩ : ∃ d, depth - calls = d + 1 := Nat.exists_eq_add_of_le' (by omega)
  have hstop : Stops 15 (dot :: t :: (w' ++ rest)) := stops_cons (by rw [reach_symbol hdot]; decide) _
  have hfound := h depth _ (by omega) hstop fun _ => startsWith_cons hdot _
  rw [List.append_assoc, List.cons_append, List.cons_append, hfound, hdeeper, accesses.eq_def]
  simp only [symbolOf?_eq_some.mpr hdot, nameOf?_eq_some.mpr ht, arguments_start hbegin rest, if_true,
    hargs deeper rest (by omega), bind, Except.bind]
  congr 1
  omega

lemma finds_index {l r : Token} {i : Expr Position} {w' : List Token} (h : Finds finish (.accessed e) w)
    (harray : e.isNewArray = false) (hl : l.lexeme = .symbol .leftBracket) (hi : Finds finish (.expression i) w')
    (hr : r.lexeme = .symbol .rightBracket) :
    Finds finish (.accessed (.index l.position e i)) (w ++ l :: (w' ++ [r])) := by
  obtain ⟨calls, hcalls, h⟩ := h
  simp only [Finds, List.length_append, List.length_cons, List.length_nil]
  refine ⟨calls + 1, by omega, fun depth rest hdepth hrest _ => ?_⟩
  obtain ⟨deeper, hdeeper⟩ : ∃ d, depth - calls = d + 1 := Nat.exists_eq_add_of_le' (by omega)
  have hstop : Stops 15 (l :: (w' ++ r :: rest)) := stops_cons (by rw [reach_symbol hl]; decide) _
  have hstop' : Stops 0 (r :: rest) := stops_cons (by rw [reach_symbol hr]; decide) _
  have hfound := h depth _ (by omega) hstop fun hnew => by simp [harray] at hnew
  simp only [List.append_assoc, List.cons_append, List.nil_append]
  rw [hfound, hdeeper, accesses.eq_def]
  simp only [symbolOf?_eq_some.mpr hl, harray, Bool.false_eq_true, if_false,
    hi deeper _ (by omega) hstop', bind, Except.bind, expectSymbol_cons hr]
  congr 1
  omega

lemma finds_noArguments {l r : Token} (hl : l.lexeme = .symbol .leftParen) (hr : r.lexeme = .symbol .rightParen) :
    Finds finish (.arguments []) [l, r] := by
  intro depth rest hdepth
  obtain ⟨depth, rfl⟩ : ∃ d, depth = d + 1 := Nat.exists_eq_add_of_le' (by omega)
  have hclose : startsWith .rightParen (r :: rest) = true := startsWith_cons hr _
  simp only [List.cons_append, List.nil_append, arguments, expectSymbol_cons hl, bind, Except.bind, hclose, if_true]
  rfl

/-- What begins an operand is no closing bracket. -/
lemma not_startsWith_of_begins {s : Symbol} (hbegin : ∃ t u, w = t :: u ∧ BeginsUnary t)
    (hs : s = .rightParen ∨ s = .rightBracket) (rest : List Token) : startsWith s (w ++ rest) = false := by
  obtain ⟨t, u, rfl, ht, -⟩ := hbegin
  refine Bool.eq_false_iff.mpr fun hstart => ?_
  obtain ⟨t', hcons, hlexeme⟩ := startsWith_eq_true.mp hstart
  obtain ⟨rfl, -⟩ := List.cons.inj hcons
  rcases hs with rfl | rfl <;> simp [beginsCastOperand, hlexeme] at ht

/-- Further arguments begin with a comma. -/
lemma stops_more {es : List (Expr Position)} (h : Written (.more es) w) (hrest : Stops 0 rest) :
    Stops 0 (w ++ rest) := by
  cases h with
  | noMore => exact hrest
  | more hcomma => exact stops_cons (by rw [reach_symbol hcomma]; decide) _

lemma finds_arguments {l r : Token} {es : List (Expr Position)} {w' : List Token}
    (hl : l.lexeme = .symbol .leftParen) (h : Finds finish (.expression e) w)
    (hbegin : ∃ t u, w = t :: u ∧ BeginsUnary t) (hmore : Finds finish (.more es) w')
    (hw' : Written (.more es) w') (hr : r.lexeme = .symbol .rightParen) :
    Finds finish (.arguments (e :: es)) (l :: (w ++ (w' ++ [r]))) := by
  intro depth rest hdepth
  simp only [List.length_append, List.length_cons, List.length_nil] at hdepth
  obtain ⟨depth, rfl⟩ : ∃ d, depth = d + 1 := Nat.exists_eq_add_of_le' (by omega)
  have hstop : Stops 0 (r :: rest) := stops_cons (by rw [reach_symbol hr]; decide) _
  have hclose : startsWith .rightParen (w ++ (w' ++ r :: rest)) = false :=
    not_startsWith_of_begins hbegin (Or.inl rfl) _
  simp only [List.cons_append, List.append_assoc, List.nil_append, arguments, expectSymbol_cons hl, bind,
    Except.bind, hclose, Bool.false_eq_true, if_false, h depth _ (by omega) (stops_more hw' hstop),
    hmore depth (r :: rest) (by omega) hstop (startsWith_cons hr _), expectSymbol_cons hr]
  rfl

lemma finds_noMore : Finds finish (.more []) [] := by
  intro depth rest hdepth _ hcomma
  obtain ⟨depth, rfl⟩ : ∃ d, depth = d + 1 := Nat.exists_eq_add_of_le' (by omega)
  simp only [List.nil_append, moreArguments, hcomma, Bool.false_eq_true, if_false]
  rfl

lemma finds_more {comma : Token} {es : List (Expr Position)} {w' : List Token} (hcomma : comma.lexeme = .symbol .comma)
    (h : Finds finish (.expression e) w) (hmore : Finds finish (.more es) w') (hw' : Written (.more es) w') :
    Finds finish (.more (e :: es)) (comma :: (w ++ w')) := by
  intro depth rest hdepth hrest hnone
  simp only [List.length_append, List.length_cons] at hdepth
  obtain ⟨depth, rfl⟩ : ∃ d, depth = d + 1 := Nat.exists_eq_add_of_le' (by omega)
  have hstart : startsWith .comma (comma :: (w ++ (w' ++ rest))) = true := startsWith_cons hcomma _
  simp only [List.cons_append, List.append_assoc, moreArguments, hstart, if_true, List.tail_cons,
    h depth _ (by omega) (stops_more hw' hrest), hmore depth rest (by omega) hrest hnone, bind, Except.bind]
  rfl

lemma finds_noSizes {n : Nat} (h : Brackets n w) : Finds finish (.sizes [] n) w := by
  induction h with
  | zero =>
    intro depth extra rest hdepth _ hrest
    obtain ⟨depth, rfl⟩ : ∃ d, depth = d + 1 := Nat.exists_eq_add_of_le' (by omega)
    simp only [List.nil_append, dimensions, hrest, Bool.false_eq_true, if_false]
    rfl
  | @succ l r n w hl hr _ ih =>
    intro depth extra rest hdepth hextra hrest
    simp only [List.length_cons] at hdepth
    obtain ⟨depth, rfl⟩ : ∃ d, depth = d + 1 := Nat.exists_eq_add_of_le' (by omega)
    have hopen : startsWith .leftBracket (l :: r :: (w ++ rest)) = true := startsWith_cons hl _
    have hclose : startsWith .rightBracket (r :: (w ++ rest)) = true := startsWith_cons hr _
    simp only [List.cons_append, dimensions, hopen, hclose, if_true, List.tail_cons,
      ih depth (extra + 1) rest (by omega) (fun hne => absurd rfl hne) hrest, Nat.add_assoc, Nat.add_comm 1 n]

lemma finds_size {l r : Token} {es : List (Expr Position)} {n : Nat} {w' : List Token}
    (hl : l.lexeme = .symbol .leftBracket) (h : Finds finish (.expression e) w)
    (hbegin : ∃ t u, w = t :: u ∧ BeginsUnary t) (hr : r.lexeme = .symbol .rightBracket)
    (hmore : Finds finish (.sizes es n) w') : Finds finish (.sizes (e :: es) n) (l :: (w ++ r :: w')) := by
  intro depth extra rest hdepth hextra hrest
  obtain rfl : extra = 0 := hextra (by simp)
  simp only [List.length_append, List.length_cons] at hdepth
  obtain ⟨depth, rfl⟩ : ∃ d, depth = d + 1 := Nat.exists_eq_add_of_le' (by omega)
  have hopen : startsWith .leftBracket (l :: (w ++ r :: (w' ++ rest))) = true := startsWith_cons hl _
  have hclose : startsWith .rightBracket (w ++ r :: (w' ++ rest)) = false :=
    not_startsWith_of_begins hbegin (Or.inr rfl) _
  have hstop : Stops 0 (r :: (w' ++ rest)) := stops_cons (by rw [reach_symbol hr]; decide) _
  simp only [List.cons_append, List.append_assoc, dimensions, hopen, if_true, List.tail_cons, hclose,
    Bool.false_eq_true, if_false, ne_eq, not_true_eq_false, h depth _ (by omega) hstop, bind, Except.bind,
    expectSymbol_cons hr, hmore depth 0 rest (by omega) (fun _ => rfl) hrest]
  rfl

lemma length_pos_of_begins {P : Token → Prop} (h : ∃ t u, w = t :: u ∧ P t) : 0 < w.length := by
  obtain ⟨t, u, rfl, -⟩ := h
  simp

/-- Every phrase is found. -/
theorem finds_of_written {p : Phrase} (h : Written p w) : Finds finish p w := by
  induction h with
  | ofConditional _ ih => exact finds_ofConditional ih
  | assign _ hassign ht _ ih ih' => exact finds_assign ih hassign ht ih'
  | ofBinary _ ih => exact finds_ofBinary ih
  | conditional _ hq _ hcolon _ ih ih' ih'' => exact finds_conditional ih hq ih' hcolon ih''
  | ofUnary h ih => exact finds_ofUnary ih (length_pos_of_begins h.begins)
  | tighter hlevel h ih => exact finds_tighter hlevel ih (length_pos_of_begins h.begins)
  | binary hlevel _ ht _ ih ih' => exact finds_binary hlevel ih ht ih'
  | instanceOf _ ht htype ih => exact finds_instanceOf ih ht htype
  | smallest ht hnext => exact finds_smallest ht hnext
  | minus ht h ih => exact finds_minus ht ih h.begins
  | plus ht _ ih => exact finds_plus ht ih
  | ofUnsigned h ih => exact finds_ofUnsigned ih h.begins
  | unary ht _ ih => exact finds_unary ht ih
  | cast hl htype hr h ih => exact finds_cast hl htype hr h.begins ih
  | ofAccessed h ih => exact finds_ofAccessed ih h
  | literal ht => exact finds_literal ht
  | this ht => exact finds_this ht
  | name ht => exact finds_name ht
  | thisCall ht hargs ih => exact finds_thisCall ht ih hargs.begins
  | group hl _ hr ih => exact finds_group hl ih hr
  | newObject ht htype hnamed hargs ih => exact finds_newObject ht htype hnamed ih hargs.begins
  | newArray ht htype hdims hne ih => exact finds_newArray ht htype hne ih hdims
  | field _ hdot ht ih => exact finds_field ih hdot ht
  | call _ hdot ht hargs ih ih' => exact finds_call ih hdot ht ih' hargs.begins
  | index _ harray hl _ hr ih ih' => exact finds_index ih harray hl ih' hr
  | noArguments hl hr => exact finds_noArguments hl hr
  | arguments hl h hmore hr ih ih' => exact finds_arguments hl ih h.begins ih' hmore hr
  | noMore => exact finds_noMore
  | more hcomma _ hmore ih ih' => exact finds_more hcomma ih ih' hmore
  | noSizes h => exact finds_noSizes h
  | size hl h hr _ ih ih' => exact finds_size hl ih h.begins hr ih'

/-- Parsing finds exactly the expressions that the tokens write. -/
theorem parseTokens_eq_ok {source : Tokens} {e : Expr Position} :
    parseTokens source = .ok e ↔ Written (.expression e) source.tokens := by
  constructor
  · exact written_of_parseTokens
  · intro h
    have hdepth : 20 * source.tokens.length + 17 ≤ depthFor source.tokens.length := by
      unfold depthFor
      omega
    have hfound : expression source.finish (depthFor source.tokens.length) (source.tokens ++ []) = .ok (e, []) :=
      finds_of_written h _ [] hdepth (stops_nil 0)
    rw [List.append_nil] at hfound
    rw [parseTokens, hfound]
    rfl

end PredicateTrace.Parser
