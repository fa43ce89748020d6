import PredicateTrace.Proofs.ParserSoundness

/-!
# The depth of the parser

The bound on the depth of the calls that `parse` chooses is never used up: every larger one gives the same result,
also for tokens that write no expression. A function that has a call left for each level below it, and twenty for
each token, hands on as much to the functions that it calls, since these stand on a lower level or come after a token.
The proof is by induction on the bound, with one lemma for each function.
-/

namespace PredicateTrace.Parser

variable {finish : Position} {depth : Nat} {ts rest : List Token}

/-! ### What is left -/

lemma Reads.length_le {α : Type} {result : Except SyntaxError (Found α)} {phrase : α → Phrase}
    (h : Reads result ts phrase) {a : α} (ha : result = .ok (a, rest)) : rest.length ≤ ts.length := by
  obtain ⟨w, rfl, -⟩ := h a rest ha
  simp

lemma length_lt_of_expectSymbol {s : Symbol} (h : expectSymbol finish s ts = .ok rest) : rest.length < ts.length := by
  obtain ⟨t, rfl, -⟩ := expectSymbol_eq_ok.mp h
  simp

lemma length_le_of_type {t : TypeName} (h : type finish ts = .ok (t, rest)) : rest.length ≤ ts.length := by
  obtain ⟨w, rfl, -⟩ := type_sound h
  simp

/-! ### One function at a time -/

/-- What is known of the parsing functions with a bound on the depth: one more call changes nothing for so few tokens
that the bound suffices. -/
structure Settled (finish : Position) (depth : Nat) : Prop where
  expression : ∀ ts, 20 * ts.length + 17 ≤ depth → expression finish (depth + 1) ts = expression finish depth ts
  conditional : ∀ ts, 20 * ts.length + 16 ≤ depth → conditional finish (depth + 1) ts = conditional finish depth ts
  binary : ∀ level ts, 20 * ts.length + 5 + (levels - level) ≤ depth →
    binary finish (depth + 1) level ts = binary finish depth level ts
  chain : ∀ level e ts, level < levels → 20 * ts.length + 1 ≤ depth →
    chain finish (depth + 1) level e ts = chain finish depth level e ts
  unary : ∀ ts, 20 * ts.length + 4 ≤ depth → unary finish (depth + 1) ts = unary finish depth ts
  unsigned : ∀ ts, 20 * ts.length + 3 ≤ depth → unsignedUnary finish (depth + 1) ts = unsignedUnary finish depth ts
  accessed : ∀ ts, 20 * ts.length + 2 ≤ depth → accessed finish (depth + 1) ts = accessed finish depth ts
  accesses : ∀ e ts, 20 * ts.length + 1 ≤ depth → accesses finish (depth + 1) e ts = accesses finish depth e ts
  arguments : ∀ ts, 20 * ts.length + 1 ≤ depth → arguments finish (depth + 1) ts = arguments finish depth ts
  more : ∀ ts, 20 * ts.length + 1 ≤ depth → moreArguments finish (depth + 1) ts = moreArguments finish depth ts
  primary : ∀ ts, 20 * ts.length + 1 ≤ depth → primary finish (depth + 1) ts = primary finish depth ts
  creation : ∀ p ts, 20 * ts.length + 2 ≤ depth → creation finish (depth + 1) p ts = creation finish depth p ts
  dimensions : ∀ extra ts, 20 * ts.length + 1 ≤ depth →
    dimensions finish (depth + 1) extra ts = dimensions finish depth extra ts

lemma settled_expression (ih : Settled finish depth) (ts : List Token) (h : 20 * ts.length + 17 ≤ depth + 1) :
    expression finish (depth + 1 + 1) ts = expression finish (depth + 1) ts := by
  rw [expression, expression, ih.conditional ts (by omega)]
  refine bind_congr_ok ?_
  rintro ⟨target, rest⟩ htarget
  have hrest := ((sound finish depth).conditional ts).length_le htarget
  cases rest with
  | nil => rfl
  | cons t after =>
    rw [List.length_cons] at hrest
    dsimp only
    rw [ih.expression after (by omega)]

lemma settled_conditional (ih : Settled finish depth) (ts : List Token) (h : 20 * ts.length + 16 ≤ depth + 1) :
    conditional finish (depth + 1 + 1) ts = conditional finish (depth + 1) ts := by
  rw [conditional, conditional, ih.binary 0 ts (by simp only [levels]; omega)]
  refine bind_congr_ok ?_
  rintro ⟨cond, rest⟩ hcond
  have hrest := ((sound finish depth).binary 0 ts (Nat.zero_le _)).length_le hcond
  cases rest with
  | nil => rfl
  | cons t after =>
    rw [List.length_cons] at hrest
    dsimp only
    rw [ih.conditional after (by omega)]
    split
    · refine bind_congr_ok ?_
      rintro ⟨thenArm, rest⟩ hthen
      have hrest := ((sound finish depth).conditional after).length_le hthen
      dsimp only
      refine bind_congr_ok fun rest hcolon => ?_
      have hcolon := length_lt_of_expectSymbol hcolon
      rw [ih.conditional rest (by omega)]
    · rfl

lemma settled_binary (ih : Settled finish depth) (level : Nat) (ts : List Token)
    (h : 20 * ts.length + 5 + (levels - level) ≤ depth + 1) :
    binary finish (depth + 1 + 1) level ts = binary finish (depth + 1) level ts := by
  unfold binary
  split
  · next hlt =>
    rw [ih.binary (level + 1) ts (by omega)]
    refine bind_congr_ok ?_
    rintro ⟨left, rest⟩ hleft
    have hrest := ((sound finish depth).binary (level + 1) ts hlt).length_le hleft
    exact ih.chain level left rest hlt (by omega)
  · exact ih.unary ts (by omega)

lemma settled_chain (ih : Settled finish depth) (level : Nat) (e : Expr Position) (ts : List Token)
    (hlevel : level < levels) (h : 20 * ts.length + 1 ≤ depth + 1) :
    chain finish (depth + 1 + 1) level e ts = chain finish (depth + 1) level e ts := by
  cases ts with
  | nil => rw [chain, chain]
  | cons t after =>
    rw [List.length_cons] at h
    rw [chain, chain]
    cases operatorAt? level t with
    | some op =>
      dsimp only
      rw [ih.binary (level + 1) after (by simp only [levels]; omega)]
      refine bind_congr_ok ?_
      rintro ⟨right, rest⟩ hright
      have hrest := ((sound finish depth).binary (level + 1) after hlevel).length_le hright
      exact ih.chain level _ rest hlevel (by omega)
    | none =>
      dsimp only
      split
      · refine bind_congr_ok ?_
        rintro ⟨type, rest⟩ htype
        have hrest := length_le_of_type htype
        exact ih.chain level _ rest hlevel (by omega)
      · rfl

lemma settled_unary (ih : Settled finish depth) (ts : List Token) (h : 20 * ts.length + 4 ≤ depth + 1) :
    unary finish (depth + 1 + 1) ts = unary finish (depth + 1) ts := by
  cases ts with
  | nil => rw [unary, unary, ih.unsigned [] (by omega)]
  | cons t after =>
    rw [List.length_cons] at h
    rw [unary, unary, ih.unary after (by omega), ih.unsigned (t :: after) (by rw [List.length_cons]; omega)]

lemma settled_unsigned (ih : Settled finish depth) (ts : List Token) (h : 20 * ts.length + 3 ≤ depth + 1) :
    unsignedUnary finish (depth + 1 + 1) ts = unsignedUnary finish (depth + 1) ts := by
  cases ts with
  | nil => rw [unsignedUnary, unsignedUnary, ih.accessed [] (by omega)]
  | cons t after =>
    rw [List.length_cons] at h
    rw [unsignedUnary, unsignedUnary, ih.unary after (by omega),
      ih.accessed (t :: after) (by rw [List.length_cons]; omega)]
    cases (symbolOf? t).bind unary? with
    | some op => rfl
    | none =>
      dsimp only
      split
      · refine bind_congr_ok ?_
        rintro ⟨type, rest⟩ htype
        have hrest := length_le_of_type htype
        dsimp only
        refine bind_congr_ok fun after hclose => ?_
        have hafter := length_lt_of_expectSymbol hclose
        rw [ih.unary after (by omega), ih.unsigned after (by omega)]
      · rfl

lemma settled_accessed (ih : Settled finish depth) (ts : List Token) (h : 20 * ts.length + 2 ≤ depth + 1) :
    accessed finish (depth + 1 + 1) ts = accessed finish (depth + 1) ts := by
  rw [accessed, accessed, ih.primary ts (by omega)]
  refine bind_congr_ok ?_
  rintro ⟨e, rest⟩ he
  have hrest := ((sound finish depth).primary ts).length_le he
  exact ih.accesses e rest (by omega)

lemma settled_accesses (ih : Settled finish depth) (e : Expr Position) (ts : List Token)
    (h : 20 * ts.length + 1 ≤ depth + 1) :
    accesses finish (depth + 1 + 1) e ts = accesses finish (depth + 1) e ts := by
  cases ts with
  | nil => rw [accesses, accesses]
  | cons t after =>
    rw [List.length_cons] at h
    unfold accesses
    dsimp only
    split
    · cases after with
      | nil => rfl
      | cons nameToken rest =>
        rw [List.length_cons] at h
        dsimp only
        split
        · next name _ =>
          split
          · rw [ih.arguments rest (by omega)]
            refine bind_congr_ok ?_
            rintro ⟨args, after⟩ hargs
            have hafter := ((sound finish depth).arguments rest).length_le hargs
            exact ih.accesses _ after (by omega)
          · exact ih.accesses _ rest (by omega)
        · rfl
    · split
      · rfl
      · rw [ih.expression after (by omega)]
        refine bind_congr_ok ?_
        rintro ⟨index, rest⟩ hindex
        have hrest := ((sound finish depth).expression after).length_le hindex
        dsimp only
        refine bind_congr_ok fun after hclose => ?_
        have hafter := length_lt_of_expectSymbol hclose
        exact ih.accesses _ after (by omega)
    · rfl
    · rfl
    · rfl

lemma settled_arguments (ih : Settled finish depth) (ts : List Token) (h : 20 * ts.length + 1 ≤ depth + 1) :
    arguments finish (depth + 1 + 1) ts = arguments finish (depth + 1) ts := by
  rw [arguments, arguments]
  refine bind_congr_ok fun rest hopen => ?_
  have hrest := length_lt_of_expectSymbol hopen
  split
  · rfl
  · rw [ih.expression rest (by omega)]
    refine bind_congr_ok ?_
    rintro ⟨first, after⟩ hfirst
    have hafter := ((sound finish depth).expression rest).length_le hfirst
    dsimp only
    rw [ih.more after (by omega)]

lemma settled_more (ih : Settled finish depth) (ts : List Token) (h : 20 * ts.length + 1 ≤ depth + 1) :
    moreArguments finish (depth + 1 + 1) ts = moreArguments finish (depth + 1) ts := by
  rw [moreArguments, moreArguments]
  split
  · next hcomma =>
    obtain ⟨t, hts, -⟩ := startsWith_eq_true.mp hcomma
    have htail : ts.tail.length < ts.length := by
      rw [hts, List.tail_cons, List.length_cons]
      omega
    rw [ih.expression ts.tail (by omega)]
    refine bind_congr_ok ?_
    rintro ⟨next, rest⟩ hnext
    have hrest := ((sound finish depth).expression ts.tail).length_le hnext
    dsimp only
    rw [ih.more rest (by omega)]
  · rfl

lemma settled_primary (ih : Settled finish depth) (ts : List Token) (h : 20 * ts.length + 1 ≤ depth + 1) :
    primary finish (depth + 1 + 1) ts = primary finish (depth + 1) ts := by
  cases ts with
  | nil => rw [primary, primary]
  | cons t after =>
    rw [List.length_cons] at h
    rw [primary, primary, ih.creation t.position after (by omega), ih.arguments after (by omega),
      ih.expression after (by omega)]

lemma settled_creation (ih : Settled finish depth) (p : Position) (ts : List Token)
    (h : 20 * ts.length + 2 ≤ depth + 1) :
    creation finish (depth + 1 + 1) p ts = creation finish (depth + 1) p ts := by
  rw [creation, creation]
  refine bind_congr_ok ?_
  rintro ⟨element, rest⟩ helement
  obtain ⟨w, rfl, -⟩ := typeName_sound helement
  rw [List.length_append] at h
  dsimp only
  rw [ih.dimensions 0 rest (by omega), ih.arguments rest (by omega)]

lemma settled_dimensions (ih : Settled finish depth) (extra : Nat) (ts : List Token)
    (h : 20 * ts.length + 1 ≤ depth + 1) :
    dimensions finish (depth + 1 + 1) extra ts = dimensions finish (depth + 1) extra ts := by
  rw [dimensions, dimensions]
  split
  · next hopen =>
    obtain ⟨t, hts, -⟩ := startsWith_eq_true.mp hopen
    have htail : ts.tail.length < ts.length := by
      rw [hts, List.tail_cons, List.length_cons]
      omega
    have hskip : ts.tail.tail.length ≤ ts.tail.length := by
      rw [List.length_tail]
      omega
    dsimp only
    rw [ih.dimensions (extra + 1) ts.tail.tail (by omega), ih.expression ts.tail (by omega)]
    split
    · rfl
    · split
      · rfl
      · refine bind_congr_ok ?_
        rintro ⟨size, rest⟩ hsize
        have hrest := ((sound finish depth).expression ts.tail).length_le hsize
        dsimp only
        refine bind_congr_ok fun after hclose => ?_
        have hafter := length_lt_of_expectSymbol hclose
        rw [ih.dimensions extra after (by omega)]
  · rfl

theorem settled (finish : Position) (depth : Nat) : Settled finish depth := by
  induction depth with
  | zero => constructor <;> intros <;> omega
  | succ depth ih =>
    exact ⟨settled_expression ih, settled_conditional ih, settled_binary ih, settled_chain ih, settled_unary ih,
      settled_unsigned ih, settled_accessed ih, settled_accesses ih, settled_arguments ih, settled_more ih,
      settled_primary ih, settled_creation ih, settled_dimensions ih⟩

/-- The bound on the depth that `parse` chooses is large enough: every larger one gives the same result. -/
theorem expression_of_depth (finish : Position) (ts : List Token) {depth : Nat} (h : depthFor ts.length ≤ depth) :
    expression finish depth ts = expression finish (depthFor ts.length) ts := by
  obtain ⟨more, rfl⟩ := Nat.exists_eq_add_of_le h
  clear h
  induction more with
  | zero => rfl
  | succ more ih =>
    have hdepth : 20 * ts.length + 17 ≤ depthFor ts.length + more := by
      rw [depthFor]
      omega
    rw [← Nat.add_assoc, (settled finish _).expression ts hdepth, ih]

end PredicateTrace.Parser
