import PredicateTrace.Proofs.ParserSoundness

/-!
# Where the parser fails

Every parsing function fails at one of the tokens it was given or at the end of the source. The proof is by
induction on the bound of the depth, with one lemma for each function.
-/

namespace PredicateTrace.Parser

variable {α β : Type} {finish : Position} {depth : Nat} {ts ts' : List Token} {t : Token}

/-- A place of the source that the parser knows: the end or the beginning of a token. -/
def Known (finish : Position) (ts : List Token) (p : Position) : Prop :=
  p = finish ∨ ∃ t ∈ ts, p = t.position

/-- A parsing function leaves some of its tokens, or it fails at a place that it knows. -/
def Stays (finish : Position) (ts : List Token) (result : Except SyntaxError (Found α)) : Prop :=
  match result with
  | .ok (_, rest) => rest ⊆ ts
  | .error e => ∃ p cause, e = .at p cause ∧ Known finish ts p

lemma Known.mono {p : Position} (h : Known finish ts' p) (hts : ts' ⊆ ts) : Known finish ts p := by
  rcases h with hfinish | ⟨t, ht, hp⟩
  · exact Or.inl hfinish
  · exact Or.inr ⟨t, hts ht, hp⟩

lemma stays_ok {a : α} (h : ts' ⊆ ts) : Stays finish ts (.ok (a, ts')) :=
  h

lemma stays_error {cause : SyntaxCause} (h : t ∈ ts) :
    Stays finish ts (.error (.at t.position cause) : Except SyntaxError (Found α)) :=
  ⟨t.position, cause, rfl, Or.inr ⟨t, h, rfl⟩⟩

lemma known_failAt (finish : Position) (ts : List Token) :
    Known finish ts ((ts.head?.map Token.position).getD finish) := by
  cases ts with
  | nil => exact Or.inl rfl
  | cons t rest => exact Or.inr ⟨t, List.mem_cons_self, rfl⟩

lemma stays_failAt {cause : SyntaxCause} (h : ts' ⊆ ts) :
    Stays finish ts (failAt finish ts' cause : Except SyntaxError (Found α)) :=
  ⟨_, cause, rfl, (known_failAt finish ts').mono h⟩

lemma stays_failExpected {what : Expected} (h : ts' ⊆ ts) :
    Stays finish ts (failExpected finish ts' what : Except SyntaxError (Found α)) :=
  stays_failAt h

lemma Stays.mono {result : Except SyntaxError (Found α)} (h : Stays finish ts' result) (hts : ts' ⊆ ts) :
    Stays finish ts result := by
  cases result with
  | ok found => exact List.Subset.trans h hts
  | error e =>
    obtain ⟨p, cause, he, hp⟩ := h
    exact ⟨p, cause, he, hp.mono hts⟩

lemma Stays.bind {result : Except SyntaxError (Found α)} {next : Found α → Except SyntaxError (Found β)}
    (h : Stays finish ts' result) (hts : ts' ⊆ ts) (hnext : ∀ a rest, rest ⊆ ts → Stays finish ts (next (a, rest))) :
    Stays finish ts (result >>= next) := by
  cases result with
  | ok found => exact hnext found.1 found.2 (List.Subset.trans h hts)
  | error e =>
    obtain ⟨p, cause, he, hp⟩ := h
    exact ⟨p, cause, he, hp.mono hts⟩

/-- What follows a symbol that must come next has fewer tokens. -/
lemma stays_expectSymbol {s : Symbol} {next : List Token → Except SyntaxError (Found α)} (hts : ts' ⊆ ts)
    (hnext : ∀ rest, rest ⊆ ts → Stays finish ts (next rest)) :
    Stays finish ts (expectSymbol finish s ts' >>= next) := by
  unfold expectSymbol
  split
  · exact hnext _ (List.Subset.trans (List.tail_sublist ts').subset hts)
  · exact stays_failExpected hts

/-! ### Literals and types -/

lemma integerLiteral_error {bits n : Nat} {make : Int → Literal} {e : SyntaxError}
    (h : (integerLiteral bits t n).map make = .error e) : ∃ cause, e = .at t.position cause := by
  unfold integerLiteral at h
  dsimp only at h
  generalize (if isDecimal t.text then 2 ^ (bits - 1) - 1 else 2 ^ bits - 1) = bound at h
  split at h
  · exact ⟨_, (Except.error.inj h).symm⟩
  · cases h

lemma floatingLiteral_error {x : Float} {make : Float → Literal} {e : SyntaxError}
    (h : floatingLiteral t x make = .error e) : ∃ cause, e = .at t.position cause := by
  unfold floatingLiteral at h
  split at h
  · exact ⟨_, (Except.error.inj h).symm⟩
  · split at h
    · exact ⟨_, (Except.error.inj h).symm⟩
    · cases h

lemma literal?_error {e : SyntaxError} (h : literal? t = some (.error e)) : ∃ cause, e = .at t.position cause := by
  unfold literal? at h
  split at h
  · exact integerLiteral_error (Option.some.inj h)
  · exact integerLiteral_error (Option.some.inj h)
  · exact floatingLiteral_error (Option.some.inj h)
  · exact floatingLiteral_error (Option.some.inj h)
  all_goals cases h

lemma stays_typeName (finish : Position) (ts : List Token) : Stays finish ts (typeName finish ts) := by
  cases h : typeName finish ts with
  | ok found =>
    obtain ⟨w, hts, -⟩ := typeName_sound h
    rw [hts]
    exact List.subset_append_right w found.2
  | error e =>
    have hfail : typeName finish ts = failExpected finish ts .type := by
      unfold typeName at h ⊢
      split at h
      · split at h
        · cases h
        · cases h
        · rfl
      · rfl
    rw [← h, hfail]
    exact stays_failExpected (List.Subset.refl ts)

lemma stays_type (finish : Position) (ts : List Token) : Stays finish ts (type finish ts) := by
  refine (stays_typeName finish ts).bind (List.Subset.refl _) fun t rest hrest => ?_
  obtain ⟨w, hbrackets, -⟩ := brackets_emptyBrackets rest
  have hsubset : (emptyBrackets rest).2 ⊆ rest := by
    conv_rhs => rw [hbrackets]
    exact List.subset_append_right _ _
  exact stays_ok (List.Subset.trans hsubset hrest)

/-! ### One function at a time -/

/-- What is known of the parsing functions with a bound on the depth. -/
structure Places (finish : Position) (depth : Nat) : Prop where
  expression : ∀ ts, Stays finish ts (expression finish depth ts)
  conditional : ∀ ts, Stays finish ts (conditional finish depth ts)
  binary : ∀ level ts, Stays finish ts (binary finish depth level ts)
  chain : ∀ level e ts, Stays finish ts (chain finish depth level e ts)
  unary : ∀ ts, Stays finish ts (unary finish depth ts)
  unsigned : ∀ ts, Stays finish ts (unsignedUnary finish depth ts)
  accessed : ∀ ts, Stays finish ts (accessed finish depth ts)
  accesses : ∀ e ts, Stays finish ts (accesses finish depth e ts)
  arguments : ∀ ts, Stays finish ts (arguments finish depth ts)
  more : ∀ ts, Stays finish ts (moreArguments finish depth ts)
  primary : ∀ ts, Stays finish ts (primary finish depth ts)
  creation : ∀ t ts, Stays finish (t :: ts) (creation finish depth t.position ts)
  dimensions : ∀ extra ts, Stays finish ts (dimensions finish depth extra ts)

lemma stays_expression (ih : Places finish depth) (ts : List Token) :
    Stays finish ts (expression finish (depth + 1) ts) := by
  rw [expression]
  refine (ih.conditional ts).bind (List.Subset.refl _) fun target rest hrest => ?_
  cases rest with
  | nil => exact stays_ok hrest
  | cons t after =>
    obtain ⟨ht, hafter⟩ := List.cons_subset.mp hrest
    dsimp only
    split
    · split
      · refine (ih.expression after).bind hafter fun value rest hrest => ?_
        exact stays_ok hrest
      · exact stays_error ht
    · exact stays_ok hrest

lemma stays_conditional (ih : Places finish depth) (ts : List Token) :
    Stays finish ts (conditional finish (depth + 1) ts) := by
  rw [conditional]
  refine (ih.binary 0 ts).bind (List.Subset.refl _) fun cond rest hrest => ?_
  cases rest with
  | nil => exact stays_ok hrest
  | cons t after =>
    obtain ⟨ht, hafter⟩ := List.cons_subset.mp hrest
    dsimp only
    split
    · refine (ih.conditional after).bind hafter fun thenArm rest hrest => ?_
      refine stays_expectSymbol hrest fun rest hrest => ?_
      refine (ih.conditional rest).bind hrest fun elseArm rest hrest => ?_
      exact stays_ok hrest
    · exact stays_ok hrest

lemma stays_binary (ih : Places finish depth) (level : Nat) (ts : List Token) :
    Stays finish ts (binary finish (depth + 1) level ts) := by
  rw [binary]
  split
  · refine (ih.binary (level + 1) ts).bind (List.Subset.refl _) fun left rest hrest => ?_
    exact (ih.chain level left rest).mono hrest
  · exact ih.unary ts

lemma stays_chain (ih : Places finish depth) (level : Nat) (left : Expr Position) (ts : List Token) :
    Stays finish ts (chain finish (depth + 1) level left ts) := by
  cases ts with
  | nil =>
    rw [chain]
    exact stays_ok (List.Subset.refl _)
  | cons t after =>
    have hafter := List.subset_cons_self t after
    rw [chain]
    split
    · next op _ =>
      refine (ih.binary (level + 1) after).bind hafter fun right rest hrest => ?_
      exact (ih.chain level (.binary t.position op left right) rest).mono hrest
    · split
      · refine (stays_type finish after).bind hafter fun type rest hrest => ?_
        exact (ih.chain level (.instanceOf t.position left type) rest).mono hrest
      · exact stays_ok (List.Subset.refl _)

lemma stays_unary (ih : Places finish depth) (ts : List Token) : Stays finish ts (unary finish (depth + 1) ts) := by
  cases ts with
  | nil =>
    rw [unary]
    exact ih.unsigned []
  | cons t after =>
    have hafter := List.subset_cons_self t after
    rw [unary]
    split
    · exact stays_error List.mem_cons_self
    · exact stays_error List.mem_cons_self
    · split
      · exact stays_ok (List.Subset.trans (List.tail_sublist after).subset hafter)
      · refine (ih.unary after).bind hafter fun operand rest hrest => ?_
        exact stays_ok hrest
    · refine (ih.unary after).bind hafter fun operand rest hrest => ?_
      exact stays_ok hrest
    · exact ih.unsigned (t :: after)

lemma stays_unsigned (ih : Places finish depth) (ts : List Token) :
    Stays finish ts (unsignedUnary finish (depth + 1) ts) := by
  cases ts with
  | nil =>
    rw [unsignedUnary]
    exact ih.accessed []
  | cons t after =>
    have hafter := List.subset_cons_self t after
    rw [unsignedUnary]
    split
    · refine (ih.unary after).bind hafter fun operand rest hrest => ?_
      exact stays_ok hrest
    · split
      · refine (stays_type finish after).bind hafter fun type rest hrest => ?_
        refine stays_expectSymbol hrest fun rest hrest => ?_
        dsimp only
        split
        · refine (ih.unary rest).bind hrest fun operand rest hrest => ?_
          exact stays_ok hrest
        · refine (ih.unsigned rest).bind hrest fun operand rest hrest => ?_
          exact stays_ok hrest
      · exact ih.accessed (t :: after)

lemma stays_accessed (ih : Places finish depth) (ts : List Token) :
    Stays finish ts (accessed finish (depth + 1) ts) := by
  rw [accessed]
  refine (ih.primary ts).bind (List.Subset.refl _) fun e rest hrest => ?_
  exact (ih.accesses e rest).mono hrest

lemma stays_accesses (ih : Places finish depth) (e : Expr Position) (ts : List Token) :
    Stays finish ts (accesses finish (depth + 1) e ts) := by
  cases ts with
  | nil =>
    rw [accesses]
    exact stays_ok (List.Subset.refl _)
  | cons t after =>
    have hafter := List.subset_cons_self t after
    unfold accesses
    dsimp only
    split
    · cases after with
      | nil => exact stays_failExpected hafter
      | cons nameToken rest =>
        have hrest := List.Subset.trans (List.subset_cons_self nameToken rest) hafter
        dsimp only
        split
        · next name _ =>
          split
          · refine (ih.arguments rest).bind hrest fun args rest hrest => ?_
            exact (ih.accesses (.call nameToken.position e name args) rest).mono hrest
          · exact (ih.accesses (.field t.position e name) rest).mono hrest
        · exact stays_failExpected hafter
    · split
      · exact stays_ok (List.Subset.refl _)
      · refine (ih.expression after).bind hafter fun index rest hrest => ?_
        refine stays_expectSymbol hrest fun rest hrest => ?_
        exact (ih.accesses (.index t.position e index) rest).mono hrest
    · exact stays_error List.mem_cons_self
    · exact stays_error List.mem_cons_self
    · exact stays_ok (List.Subset.refl _)

lemma stays_arguments (ih : Places finish depth) (ts : List Token) :
    Stays finish ts (arguments finish (depth + 1) ts) := by
  rw [arguments]
  refine stays_expectSymbol (List.Subset.refl _) fun rest hrest => ?_
  split
  · exact stays_ok (List.Subset.trans (List.tail_sublist rest).subset hrest)
  · refine (ih.expression rest).bind hrest fun first rest hrest => ?_
    refine (ih.more rest).bind hrest fun others rest hrest => ?_
    refine stays_expectSymbol hrest fun rest hrest => ?_
    exact stays_ok hrest

lemma stays_more (ih : Places finish depth) (ts : List Token) :
    Stays finish ts (moreArguments finish (depth + 1) ts) := by
  rw [moreArguments]
  split
  · refine (ih.expression ts.tail).bind (List.tail_sublist ts).subset fun next rest hrest => ?_
    refine (ih.more rest).bind hrest fun others rest hrest => ?_
    exact stays_ok hrest
  · exact stays_ok (List.Subset.refl _)

lemma stays_primary (ih : Places finish depth) (ts : List Token) :
    Stays finish ts (primary finish (depth + 1) ts) := by
  cases ts with
  | nil =>
    rw [primary]
    exact stays_failExpected (List.Subset.refl _)
  | cons t after =>
    have hafter := List.subset_cons_self t after
    rw [primary]
    split
    · next literal hliteral =>
      cases literal with
      | ok value => exact stays_ok hafter
      | error e =>
        obtain ⟨cause, rfl⟩ := literal?_error hliteral
        exact stays_error List.mem_cons_self
    · split
      · exact stays_ok hafter
      · exact ih.creation t after
      · split
        · refine (ih.arguments after).bind hafter fun args rest hrest => ?_
          exact stays_ok hrest
        · exact stays_ok hafter
      · refine (ih.expression after).bind hafter fun e rest hrest => ?_
        refine stays_expectSymbol hrest fun rest hrest => ?_
        exact stays_ok hrest
      · exact stays_failExpected (List.Subset.refl _)

lemma stays_creation (ih : Places finish depth) (t : Token) (ts : List Token) :
    Stays finish (t :: ts) (creation finish (depth + 1) t.position ts) := by
  rw [creation]
  refine (stays_typeName finish ts).bind (List.subset_cons_self t ts) fun element rest hrest => ?_
  dsimp only
  split
  · refine (ih.dimensions 0 rest).bind hrest fun found rest hrest => ?_
    dsimp only
    split
    · exact stays_error List.mem_cons_self
    · exact stays_ok hrest
  · split
    · exact stays_error List.mem_cons_self
    · refine (ih.arguments rest).bind hrest fun args rest hrest => ?_
      exact stays_ok hrest

lemma stays_dimensions (ih : Places finish depth) (extra : Nat) (ts : List Token) :
    Stays finish ts (dimensions finish (depth + 1) extra ts) := by
  rw [dimensions]
  split
  · dsimp only
    split
    · have hrest := List.Subset.trans (List.tail_sublist ts.tail).subset (List.tail_sublist ts).subset
      exact (ih.dimensions (extra + 1) ts.tail.tail).mono hrest
    · split
      · exact stays_failAt (List.Subset.refl _)
      · refine (ih.expression ts.tail).bind (List.tail_sublist ts).subset fun size rest hrest => ?_
        refine stays_expectSymbol hrest fun rest hrest => ?_
        refine (ih.dimensions extra rest).bind hrest fun found rest hrest => ?_
        exact stays_ok hrest
  · exact stays_ok (List.Subset.refl _)

/-- Every parsing function stays with its tokens, whatever the bound on the depth. -/
theorem places (finish : Position) (depth : Nat) : Places finish depth := by
  induction depth with
  | zero =>
    have hfail {α : Type} (ts ts' : List Token) (h : ts' ⊆ ts) :
        Stays finish ts (failExpected finish ts' .expression : Except SyntaxError (Found α)) := stays_failExpected h
    constructor
    all_goals
      intros
      first
      | rw [expression] | rw [conditional] | rw [binary] | rw [chain] | rw [unary] | rw [unsignedUnary]
      | rw [accessed] | rw [accesses] | rw [arguments] | rw [moreArguments] | rw [primary] | rw [creation]
      | rw [dimensions]
      apply hfail
      simp
  | succ depth ih =>
    exact ⟨stays_expression ih, stays_conditional ih, stays_binary ih, stays_chain ih, stays_unary ih,
      stays_unsigned ih, stays_accessed ih, stays_accesses ih, stays_arguments ih, stays_more ih, stays_primary ih,
      stays_creation ih, stays_dimensions ih⟩

/-- What is wrong with a list of tokens is wrong at one of them or at the end of the source. -/
theorem known_of_parseTokens {source : Tokens} {e : SyntaxError} (h : parseTokens source = .error e) :
    ∃ p cause, e = .at p cause ∧ Known source.finish source.tokens p := by
  have hstays := (places source.finish (depthFor source.tokens.length)).expression source.tokens
  unfold parseTokens at h
  cases hexpression : expression source.finish (depthFor source.tokens.length) source.tokens with
  | error e' =>
    rw [hexpression] at h hstays
    obtain rfl := Except.error.inj h
    exact hstays
  | ok found =>
    obtain ⟨e', rest⟩ := found
    rw [hexpression] at h hstays
    cases rest with
    | nil => cases h
    | cons t after =>
      obtain rfl := Except.error.inj h
      exact ⟨t.position, _, rfl, Or.inr ⟨t, hstays List.mem_cons_self, rfl⟩⟩

end PredicateTrace.Parser
