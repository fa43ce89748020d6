import PredicateTrace.Proofs.Grammar
import PredicateTrace.Proofs.Running

/-!
# What the parser reads

Every parsing function uses a list of tokens that writes what it finds, and leaves the others as they are.
The proof is by induction on the bound of the depth, with one lemma for each function.
-/

namespace PredicateTrace.Parser

variable {finish : Position} {depth : Nat} {ts rest : List Token}

/-! ### Symbols, names and types -/

lemma symbolOf?_eq_some {t : Token} {s : Symbol} : symbolOf? t = some s ↔ t.lexeme = .symbol s := by
  unfold symbolOf?
  split <;> simp_all

lemma nameOf?_eq_some {t : Token} {name : String} : nameOf? t = some name ↔ t.lexeme = .ident name := by
  unfold nameOf?
  split <;> simp_all

lemma primitiveOf?_eq_some {t : Token} {p : Primitive} :
    primitiveOf? t = some p ↔ t.lexeme = .keyword (.primitive p) ∧ p ≠ .void := by
  unfold primitiveOf?
  split
  · next q hq =>
    rw [hq]
    split <;> simp_all [eq_comm]
  · next hq =>
    constructor
    · simp
    · rintro ⟨h, -⟩
      exact absurd h (hq p)

lemma isInstanceof_eq_true {t : Token} : isInstanceof t = true ↔ t.lexeme = .keyword .instanceof := by
  unfold isInstanceof
  split <;> simp_all

lemma startsWith_eq_true {s : Symbol} {ts : List Token} :
    startsWith s ts = true ↔ ∃ t, ts = t :: ts.tail ∧ t.lexeme = .symbol s := by
  cases ts with
  | nil => simp [startsWith]
  | cons t ts => simp [startsWith, symbolOf?_eq_some]

lemma not_failExpected {α : Type} {what : Expected} {a : α} : ¬failExpected finish ts what = .ok a := by
  simp [failExpected, failAt]

lemma expectSymbol_eq_ok {s : Symbol} :
    expectSymbol finish s ts = .ok rest ↔ ∃ t, ts = t :: rest ∧ t.lexeme = .symbol s := by
  unfold expectSymbol failExpected failAt
  cases hs : startsWith s ts with
  | true =>
    obtain ⟨t, hts, ht⟩ := startsWith_eq_true.mp hs
    rw [hts, if_pos rfl]
    simp only [List.tail_cons, Except.ok.injEq, List.cons.injEq]
    constructor
    · rintro rfl
      exact ⟨t, ⟨rfl, rfl⟩, ht⟩
    · rintro ⟨_, ⟨_, hrest⟩, _⟩
      exact hrest
  | false =>
    rw [if_neg (by simp)]
    constructor
    · simp
    · rintro ⟨t, rfl, ht⟩
      simp [startsWith, symbolOf?_eq_some.mpr ht] at hs

lemma dotted_dottedParts (ts : List Token) :
    ∃ w, ts = w ++ (dottedParts ts).2 ∧ Dotted (dottedParts ts).1 w := by
  fun_induction dottedParts ts with
  | case1 dot next rest name hname hdot parts after hrec ih =>
    obtain ⟨w, hrest, hw⟩ := ih
    rw [hrec] at hrest hw
    exact ⟨dot :: next :: w, by simp [hrest],
      .cons (symbolOf?_eq_some.mp hdot) (nameOf?_eq_some.mp hname) hw⟩
  | case2 => exact ⟨[], rfl, .nil⟩
  | case3 => exact ⟨[], rfl, .nil⟩

lemma brackets_emptyBrackets (ts : List Token) :
    ∃ w, ts = w ++ (emptyBrackets ts).2 ∧ Brackets (emptyBrackets ts).1 w := by
  fun_induction emptyBrackets ts with
  | case1 first second rest hr hl n after hrec ih =>
    obtain ⟨w, hrest, hw⟩ := ih
    rw [hrec] at hrest hw
    exact ⟨first :: second :: w, by simp [hrest],
      .succ (symbolOf?_eq_some.mp hl) (symbolOf?_eq_some.mp hr) hw⟩
  | case2 => exact ⟨[], rfl, .zero⟩
  | case3 => exact ⟨[], rfl, .zero⟩

lemma typeName_sound {t : TypeName} (h : typeName finish ts = .ok (t, rest)) :
    ∃ w, ts = w ++ rest ∧ BaseWritten t w := by
  cases ts with
  | nil => exact (not_failExpected h).elim
  | cons t after =>
    cases hp : primitiveOf? t with
    | some p =>
      simp only [typeName, hp] at h
      obtain ⟨rfl, rfl⟩ := Prod.mk.inj (Except.ok.inj h)
      obtain ⟨ht, hvoid⟩ := primitiveOf?_eq_some.mp hp
      exact ⟨[t], rfl, .primitive ht hvoid⟩
    | none =>
      cases hname : nameOf? t with
      | some name =>
        simp only [typeName, hp, hname] at h
        obtain ⟨w, hafter, hw⟩ := dotted_dottedParts after
        obtain ⟨rfl, rfl⟩ := Prod.mk.inj (Except.ok.inj h)
        exact ⟨t :: w, by rw [List.cons_append, ← hafter], .named (nameOf?_eq_some.mp hname) hw⟩
      | none => simp [typeName, hp, hname, failExpected, failAt] at h

lemma type_sound {t : TypeName} (h : type finish ts = .ok (t, rest)) :
    ∃ w, ts = w ++ rest ∧ TypeWritten t w := by
  obtain ⟨⟨base, after⟩, hbase, htype⟩ := bind_eq_ok.mp h
  obtain ⟨w, rfl, hw⟩ := typeName_sound hbase
  obtain ⟨w', hafter, hw'⟩ := brackets_emptyBrackets after
  obtain ⟨rfl, rfl⟩ := Prod.mk.inj (Except.ok.inj htype)
  exact ⟨w ++ w', by rw [List.append_assoc, ← hafter], .mk hw hw'⟩

/-! ### One function at a time -/

/-- The tokens that a parsing function has used write what it found. -/
def Reads {α : Type} (result : Except SyntaxError (Found α)) (ts : List Token) (phrase : α → Phrase) : Prop :=
  ∀ e rest, result = .ok (e, rest) → ∃ w, ts = w ++ rest ∧ Written (phrase e) w

/-- The tokens that a parsing function has used continue a phrase of `e` to one of what it found. -/
def Continues (result : Except SyntaxError (Found (Expr Position))) (ts : List Token) (e : Expr Position)
    (phrase : Expr Position → Phrase) : Prop :=
  ∀ e' rest, result = .ok (e', rest) →
    ∃ w, ts = w ++ rest ∧ ∀ before, Written (phrase e) before → Written (phrase e') (before ++ w)

/-- What is known of the parsing functions with a bound on the depth. -/
structure Sound (finish : Position) (depth : Nat) : Prop where
  expression : ∀ ts, Reads (expression finish depth ts) ts .expression
  conditional : ∀ ts, Reads (conditional finish depth ts) ts .conditional
  binary : ∀ level ts, level ≤ levels → Reads (binary finish depth level ts) ts (.binary level)
  chain : ∀ level e ts, level < levels → Continues (chain finish depth level e ts) ts e (.binary level)
  unary : ∀ ts, Reads (unary finish depth ts) ts .unary
  unsigned : ∀ ts, Reads (unsignedUnary finish depth ts) ts .unsigned
  accessed : ∀ ts, Reads (accessed finish depth ts) ts .accessed
  accesses : ∀ e ts, Continues (accesses finish depth e ts) ts e .accessed
  arguments : ∀ ts, Reads (arguments finish depth ts) ts .arguments
  more : ∀ ts, Reads (moreArguments finish depth ts) ts .more
  primary : ∀ ts, Reads (primary finish depth ts) ts .accessed
  creation : ∀ t ts, t.lexeme = .keyword .new → Reads (creation finish depth t.position ts) (t :: ts) .accessed
  dimensions : ∀ extra ts dims total rest, dimensions finish depth extra ts = .ok ((dims, total), rest) →
    (extra ≠ 0 → dims = []) ∧ ∃ w n, ts = w ++ rest ∧ total = extra + n ∧ Written (.sizes dims n) w

lemma reads_expression (ih : Sound finish depth) : Reads (expression finish (depth + 1) ts) ts .expression := by
  intro e rest h
  rw [expression, bind_eq_ok] at h
  obtain ⟨⟨target, after⟩, htarget, h⟩ := h
  obtain ⟨w, rfl, hw⟩ := ih.conditional _ _ _ htarget
  cases after with
  | nil =>
    obtain ⟨rfl, rfl⟩ := Prod.mk.inj (Except.ok.inj h)
    exact ⟨w, rfl, .ofConditional hw⟩
  | cons t after =>
    dsimp only at h
    split at h
    · next ht =>
      split at h
      · next hassign =>
        rw [bind_eq_ok] at h
        obtain ⟨⟨value, rest⟩, hvalue, h⟩ := h
        obtain ⟨w', rfl, hw'⟩ := ih.expression _ _ _ hvalue
        obtain ⟨rfl, rfl⟩ := Prod.mk.inj (Except.ok.inj h)
        exact ⟨w ++ t :: w', by simp, .assign hw hassign (symbolOf?_eq_some.mp (eq_of_beq ht)) hw'⟩
      · simp at h
    · obtain ⟨rfl, rfl⟩ := Prod.mk.inj (Except.ok.inj h)
      exact ⟨w, rfl, .ofConditional hw⟩

lemma reads_conditional (ih : Sound finish depth) :
    Reads (conditional finish (depth + 1) ts) ts .conditional := by
  intro e rest h
  rw [conditional, bind_eq_ok] at h
  obtain ⟨⟨cond, after⟩, hcond, h⟩ := h
  obtain ⟨w, rfl, hw⟩ := ih.binary _ _ (Nat.zero_le _) _ _ hcond
  cases after with
  | nil =>
    obtain ⟨rfl, rfl⟩ := Prod.mk.inj (Except.ok.inj h)
    exact ⟨w, rfl, .ofBinary hw⟩
  | cons q after =>
    dsimp only at h
    split at h
    · next hq =>
      rw [bind_eq_ok] at h
      obtain ⟨⟨yes, rest⟩, hyes, h⟩ := h
      obtain ⟨w', rfl, hw'⟩ := ih.conditional _ _ _ hyes
      rw [bind_eq_ok] at h
      obtain ⟨after, hexpect, h⟩ := h
      obtain ⟨colon, rfl, hcolon⟩ := expectSymbol_eq_ok.mp hexpect
      rw [bind_eq_ok] at h
      obtain ⟨⟨no, rest⟩, hno, h⟩ := h
      obtain ⟨w'', rfl, hw''⟩ := ih.conditional _ _ _ hno
      obtain ⟨rfl, rfl⟩ := Prod.mk.inj (Except.ok.inj h)
      exact ⟨w ++ q :: (w' ++ colon :: w''), by simp,
        .conditional hw (symbolOf?_eq_some.mp (eq_of_beq hq)) hw' hcolon hw''⟩
    · obtain ⟨rfl, rfl⟩ := Prod.mk.inj (Except.ok.inj h)
      exact ⟨w, rfl, .ofBinary hw⟩

lemma reads_binary (ih : Sound finish depth) {level : Nat} (hbound : level ≤ levels) :
    Reads (binary finish (depth + 1) level ts) ts (.binary level) := by
  intro e rest h
  rw [binary] at h
  split at h
  · next hlevel =>
    rw [bind_eq_ok] at h
    obtain ⟨⟨left, after⟩, hleft, h⟩ := h
    obtain ⟨w, rfl, hw⟩ := ih.binary _ _ hlevel _ _ hleft
    obtain ⟨w', rfl, hw'⟩ := ih.chain _ _ _ hlevel _ _ h
    exact ⟨w ++ w', by simp, hw' w (.tighter hlevel hw)⟩
  · next hlevel =>
    obtain ⟨w, rfl, hw⟩ := ih.unary _ _ _ h
    obtain rfl : level = levels := Nat.le_antisymm hbound (Nat.le_of_not_lt hlevel)
    exact ⟨w, rfl, .ofUnary hw⟩

/-- A chain without a further operator ends before the next token. -/
lemma continues_nothing {ts : List Token} {e : Expr Position} {phrase : Expr Position → Phrase} :
    Continues (.ok (e, ts)) ts e phrase := by
  intro e' rest h
  obtain ⟨rfl, rfl⟩ := Prod.mk.inj (Except.ok.inj h)
  exact ⟨[], rfl, fun before hbefore => by simpa using hbefore⟩

lemma continues_chain (ih : Sound finish depth) {level : Nat} (hlevel : level < levels) (left : Expr Position) :
    Continues (chain finish (depth + 1) level left ts) ts left (.binary level) := by
  cases ts with
  | nil =>
    rw [chain]
    exact continues_nothing
  | cons t after =>
    rw [chain]
    split
    · next op hop =>
      intro e rest h
      rw [bind_eq_ok] at h
      obtain ⟨⟨right, rest⟩, hright, h⟩ := h
      obtain ⟨w, rfl, hw⟩ := ih.binary _ _ hlevel _ _ hright
      obtain ⟨w', rfl, hw'⟩ := ih.chain _ _ _ hlevel _ _ h
      refine ⟨t :: (w ++ w'), by simp, fun before hbefore => ?_⟩
      have hchain := hw' _ (.binary hlevel hbefore hop hw)
      simpa using hchain
    · split
      · next hinstance =>
        obtain ⟨rfl, ht⟩ := hinstance
        intro e rest h
        rw [bind_eq_ok] at h
        obtain ⟨⟨type, rest⟩, htype, h⟩ := h
        obtain ⟨w, rfl, hw⟩ := type_sound htype
        obtain ⟨w', rfl, hw'⟩ := ih.chain _ _ _ hlevel _ _ h
        refine ⟨t :: (w ++ w'), by simp, fun before hbefore => ?_⟩
        have hchain := hw' _ (.instanceOf hbefore (isInstanceof_eq_true.mp ht) hw)
        simpa using hchain
      · exact continues_nothing

lemma reads_unary (ih : Sound finish depth) : Reads (unary finish (depth + 1) ts) ts .unary := by
  have hunsigned : Reads (unsignedUnary finish depth ts) ts .unary := by
    intro e rest h
    obtain ⟨w, rfl, hw⟩ := ih.unsigned _ _ _ h
    exact ⟨w, rfl, .ofUnsigned hw⟩
  cases ts with
  | nil =>
    rw [unary]
    exact hunsigned
  | cons t after =>
    rw [unary]
    intro e rest h
    split at h
    · simp at h
    · simp at h
    · next ht =>
      have ht := symbolOf?_eq_some.mp ht
      split at h
      · next position l hsome =>
        obtain ⟨next, hnext, hmap⟩ := Option.bind_eq_some_iff.mp hsome
        obtain ⟨l', hl, hpair⟩ := Option.map_eq_some_iff.mp hmap
        obtain ⟨rfl, rfl⟩ := Prod.mk.inj hpair
        obtain ⟨after, rfl⟩ := List.head?_eq_some_iff.mp hnext
        obtain ⟨rfl, rfl⟩ := Prod.mk.inj (Except.ok.inj h)
        exact ⟨[t, next], rfl, .smallest ht hl⟩
      · rw [bind_eq_ok] at h
        obtain ⟨⟨operand, rest⟩, hoperand, h⟩ := h
        obtain ⟨w, rfl, hw⟩ := ih.unary _ _ _ hoperand
        obtain ⟨rfl, rfl⟩ := Prod.mk.inj (Except.ok.inj h)
        exact ⟨t :: w, rfl, .minus ht hw⟩
    · next ht =>
      rw [bind_eq_ok] at h
      obtain ⟨⟨operand, rest⟩, hoperand, h⟩ := h
      obtain ⟨w, rfl, hw⟩ := ih.unary _ _ _ hoperand
      obtain ⟨rfl, rfl⟩ := Prod.mk.inj (Except.ok.inj h)
      exact ⟨t :: w, rfl, .plus (symbolOf?_eq_some.mp ht) hw⟩
    · exact hunsigned _ _ h

lemma reads_unsigned (ih : Sound finish depth) :
    Reads (unsignedUnary finish (depth + 1) ts) ts .unsigned := by
  have haccessed : Reads (accessed finish depth ts) ts .unsigned := by
    intro e rest h
    obtain ⟨w, rfl, hw⟩ := ih.accessed _ _ _ h
    exact ⟨w, rfl, .ofAccessed hw⟩
  cases ts with
  | nil =>
    rw [unsignedUnary]
    exact haccessed
  | cons t after =>
    rw [unsignedUnary]
    intro e rest h
    split at h
    · next op hop =>
      rw [bind_eq_ok] at h
      obtain ⟨⟨operand, rest⟩, hoperand, h⟩ := h
      obtain ⟨w, rfl, hw⟩ := ih.unary _ _ _ hoperand
      obtain ⟨rfl, rfl⟩ := Prod.mk.inj (Except.ok.inj h)
      exact ⟨t :: w, rfl, .unary hop hw⟩
    · split at h
      · next hcast =>
        have ht : symbolOf? t = some .leftParen := eq_of_beq (Bool.and_eq_true_iff.mp hcast).1
        rw [bind_eq_ok] at h
        obtain ⟨⟨type, rest⟩, htype, h⟩ := h
        obtain ⟨w, rfl, hw⟩ := type_sound htype
        rw [bind_eq_ok] at h
        obtain ⟨after, hclose, h⟩ := h
        obtain ⟨r, rfl, hr⟩ := expectSymbol_eq_ok.mp hclose
        dsimp only at h
        split at h
        · next hbase hdims =>
          rw [bind_eq_ok] at h
          obtain ⟨⟨operand, rest⟩, hoperand, h⟩ := h
          obtain ⟨w', rfl, hw'⟩ := ih.unary _ _ _ hoperand
          obtain ⟨rfl, rfl⟩ := Prod.mk.inj (Except.ok.inj h)
          refine ⟨t :: (w ++ r :: w'), by simp, .cast (symbolOf?_eq_some.mp ht) hw hr ?_⟩
          rwa [castOperand_plain hbase hdims]
        · next hplain =>
          rw [bind_eq_ok] at h
          obtain ⟨⟨operand, rest⟩, hoperand, h⟩ := h
          obtain ⟨w', rfl, hw'⟩ := ih.unsigned _ _ _ hoperand
          obtain ⟨rfl, rfl⟩ := Prod.mk.inj (Except.ok.inj h)
          refine ⟨t :: (w ++ r :: w'), by simp, .cast (symbolOf?_eq_some.mp ht) hw hr ?_⟩
          rwa [castOperand_other hplain]
      · exact haccessed _ _ h

lemma reads_accessed (ih : Sound finish depth) : Reads (accessed finish (depth + 1) ts) ts .accessed := by
  intro e rest h
  rw [accessed, bind_eq_ok] at h
  obtain ⟨⟨first, after⟩, hfirst, h⟩ := h
  obtain ⟨w, rfl, hw⟩ := ih.primary _ _ _ hfirst
  obtain ⟨w', rfl, hw'⟩ := ih.accesses _ _ _ _ h
  exact ⟨w ++ w', by simp, hw' w hw⟩

lemma continues_accesses (ih : Sound finish depth) (e : Expr Position) :
    Continues (accesses finish (depth + 1) e ts) ts e .accessed := by
  cases ts with
  | nil =>
    rw [accesses]
    exact continues_nothing
  | cons t after =>
    unfold accesses
    dsimp only
    split
    · next ht =>
      have hdot := symbolOf?_eq_some.mp ht
      split
      · next next after =>
        split
        · next name hname =>
          have hnext := nameOf?_eq_some.mp hname
          split
          · intro e' rest h
            rw [bind_eq_ok] at h
            obtain ⟨⟨args, rest⟩, hargs, h⟩ := h
            obtain ⟨w, rfl, hw⟩ := ih.arguments _ _ _ hargs
            obtain ⟨w', rfl, hw'⟩ := ih.accesses _ _ _ _ h
            refine ⟨t :: next :: (w ++ w'), by simp, fun before hbefore => ?_⟩
            have hcall := hw' _ (.call hbefore hdot hnext hw)
            simpa using hcall
          · intro e' rest h
            obtain ⟨w', rfl, hw'⟩ := ih.accesses _ _ _ _ h
            refine ⟨t :: next :: w', rfl, fun before hbefore => ?_⟩
            have hfield := hw' _ (.field hbefore hdot hnext)
            simpa using hfield
        · intro e' rest h
          exact (not_failExpected h).elim
      · intro e' rest h
        exact (not_failExpected h).elim
    · next ht =>
      split
      · exact continues_nothing
      · next harray =>
        intro e' rest h
        rw [bind_eq_ok] at h
        obtain ⟨⟨i, rest⟩, hi, h⟩ := h
        obtain ⟨w, rfl, hw⟩ := ih.expression _ _ _ hi
        rw [bind_eq_ok] at h
        obtain ⟨after, hexpect, h⟩ := h
        obtain ⟨r, rfl, hr⟩ := expectSymbol_eq_ok.mp hexpect
        obtain ⟨w', rfl, hw'⟩ := ih.accesses _ _ _ _ h
        refine ⟨t :: (w ++ r :: w'), by simp, fun before hbefore => ?_⟩
        have hindex := hw' _ (.index hbefore (Bool.not_eq_true _ ▸ harray) (symbolOf?_eq_some.mp ht) hw hr)
        simpa using hindex
    · intro e' rest h
      simp at h
    · intro e' rest h
      simp at h
    · exact continues_nothing

lemma reads_arguments (ih : Sound finish depth) : Reads (arguments finish (depth + 1) ts) ts .arguments := by
  intro es rest h
  rw [arguments, bind_eq_ok] at h
  obtain ⟨after, hopen, h⟩ := h
  obtain ⟨l, rfl, hl⟩ := expectSymbol_eq_ok.mp hopen
  split at h
  · next hclose =>
    obtain ⟨r, hafter, hr⟩ := startsWith_eq_true.mp hclose
    obtain ⟨rfl, rfl⟩ := Prod.mk.inj (Except.ok.inj h)
    exact ⟨[l, r], by rw [hafter]; rfl, .noArguments hl hr⟩
  · rw [bind_eq_ok] at h
    obtain ⟨⟨first, rest⟩, hfirst, h⟩ := h
    obtain ⟨w, rfl, hw⟩ := ih.expression _ _ _ hfirst
    rw [bind_eq_ok] at h
    obtain ⟨⟨others, rest⟩, hothers, h⟩ := h
    obtain ⟨w', rfl, hw'⟩ := ih.more _ _ _ hothers
    rw [bind_eq_ok] at h
    obtain ⟨after, hexpect, h⟩ := h
    obtain ⟨r, rfl, hr⟩ := expectSymbol_eq_ok.mp hexpect
    obtain ⟨rfl, rfl⟩ := Prod.mk.inj (Except.ok.inj h)
    exact ⟨l :: (w ++ (w' ++ [r])), by simp, .arguments hl hw hw' hr⟩

lemma reads_more (ih : Sound finish depth) : Reads (moreArguments finish (depth + 1) ts) ts .more := by
  intro es rest h
  rw [moreArguments] at h
  split at h
  · next hcomma =>
    obtain ⟨comma, hts, hcomma⟩ := startsWith_eq_true.mp hcomma
    rw [bind_eq_ok] at h
    obtain ⟨⟨next, rest⟩, hnext, h⟩ := h
    obtain ⟨w, htail, hw⟩ := ih.expression _ _ _ hnext
    rw [bind_eq_ok] at h
    obtain ⟨⟨others, rest⟩, hothers, h⟩ := h
    obtain ⟨w', rfl, hw'⟩ := ih.more _ _ _ hothers
    obtain ⟨rfl, rfl⟩ := Prod.mk.inj (Except.ok.inj h)
    exact ⟨comma :: (w ++ w'), by rw [hts, htail]; simp, .more hcomma hw hw'⟩
  · obtain ⟨rfl, rfl⟩ := Prod.mk.inj (Except.ok.inj h)
    exact ⟨[], rfl, .noMore⟩

lemma reads_primary (ih : Sound finish depth) : Reads (primary finish (depth + 1) ts) ts .accessed := by
  intro e rest h
  cases ts with
  | nil =>
    rw [primary] at h
    exact (not_failExpected h).elim
  | cons t after =>
    rw [primary] at h
    split at h
    · next literal hliteral =>
      rw [bind_eq_ok] at h
      obtain ⟨v, rfl, h⟩ := h
      obtain ⟨rfl, rfl⟩ := Prod.mk.inj (Except.ok.inj h)
      exact ⟨[t], rfl, .literal hliteral⟩
    · split at h
      · next ht =>
        obtain ⟨rfl, rfl⟩ := Prod.mk.inj (Except.ok.inj h)
        exact ⟨[t], rfl, .this ht⟩
      · next ht => exact ih.creation t after ht _ _ h
      · next name ht =>
        split at h
        · rw [bind_eq_ok] at h
          obtain ⟨⟨args, rest⟩, hargs, h⟩ := h
          obtain ⟨w, rfl, hw⟩ := ih.arguments _ _ _ hargs
          obtain ⟨rfl, rfl⟩ := Prod.mk.inj (Except.ok.inj h)
          exact ⟨t :: w, rfl, .thisCall ht hw⟩
        · obtain ⟨rfl, rfl⟩ := Prod.mk.inj (Except.ok.inj h)
          exact ⟨[t], rfl, .name ht⟩
      · next ht =>
        rw [bind_eq_ok] at h
        obtain ⟨⟨inner, rest⟩, hinner, h⟩ := h
        obtain ⟨w, rfl, hw⟩ := ih.expression _ _ _ hinner
        rw [bind_eq_ok] at h
        obtain ⟨after, hexpect, h⟩ := h
        obtain ⟨r, rfl, hr⟩ := expectSymbol_eq_ok.mp hexpect
        obtain ⟨rfl, rfl⟩ := Prod.mk.inj (Except.ok.inj h)
        exact ⟨t :: (w ++ [r]), by simp, .group ht hw hr⟩
      · exact (not_failExpected h).elim

lemma reads_creation (ih : Sound finish depth) {t : Token} (ht : t.lexeme = .keyword .new) :
    Reads (creation finish (depth + 1) t.position ts) (t :: ts) .accessed := by
  intro e rest h
  rw [creation, bind_eq_ok] at h
  obtain ⟨⟨element, after⟩, helement, h⟩ := h
  obtain ⟨w, rfl, hw⟩ := typeName_sound helement
  dsimp only at h
  split at h
  · rw [bind_eq_ok] at h
    obtain ⟨⟨⟨dims, total⟩, rest⟩, hdims, h⟩ := h
    obtain ⟨-, w', n, rfl, htotal, hw'⟩ := ih.dimensions _ _ _ _ _ hdims
    obtain rfl : total = n := by omega
    dsimp only at h
    split at h
    · simp at h
    · next hne =>
      obtain ⟨rfl, rfl⟩ := Prod.mk.inj (Except.ok.inj h)
      exact ⟨t :: (w ++ w'), by simp, .newArray ht hw hw' (by simpa using hne)⟩
  · split at h
    · simp at h
    · next parts hparts =>
      rw [bind_eq_ok] at h
      obtain ⟨⟨args, rest⟩, hargs, h⟩ := h
      obtain ⟨w', rfl, hw'⟩ := ih.arguments _ _ _ hargs
      obtain ⟨rfl, rfl⟩ := Prod.mk.inj (Except.ok.inj h)
      exact ⟨t :: (w ++ w'), by simp, .newObject ht hw hparts hw'⟩

lemma reads_dimensions (ih : Sound finish depth) {extra total : Nat} {dims : List (Expr Position)}
    (h : dimensions finish (depth + 1) extra ts = .ok ((dims, total), rest)) :
    (extra ≠ 0 → dims = []) ∧ ∃ w n, ts = w ++ rest ∧ total = extra + n ∧ Written (.sizes dims n) w := by
  rw [dimensions] at h
  split at h
  · next hopen =>
    obtain ⟨l, hts, hl⟩ := startsWith_eq_true.mp hopen
    dsimp only at h
    split at h
    · next hclose =>
      obtain ⟨r, htail, hr⟩ := startsWith_eq_true.mp hclose
      obtain ⟨hnone, w, n, hrest, rfl, hw⟩ := ih.dimensions _ _ _ _ _ h
      obtain rfl := hnone (Nat.succ_ne_zero extra)
      cases hw with
      | noSizes hw =>
        exact ⟨fun _ => rfl, l :: r :: w, n + 1, by rw [hts, htail, hrest]; rfl, by omega,
          .noSizes (.succ hl hr hw)⟩
    · split at h
      · simp [failAt] at h
      · next hextra =>
        rw [bind_eq_ok] at h
        obtain ⟨⟨size, after⟩, hsize, h⟩ := h
        obtain ⟨w, htail, hw⟩ := ih.expression _ _ _ hsize
        rw [bind_eq_ok] at h
        obtain ⟨after, hexpect, h⟩ := h
        obtain ⟨r, rfl, hr⟩ := expectSymbol_eq_ok.mp hexpect
        rw [bind_eq_ok] at h
        obtain ⟨⟨⟨sizes, total⟩, rest⟩, hsizes, h⟩ := h
        obtain ⟨-, w', n, rfl, rfl, hw'⟩ := ih.dimensions _ _ _ _ _ hsizes
        obtain ⟨hpair, rfl⟩ := Prod.mk.inj (Except.ok.inj h)
        obtain ⟨rfl, rfl⟩ := Prod.mk.inj hpair
        exact ⟨fun hne => absurd hne hextra, l :: (w ++ r :: w'), n, by rw [hts, htail]; simp, rfl,
          .size hl hw hr hw'⟩
  · obtain ⟨hpair, rfl⟩ := Prod.mk.inj (Except.ok.inj h)
    obtain ⟨rfl, rfl⟩ := Prod.mk.inj hpair
    exact ⟨fun _ => rfl, [], 0, rfl, rfl, .noSizes .zero⟩

theorem sound (finish : Position) (depth : Nat) : Sound finish depth := by
  induction depth with
  | zero =>
    constructor
    case chain | accesses =>
      intros
      intro e' rest h
      simp only [chain, accesses] at h
      exact (not_failExpected h).elim
    case dimensions =>
      intro extra ts dims total rest h
      rw [dimensions] at h
      exact (not_failExpected h).elim
    all_goals
      intros
      intro e rest h
      simp only [expression, conditional, binary, unary, unsignedUnary, accessed, arguments, moreArguments,
        primary, creation] at h
      exact (not_failExpected h).elim
  | succ depth ih =>
    exact {
      expression := fun _ => reads_expression ih
      conditional := fun _ => reads_conditional ih
      binary := fun _ _ hlevel => reads_binary ih hlevel
      chain := fun _ e _ hlevel => continues_chain ih hlevel e
      unary := fun _ => reads_unary ih
      unsigned := fun _ => reads_unsigned ih
      accessed := fun _ => reads_accessed ih
      accesses := fun e _ => continues_accesses ih e
      arguments := fun _ => reads_arguments ih
      more := fun _ => reads_more ih
      primary := fun _ => reads_primary ih
      creation := fun _ _ ht => reads_creation ih ht
      dimensions := fun _ _ _ _ _ h => reads_dimensions ih h }

/-- A parsed list of tokens writes the expression. -/
theorem written_of_parseTokens {source : Tokens} {e : Expr Position} (h : parseTokens source = .ok e) :
    Written (.expression e) source.tokens := by
  rw [parseTokens, bind_eq_ok] at h
  obtain ⟨⟨found, rest⟩, hfound, h⟩ := h
  obtain ⟨w, hw, hwritten⟩ := (sound _ _).expression _ _ _ hfound
  cases rest with
  | nil =>
    obtain rfl := Except.ok.inj h
    rw [hw, List.append_nil]
    exact hwritten
  | cons t rest => simp at h

end PredicateTrace.Parser
