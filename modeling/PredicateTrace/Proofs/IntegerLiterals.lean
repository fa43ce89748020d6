import PredicateTrace.Proofs.NumberReading

/-!
# Underscores in integer literals

Single underscores between the digits of an integer literal change neither the number that is read nor its kind. The
one place where they matter is behind the zero of an octal literal: the underscore hides the base from the check of
the range, which then takes the literal for a decimal one.
-/

namespace PredicateTrace

open Token (isBaseDigit ofBase isLongMark hasEdgeUnderscore hasStrayUnderscore isDigitOrUnderscore integerLexeme
  integerValue)

variable {ds us : List Char}

/-! ### Spaced digits -/

/-- Digits, and the same digits with single underscores between some of them. -/
inductive Spaced : List Char → List Char → Prop
  | last (d : Char) : Spaced [d] [d]
  | next (d : Char) {ds us} (h : Spaced ds us) : Spaced (d :: ds) (d :: us)
  | underscore (d : Char) {ds us} (h : Spaced ds us) : Spaced (d :: ds) (d :: '_' :: us)

namespace Spaced

lemma refl (hne : ds ≠ []) : Spaced ds ds := by
  induction ds with
  | nil => exact absurd rfl hne
  | cons d ds ih =>
    cases ds with
    | nil => exact .last d
    | cons e ds => exact .next d (ih (List.cons_ne_nil e ds))

lemma head?_eq (h : Spaced ds us) : us.head? = ds.head? := by
  cases h <;> rfl

lemma ne_nil (h : Spaced ds us) : ds ≠ [] ∧ us ≠ [] := by
  cases h <;> exact ⟨List.cons_ne_nil _ _, List.cons_ne_nil _ _⟩

lemma getLast?_eq (h : Spaced ds us) : us.getLast? = ds.getLast? := by
  induction h with
  | last d => rfl
  | next d h ih =>
    obtain ⟨e, ds, rfl⟩ := List.exists_cons_of_ne_nil h.ne_nil.1
    obtain ⟨c, us, rfl⟩ := List.exists_cons_of_ne_nil h.ne_nil.2
    rw [List.getLast?_cons_cons, List.getLast?_cons_cons, ih]
  | underscore d h ih =>
    obtain ⟨e, ds, rfl⟩ := List.exists_cons_of_ne_nil h.ne_nil.1
    obtain ⟨c, us, rfl⟩ := List.exists_cons_of_ne_nil h.ne_nil.2
    rw [List.getLast?_cons_cons, List.getLast?_cons_cons, List.getLast?_cons_cons, ih]

lemma forall_mem {p : Char → Prop} (h : Spaced ds us) (hds : ∀ d ∈ ds, p d) (hmark : p '_') : ∀ c ∈ us, p c := by
  induction h with
  | last d => exact hds
  | next d h ih =>
    obtain ⟨hd, hds⟩ := List.forall_mem_cons.mp hds
    exact List.forall_mem_cons.mpr ⟨hd, ih hds⟩
  | underscore d h ih =>
    obtain ⟨hd, hds⟩ := List.forall_mem_cons.mp hds
    exact List.forall_mem_cons.mpr ⟨hd, List.forall_mem_cons.mpr ⟨hmark, ih hds⟩⟩

lemma filter_eq (h : Spaced ds us) (hds : ∀ d ∈ ds, d ≠ '_') : us.filter (· ≠ '_') = ds := by
  induction h with
  | last d => simpa using hds
  | next d h ih =>
    obtain ⟨hd, hds⟩ := List.forall_mem_cons.mp hds
    rw [List.filter_cons, if_pos (decide_eq_true hd), ih hds]
  | underscore d h ih =>
    obtain ⟨hd, hds⟩ := List.forall_mem_cons.mp hds
    rw [List.filter_cons, if_pos (decide_eq_true hd), List.filter_cons, if_neg (by decide), ih hds]

lemma hasEdgeUnderscore_eq (h : Spaced ds us) (hds : ∀ d ∈ ds, d ≠ '_') : hasEdgeUnderscore us = false := by
  rw [hasEdgeUnderscore, h.head?_eq, h.getLast?_eq, Bool.or_eq_false_iff, beq_eq_false_iff_ne, beq_eq_false_iff_ne]
  exact ⟨fun hhead => hds _ (List.mem_of_head? hhead) rfl, fun hlast => hds _ (List.mem_of_getLast? hlast) rfl⟩

lemma hasStrayUnderscore_eq (h : Spaced ds us) (hds : ∀ d ∈ ds, d ≠ '_' ∧ d ≠ '.') :
    hasStrayUnderscore us = false := by
  have hcons {d : Char} {more : List Char} (hd : d ≠ '_' ∧ d ≠ '.') :
      hasStrayUnderscore (d :: more) = hasStrayUnderscore more := by
    rw [hasStrayUnderscore]
    · exact fun h => hd.1 h
    · exact fun _ h => absurd h hd.2
  induction h with
  | last d => rw [hcons (hds d (List.mem_singleton_self d)), hasStrayUnderscore]
  | next d h ih =>
    obtain ⟨hd, hds⟩ := List.forall_mem_cons.mp hds
    rw [hcons hd, ih hds]
  | underscore d h ih =>
    obtain ⟨hd, hds⟩ := List.forall_mem_cons.mp hds
    have hstray := ih hds
    obtain ⟨e, ds, rfl⟩ := List.exists_cons_of_ne_nil h.ne_nil.1
    obtain ⟨c, us, rfl⟩ := List.exists_cons_of_ne_nil h.ne_nil.2
    obtain rfl : c = e := Option.some.inj h.head?_eq
    have hc := hds c List.mem_cons_self
    rw [hcons hd, hasStrayUnderscore, hstray]
    simp [hc]

lemma ofBase_eq (h : Spaced ds us) (base : Nat) (hds : ∀ d ∈ ds, d ≠ '_') : ofBase base us = ofBase base ds := by
  rw [← h.filter_eq hds, ofBase, ofBase, List.foldl_filter]
  congr 1
  funext acc c
  by_cases hc : c = '_'
  · rw [hc]
    rfl
  · rw [if_pos (decide_eq_true hc)]

end Spaced

/-! ### Integer literals -/

/-- How an integer literal tells its base. -/
inductive Radix
  | unmarked
  | hexadecimal (upper : Bool)
  | binary (upper : Bool)
  deriving DecidableEq

/-- The mark in front of the digits. -/
def Radix.mark : Radix → List Char
  | .unmarked => []
  | .hexadecimal upper => ['0', if upper then 'X' else 'x']
  | .binary upper => ['0', if upper then 'B' else 'b']

/-- The number of digits that a literal may use. Those of an octal one are not told apart here. -/
def Radix.base : Radix → Nat
  | .unmarked => 10
  | .hexadecimal _ => 16
  | .binary _ => 2

/-- An integer literal without underscores. -/
structure IntegerNumeral where
  radix : Radix
  digits : List Char
  /-- The mark of a long literal. -/
  suffix : Option Char
  digits_base : ∀ d ∈ digits, isBaseDigit radix.base d = true
  suffix_long : ∀ c ∈ suffix, isLongMark c = true

namespace IntegerNumeral

variable (n : IntegerNumeral)

/-- The characters of the literal, with its digits written in some way. -/
def chars (us : List Char) : List Char :=
  n.radix.mark ++ (us ++ n.suffix.toList)

/-- The text of the literal, with its digits written in some way. -/
def textWith (us : List Char) : String :=
  String.ofList (n.chars us)

/-- The text of the literal. -/
def text : String :=
  n.textWith n.digits

/-- Whether the literal has a zero in front of other digits. -/
def isOctal : Bool :=
  match n.radix, n.digits with
  | .unmarked, '0' :: _ :: _ => true
  | _, _ => false

/-- The number that the digits write. -/
def value : Nat :=
  ofBase (if n.isOctal then 8 else n.radix.base) n.digits

/-- The width of the type of the literal. -/
def bits : Nat :=
  if n.suffix.isSome then 64 else 32

/-- The literal whose bits are those of the number. -/
def literal : Literal :=
  if n.suffix.isSome then .long (Number.wrap 64 n.value) else .int (Number.wrap 32 n.value)

/-- Whether a digit of an octal literal is too large. -/
def isMalformed : Bool :=
  n.isOctal && !n.digits.all (isBaseDigit 8)

/-- Whether the digits of a decimal literal are more than the host reads. -/
def isOverlong : Bool :=
  n.radix = .unmarked && !n.isOctal && Number.maxDigits < n.digits.length

/-- The largest number that the literal may write, where the way it is written tells whether it is decimal. -/
def bound (us : List Char) : Nat :=
  if Parser.isDecimal (n.textWith us) then 2 ^ (n.bits - 1) - 1 else 2 ^ n.bits - 1

/-- An octal literal uses the sign bit, and has an underscore behind its zero. -/
def IsMisjudged (us : List Char) : Prop :=
  n.isOctal = true ∧ n.isMalformed = false ∧ us[1]? = some '_' ∧ 2 ^ (n.bits - 1) ≤ n.value ∧ n.value < 2 ^ n.bits

end IntegerNumeral

/-! ### Reading numbers -/

namespace Token

lemma mem_of_isBaseDigit_ten {c : Char} (h : isBaseDigit 10 c = true) : c ∈ "0123456789".toList := by
  have hrange : 48 ≤ c.toNat ∧ c.toNat ≤ 57 := by
    simp only [isBaseDigit, hexValue?, Char.le_def, UInt32.le_iff_toNat_le] at h
    split at h
    · next hc => exact hc
    · split at h
      · next hc =>
        simp only [Option.any_some, decide_eq_true_eq] at h
        simp at hc
        omega
      · split at h
        · next hc =>
          simp only [Option.any_some, decide_eq_true_eq] at h
          simp at hc
          omega
        · cases h
  have hchars : ∀ d < 10, Char.ofNat (d + 48) ∈ "0123456789".toList := by decide
  have hmem := hchars (c.toNat - 48) (by omega)
  rwa [Nat.sub_add_cancel hrange.1, Char.ofNat_toNat] at hmem

end Token

namespace IntegerNumeral

variable {n : IntegerNumeral}

/-- What the scanner makes of the literal. -/
def scanned (n : IntegerNumeral) : Token.NumberValue :=
  match n.radix with
  | .unmarked => integerValue n.suffix.isSome n.digits
  | _ => integerLexeme n.suffix.isSome (ofBase n.radix.base n.digits)

lemma digits_ne_underscore : ∀ d ∈ n.digits, d ≠ '_' := by
  rintro d hd rfl
  cases n.digits_base '_' hd

lemma eq_of_mem_suffix {c : Char} (hc : c ∈ n.suffix.toList.head?) : c = 'l' ∨ c = 'L' := by
  have hlong := n.suffix_long c (by simpa using List.mem_of_head? hc)
  simpa [isLongMark] using hlong

lemma leadingMark_suffix {isMark : Char → Bool} (hmark : ∀ c, isLongMark c = true → isMark c = true) :
    Token.leadingMark isMark n.suffix.toList = n.suffix.toList := by
  cases hs : n.suffix with
  | none => rfl
  | some c => rw [Option.toList_some, Token.leadingMark, if_pos (hmark c (n.suffix_long c hs))]

/-- Behind the mark of a base, the digits reach up to the suffix. -/
lemma scanBased_chars (h : Spaced n.digits us) :
    Token.scanBased n.radix.base (us ++ n.suffix.toList) =
      ⟨integerLexeme n.suffix.isSome (ofBase n.radix.base n.digits), 2 + us.length + n.suffix.toList.length, []⟩ := by
  have hparts : ∀ c ∈ us, Token.isBasePart n.radix.base c = true :=
    h.forall_mem (fun d hd => by rw [Token.isBasePart, n.digits_base d hd, Bool.true_or]) (by simp [Token.isBasePart])
  have hend : ∀ c ∈ n.suffix.toList.head?, Token.isBasePart n.radix.base c = false := fun c hc =>
    Token.isBasePart_longMark _ (Or.inl (n.suffix_long c (by simpa using List.mem_of_head? hc)))
  have htake := Token.takeWhile_append hparts hend
  have hdrop : (us ++ n.suffix.toList).dropWhile (Token.isBasePart n.radix.base) = n.suffix.toList := by
    rw [← Token.drop_length_takeWhile, htake, List.drop_left]
  have hbody : ¬(us.isEmpty || hasEdgeUnderscore us) = true := by
    rw [h.hasEdgeUnderscore_eq n.digits_ne_underscore, Bool.or_false, List.isEmpty_iff]
    exact h.ne_nil.2
  have hlong : (!n.suffix.toList.isEmpty) = n.suffix.isSome := by
    cases n.suffix <;> rfl
  rw [Token.scanBased_eq]
  dsimp only
  rw [htake, hdrop, leadingMark_suffix fun c hc => hc, Token.finishBased, if_neg hbody,
    h.ofBase_eq _ n.digits_ne_underscore, List.drop_length, hlong]

/-- Without the mark of a base, the digits are the whole number. -/
lemma scanDecimal_chars (hradix : n.radix = .unmarked) (h : Spaced n.digits us) :
    Token.scanDecimal (us ++ n.suffix.toList) =
      ⟨integerValue n.suffix.isSome n.digits, (us ++ n.suffix.toList).length, []⟩ := by
  have hdigits : ∀ d ∈ n.digits, d ∈ "0123456789".toList := fun d hd =>
    Token.mem_of_isBaseDigit_ten (by simpa [hradix, Radix.base] using n.digits_base d hd)
  have hchars : ∀ d ∈ "0123456789".toList, isDigitOrUnderscore d = true ∧ d ≠ '_' ∧ d ≠ '.' :=
    Text.forall_mem_of_all (by decide)
  have hwhole : ∀ c ∈ us, isDigitOrUnderscore c = true :=
    h.forall_mem (fun d hd => (hchars d (hdigits d hd)).1) (by decide)
  have hsuffix : ∀ c ∈ n.suffix.toList.head?,
      isDigitOrUnderscore c = false ∧ c ≠ '.' ∧ Token.isExponentMark c = false := by
    intro c hc
    rcases eq_of_mem_suffix hc with rfl | rfl <;> decide
  have hscan : Token.scanDecimal (us ++ ([] ++ n.suffix.toList)) = _ := Token.scanDecimal_parts hwhole
    (fun c hc => (hsuffix c hc).1) (Token.fractionPart_eq_nil fun c hc => (hsuffix c hc).2.1)
  have hstray := h.hasStrayUnderscore_eq fun d hd => (hchars d (hdigits d hd)).2
  rw [List.nil_append] at hscan
  rw [hscan, Token.scanExponent_absent fun c hc => (hsuffix c hc).2.2]
  dsimp only
  rw [List.append_nil, Token.finishDecimal_eq, h.hasEdgeUnderscore_eq n.digits_ne_underscore, hstray,
    h.filter_eq n.digits_ne_underscore, leadingMark_suffix fun c hc => by simp [Token.isTypeMark, hc]]
  cases hs : n.suffix with
  | none => simp [Token.suffixedValue]
  | some c =>
    have hc : c = 'l' ∨ c = 'L' := eq_of_mem_suffix (n := n) (by simp [hs])
    rcases hc with rfl | rfl <;> simp [Token.suffixedValue]

lemma scanNumber_chars (h : Spaced n.digits us) :
    Token.scanNumber (n.chars us) = ⟨n.scanned, (n.chars us).length, []⟩ := by
  by_cases hradix : n.radix = .unmarked
  · have hnone : ∀ c ∈ us ++ n.suffix.toList, Token.isBaseMark c = false := by
      have hchars : ∀ d ∈ "0123456789".toList, Token.isBaseMark d = false := Text.forall_mem_of_all (by decide)
      refine List.forall_mem_append.mpr ⟨h.forall_mem (fun d hd => hchars d ?_) (by decide), fun c hc => ?_⟩
      · exact Token.mem_of_isBaseDigit_ten (by simpa [hradix, Radix.base] using n.digits_base d hd)
      · rcases eq_of_mem_suffix (n := n) (by simpa using hc) with rfl | rfl <;> decide
    have hscanned : n.scanned = integerValue n.suffix.isSome n.digits := by rw [scanned, hradix]
    have hchars : n.chars us = us ++ n.suffix.toList := by rw [chars, hradix, Radix.mark, List.nil_append]
    rw [hscanned, hchars, Token.scanNumber_decimal fun c more htext => hnone c (by simp [htext]),
      scanDecimal_chars hradix h]
  · obtain ⟨hscan, hscanned, hlength⟩ :
        Token.scanNumber (n.chars us) = Token.scanBased n.radix.base (us ++ n.suffix.toList) ∧
        n.scanned = integerLexeme n.suffix.isSome (ofBase n.radix.base n.digits) ∧ n.radix.mark.length = 2 := by
      rw [chars, scanned]
      cases hmark : n.radix with
      | unmarked => exact absurd hmark hradix
      | hexadecimal upper => cases upper <;> exact ⟨rfl, rfl, rfl⟩
      | binary upper => cases upper <;> exact ⟨rfl, rfl, rfl⟩
    have hchars : (n.chars us).length = 2 + us.length + n.suffix.toList.length := by
      rw [chars, List.length_append, List.length_append, hlength, Nat.add_assoc]
    rw [hscan, scanBased_chars h, hscanned, hchars]

lemma head?_chars (h : Spaced n.digits us) : ∃ c ∈ "0123456789".toList, (n.chars us).head? = some c := by
  cases hradix : n.radix with
  | unmarked =>
    obtain ⟨d, ds, hds⟩ := List.exists_cons_of_ne_nil h.ne_nil.1
    have hd : isBaseDigit 10 d = true := by simpa [hradix, Radix.base] using n.digits_base d (by simp [hds])
    refine ⟨d, Token.mem_of_isBaseDigit_ten hd, ?_⟩
    rw [chars, hradix, Radix.mark, List.nil_append, List.head?_append_of_ne_nil _ h.ne_nil.2, h.head?_eq, hds]
    rfl
  | hexadecimal upper => exact ⟨'0', by decide, by rw [chars, hradix]; rfl⟩
  | binary upper => exact ⟨'0', by decide, by rw [chars, hradix]; rfl⟩

end IntegerNumeral

/-! ### The token of a number -/

namespace Token

/-- What a text gives that is a number as a whole. -/
def NumberValue.tokens (text : String) : NumberValue → Except SyntaxError Tokens
  | .lexeme l => .ok ⟨[⟨l, .start, text⟩], after .start (Text.codes text)⟩
  | .malformed => .error (.at .start (.invalidNumber text))
  | .unreadable => .error .unreadableNumber

lemma readNumber_whole {text : List Char} {value : NumberValue} (hscan : scanNumber text = ⟨value, text.length, []⟩) :
    readNumber text = match value with
      | .lexeme l => .ok (l, text.length)
      | .malformed => .error (.at 0 (.invalidNumber (String.ofList text)))
      | .unreadable => .error .unreadableNumber := by
  cases value <;> simp [readNumber, hscan]

lemma readPiece_digit {c : Char} (hc : c ∈ "0123456789".toList) (cs : List Char) :
    readPiece c.toNat (cs.map Char.toNat) = .ofResult (readNumber (c :: cs)) := by
  have hchars : ∀ c ∈ "0123456789".toList, Text.isDigit c = true ∧ c ≠ '\x27' ∧ c ≠ '"' :=
    Text.forall_mem_of_all (by decide)
  obtain ⟨hdigit, hcharacter, hstring⟩ := hchars c hc
  have hshown : (cs.map Char.toNat).map Text.shown = cs := by simp [Function.comp_def, Text.shown_toNat]
  rw [readPiece, Text.shown_toNat, if_neg hcharacter, if_neg hstring, hshown]
  exact readPlain_number (by rw [hdigit, Bool.true_or])

lemma tokenize_number {text : List Char} {value : NumberValue}
    (hhead : ∃ c ∈ "0123456789".toList, text.head? = some c) (hscan : scanNumber text = ⟨value, text.length, []⟩) :
    tokenize (String.ofList text) = value.tokens (String.ofList text) := by
  obtain ⟨c, hc, hhead⟩ := hhead
  obtain ⟨cs, rfl⟩ := List.head?_eq_some_iff.mp hhead
  have hcodes : Text.codes (String.ofList (c :: cs)) = c.toNat :: cs.map Char.toNat := by
    rw [Text.codes, String.toList_ofList, List.map_cons]
  have hscanned : tokenize (String.ofList (c :: cs)) = scan .start 0 (c.toNat :: cs.map Char.toNat) := by
    rw [← hcodes]
    rfl
  rw [hscanned, scan, readPiece_digit hc, readNumber_whole hscan]
  cases value with
  | malformed => rfl
  | unreadable => rfl
  | lexeme l =>
    have htake : (c.toNat :: cs.map Char.toNat).take (c :: cs).length = Text.codes (String.ofList (c :: cs)) := by
      rw [hcodes, List.take_of_length_le (by simp)]
    have hrest (p : Position) : scan p ((c :: cs).length - 1) (cs.map Char.toNat) =
        .ok ⟨[], after p (cs.map Char.toNat)⟩ := by
      have hskip := scan_skip p (cs.map Char.toNat) []
      rw [List.append_nil, List.length_map] at hskip
      exact hskip
    simp only [Piece.ofResult, htake, hrest, bind, Except.bind, pure, Except.pure, Text.ofCodes_codes]
    rw [NumberValue.tokens, hcodes]
    rfl

end Token

/-- A source of one token is the literal that the token is. -/
lemma Parser.parseTokens_literal {t : Token} {finish : Position} {r : Except SyntaxError Literal}
    (h : literal? t = some r) (hsymbol : symbolOf? t = none) :
    parseTokens ⟨[t], finish⟩ = r.map (.literal t.position) := by
  cases r <;>
    simp [h, hsymbol, bind, Except.bind, Except.map, pure, Except.pure, parseTokens, depthFor, expression, conditional,
      binary, levels, chain, unary, unsignedUnary, accessed, primary, accesses]

namespace IntegerNumeral

variable {n : IntegerNumeral}

lemma isBaseDigit_unmarked (hradix : n.radix = .unmarked) : ∀ d ∈ n.digits, isBaseDigit 10 d = true := by
  simpa [hradix, Radix.base] using n.digits_base

/-- The digits of a decimal literal are read as the host reads numbers. -/
lemma wholeNumber?_eq (hradix : n.radix = .unmarked) (hne : n.digits ≠ []) :
    Number.wholeNumber? (String.ofList n.digits) =
      if Number.maxDigits < n.digits.length then none else some (ofBase 10 n.digits : Int) := by
  have hdigits : ∀ d ∈ n.digits, d ∈ "0123456789".toList := fun d hd =>
    Token.mem_of_isBaseDigit_ten (isBaseDigit_unmarked hradix d hd)
  have hchars : ∀ c ∈ "0123456789".toList, (Text.isNumeralSpace c = false ∧ c ≠ '-' ∧ c ≠ '+' ∧ c ≠ '_' ∧
      Text.decimalValue? c = some (c.toNat - 48)) ∧ Token.hexValue? c = some (c.toNat - 48) :=
    Text.forall_mem_of_all (by decide)
  have hwhole : Number.ofDigits (n.digits.map fun c => c.toNat - 48) = ofBase 10 n.digits := by
    rw [Number.ofDigits, List.foldl_map, ofBase]
    refine List.foldl_ext _ _ 0 fun acc d hd => ?_
    rw [(hchars d (hdigits d hd)).2]
  rw [Token.wholeNumber?_digits hne fun c hc => (hchars c (hdigits c hc)).1, hwhole]

lemma isOctal_eq_true (hradix : n.radix = .unmarked) {d : Char} {more : List Char} (h : n.digits = '0' :: d :: more) :
    n.isOctal = true := by
  rw [isOctal, hradix, h]
  rfl

lemma isOctal_eq_false (h : n.radix = .unmarked → ∀ d more, n.digits ≠ '0' :: d :: more) : n.isOctal = false := by
  unfold isOctal
  split
  · next hradix hdigits => exact absurd hdigits (h hradix _ _)
  · rfl

lemma scanned_eq (hne : n.digits ≠ []) :
    n.scanned =
      if n.isMalformed then .malformed
      else if n.isOverlong then .unreadable else integerLexeme n.suffix.isSome n.value := by
  by_cases hradix : n.radix = .unmarked
  · have hscanned : n.scanned = integerValue n.suffix.isSome n.digits := by rw [scanned, hradix]
    rw [hscanned, isMalformed, isOverlong, value, hradix]
    unfold integerValue
    split
    · next d more hdigits =>
      rw [isOctal_eq_true hradix hdigits]
      cases n.digits.all (isBaseDigit 8) <;> simp [hdigits]
    · next hdigits =>
      rw [isOctal_eq_false fun _ d more => hdigits d more, wholeNumber?_eq hradix hne]
      by_cases hlong : Number.maxDigits < n.digits.length
      · simp [hlong]
      · simp [hlong, Radix.base]
  · have hoctal : n.isOctal = false := isOctal_eq_false fun h => absurd h hradix
    have hscanned : n.scanned = integerLexeme n.suffix.isSome (ofBase n.radix.base n.digits) := by
      rw [scanned]
      cases hmark : n.radix with
      | unmarked => exact absurd hmark hradix
      | hexadecimal upper => rfl
      | binary upper => rfl
    rw [hscanned, isMalformed, isOverlong, value, hoctal]
    simp [hradix]

/-- What the literal is read as: a number that fits its type, or a mistake. -/
lemma parse_textWith (h : Spaced n.digits us) :
    Parser.parse (n.textWith us) =
      if n.isMalformed then .error (.at .start (.invalidNumber (n.textWith us)))
      else if n.isOverlong then .error .unreadableNumber
      else if n.bound us < n.value then .error (.at .start .integerTooLarge)
      else .ok (.literal .start n.literal) := by
  have htokens : Token.tokenize (n.textWith us) = n.scanned.tokens (n.textWith us) :=
    Token.tokenize_number (head?_chars h) (scanNumber_chars h)
  rw [Parser.parse, htokens, scanned_eq h.ne_nil.1]
  by_cases hmalformed : n.isMalformed = true
  · rw [if_pos hmalformed, if_pos hmalformed]
    rfl
  by_cases hlong : n.isOverlong = true
  · rw [if_neg hmalformed, if_pos hlong, if_neg hmalformed, if_pos hlong]
    rfl
  rw [if_neg hmalformed, if_neg hlong, if_neg hmalformed, if_neg hlong, integerLexeme, Token.NumberValue.tokens]
  simp only [bind, Except.bind]
  have hinteger (t : Token) (ht : t.text = n.textWith us) : Parser.integerLiteral n.bits t n.value =
      if n.bound us < n.value then .error (.at t.position .integerTooLarge) else .ok (Number.wrap n.bits n.value) := by
    rw [Parser.integerLiteral, ht]
    rfl
  cases hsuffix : n.suffix.isSome
  · have hbits : n.bits = 32 := by rw [bits, hsuffix]; rfl
    rw [hbits] at hinteger
    rw [if_neg Bool.false_ne_true, Parser.parseTokens_literal rfl rfl, hinteger _ rfl, literal, hsuffix]
    split <;> rfl
  · have hbits : n.bits = 64 := by rw [bits, hsuffix]; rfl
    rw [hbits] at hinteger
    rw [if_pos rfl, Parser.parseTokens_literal rfl rfl, hinteger _ rfl, literal, hsuffix]
    split <;> rfl

end IntegerNumeral

/-! ### The base of a written literal -/

lemma Parser.isDecimal_cons (d c : Char) (more : List Char) :
    isDecimal (String.ofList (d :: c :: more)) = !(d = '0' && (Token.isBaseMark c || Text.isDigit c)) := by
  rw [isDecimal, String.toList_ofList]
  by_cases hd : d = '0'
  · subst hd
    simp [Token.isBaseMark, Bool.or_assoc]
  · split
    · next h => exact absurd (List.cons.inj h).1 hd
    · simp [hd]

namespace IntegerNumeral

variable {n : IntegerNumeral}

lemma isDecimal_textWith (h : Spaced n.digits us) :
    Parser.isDecimal (n.textWith us) = (n.radix = .unmarked && (!n.isOctal || us[1]? = some '_')) := by
  by_cases hradix : n.radix = .unmarked
  · have hdigits : ∀ d ∈ n.digits, Text.isDigit d = true ∧ d ≠ '_' := fun d hd =>
      have hchars : ∀ d ∈ "0123456789".toList, Text.isDigit d = true ∧ d ≠ '_' := Text.forall_mem_of_all (by decide)
      hchars d (Token.mem_of_isBaseDigit_ten (isBaseDigit_unmarked hradix d hd))
    obtain ⟨ds, hds⟩ : ∃ ds, ds = n.digits := ⟨_, rfl⟩
    rw [← hds] at h
    rw [textWith, chars, hradix, Radix.mark, List.nil_append]
    cases h with
    | last d =>
      have hoctal : n.isOctal = false := isOctal_eq_false fun _ e more he => by cases hds.trans he
      rw [hoctal]
      cases hs : n.suffix with
      | none =>
        rw [Option.toList_none, List.append_nil, Parser.isDecimal, String.toList_ofList]
        split
        · next hmore => cases (List.cons.inj hmore).2
        · simp
      | some c =>
        have hmark : (Token.isBaseMark c || Text.isDigit c) = false := by
          rcases eq_of_mem_suffix (n := n) (c := c) (by simp [hs]) with rfl | rfl <;> decide
        rw [Option.toList_some, List.singleton_append, Parser.isDecimal_cons, hmark]
        simp
    | next d h =>
      obtain ⟨e, ds, rfl⟩ := List.exists_cons_of_ne_nil h.ne_nil.1
      obtain ⟨c, us, rfl⟩ := List.exists_cons_of_ne_nil h.ne_nil.2
      obtain rfl : c = e := Option.some.inj h.head?_eq
      obtain ⟨hdigit, hunderscore⟩ := hdigits c (by simp [← hds])
      have hoctal : n.isOctal = decide (d = '0') := by
        by_cases hd : d = '0'
        · subst hd
          rw [isOctal_eq_true hradix hds.symm]
          rfl
        · rw [decide_eq_false hd]
          exact isOctal_eq_false fun _ e more he => hd (List.cons.inj (hds.trans he)).1
      rw [List.cons_append, List.cons_append, Parser.isDecimal_cons, hdigit, hoctal]
      simp [hunderscore]
    | underscore d h =>
      have hmark : (Token.isBaseMark '_' || Text.isDigit '_') = false := by decide
      rw [List.cons_append, List.cons_append, Parser.isDecimal_cons, hmark]
      simp
  · rw [textWith, chars, decide_eq_false hradix, Bool.false_and]
    cases hmark : n.radix with
    | unmarked => exact absurd hmark hradix
    | hexadecimal upper => cases upper <;> exact Parser.isDecimal_cons _ _ _
    | binary upper => cases upper <;> exact Parser.isDecimal_cons _ _ _

/-- The way a literal is written tells the same range as without underscores, unless one follows an octal zero. -/
lemma bound_eq (h : Spaced n.digits us) (hplain : n.isOctal = true → us[1]? ≠ some '_') :
    n.bound us = n.bound n.digits := by
  have hdigits : n.digits[1]? ≠ some '_' := fun hmem => n.digits_ne_underscore _ (List.mem_of_getElem? hmem) rfl
  rw [bound, bound, isDecimal_textWith h, isDecimal_textWith (Spaced.refl h.ne_nil.1), decide_eq_false hdigits]
  cases hoctal : n.isOctal with
  | false => rfl
  | true => rw [decide_eq_false (hplain hoctal)]

lemma bound_of_octal (h : Spaced n.digits us) (hoctal : n.isOctal = true) (hunderscore : us[1]? = some '_') :
    n.bound us = 2 ^ (n.bits - 1) - 1 ∧ n.bound n.digits = 2 ^ n.bits - 1 := by
  have hdigits : n.digits[1]? ≠ some '_' := fun hmem => n.digits_ne_underscore _ (List.mem_of_getElem? hmem) rfl
  have hradix : n.radix = .unmarked := by
    unfold isOctal at hoctal
    split at hoctal
    · assumption
    · cases hoctal
  rw [bound, bound, isDecimal_textWith h, isDecimal_textWith (Spaced.refl h.ne_nil.1), hoctal, hradix,
    decide_eq_true hunderscore, decide_eq_false hdigits]
  exact ⟨rfl, rfl⟩

/-- Underscores change neither the value nor the kind of a literal, nor whether it is one. Only the range of an octal
literal is judged like that of a decimal one if an underscore follows its zero, and a decimal literal of too many
digits is refused by the host. -/
theorem underscores_irrelevant (n : IntegerNumeral) (h : Spaced n.digits us) :
    (n.isOverlong = false ∧ ¬n.IsMisjudged us →
      (Parser.parse n.text = .ok (.literal .start n.literal) ∧
        Parser.parse (n.textWith us) = .ok (.literal .start n.literal)) ∨
      ∃ cause cause', Parser.parse n.text = .error (.at .start cause) ∧
        Parser.parse (n.textWith us) = .error (.at .start cause')) ∧
    (n.IsMisjudged us → Parser.parse n.text = .ok (.literal .start n.literal) ∧
      Parser.parse (n.textWith us) = .error (.at .start .integerTooLarge)) ∧
    (n.isOverlong = true →
      Parser.parse n.text = .error .unreadableNumber ∧ Parser.parse (n.textWith us) = .error .unreadableNumber) := by
  have htext := parse_textWith (Spaced.refl h.ne_nil.1)
  have hwith := parse_textWith h
  rw [← text] at htext
  refine ⟨?_, ?_, ?_⟩
  · rintro ⟨hlong, hjudged⟩
    by_cases hmalformed : n.isMalformed = true
    · rw [if_pos hmalformed] at htext hwith
      exact Or.inr ⟨_, _, htext, hwith⟩
    rw [if_neg hmalformed, if_neg (by simp [hlong])] at htext hwith
    have hsame : n.bound us < n.value ↔ n.bound n.digits < n.value := by
      by_cases hoctal : n.isOctal = true ∧ us[1]? = some '_'
      · obtain ⟨hbound, hbound'⟩ := bound_of_octal h hoctal.1 hoctal.2
        have hpow : 2 ^ (n.bits - 1) ≤ 2 ^ n.bits := Nat.pow_le_pow_right (by decide) (by omega)
        have hpos := Nat.two_pow_pos (n.bits - 1)
        have hrange : ¬(2 ^ (n.bits - 1) ≤ n.value ∧ n.value < 2 ^ n.bits) := fun hrange =>
          hjudged ⟨hoctal.1, by simpa using hmalformed, hoctal.2, hrange⟩
        rw [hbound, hbound']
        omega
      · rw [bound_eq h fun hzero hunderscore => hoctal ⟨hzero, hunderscore⟩]
    by_cases hlarge : n.bound n.digits < n.value
    · rw [if_pos hlarge] at htext
      rw [if_pos (hsame.mpr hlarge)] at hwith
      exact Or.inr ⟨_, _, htext, hwith⟩
    · rw [if_neg hlarge] at htext
      rw [if_neg (mt hsame.mp hlarge)] at hwith
      exact Or.inl ⟨htext, hwith⟩
  · rintro ⟨hoctal, hmalformed, hunderscore, hlow, hhigh⟩
    obtain ⟨hbound, hbound'⟩ := bound_of_octal h hoctal hunderscore
    have hlong : n.isOverlong = false := by rw [isOverlong, hoctal]; simp
    rw [if_neg (by simp [hmalformed]), if_neg (by simp [hlong])] at htext hwith
    have hpos := Nat.two_pow_pos (n.bits - 1)
    rw [hbound', if_neg (by omega)] at htext
    rw [hbound, if_pos (by omega)] at hwith
    exact ⟨htext, hwith⟩
  · intro hlong
    have hoctal : n.isOctal = false := by
      rw [isOverlong, Bool.and_eq_true, Bool.and_eq_true, Bool.not_eq_true'] at hlong
      exact hlong.1.2
    have hmalformed : ¬n.isMalformed = true := by rw [isMalformed, hoctal]; exact Bool.false_ne_true
    rw [if_neg hmalformed, if_pos hlong] at htext hwith
    exact ⟨htext, hwith⟩

/-- An octal literal with the sign bit, and a hexadecimal one that is long enough for its number. -/
theorem underscores_irrelevant_of_sign_bit :
    let octal : IntegerNumeral :=
      ⟨.unmarked, "020000000000".toList, none, Text.forall_mem_of_all (by decide), by rintro _ ⟨⟩⟩
    let hex : IntegerNumeral :=
      ⟨.hexadecimal false, "ffffffff".toList, some 'L', Text.forall_mem_of_all (by decide), by rintro _ ⟨⟩; rfl⟩
    (octal.IsMisjudged "0_20000000000".toList ∧ octal.literal = .int (-2 ^ 31) ∧
      Parser.parse octal.text = .ok (.literal .start octal.literal) ∧
      Parser.parse (octal.textWith "0_20000000000".toList) = .error (.at .start .integerTooLarge)) ∧
    (hex.textWith "ff_ff_fff_f".toList = "0xff_ff_fff_fL" ∧ hex.literal = .long (2 ^ 32 - 1) ∧
      ((Parser.parse hex.text = .ok (.literal .start hex.literal) ∧
        Parser.parse (hex.textWith "ff_ff_fff_f".toList) = .ok (.literal .start hex.literal)) ∨
      ∃ cause cause', Parser.parse hex.text = .error (.at .start cause) ∧
        Parser.parse (hex.textWith "ff_ff_fff_f".toList) = .error (.at .start cause'))) := by
  intro octal hex
  have hoctal : Spaced octal.digits "0_20000000000".toList := .underscore '0' (Spaced.refl (by decide))
  have hhex : Spaced hex.digits "ff_ff_fff_f".toList :=
    .next 'f' (.underscore 'f' (.next 'f' (.underscore 'f' (.next 'f' (.next 'f' (.underscore 'f' (.last 'f')))))))
  have hmisjudged : octal.IsMisjudged "0_20000000000".toList := by
    refine ⟨rfl, ?_, rfl, ?_, ?_⟩ <;> decide
  have hbinary : ¬hex.IsMisjudged "ff_ff_fff_f".toList := fun h => by cases h.1
  obtain ⟨-, hread, -⟩ := underscores_irrelevant octal hoctal
  obtain ⟨hsame, -, -⟩ := underscores_irrelevant hex hhex
  have hword : Number.wrap 32 octal.value = -2 ^ 31 := by decide
  have hword' : Number.wrap 64 hex.value = 2 ^ 32 - 1 := by decide
  exact ⟨⟨hmisjudged, congrArg Literal.int hword, hread hmisjudged⟩, rfl, congrArg Literal.long hword',
    hsame ⟨rfl, hbinary⟩⟩

/-- The text without underscores is a literal, and the text with one is not. -/
theorem octal_sign_bit_refused :
    Parser.parse "020000000000" = .ok (.literal .start (.int (-2 ^ 31))) ∧
      Parser.parse "0_20000000000" = .error (.at .start .integerTooLarge) := by
  have htext : Token.tokenize "020000000000" =
      .ok ⟨[⟨.int (2 ^ 31), .start, "020000000000"⟩], ⟨1, 13⟩⟩ := rfl
  have hwith : Token.tokenize "0_20000000000" =
      .ok ⟨[⟨.int (2 ^ 31), .start, "0_20000000000"⟩], ⟨1, 14⟩⟩ := rfl
  rw [Parser.parse, Parser.parse, htext, hwith]
  simp only [bind, Except.bind]
  rw [Parser.parseTokens_literal rfl rfl, Parser.parseTokens_literal rfl rfl]
  exact ⟨rfl, rfl⟩

end IntegerNumeral

end PredicateTrace
