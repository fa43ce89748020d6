import PredicateTrace.Proofs.NumberReading

/-!
# Numbers that the host does not read

The scanner takes digits of all kinds into a number, also those that belong to no decimal series, and leaves the value
to the host. The host reads every numeral of decimal digits, except whole ones with too many of them. A number
literal without a value therefore has a digit of no decimal series, or more digits than the host reads.
-/

namespace PredicateTrace

open Text (isDigit isLetter decimalValue? decimalZeros strayDigitRanges isNumeralSpace)

/-! ### Digits -/

namespace Text

/-- A digit of a decimal series. -/
def IsDecimal (c : Char) : Prop :=
  (decimalValue? c).isSome = true

/-- A digit of no decimal series. -/
def IsStray (c : Char) : Prop :=
  isDigit c = true ∧ decimalValue? c = none

lemma isDecimal_or_isStray {c : Char} (h : isDigit c = true) : IsDecimal c ∨ IsStray c := by
  cases hvalue : decimalValue? c with
  | some value => exact Or.inl (by rw [IsDecimal, hvalue, Option.isSome_some])
  | none => exact Or.inr ⟨h, hvalue⟩

lemma IsDecimal.isDigit {c : Char} (h : IsDecimal c) : isDigit c = true := by
  rw [Text.isDigit, h, Bool.true_or]

lemma IsDecimal.exists_first {c : Char} (h : IsDecimal c) :
    ∃ first ∈ decimalZeros, first ≤ c.toNat ∧ c.toNat ≤ first + 9 := by
  unfold IsDecimal decimalValue? at h
  rw [Option.isSome_map, List.find?_isSome] at h
  obtain ⟨first, hfirst, hbounds⟩ := h
  simp only [Bool.and_eq_true, decide_eq_true_eq] at hbounds
  exact ⟨first, hfirst, hbounds⟩

lemma exists_range_of_covers {ranges : List (Nat × Nat)} {n : Nat} (h : covers ranges n = true) :
    ∃ range ∈ ranges, range.1 ≤ n ∧ n ≤ range.2 := by
  induction ranges with
  | nil => cases h
  | cons range rest ih =>
    rw [covers] at h
    split at h
    · cases h
    · rw [Bool.or_eq_true, decide_eq_true_eq] at h
      rcases h with hn | hrest
      · exact ⟨range, List.mem_cons_self, by omega, hn⟩
      · obtain ⟨range', hrange', hbounds⟩ := ih hrest
        exact ⟨range', List.mem_cons_of_mem _ hrange', hbounds⟩

/-- Whether a table has no interval that meets another one, as far as one that begins behind it. -/
def isApart (low high : Nat) : List (Nat × Nat) → Bool
  | [] => true
  | range :: rest => high < range.1 || (range.2 < low && isApart low high rest)

lemma covers_eq_false {ranges : List (Nat × Nat)} {low high n : Nat} (h : isApart low high ranges = true)
    (hlow : low ≤ n) (hhigh : n ≤ high) : covers ranges n = false := by
  induction ranges with
  | nil => rfl
  | cons range rest ih =>
    rw [covers]
    simp only [isApart, Bool.or_eq_true, Bool.and_eq_true, decide_eq_true_eq] at h
    rcases h with hbehind | ⟨hbefore, hrest⟩
    · rw [if_pos (by omega)]
    · rw [ih hrest, decide_eq_false (by omega), Bool.or_false, ite_self]

lemma IsDecimal.not_covered {ranges : List (Nat × Nat)} {c : Char} (hc : IsDecimal c)
    (h : (decimalZeros.all fun first => isApart first (first + 9) ranges) = true) : covers ranges c.toNat = false := by
  obtain ⟨first, hfirst, hlow, hhigh⟩ := hc.exists_first
  exact covers_eq_false (List.all_eq_true.mp h first hfirst) hlow hhigh

lemma IsDecimal.isNumeralSpace {c : Char} (h : IsDecimal c) : isNumeralSpace c = false := by
  have hspace : covers spaceRanges c.toNat = false := h.not_covered (by decide +kernel)
  rw [Text.isNumeralSpace, isSpace, hspace, Bool.false_and]

lemma isLetter_of_isDigit {c : Char} (h : isDigit c = true) : isLetter c = false := by
  rcases isDecimal_or_isStray h with hdecimal | ⟨-, hnone⟩
  · exact hdecimal.not_covered (by decide +kernel)
  · rw [Text.isDigit, hnone, Option.isSome_none, Bool.false_or] at h
    obtain ⟨range, hrange, hlow, hhigh⟩ := exists_range_of_covers h
    have hall : (strayDigitRanges.all fun range => isApart range.1 range.2 letterRanges) = true := by
      decide +kernel
    exact covers_eq_false (List.all_eq_true.mp hall range hrange) hlow hhigh

lemma IsDecimal.ne {c d : Char} (h : IsDecimal c) (hd : decimalValue? d = none) : c ≠ d := by
  rintro rfl
  rw [IsDecimal, hd] at h
  cases h

lemma filterMap_decimalValue?_ne_nil {cs : List Char} (hne : cs ≠ []) (hcs : ∀ c ∈ cs, IsDecimal c) :
    cs.filterMap decimalValue? ≠ [] := by
  obtain ⟨c, more, rfl⟩ := List.exists_cons_of_ne_nil hne
  obtain ⟨value, hvalue⟩ := Option.isSome_iff_exists.mp (hcs c List.mem_cons_self)
  rw [List.filterMap_cons_some hvalue]
  exact List.cons_ne_nil _ _

end Text

/-! ### Numerals of decimal digits -/

namespace Token

/-- A point with characters of a class behind it, or nothing. -/
def IsFraction (p : Char → Prop) (text : List Char) : Prop :=
  text = [] ∨ ∃ digits, text = '.' :: digits ∧ ∀ c ∈ digits, p c

/-- An exponent, perhaps with a sign, or nothing: its first digit belongs to one class, the others to another. -/
def IsExponent (p q : Char → Prop) (text : List Char) : Prop :=
  text = [] ∨ ∃ e sign d digits, text = e :: (sign ++ d :: digits) ∧ isExponentMark e = true ∧
    (sign = [] ∨ sign = ['+'] ∨ sign = ['-']) ∧ p d ∧ ∀ c ∈ digits, q c

lemma eq_of_isExponentMark {e : Char} (h : isExponentMark e = true) : e = 'e' ∨ e = 'E' := by
  simpa [isExponentMark] using h

end Token

namespace Number

open Text (IsDecimal)
open Token (IsFraction IsExponent isExponentMark eq_of_isExponentMark)

variable {cs whole fraction exponent digits rest : List Char}

/-- Digits are read up to the first character that is none. -/
lemma spanDigits_append (rest : List Char) (hcs : ∀ c ∈ cs, IsDecimal c)
    (hrest : ∀ c ∈ rest.head?, c ≠ '_' ∧ decimalValue? c = none) (joined : Bool) : spanDigits joined (cs ++ rest) = (cs.filterMap decimalValue?, rest) := by
  induction cs generalizing joined with
  | nil =>
    cases rest with
    | nil => rfl
    | cons c more =>
      obtain ⟨hc, hvalue⟩ := hrest c rfl
      rw [List.nil_append, spanDigits]
      · rw [hvalue]
        rfl
      · rintro _ _ rfl
        exact absurd rfl hc
  | cons c cs ih =>
    obtain ⟨hc, hcs⟩ := List.forall_mem_cons.mp hcs
    obtain ⟨value, hvalue⟩ := Option.isSome_iff_exists.mp hc
    rw [List.cons_append, spanDigits]
    · rw [hvalue, List.filterMap_cons_some hvalue]
      dsimp only
      rw [ih hcs]
    · rintro _ _ rfl
      exact absurd rfl (hc.ne (by decide))

lemma spanDigits_decimal (hcs : ∀ c ∈ cs, IsDecimal c) (joined : Bool) :
    spanDigits joined cs = (cs.filterMap decimalValue?, []) := by
  have hspan := spanDigits_append [] hcs (fun c hc => by cases hc) joined
  rwa [List.append_nil] at hspan

lemma splitSign_of_ne (h : ∀ c ∈ cs.head?, c ≠ '-' ∧ c ≠ '+') : splitSign cs = (false, cs) := by
  unfold splitSign
  split
  · exact absurd rfl (h '-' rfl).1
  · exact absurd rfl (h '+' rfl).2
  · rfl

lemma head?_ne_sign_of_decimal (hcs : ∀ c ∈ cs, IsDecimal c) : ∀ c ∈ cs.head?, c ≠ '-' ∧ c ≠ '+' := by
  intro c hc
  have hdecimal := hcs c (List.mem_of_mem_head? hc)
  exact ⟨hdecimal.ne (by decide), hdecimal.ne (by decide)⟩

/-- The host reads decimal digits as a whole number if there are not too many. -/
lemma wholeNumber?_eq_none (hne : cs ≠ []) (hcs : ∀ c ∈ cs, IsDecimal c) (h : wholeNumber? (String.ofList cs) = none) :
    maxDigits < cs.length := by
  have htrim : Text.trim isNumeralSpace cs = cs := Text.trim_eq_self fun c hc => (hcs c hc).isNumeralSpace
  rw [wholeNumber?, String.toList_ofList, htrim, splitSign_of_ne (head?_ne_sign_of_decimal hcs)] at h
  dsimp only at h
  rw [spanDigits_decimal hcs] at h
  have hdigits := Text.filterMap_decimalValue?_ne_nil hne hcs
  simp only [List.isEmpty_eq_false_iff.mpr hdigits, Bool.false_or, decide_eq_true_eq] at h
  have hlength := List.length_filterMap_le decimalValue? cs
  split at h
  · omega
  · cases h

lemma exponentPart?_isSome (h : IsExponent IsDecimal IsDecimal exponent) : (exponentPart? exponent).isSome = true := by
  rcases h with rfl | ⟨e, sign, d, digits, rfl, he, hsign, hd, hdigits⟩
  · rfl
  · have hall : ∀ c ∈ d :: digits, IsDecimal c := List.forall_mem_cons.mpr ⟨hd, hdigits⟩
    obtain ⟨negative, hsplit⟩ : ∃ negative, splitSign (sign ++ d :: digits) = (negative, d :: digits) := by
      rcases hsign with rfl | rfl | rfl
      · exact ⟨false, splitSign_of_ne (head?_ne_sign_of_decimal hall)⟩
      · exact ⟨false, rfl⟩
      · exact ⟨true, rfl⟩
    rw [exponentPart?, if_pos (eq_of_isExponentMark he), hsplit]
    dsimp only
    rw [spanDigits_decimal hall]
    simp [Text.filterMap_decimalValue?_ne_nil (List.cons_ne_nil d digits) hall]

lemma head?_of_isExponent (h : IsExponent IsDecimal IsDecimal exponent) :
    ∀ c ∈ exponent.head?, c ≠ '_' ∧ c ≠ '.' ∧ decimalValue? c = none := by
  rcases h with rfl | ⟨e, sign, d, digits, rfl, he, -⟩
  · exact fun c hc => by cases hc
  · intro c hc
    obtain rfl := Option.some.inj hc
    rcases eq_of_isExponentMark he with rfl | rfl <;> decide

/-- A numeral of decimal digits is a decimal if it has a digit before the exponent. -/
lemma unsignedDecimal?_isSome (negative : Bool) (hwhole : ∀ c ∈ whole, IsDecimal c)
    (hfraction : IsFraction IsDecimal fraction) (hexponent : IsExponent IsDecimal IsDecimal exponent)
    (hne : whole ≠ [] ∨ ∃ d ds, fraction = '.' :: d :: ds) :
    (unsignedDecimal? negative (whole ++ (fraction ++ exponent))).isSome = true := by
  have hpart := exponentPart?_isSome hexponent
  have hhead := head?_of_isExponent hexponent
  rcases hfraction with rfl | ⟨digits, rfl, hdigits⟩
  · have hwholeNe : whole ≠ [] := by simpa using hne
    have hspan := spanDigits_append exponent hwhole (fun c hc => ⟨(hhead c hc).1, (hhead c hc).2.2⟩) false
    rw [List.nil_append, unsignedDecimal?, hspan]
    dsimp only
    split
    · next after hpoint => exact absurd rfl (hhead '.' rfl).2.1
    · simp [Text.filterMap_decimalValue?_ne_nil hwholeNe hwhole, hpart]
  · have hspan := spanDigits_append ('.' :: (digits ++ exponent)) hwhole
      (fun c hc => Option.some.inj hc ▸ by decide) false
    have hspan' := spanDigits_append exponent hdigits (fun c hc => ⟨(hhead c hc).1, (hhead c hc).2.2⟩) false
    have hempty : ((whole.filterMap decimalValue?).isEmpty && (digits.filterMap decimalValue?).isEmpty) = false := by
      rcases hne with hwholeNe | ⟨d, ds, hfraction⟩
      · rw [List.isEmpty_eq_false_iff.mpr (Text.filterMap_decimalValue?_ne_nil hwholeNe hwhole), Bool.false_and]
      · obtain rfl := (List.cons.inj hfraction).2
        rw [List.isEmpty_eq_false_iff.mpr (Text.filterMap_decimalValue?_ne_nil (List.cons_ne_nil d ds) hdigits),
          Bool.and_false]
    rw [List.cons_append, unsignedDecimal?, hspan]
    dsimp only
    split
    · next after hpoint =>
      obtain rfl := (List.cons.inj hpoint).2
      rw [hspan']
      simp [hempty, hpart]
    · next hpoint => exact absurd rfl (hpoint _)

/-- The host reads every numeral of decimal digits as a floating number. -/
lemma floatingNumber?_isSome (hwhole : ∀ c ∈ whole, IsDecimal c) (hfraction : IsFraction IsDecimal fraction)
    (hexponent : IsExponent IsDecimal IsDecimal exponent) (hne : whole ≠ [] ∨ ∃ d ds, fraction = '.' :: d :: ds) :
    (floatingNumber? (String.ofList (whole ++ (fraction ++ exponent)))).isSome = true := by
  have hspace : ∀ c ∈ whole ++ (fraction ++ exponent), isNumeralSpace c = false := by
    have hdecimal {ds : List Char} (hds : ∀ c ∈ ds, IsDecimal c) : ∀ c ∈ ds, isNumeralSpace c = false :=
      fun c hc => (hds c hc).isNumeralSpace
    simp only [List.forall_mem_append]
    refine ⟨hdecimal hwhole, ?_, ?_⟩
    · rcases hfraction with rfl | ⟨digits, rfl, hdigits⟩
      · exact fun c hc => by cases hc
      · exact List.forall_mem_cons.mpr ⟨by decide, hdecimal hdigits⟩
    · rcases hexponent with rfl | ⟨e, sign, d, digits, rfl, he, hsign, hd, hdigits⟩
      · exact fun c hc => by cases hc
      · have hall := hdecimal (List.forall_mem_cons.mpr ⟨hd, hdigits⟩)
        refine List.forall_mem_cons.mpr ⟨?_, List.forall_mem_append.mpr ⟨?_, hall⟩⟩
        · rcases eq_of_isExponentMark he with rfl | rfl <;> decide
        · rcases hsign with rfl | rfl | rfl
          · exact List.forall_mem_nil _
          · exact List.forall_mem_singleton.mpr (by decide)
          · exact List.forall_mem_singleton.mpr (by decide)
  have hsign : ∀ c ∈ (whole ++ (fraction ++ exponent)).head?, c ≠ '-' ∧ c ≠ '+' := by
    cases whole with
    | cons c more => exact fun d hd => head?_ne_sign_of_decimal hwhole d hd
    | nil =>
      obtain ⟨d, ds, rfl⟩ : ∃ d ds, fraction = '.' :: d :: ds := by simpa using hne
      exact fun c hc => Option.some.inj hc ▸ by decide
  rw [floatingNumber?, String.toList_ofList, Text.trim_eq_self hspace, splitSign_of_ne hsign]
  dsimp only
  split
  · rfl
  · split
    · rfl
    · rw [Option.isSome_map]
      exact unsignedDecimal?_isSome false hwhole hfraction hexponent hne

end Number

/-! ### The literals of the scanner -/

namespace Token

open Text (IsDecimal IsStray)

variable {whole fraction exponent text rest : List Char} {isFloating : Bool}

/-- Whether a number begins a text. -/
def beginsNumber : List Char → Bool
  | c :: rest => isDigit c || (c = '.' && rest.head?.any isDigit)
  | [] => false

/-- A literal that the host does not read as a number: a digit belongs to no decimal series, or there are more digits
than it reads. -/
def IsUnreadable (literal : List Char) : Prop :=
  (∃ c ∈ literal, IsStray c) ∨ Number.maxDigits < literal.countP isDigit

lemma isFraction_fractionPart (text : List Char) :
    IsFraction (fun c => isDigitOrUnderscore c = true) (fractionPart text) := by
  unfold fractionPart
  split
  · split
    · exact Or.inl rfl
    · exact Or.inr ⟨_, rfl, fun c hc => List.all_eq_true.mp List.all_takeWhile c hc⟩
  · exact Or.inr ⟨[], rfl, fun c hc => by cases hc⟩
  · exact Or.inl rfl

lemma isExponent_of_present (h : scanExponent text = .present exponent) :
    IsExponent (fun c => isDigit c = true) (fun c => isDigitOrUnderscore c = true) exponent := by
  rcases text with _ | ⟨e, more⟩
  · cases h
  rw [scanExponent_cons] at h
  split at h
  · next hmark =>
    split at h
    · next hdigit =>
      obtain rfl := ExponentScan.present.inj h
      have hsign : exponentSign more = [] ∨ exponentSign more = ['+'] ∨ exponentSign more = ['-'] := by
        unfold exponentSign
        split <;> simp
      cases hafter : more.drop (exponentSign more).length with
      | nil => simp [hafter] at hdigit
      | cons d after =>
        have hd : isDigit d = true := by simpa [hafter] using hdigit
        have hdou : isDigitOrUnderscore d = true := by rw [isDigitOrUnderscore, hd, Bool.true_or]
        refine Or.inr ⟨e, _, d, after.takeWhile isDigitOrUnderscore, ?_, hmark, hsign, hd,
          fun c hc => List.all_eq_true.mp List.all_takeWhile c hc⟩
        rw [List.takeWhile_cons, if_pos hdou, List.cons_append]
    · cases h
  · cases h

/-- Without its underscores, what the scanner takes for digits consists of decimal digits unless one is of no decimal
series. -/
lemma isDecimal_of_filter {cs : List Char} (hcs : ∀ c ∈ cs, isDigitOrUnderscore c = true)
    (hstray : ∀ c ∈ cs, ¬IsStray c) : ∀ c ∈ cs.filter (· ≠ '_'), IsDecimal c := by
  intro c hc
  obtain ⟨hc, hne⟩ := List.mem_filter.mp hc
  have hdigit : isDigit c = true := by simpa [isDigitOrUnderscore, of_decide_eq_true hne] using hcs c hc
  exact (Text.isDecimal_or_isStray hdigit).resolve_right (hstray c hc)

lemma filter_of_isDigit {d : Char} (hd : isDigit d = true) (ds : List Char) :
    (d :: ds).filter (· ≠ '_') = d :: ds.filter (· ≠ '_') := by
  have hne : d ≠ '_' := by
    rintro rfl
    exact absurd hd (by decide)
  exact List.filter_cons_of_pos (decide_eq_true hne)

/-- A number without a value in its digits and suffix is one that the host does not read. -/
lemma suffixedValue_unreadable {numeral : List Char}
    (h : suffixedValue isFloating numeral (leadingMark (isTypeMark isFloating) rest) = .unreadable) :
    Number.floatingNumber? (String.ofList numeral) = none ∨
      isFloating = false ∧ Number.wholeNumber? (String.ofList numeral) = none := by
  have hfloating {make : Float → Lexeme} (h : floatingValue make numeral = .unreadable) :
      Number.floatingNumber? (String.ofList numeral) = none := by
    unfold floatingValue at h
    split at h
    · cases h
    · next hnone => exact hnone
  have hinteger {isLong : Bool} (h : integerValue isLong numeral = .unreadable) :
      Number.wholeNumber? (String.ofList numeral) = none := by
    unfold integerValue at h
    split at h
    · split at h <;> cases h
    · split at h
      · cases h
      · next hnone => exact hnone
  rcases hmark : leadingMark (isTypeMark isFloating) rest with _ | ⟨c, more⟩
  · rw [hmark, suffixedValue] at h
    split at h
    · exact Or.inl (hfloating h)
    · next hwhole => exact Or.inr ⟨by simpa using hwhole, hinteger h⟩
  · have hc : isTypeMark isFloating c = true := by
      rcases rest with _ | ⟨d, after⟩
      · cases hmark
      · rw [leadingMark] at hmark
        split at hmark
        · next hd => exact (List.cons.inj hmark).1 ▸ hd
        · cases hmark
    rw [hmark, suffixedValue] at h
    split at h
    · exact Or.inl (hfloating h)
    · next hf =>
      split at h
      · exact Or.inl (hfloating h)
      · next hd =>
        have hlong : isFloating = false ∧ isLongMark c = true := by
          simp only [Bool.or_eq_true, decide_eq_true_eq, not_or] at hf hd
          simpa [isTypeMark, hf, hd] using hc
        exact Or.inr ⟨hlong.1, hinteger h⟩

lemma IsFraction.filter (h : IsFraction (fun c => isDigitOrUnderscore c = true) fraction)
    (hstray : ∀ c ∈ fraction, ¬IsStray c) : IsFraction IsDecimal (fraction.filter (· ≠ '_')) := by
  rcases h with rfl | ⟨digits, rfl, hdigits⟩
  · exact Or.inl rfl
  · exact Or.inr ⟨_, List.filter_cons_of_pos (by decide),
      isDecimal_of_filter hdigits fun c hc => hstray c (List.mem_cons_of_mem _ hc)⟩

lemma IsExponent.filter
    (h : IsExponent (fun c => isDigit c = true) (fun c => isDigitOrUnderscore c = true) exponent)
    (hstray : ∀ c ∈ exponent, ¬IsStray c) : IsExponent IsDecimal IsDecimal (exponent.filter (· ≠ '_')) := by
  rcases h with rfl | ⟨e, sign, d, digits, rfl, he, hsign, hd, hdigits⟩
  · exact Or.inl rfl
  · have hsignFilter : sign.filter (· ≠ '_') = sign := by
      rcases hsign with rfl | rfl | rfl <;> rfl
    have hmark : decide (e ≠ '_') = true := by
      rcases eq_of_isExponentMark he with rfl | rfl <;> rfl
    refine Or.inr ⟨e, sign, d, digits.filter (· ≠ '_'), ?_, he, hsign, ?_, ?_⟩
    · rw [List.filter_cons, if_pos hmark, List.filter_append, hsignFilter, filter_of_isDigit hd]
    · exact (Text.isDecimal_or_isStray hd).resolve_right (hstray d (by simp))
    · exact isDecimal_of_filter hdigits fun c hc => hstray c (by simp [hc])

/-- The parts of a number that has no value are not read by the host. -/
lemma finishDecimal_unreadable (hwhole : ∀ c ∈ whole, isDigitOrUnderscore c = true)
    (hfraction : IsFraction (fun c => isDigitOrUnderscore c = true) fraction)
    (hexponent : IsExponent (fun c => isDigit c = true) (fun c => isDigitOrUnderscore c = true) exponent)
    (hparts : isFloating = false → fraction = [] ∧ exponent = [])
    (hfirst : (∃ d ds, whole = d :: ds ∧ isDigit d = true) ∨ ∃ d ds, fraction = '.' :: d :: ds ∧ isDigit d = true)
    (h : (finishDecimal isFloating (whole ++ (fraction ++ exponent)) rest).value = .unreadable) :
    IsUnreadable (whole ++ (fraction ++ exponent)) := by
  by_cases hstray : ∃ c ∈ whole ++ (fraction ++ exponent), IsStray c
  · exact Or.inl hstray
  · have hnone : ∀ c ∈ whole ++ (fraction ++ exponent), ¬IsStray c := fun c hc hc' => hstray ⟨c, hc, hc'⟩
    simp only [List.forall_mem_append] at hnone
    obtain ⟨hnoneWhole, hnoneFraction, hnoneExponent⟩ := hnone
    have hdecimal := isDecimal_of_filter hwhole hnoneWhole
    have hne : whole.filter (· ≠ '_') ≠ [] ∨ ∃ d ds, fraction.filter (· ≠ '_') = '.' :: d :: ds := by
      rcases hfirst with ⟨d, ds, rfl, hd⟩ | ⟨d, ds, rfl, hd⟩
      · rw [filter_of_isDigit hd]
        exact Or.inl (List.cons_ne_nil _ _)
      · rw [List.filter_cons_of_pos (by decide), filter_of_isDigit hd]
        exact Or.inr ⟨_, _, rfl⟩
    have hread := Number.floatingNumber?_isSome hdecimal (hfraction.filter hnoneFraction)
      (hexponent.filter hnoneExponent) hne
    rw [finishDecimal_eq] at h
    split at h
    · cases h
    · rcases suffixedValue_unreadable h with hvalue | ⟨hfloating, hvalue⟩
      · rw [List.filter_append, List.filter_append] at hvalue
        rw [hvalue] at hread
        cases hread
      · obtain ⟨rfl, rfl⟩ := hparts hfloating
        have hwholeNe : whole.filter (· ≠ '_') ≠ [] := by simpa using hne
        rw [List.append_nil, List.append_nil] at hvalue ⊢
        have hmany := Number.wholeNumber?_eq_none hwholeNe hdecimal hvalue
        have hcount : (whole.filter (· ≠ '_')).countP isDigit = (whole.filter (· ≠ '_')).length :=
          List.countP_eq_length.mpr fun c hc => (hdecimal c hc).isDigit
        have hle : (whole.filter (· ≠ '_')).countP isDigit ≤ whole.countP isDigit := List.filter_sublist.countP_le
        exact Or.inr (by omega)

lemma IsUnreadable.append {literal : List Char} (h : IsUnreadable literal) (rest : List Char) :
    IsUnreadable (literal ++ rest) := by
  rcases h with ⟨c, hc, hstray⟩ | hmany
  · exact Or.inl ⟨c, List.mem_append_left _ hc, hstray⟩
  · exact Or.inr (by rw [List.countP_append]; omega)

/-- The characters of the number literal that begins a text. -/
def numberLiteral (text : List Char) : List Char :=
  text.take (scanNumber text).length

lemma take_finishDecimal {body : List Char} (h : (finishDecimal isFloating body rest).value = .unreadable) :
    (body ++ rest).take (finishDecimal isFloating body rest).length =
      body ++ leadingMark (isTypeMark isFloating) rest := by
  rw [finishDecimal_eq] at h ⊢
  split at h
  · cases h
  · next hbody =>
    have hrest : body ++ rest = body ++ leadingMark (isTypeMark isFloating) rest ++
        rest.drop (leadingMark (isTypeMark isFloating) rest).length := by
      rw [List.append_assoc, append_drop_leadingMark]
    rw [if_neg hbody, hrest, List.take_left]

lemma fraction_of_point {d : Char} (hd : isDigit d = true) (tail : List Char) :
    ∃ ds, fractionPart ('.' :: d :: tail) = '.' :: d :: ds := by
  have hdou : isDigitOrUnderscore d = true := by rw [isDigitOrUnderscore, hd, Bool.true_or]
  rw [fractionPart, Text.isLetter_of_isDigit hd, List.takeWhile_cons, if_pos hdou]
  exact ⟨_, rfl⟩

/-- A number begins with a digit, in the whole part or behind the point. -/
lemma first_of_beginsNumber {tail : List Char} (hbegins : beginsNumber (whole ++ (fraction ++ tail)) = true)
    (hwhole : ∀ c ∈ whole, isDigitOrUnderscore c = true)
    (hhead : ∀ c ∈ (fraction ++ tail).head?, isDigitOrUnderscore c = false)
    (hfraction : fractionPart (fraction ++ tail) = fraction) :
    (∃ d ds, whole = d :: ds ∧ isDigit d = true) ∨ ∃ d ds, fraction = '.' :: d :: ds ∧ isDigit d = true := by
  cases whole with
  | cons d ds =>
    refine Or.inl ⟨d, ds, rfl, ?_⟩
    have hd := hwhole d List.mem_cons_self
    simp only [List.cons_append, beginsNumber, Bool.or_eq_true, Bool.and_eq_true, decide_eq_true_eq] at hbegins
    rcases hbegins with hdigit | ⟨rfl, -⟩
    · exact hdigit
    · exact absurd hd (by decide)
  | nil =>
    right
    rw [List.nil_append] at hbegins
    rcases htext : fraction ++ tail with _ | ⟨c, rest⟩
    · rw [htext] at hbegins
      cases hbegins
    · rw [htext] at hbegins hhead hfraction
      have hc : isDigit c = false := by
        have hdou := hhead c rfl
        rw [isDigitOrUnderscore, Bool.or_eq_false_iff] at hdou
        exact hdou.1
      simp only [beginsNumber, hc, Bool.false_or, Bool.and_eq_true, decide_eq_true_eq] at hbegins
      obtain ⟨rfl, hnext⟩ := hbegins
      cases rest with
      | nil => cases hnext
      | cons d more =>
        have hd : isDigit d = true := by simpa using hnext
        obtain ⟨ds, hds⟩ := fraction_of_point hd more
        exact ⟨d, ds, hfraction ▸ hds, hd⟩

lemma scanDecimal_unreadable (hbegins : beginsNumber text = true) (h : (scanDecimal text).value = .unreadable) :
    IsUnreadable (text.take (scanDecimal text).length) := by
  obtain ⟨whole, fraction, tail, rfl, hwhole, hhead, hfraction⟩ := exists_parts text
  have hfractionParts := hfraction ▸ isFraction_fractionPart (fraction ++ tail)
  have hfirst := first_of_beginsNumber hbegins hwhole hhead hfraction
  have hscan := scanDecimal_parts hwhole hhead hfraction
  rw [hscan] at h ⊢
  cases hexponent : scanExponent tail with
  | malformed n =>
    rw [hexponent] at h
    cases h
  | absent =>
    rw [hexponent] at h
    have hwholeOnly : (!fraction.isEmpty) = false → fraction = [] ∧ ([] : List Char) = [] :=
      fun hempty => ⟨by simpa using hempty, rfl⟩
    have hunreadable := finishDecimal_unreadable hwhole hfractionParts (Or.inl rfl) hwholeOnly hfirst
      (by rwa [List.append_nil])
    rw [List.append_nil] at hunreadable
    dsimp only
    rw [← List.append_assoc, take_finishDecimal h]
    exact hunreadable.append _
  | present exponent =>
    rw [hexponent] at h
    obtain ⟨-, -, after, rfl, -⟩ := scanExponent_present hexponent
    dsimp only at h ⊢
    rw [List.drop_left, List.append_assoc] at h ⊢
    have hunreadable := finishDecimal_unreadable hwhole hfractionParts (isExponent_of_present hexponent)
      (fun hf => by cases hf) hfirst h
    have htext : whole ++ (fraction ++ (exponent ++ after)) = whole ++ (fraction ++ exponent) ++ after := by simp
    rw [htext, take_finishDecimal h]
    exact hunreadable.append _

/-- A number literal without a value is one that the host does not read. -/
theorem isUnreadable_of_scanNumber (hbegins : beginsNumber text = true)
    (h : (scanNumber text).value = .unreadable) : IsUnreadable (numberLiteral text) := by
  rcases based_or_decimal text with ⟨c, more, rfl, hc⟩ | hnone
  · obtain ⟨base, hscan⟩ := scanNumber_based hc
    rw [hscan, scanBased_eq] at h
    dsimp only at h
    rw [finishBased] at h
    split at h <;> cases h
  · rw [numberLiteral]
    rw [scanNumber_decimal hnone] at h ⊢
    exact scanDecimal_unreadable hbegins h

end Token

end PredicateTrace
