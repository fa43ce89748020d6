import Mathlib.Algebra.Order.Field.Power
import Mathlib.Algebra.Order.Ring.Rat
import Mathlib.Data.List.DropRight
import Mathlib.Tactic.NormNum
import Mathlib.Tactic.Positivity
import Mathlib.Tactic.Ring
import PredicateTrace.Proofs.SourceOfOps
import PredicateTrace.Proofs.UnreadableNumbers

/-!
# Layout of decimals

The digits of a number are laid out around a point, or around a point with an exponent behind it. The text is
read back as the same number, whatever zeros the digits began or ended with, and the size of the number alone
decides between the two notations.
-/

namespace PredicateTrace.Number

open Text (decimalValue? isNumeralSpace trim IsDecimal)

/-! ### The number of a decimal -/

/-- The number that a decimal stands for. -/
def Decimal.value (d : Decimal) : ℚ :=
  (if d.negative then -1 else 1) * (d.significand * 10 ^ d.exponent)

/-- The decimal without zeros in front of it. -/
def Decimal.unpadded (d : Decimal) : Decimal :=
  { d with digits := d.digits.dropWhile (· = 0) }

/-- The decimal that a text writes, without zeros in front of it. -/
def decimal? (text : String) : Option Decimal :=
  let (negative, unsigned) := splitSign (trim isNumeralSpace text.toList)
  (unsignedDecimal? negative unsigned).map Decimal.unpadded

variable {d : Decimal} {ds kept whole fraction : List Nat} {negative : Bool} {e point : Int}

lemma ofDigits_concat (ds : List Nat) (digit : Nat) : ofDigits (ds ++ [digit]) = 10 * ofDigits ds + digit := by
  rw [ofDigits, List.foldl_append]
  rfl

lemma ofDigits_append (xs ys : List Nat) : ofDigits (xs ++ ys) = ofDigits xs * 10 ^ ys.length + ofDigits ys := by
  induction ys using List.reverseRecOn with
  | nil => simp [ofDigits]
  | append_singleton ys digit ih =>
    rw [← List.append_assoc, ofDigits_concat, ih, ofDigits_concat, List.length_append, List.length_singleton]
    ring

lemma ofDigits_replicate_zero (k : Nat) : ofDigits (List.replicate k 0) = 0 := by
  induction k with
  | zero => rfl
  | succ k ih => rw [List.replicate_succ', ofDigits_concat, ih]

lemma ofDigits_lt (h : ∀ digit ∈ ds, digit < 10) : ofDigits ds < 10 ^ ds.length := by
  induction ds using List.reverseRecOn with
  | nil => simp [ofDigits]
  | append_singleton ds digit ih =>
    have hdigit : digit < 10 := h digit (by simp)
    have hds := ih fun x hx => h x (List.mem_append_left _ hx)
    rw [ofDigits_concat, List.length_append, List.length_singleton, Nat.pow_succ]
    omega

lemma value_replicate_append (k : Nat) :
    (⟨negative, List.replicate k 0 ++ ds, e⟩ : Decimal).value = (⟨negative, ds, e⟩ : Decimal).value := by
  have hdigits : ofDigits (List.replicate k 0 ++ ds) = ofDigits ds := by
    rw [ofDigits_append, ofDigits_replicate_zero, Nat.zero_mul, Nat.zero_add]
  unfold Decimal.value
  exact congrArg (fun n : Nat => (if negative then (-1 : ℚ) else 1) * (n * 10 ^ e)) hdigits

lemma value_append_replicate (k : Nat) :
    (⟨negative, ds ++ List.replicate k 0, e⟩ : Decimal).value = (⟨negative, ds, e + k⟩ : Decimal).value := by
  have hdigits : ofDigits (ds ++ List.replicate k 0) = ofDigits ds * 10 ^ k := by
    rw [ofDigits_append, ofDigits_replicate_zero, List.length_replicate, Nat.add_zero]
  have hscaled : ((ofDigits (ds ++ List.replicate k 0) : Nat) : ℚ) * 10 ^ e = ofDigits ds * 10 ^ (e + k) := by
    rw [hdigits, zpow_add₀ (by norm_num), zpow_natCast]
    push_cast
    ring
  unfold Decimal.value
  exact congrArg (fun r : ℚ => (if negative then (-1 : ℚ) else 1) * r) hscaled

lemma eq_replicate_of_takeWhile (ds : List Nat) :
    ds.takeWhile (· = 0) = List.replicate (ds.takeWhile (· = 0)).length 0 :=
  List.eq_replicate_of_mem fun x hx => by simpa using List.mem_takeWhile_imp hx

/-- Zeros in front of the digits do not matter. -/
lemma value_unpadded (d : Decimal) : d.unpadded.value = d.value := by
  rcases d with ⟨negative, ds, e⟩
  conv_rhs =>
    rw [← List.takeWhile_append_dropWhile (p := fun x => decide (x = 0)) (l := ds), eq_replicate_of_takeWhile,
      value_replicate_append]
  rfl

lemma digits_trimmed (d : Decimal) : d.trimmed.digits = d.digits.rdropWhile (· = 0) :=
  rfl

lemma exists_trimmed (d : Decimal) : ∃ k : Nat, d.digits = d.trimmed.digits ++ List.replicate k 0 ∧
    d.trimmed.exponent = d.exponent + k := by
  have hzeros : d.digits.rtakeWhile (· = 0) = List.replicate (d.digits.rtakeWhile (· = 0)).length 0 :=
    List.eq_replicate_of_mem fun x hx => by simpa using List.mem_rtakeWhile_imp hx
  have hsplit : d.digits = d.trimmed.digits ++ List.replicate (d.digits.rtakeWhile (· = 0)).length 0 := by
    rw [digits_trimmed, ← hzeros, List.rdropWhile_append_rtakeWhile]
  refine ⟨_, hsplit, ?_⟩
  have hlength := congrArg List.length hsplit
  rw [List.length_append, List.length_replicate] at hlength
  have hexponent : d.trimmed.exponent = d.exponent + (d.digits.length - d.trimmed.digits.length : Nat) := rfl
  omega

/-- Zeros at the end of the digits count in the exponent only. -/
lemma value_trimmed (d : Decimal) : d.trimmed.value = d.value := by
  obtain ⟨k, hdigits, hexponent⟩ := exists_trimmed d
  have hd : d = ⟨d.negative, d.trimmed.digits ++ List.replicate k 0, d.exponent⟩ := by rw [← hdigits]
  have htrimmed : d.trimmed = ⟨d.negative, d.trimmed.digits, d.exponent + k⟩ := by rw [← hexponent]; rfl
  rw [htrimmed, ← value_append_replicate, ← hd]

lemma point_trimmed (d : Decimal) : d.trimmed.point = d.point := by
  obtain ⟨k, hdigits, hexponent⟩ := exists_trimmed d
  have hlength := congrArg List.length hdigits
  rw [List.length_append, List.length_replicate] at hlength
  rw [Decimal.point, Decimal.point]
  omega

lemma getLast?_trimmed (h : d.trimmed.digits ≠ []) : ∃ digit, d.trimmed.digits.getLast? = some digit ∧ digit ≠ 0 := by
  have hlast := List.rdropWhile_last_not (fun x => decide (x = 0)) d.digits h
  exact ⟨_, List.getLast?_eq_some_getLast h, fun hzero => hlast (decide_eq_true hzero)⟩

/-! ### Size -/

/-- Digits that begin with one other than zero, as those of a number that is read from a text. -/
structure Decimal.IsNormal (d : Decimal) : Prop where
  digits_lt : ∀ digit ∈ d.digits, digit < 10
  leading : ∃ digit rest, d.digits = digit :: rest ∧ digit ≠ 0

lemma Decimal.IsNormal.digits_ne_nil (h : d.IsNormal) : d.digits ≠ [] := by
  obtain ⟨digit, rest, hdigits, -⟩ := h.leading
  exact hdigits ▸ List.cons_ne_nil _ _

lemma abs_value (d : Decimal) : |d.value| = d.significand * 10 ^ d.exponent := by
  have hmagnitude : (0 : ℚ) ≤ d.significand * 10 ^ d.exponent := by positivity
  unfold Decimal.value
  cases d.negative
  · rw [if_neg (by decide), one_mul, abs_of_nonneg hmagnitude]
  · rw [if_pos rfl, neg_one_mul, abs_neg, abs_of_nonneg hmagnitude]

/-- The leading digit tells the size of a number. -/
lemma Decimal.IsNormal.value_bounds (h : d.IsNormal) :
    (10 : ℚ) ^ d.point ≤ |d.value| ∧ |d.value| < (10 : ℚ) ^ (d.point + 1) := by
  obtain ⟨digit, rest, hdigits, hdigit⟩ := h.leading
  have hsplit : d.significand = digit * 10 ^ rest.length + ofDigits rest := by
    have happend : ofDigits (digit :: rest) = ofDigits [digit] * 10 ^ rest.length + ofDigits rest :=
      ofDigits_append [digit] rest
    have hsingle : ofDigits [digit] = digit := by simp [ofDigits]
    rw [← hsingle, ← happend, ← hdigits]
    rfl
  have hhigh : d.significand < 10 ^ d.digits.length := ofDigits_lt h.digits_lt
  have hlow : 10 ^ rest.length ≤ d.significand := by
    rw [hsplit]
    exact Nat.le_add_right_of_le (Nat.le_mul_of_pos_left _ (Nat.pos_of_ne_zero hdigit))
  have hlength : d.digits.length = rest.length + 1 := by rw [hdigits, List.length_cons]
  have hpoint : d.point = rest.length + d.exponent := by
    rw [Decimal.point, hlength]
    omega
  have hpoint' : d.point + 1 = d.digits.length + d.exponent := by omega
  have hpow : (0 : ℚ) < 10 ^ d.exponent := by positivity
  rw [abs_value]
  constructor
  · rw [hpoint, zpow_add₀ (by norm_num), zpow_natCast]
    exact mul_le_mul_of_nonneg_right (by exact_mod_cast hlow) hpow.le
  · rw [hpoint', zpow_add₀ (by norm_num), zpow_natCast]
    exact mul_lt_mul_of_pos_right (by exact_mod_cast hhigh) hpow

/-- A power of ten is reached exactly if the leading digit stands as high. -/
lemma Decimal.IsNormal.pow_le_abs_value_iff (h : d.IsNormal) (k : Int) : (10 : ℚ) ^ k ≤ |d.value| ↔ k ≤ d.point := by
  obtain ⟨hlow, hhigh⟩ := h.value_bounds
  constructor
  · intro hk
    have hlt : (10 : ℚ) ^ k < 10 ^ (d.point + 1) := lt_of_le_of_lt hk hhigh
    have hlt := (zpow_lt_zpow_iff_right₀ (by norm_num : (1 : ℚ) < 10)).mp hlt
    omega
  · intro hk
    exact le_trans (zpow_le_zpow_right₀ (by norm_num) hk) hlow

lemma Decimal.IsNormal.trimmed (h : d.IsNormal) : d.trimmed.IsNormal := by
  obtain ⟨k, hdigits, -⟩ := exists_trimmed d
  obtain ⟨digit, rest, hfirst, hdigit⟩ := h.leading
  refine ⟨fun x hx => h.digits_lt x (hdigits ▸ List.mem_append_left _ hx), ?_⟩
  cases hkept : d.trimmed.digits with
  | nil =>
    -- nothing but zeros would have been left out
    have hzero : digit ∈ List.replicate k 0 := by
      rw [hkept, List.nil_append] at hdigits
      rw [← hdigits, hfirst]
      exact List.mem_cons_self
    exact absurd (List.eq_of_mem_replicate hzero) hdigit
  | cons first more =>
    rw [hkept, hfirst] at hdigits
    obtain ⟨rfl, -⟩ := List.cons.inj hdigits
    exact ⟨digit, more, rfl, hdigit⟩

lemma decimalValue?_lt {c : Char} {digit : Nat} (h : decimalValue? c = some digit) : digit < 10 := by
  unfold decimalValue? at h
  obtain ⟨first, hfirst, rfl⟩ := Option.map_eq_some_iff.mp h
  have hbounds := List.find?_some hfirst
  simp only [Bool.and_eq_true, decide_eq_true_eq] at hbounds
  omega

lemma spanDigits_lt (joined : Bool) (cs : List Char) : ∀ digit ∈ (spanDigits joined cs).1, digit < 10 := by
  fun_induction spanDigits joined cs with
  | case1 => exact List.forall_mem_nil _
  | case2 c rest value hvalue digits after hspan ih =>
    rw [hspan] at ih
    exact List.forall_mem_cons.mpr ⟨decimalValue?_lt hvalue, ih⟩
  | case3 => exact List.forall_mem_nil _
  | case4 joined c rest hunderscore value hvalue digits after hspan ih =>
    rw [hspan] at ih
    exact List.forall_mem_cons.mpr ⟨decimalValue?_lt hvalue, ih⟩
  | case5 => exact List.forall_mem_nil _

lemma unsignedDecimal?_lt {cs : List Char} (h : unsignedDecimal? negative cs = some d) :
    ∀ digit ∈ d.digits, digit < 10 := by
  unfold unsignedDecimal? at h
  have hwhole := spanDigits_lt false cs
  dsimp only at h
  split at h
  · next afterPoint _ =>
    split at h
    · cases h
    · obtain ⟨e, -, rfl⟩ := Option.map_eq_some_iff.mp h
      exact List.forall_mem_append.mpr ⟨hwhole, spanDigits_lt false afterPoint⟩
  · split at h
    · cases h
    · obtain ⟨e, -, rfl⟩ := Option.map_eq_some_iff.mp h
      exact hwhole

lemma isNormal_of_decimal? {text : String} (hread : decimal? text = some d) (hd : d.value ≠ 0) : d.IsNormal := by
  obtain ⟨padded, hpadded, rfl⟩ := Option.map_eq_some_iff.mp hread
  have hlt := unsignedDecimal?_lt hpadded
  refine ⟨fun digit hdigit => hlt digit ((List.dropWhile_sublist _).mem hdigit), ?_⟩
  have hfirst := List.head?_dropWhile_not (fun x => decide (x = 0)) padded.digits
  cases hdigits : padded.unpadded.digits with
  | nil =>
    have hzero : padded.unpadded.significand = 0 := by rw [Decimal.significand, hdigits]; rfl
    exact absurd (by rw [Decimal.value, hzero, Nat.cast_zero, zero_mul, mul_zero]) hd
  | cons digit rest =>
    have hdropped : padded.digits.dropWhile (fun x => decide (x = 0)) = digit :: rest := hdigits
    rw [hdropped] at hfirst
    exact ⟨digit, rest, rfl, of_decide_eq_false hfirst⟩

/-! ### Reading a text back -/

/-- The sign of a number. -/
def signText (negative : Bool) : String :=
  if negative then "-" else ""

/-- The exponent behind the digits, if there is one. -/
def exponentText : Option Int → String
  | none => ""
  | some e => "E" ++ toString e

/-- The text of a number by its parts: a sign, digits, a point, digits, and perhaps an exponent. -/
def decimalText (negative : Bool) (whole fraction : List Nat) (exponent : Option Int) : String :=
  signText negative ++ digitText whole ++ "." ++ digitText fraction ++ exponentText exponent

lemma decimalValue?_digitChar {digit : Nat} (h : digit < 10) : decimalValue? (Nat.digitChar digit) = some digit := by
  have hall : ∀ digit < 10, decimalValue? (Nat.digitChar digit) = some digit := by decide
  exact hall digit h

lemma filterMap_digitChar (h : ∀ digit ∈ ds, digit < 10) : (ds.map Nat.digitChar).filterMap decimalValue? = ds := by
  induction ds with
  | nil => rfl
  | cons digit ds ih =>
    obtain ⟨hdigit, hds⟩ := List.forall_mem_cons.mp h
    rw [List.map_cons, List.filterMap_cons_some (decimalValue?_digitChar hdigit), ih hds]

lemma isDecimal_digitChar (h : ∀ digit ∈ ds, digit < 10) : ∀ c ∈ ds.map Nat.digitChar, IsDecimal c := by
  intro c hc
  obtain ⟨digit, hdigit, rfl⟩ := List.mem_map.mp hc
  rw [IsDecimal, decimalValue?_digitChar (h digit hdigit), Option.isSome_some]

lemma spanDigits_digitChar (h : ∀ digit ∈ ds, digit < 10) {rest : List Char}
    (hrest : ∀ c ∈ rest.head?, c ≠ '_' ∧ decimalValue? c = none) :
    spanDigits false (ds.map Nat.digitChar ++ rest) = (ds, rest) := by
  rw [spanDigits_append rest (isDecimal_digitChar h) hrest, filterMap_digitChar h]

lemma splitSign_signText (negative : Bool) {cs : List Char} (hcs : ∀ c ∈ cs.head?, c ≠ '-' ∧ c ≠ '+') :
    splitSign ((signText negative).toList ++ cs) = (negative, cs) := by
  cases negative
  · exact splitSign_of_ne hcs
  · rfl

lemma toString_int (e : Int) :
    toString e = signText (decide (e < 0)) ++ String.ofList (Nat.toDigits 10 e.natAbs) := by
  rcases lt_or_ge e 0 with hneg | hpos
  · obtain ⟨m, rfl⟩ : ∃ m : Nat, e = -(m : Int) := ⟨e.natAbs, by omega⟩
    rw [decide_eq_true hneg, Int.natAbs_neg, Int.natAbs_natCast]
    exact repr_neg (by omega)
  · obtain ⟨m, rfl⟩ := Int.eq_ofNat_of_zero_le hpos
    rw [decide_eq_false (by omega), Int.natAbs_natCast]
    exact (repr_natCast m).trans String.empty_append.symm

lemma toList_exponentText (e : Int) : (exponentText (some e)).toList =
    'E' :: ((signText (decide (e < 0))).toList ++ Nat.toDigits 10 e.natAbs) := by
  rw [exponentText, toString_int]
  simp

lemma exponentPart?_exponentText (exponent : Option Int) :
    exponentPart? (exponentText exponent).toList = some (exponent.getD 0) := by
  cases exponent with
  | none => rfl
  | some e =>
    have hsign := Token.forall_digits (p := fun c => c ≠ '-' ∧ c ≠ '+') (by decide) e.natAbs
    have hread := Token.forall_digits (p := fun c => c ≠ '_' ∧ decimalValue? c = some (c.toNat - 48)) (by decide)
      e.natAbs
    have hsplit := splitSign_signText (decide (e < 0)) fun c hc => hsign c (List.mem_of_mem_head? hc)
    have hne : ((Nat.toDigits 10 e.natAbs).map fun c => c.toNat - 48).isEmpty = false := by simp
    rw [toList_exponentText, exponentPart?, if_pos (Or.inr rfl), hsplit]
    dsimp only
    rw [Token.spanDigits_digits hread]
    dsimp only
    rw [hne, Token.ofDigits_toDigits, if_neg (by decide), Option.getD_some]
    split
    · next hneg =>
      have hneg := of_decide_eq_true hneg
      exact congrArg some (by omega)
    · next hpos =>
      have hpos : ¬e < 0 := by simpa using hpos
      exact congrArg some (by omega)

lemma isNumeralSpace_signText (negative : Bool) : ∀ c ∈ (signText negative).toList, isNumeralSpace c = false := by
  cases negative
  · exact List.forall_mem_nil _
  · exact List.forall_mem_singleton.mpr (by decide)

lemma isNumeralSpace_exponentText (exponent : Option Int) :
    ∀ c ∈ (exponentText exponent).toList, isNumeralSpace c = false := by
  cases exponent with
  | none => exact List.forall_mem_nil _
  | some e =>
    rw [toList_exponentText]
    have hdigits := Token.forall_digits (p := fun c => isNumeralSpace c = false) (by decide) e.natAbs
    exact List.forall_mem_cons.mpr ⟨by decide, List.forall_mem_append.mpr ⟨isNumeralSpace_signText _, hdigits⟩⟩

lemma toList_decimalText (negative : Bool) (whole fraction : List Nat) (exponent : Option Int) :
    (decimalText negative whole fraction exponent).toList = (signText negative).toList ++
      (whole.map Nat.digitChar ++ '.' :: (fraction.map Nat.digitChar ++ (exponentText exponent).toList)) := by
  simp [decimalText, digitText]

lemma isNumeralSpace_decimalText (hwhole : ∀ digit ∈ whole, digit < 10) (hfraction : ∀ digit ∈ fraction, digit < 10)
    (negative : Bool) (exponent : Option Int) :
    ∀ c ∈ (decimalText negative whole fraction exponent).toList, isNumeralSpace c = false := by
  have hdigits {ds : List Nat} (h : ∀ digit ∈ ds, digit < 10) :
      ∀ c ∈ ds.map Nat.digitChar, isNumeralSpace c = false :=
    fun c hc => (isDecimal_digitChar h c hc).isNumeralSpace
  rw [toList_decimalText]
  simp only [List.forall_mem_append, List.forall_mem_cons]
  exact ⟨isNumeralSpace_signText negative, hdigits hwhole, by decide, hdigits hfraction,
    isNumeralSpace_exponentText exponent⟩

lemma unsignedDecimal?_parts (negative : Bool) (hne : whole ≠ []) (hwhole : ∀ digit ∈ whole, digit < 10)
    (hfraction : ∀ digit ∈ fraction, digit < 10) {tail : List Char}
    (htail : ∀ c ∈ tail.head?, c ≠ '_' ∧ decimalValue? c = none) :
    unsignedDecimal? negative (whole.map Nat.digitChar ++ '.' :: (fraction.map Nat.digitChar ++ tail)) =
      (exponentPart? tail).map fun e => ⟨negative, whole ++ fraction, e - fraction.length⟩ := by
  have hpoint : ∀ c ∈ ('.' :: (fraction.map Nat.digitChar ++ tail)).head?, c ≠ '_' ∧ decimalValue? c = none :=
    fun c hc => Option.some.inj hc ▸ by decide
  rw [unsignedDecimal?, spanDigits_digitChar hwhole hpoint]
  simp only [spanDigits_digitChar hfraction htail, List.isEmpty_eq_false_iff.mpr hne, Bool.false_and,
    Bool.false_eq_true, if_false]

lemma decimal?_decimalText (negative : Bool) (hne : whole ≠ []) (hwhole : ∀ digit ∈ whole, digit < 10)
    (hfraction : ∀ digit ∈ fraction, digit < 10) (exponent : Option Int) :
    decimal? (decimalText negative whole fraction exponent) =
      some (Decimal.unpadded ⟨negative, whole ++ fraction, exponent.getD 0 - fraction.length⟩) := by
  have hhead : ∀ c ∈ (whole.map Nat.digitChar ++ '.' ::
      (fraction.map Nat.digitChar ++ (exponentText exponent).toList)).head?, c ≠ '-' ∧ c ≠ '+' := by
    rw [List.head?_append_of_ne_nil _ (by simpa using hne)]
    exact head?_ne_sign_of_decimal (isDecimal_digitChar hwhole)
  have hexponent : ∀ c ∈ (exponentText exponent).toList.head?, c ≠ '_' ∧ decimalValue? c = none := by
    cases exponent with
    | none => exact fun c hc => by cases hc
    | some e =>
      rw [toList_exponentText]
      exact fun c hc => Option.some.inj hc ▸ by decide
  rw [decimal?, Text.trim_eq_self (isNumeralSpace_decimalText hwhole hfraction negative exponent), toList_decimalText,
    splitSign_signText negative hhead]
  dsimp only
  rw [unsignedDecimal?_parts negative hne hwhole hfraction hexponent, exponentPart?_exponentText]
  rfl

/-! ### Laying out digits -/

/-- Digits, or a zero in place of none. -/
def zeroed (ds : List Nat) : List Nat :=
  if ds.isEmpty then [0] else ds

lemma orZero_digitText (ds : List Nat) : orZero (digitText ds) = digitText (zeroed ds) := by
  cases ds with
  | nil => rfl
  | cons digit ds =>
    have hne : (digitText (digit :: ds)).isEmpty = false := by
      simp [digitText]
    rw [orZero, hne]
    rfl

/-- The digits before and behind the point, when the leading one has the exponent `point`. -/
def placed (kept : List Nat) (point : Int) : List Nat × List Nat :=
  if 0 ≤ point then
    (kept.take (point.toNat + 1) ++ List.replicate (point.toNat + 1 - kept.length) 0,
      zeroed (kept.drop (point.toNat + 1)))
  else ([0], List.replicate ((-point).toNat - 1) 0 ++ kept)

lemma value_placed (hkept : kept ≠ []) (point e : Int) :
    (⟨negative, (placed kept point).1 ++ (placed kept point).2, e - (placed kept point).2.length⟩ : Decimal).value =
      (⟨negative, kept, e + point + 1 - kept.length⟩ : Decimal).value := by
  unfold placed
  split
  · next hpoint =>
    dsimp only
    rcases le_or_gt kept.length (point.toNat + 1) with hfew | hmany
    · -- the digits end before the point, and zeros fill the place up to it
      have hdigits : kept.take (point.toNat + 1) ++ List.replicate (point.toNat + 1 - kept.length) 0 ++
          zeroed (kept.drop (point.toNat + 1)) = kept ++ List.replicate (point.toNat + 1 - kept.length + 1) 0 := by
        rw [List.take_of_length_le hfew, List.drop_of_length_le hfew, List.append_assoc, List.replicate_succ']
        rfl
      have hfraction : (zeroed (kept.drop (point.toNat + 1))).length = 1 := by
        rw [List.drop_of_length_le hfew]
        rfl
      rw [hdigits, hfraction, value_append_replicate]
      congr 2
      omega
    · have hdrop : kept.drop (point.toNat + 1) ≠ [] := by simpa using hmany
      have hzeroed : zeroed (kept.drop (point.toNat + 1)) = kept.drop (point.toNat + 1) := by
        rw [zeroed, List.isEmpty_eq_false_iff.mpr hdrop]
        rfl
      rw [hzeroed, Nat.sub_eq_zero_of_le hmany.le, List.replicate_zero, List.append_nil, List.take_append_drop,
        List.length_drop]
      congr 2
      omega
  · next hpoint =>
    have hlength := List.length_pos_of_ne_nil hkept
    have hdigits : [0] ++ (List.replicate ((-point).toNat - 1) 0 ++ kept) =
        List.replicate (-point).toNat 0 ++ kept := by
      obtain ⟨k, hk⟩ : ∃ k, (-point).toNat = k + 1 := ⟨(-point).toNat - 1, by omega⟩
      rw [hk, Nat.add_sub_cancel, List.replicate_succ]
      rfl
    dsimp only
    rw [hdigits, value_replicate_append, List.length_append, List.length_replicate]
    congr 2
    omega

lemma placed_ne_nil (hkept : kept ≠ []) (point : Int) : (placed kept point).1 ≠ [] := by
  unfold placed
  split
  · simp [hkept]
  · exact List.cons_ne_nil _ _

lemma zeroed_lt (h : ∀ digit ∈ ds, digit < 10) : ∀ digit ∈ zeroed ds, digit < 10 := by
  unfold zeroed
  split
  · exact List.forall_mem_singleton.mpr (by decide)
  · exact h

lemma replicate_zero_lt (k : Nat) : ∀ digit ∈ List.replicate k 0, digit < 10 := by
  intro digit hdigit
  rw [List.eq_of_mem_replicate hdigit]
  decide

lemma placed_lt (h : ∀ digit ∈ kept, digit < 10) (point : Int) :
    (∀ digit ∈ (placed kept point).1, digit < 10) ∧ ∀ digit ∈ (placed kept point).2, digit < 10 := by
  unfold placed
  split
  · exact ⟨List.forall_mem_append.mpr ⟨fun x hx => h x (List.mem_of_mem_take hx), replicate_zero_lt _⟩,
      zeroed_lt fun x hx => h x (List.mem_of_mem_drop hx)⟩
  · exact ⟨List.forall_mem_singleton.mpr (by decide), List.forall_mem_append.mpr ⟨replicate_zero_lt _, h⟩⟩

lemma placed_ends {last : Nat} (h : kept.getLast? = some last) (hlast : last ≠ 0) (point : Int) :
    (placed kept point).2 = [0] ∨ ∃ digit, (placed kept point).2.getLast? = some digit ∧ digit ≠ 0 := by
  unfold placed
  split
  · by_cases hdrop : kept.drop (point.toNat + 1) = []
    · left
      rw [hdrop]
      rfl
    · right
      refine ⟨last, ?_, hlast⟩
      have hlong : ¬kept.length ≤ point.toNat + 1 := by simpa using hdrop
      rw [zeroed, List.isEmpty_eq_false_iff.mpr hdrop, if_neg (by decide), List.getLast?_drop, if_neg hlong, h]
  · exact Or.inr ⟨last, by rw [List.getLast?_append, h, Option.some_or], hlast⟩

lemma placed_zero (lead : Nat) (rest : List Nat) : placed (lead :: rest) 0 = ([lead], zeroed rest) := by
  simp [placed]

/-- Whether a decimal is laid out without an exponent. -/
def Decimal.IsPlain (d : Decimal) : Prop :=
  -3 ≤ d.point ∧ d.point < 7

instance (d : Decimal) : Decidable d.IsPlain :=
  inferInstanceAs (Decidable (_ ∧ _))

/-- The exponent that is written behind the digits, if there is one. -/
def Decimal.shownExponent (d : Decimal) : Option Int :=
  if d.IsPlain then none else some d.point

/-- The digits as they stand around the point, the leading one in front of it if an exponent follows. -/
def Decimal.shownDigits (d : Decimal) : List Nat × List Nat :=
  placed d.trimmed.digits (if d.IsPlain then d.point else 0)

lemma render_source (h : d.trimmed.digits ≠ []) :
    Layout.source.render d = decimalText d.negative d.shownDigits.1 d.shownDigits.2 d.shownExponent := by
  have hdigits : (if d.trimmed.digits.isEmpty then [0] else d.trimmed.digits) = d.trimmed.digits := by
    rw [List.isEmpty_eq_false_iff.mpr h, if_neg (by decide)]
  have hplain : (Layout.source.lowest ≤ d.point ∧ d.point < Layout.source.highest) = d.IsPlain := rfl
  simp only [Layout.render, hdigits, hplain, Decimal.shownDigits, Decimal.shownExponent]
  split
  · unfold placed
    split
    · rw [orZero_digitText]
      exact String.append_empty.symm
    · have hzero : "0." = digitText [0] ++ "." := rfl
      rw [hzero, ← String.append_assoc]
      exact String.append_empty.symm
  · obtain ⟨lead, rest, hkept⟩ := List.exists_cons_of_ne_nil h
    have hfraction : (if Layout.source.alwaysFraction then "." ++ orZero (digitText rest)
        else if (digitText rest).isEmpty then "" else "." ++ digitText rest) = "." ++ digitText (zeroed rest) := by
      rw [orZero_digitText]
      rfl
    have hexponent : exponentText (some d.point) = "E" ++ toString d.point := rfl
    rw [hkept, placed_zero, List.tail_cons, hfraction, decimalText, hexponent]
    simp only [String.append_assoc]
    rfl

lemma value_shown (h : d.trimmed.digits ≠ []) :
    (⟨d.negative, d.shownDigits.1 ++ d.shownDigits.2,
      d.shownExponent.getD 0 - d.shownDigits.2.length⟩ : Decimal).value = d.value := by
  have hpoint : d.shownExponent.getD 0 + (if d.IsPlain then d.point else 0) = d.point := by
    unfold Decimal.shownExponent
    split
    · exact Int.zero_add _
    · exact Int.add_zero _
  have hexponent : d.point + 1 - d.trimmed.digits.length = d.trimmed.exponent := by
    rw [← point_trimmed, Decimal.point]
    omega
  rw [Decimal.shownDigits, value_placed h, hpoint, hexponent]
  exact value_trimmed d

/-- How a number is to be laid out: digits on either side of the point, without zeros that could be left out at the
end, and an exponent of the leading digit if the number is below a thousandth or not below ten million. -/
structure IsLaidOut (v : ℚ) (whole fraction : List Nat) (exponent : Option Int) : Prop where
  whole_ne_nil : whole ≠ []
  whole_lt : ∀ digit ∈ whole, digit < 10
  fraction_lt : ∀ digit ∈ fraction, digit < 10
  fraction_ends : fraction = [0] ∨ ∃ digit, fraction.getLast? = some digit ∧ digit ≠ 0
  plain_iff : exponent = none ↔ (10 : ℚ) ^ (-3 : Int) ≤ |v| ∧ |v| < 10 ^ (7 : Int)
  scientific : ∀ e, exponent = some e →
    (∃ lead, whole = [lead] ∧ lead ≠ 0) ∧ (10 : ℚ) ^ e ≤ |v| ∧ |v| < 10 ^ (e + 1)

lemma isLaidOut_shown (h : d.IsNormal) : IsLaidOut d.value d.shownDigits.1 d.shownDigits.2 d.shownExponent := by
  obtain ⟨lead, rest, hkept, hlead⟩ := h.trimmed.leading
  have hne := h.trimmed.digits_ne_nil
  obtain ⟨last, hlast, hlastNe⟩ := getLast?_trimmed hne
  have hlt := placed_lt h.trimmed.digits_lt (if d.IsPlain then d.point else 0)
  have hplain : d.IsPlain ↔ (10 : ℚ) ^ (-3 : Int) ≤ |d.value| ∧ |d.value| < 10 ^ (7 : Int) := by
    rw [h.pow_le_abs_value_iff, ← not_le, h.pow_le_abs_value_iff, not_le]
    rfl
  refine ⟨placed_ne_nil hne _, hlt.1, hlt.2, placed_ends hlast hlastNe _, ?_, ?_⟩
  · rw [← hplain, Decimal.shownExponent, ite_eq_left_iff]
    simp
  · intro e he
    rw [Decimal.shownExponent, ite_eq_iff] at he
    obtain ⟨-, he⟩ | ⟨hexponent, he⟩ := he
    · cases he
    · obtain rfl := Option.some.inj he
      refine ⟨⟨lead, ?_, hlead⟩, h.value_bounds⟩
      rw [Decimal.shownDigits, if_neg hexponent, hkept, placed_zero]

/-- A number other than zero that is read from a text is laid out by its size, and the layout is read back as the same
number. -/
theorem layout_preserves_value {text : String} (hread : decimal? text = some d) (hd : d.value ≠ 0) :
    ∃ whole fraction exponent, Layout.source.render d = decimalText d.negative whole fraction exponent ∧
      IsLaidOut d.value whole fraction exponent ∧
      ∃ back, decimal? (Layout.source.render d) = some back ∧ back.value = d.value := by
  have hnormal := isNormal_of_decimal? hread hd
  have hshown := isLaidOut_shown hnormal
  have hne := hnormal.trimmed.digits_ne_nil
  have hrender := render_source hne
  have hback := decimal?_decimalText d.negative hshown.whole_ne_nil hshown.whole_lt hshown.fraction_lt d.shownExponent
  refine ⟨_, _, _, hrender, hshown, _, hrender ▸ hback, ?_⟩
  rw [value_unpadded, value_shown hne]

theorem layout_preserves_value_of_small :
    decimal? "-0.00012300" = some ⟨true, [1, 2, 3, 0, 0], -8⟩ ∧
      (⟨true, [1, 2, 3, 0, 0], -8⟩ : Decimal).value ≠ 0 ∧
      ∃ whole fraction exponent,
        Layout.source.render ⟨true, [1, 2, 3, 0, 0], -8⟩ = decimalText true whole fraction exponent ∧
        IsLaidOut (⟨true, [1, 2, 3, 0, 0], -8⟩ : Decimal).value whole fraction exponent ∧
        ∃ back, decimal? (Layout.source.render ⟨true, [1, 2, 3, 0, 0], -8⟩) = some back ∧
          back.value = (⟨true, [1, 2, 3, 0, 0], -8⟩ : Decimal).value := by
  have hread : decimal? "-0.00012300" = some ⟨true, [1, 2, 3, 0, 0], -8⟩ := by decide
  have hvalue : (⟨true, [1, 2, 3, 0, 0], -8⟩ : Decimal).value ≠ 0 := by
    norm_num [Decimal.value, Decimal.significand]
  exact ⟨hread, hvalue, layout_preserves_value hread hvalue⟩

example : Layout.source.render ⟨true, [1, 2, 3, 0, 0], -8⟩ = "-1.23E-4" := by
  decide

end PredicateTrace.Number
