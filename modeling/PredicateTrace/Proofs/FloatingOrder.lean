import PredicateTrace.Proofs.SingleRounding

/-!
# The order of floating numbers

Finite doubles compare as the numbers that they denote.
-/

namespace PredicateTrace.Number

section Order

open Float.Model Float.Model.UnpackedFloat

lemma toNat_unpackExponent (b : BitVec 64) :
    (@unpackExponent Format.binary64 b).toNat = b.toNat / 2 ^ 52 % 2 ^ 11 := by
  rw [← Nat.shiftRight_eq_div_pow]
  simp [unpackExponent]

lemma toNat_unpackMantissa (b : BitVec 64) :
    (@unpackMantissa Format.binary64 b).toNat = b.toNat % 2 ^ 52 := by
  simp [unpackMantissa]

lemma toNat_one_append (m : BitVec 52) : (1#1 ++ m).toNat = 2 ^ 52 + m.toNat := by
  have hor := Nat.two_pow_add_eq_or_of_lt m.isLt 1
  rw [BitVec.toNat_append, show (1#1).toNat <<< 52 = 2 ^ 52 * 1 from rfl, ← hor, Nat.mul_one]

/-- The sign that a sign bit stands for. -/
def signOf (negative : Bool) : Sign :=
  if negative then .negative else .positive

lemma ofBitVec_unpackSign (b : BitVec 64) :
    Sign.ofBitVec (@unpackSign Format.binary64 b) = signOf (decide (2 ^ 63 ≤ b.toNat)) := by
  have hbit : (@unpackSign Format.binary64 b).toNat = b.toNat / 2 ^ 63 % 2 := by
    rw [← Nat.shiftRight_eq_div_pow]
    simp [unpackSign]
  have hlt := b.isLt
  have hzero : @unpackSign Format.binary64 b = 0#1 ↔ ¬2 ^ 63 ≤ b.toNat := by
    rw [← BitVec.toNat_inj, hbit]
    simp
    omega
  by_cases hsign : 2 ^ 63 ≤ b.toNat
  · rw [Sign.ofBitVec, if_neg (mt hzero.mp (not_not.mpr hsign)), decide_eq_true hsign]
    rfl
  · rw [Sign.ofBitVec, if_pos (hzero.mpr hsign), decide_eq_false hsign]
    rfl

section Unpacking

variable {b : BitVec 64}

/-- Bits without an exponent are those of zero, or of a number next to it. -/
lemma unpack_subnormal (hzero : b.toNat / 2 ^ 52 % 2 ^ 11 = 0) :
    (b.toNat % 2 ^ 52 = 0 ∧ UnpackedFloat.unpack Format.binary64 b = .zero (signOf (decide (2 ^ 63 ≤ b.toNat)))) ∨
      ∃ hs : 0 < b.toNat % 2 ^ 52,
        UnpackedFloat.unpack Format.binary64 b = .finite (signOf (decide (2 ^ 63 ≤ b.toNat))) _ (-1074) hs := by
  have hexponent : @unpackExponent Format.binary64 b = 0#11 :=
    BitVec.eq_of_toNat_eq ((toNat_unpackExponent b).trans hzero)
  have hmantissa := toNat_unpackMantissa b
  unfold UnpackedFloat.unpack
  dsimp only
  rw [ofBitVec_unpackSign, if_neg (by rw [hexponent]; decide), if_pos hexponent]
  split
  · next hmantissa0 =>
    rw [hmantissa0] at hmantissa
    exact Or.inl ⟨hmantissa.symm, rfl⟩
  · next hmantissa0 =>
    have hpos : 0 < b.toNat % 2 ^ 52 := by
      rw [← hmantissa]
      exact Nat.pos_of_ne_zero fun h => hmantissa0 (BitVec.eq_of_toNat_eq h)
    refine Or.inr ⟨hpos, ?_⟩
    rw [UnpackedFloat.finite.injEq, hexponent]
    exact ⟨rfl, hmantissa, rfl⟩

/-- Other bits of finite numbers have a leading digit that is not written. -/
lemma unpack_normal (hnormal : b.toNat / 2 ^ 52 % 2 ^ 11 ≠ 0) (hfinite : b.toNat / 2 ^ 52 % 2 ^ 11 ≠ 2047) :
    ∃ hs, UnpackedFloat.unpack Format.binary64 b = .finite (signOf (decide (2 ^ 63 ≤ b.toNat)))
      (b.toNat % 2 ^ 52 + 2 ^ 52) (Int.ofNat (b.toNat / 2 ^ 52 % 2 ^ 11) - 1075) hs := by
  have hexponent := toNat_unpackExponent b
  refine ⟨by omega, ?_⟩
  unfold UnpackedFloat.unpack
  dsimp only
  rw [ofBitVec_unpackSign, if_neg fun hones => hfinite (by rw [← hexponent, hones]; rfl),
    if_neg fun hzero => hnormal (by rw [← hexponent, hzero]; rfl), UnpackedFloat.finite.injEq]
  refine ⟨rfl, ?_, ?_⟩
  · rw [toNat_one_append, toNat_unpackMantissa, Nat.add_comm]
  · rw [hexponent]
    rfl

end Unpacking

/-- A significand and an exponent as those of a double: all digits are used, but for the numbers next to
zero. -/
structure Canonical (s : ℕ) (t : ℤ) : Prop where
  digits : s < 2 ^ 53
  minExponent_le : -1074 ≤ t
  subnormal : s < 2 ^ 52 → t = -1074

/-- The two ways of taking a double apart agree on finite ones. -/
lemma unpack_of_parts {x : Float} {negative : Bool} {s : ℕ} {t : ℤ} (h : parts x = .finite negative s t) :
    Canonical s t ∧ ((s = 0 ∧ x.toModel.unpack = .zero (signOf negative)) ∨
      ∃ hs : 0 < s, x.toModel.unpack = .finite (signOf negative) s t hs) := by
  have hunpack : x.toModel.unpack = UnpackedFloat.unpack Format.binary64 x.toBits.toBitVec := rfl
  rw [hunpack]
  simp only [parts] at h
  split at h
  · split at h <;> cases h
  · next hfinite =>
    split at h
    · next hzero =>
      obtain ⟨rfl, rfl, rfl⟩ := Parts.finite.inj h
      exact ⟨⟨by omega, le_rfl, fun _ => rfl⟩, unpack_subnormal hzero⟩
    · next hnormal =>
      obtain ⟨rfl, rfl, rfl⟩ := Parts.finite.inj h
      have hpositive : 0 < x.toBits.toNat / 2 ^ 52 % 2 ^ 11 := Nat.pos_of_ne_zero hnormal
      exact ⟨⟨by omega, by rw [Int.ofNat_eq_natCast]; omega, fun _ => by omega⟩,
        Or.inr (unpack_normal hnormal hfinite)⟩

variable {s s' : ℕ} {t t' : ℤ}

lemma Canonical.lt_of_exponent_lt (h : Canonical s t) (h' : Canonical s' t') (hlt : t < t') :
    (s : ℚ) * 2 ^ t < s' * 2 ^ t' := by
  have hdigits : 2 ^ 52 ≤ s' := by
    by_contra hsmall
    have hmin := h'.subnormal (by omega)
    have hle := h.minExponent_le
    omega
  have hs : (s : ℚ) < 2 ^ (53 : ℤ) := by exact_mod_cast h.digits
  have hs' : (2 : ℚ) ^ (52 : ℤ) ≤ s' := by exact_mod_cast hdigits
  calc
    (s : ℚ) * 2 ^ t < 2 ^ (53 : ℤ) * 2 ^ t := mul_lt_mul_of_pos_right hs (by positivity)
    _ = 2 ^ (53 + t) := (zpow_add₀ (by norm_num) _ _).symm
    _ ≤ 2 ^ (52 + t') := zpow_le_zpow_right₀ (by norm_num) (by omega)
    _ = 2 ^ (52 : ℤ) * 2 ^ t' := zpow_add₀ (by norm_num) _ _
    _ ≤ s' * 2 ^ t' := mul_le_mul_of_nonneg_right hs' (by positivity)

/-- Numbers that use all digits are in the order of their exponents, and of their significands next. -/
lemma Canonical.compares (h : Canonical s t) (h' : Canonical s' t') :
    ((compare t t').then (compare s s')).Compares ((s : ℚ) * 2 ^ t) (s' * 2 ^ t') := by
  obtain hlt | rfl | hgt := lt_trichotomy t t'
  · rw [compare_lt_iff_lt.mpr hlt]
    exact h.lt_of_exponent_lt h' hlt
  · have hpos : (0 : ℚ) < 2 ^ t := by positivity
    rw [compare_eq_iff_eq.mpr rfl, Ordering.eq_then]
    obtain hlt | rfl | hgt := lt_trichotomy s s'
    · rw [compare_lt_iff_lt.mpr hlt]
      exact mul_lt_mul_of_pos_right (Nat.cast_lt.mpr hlt) hpos
    · rw [compare_eq_iff_eq.mpr rfl]
      exact rfl
    · rw [compare_gt_iff_gt.mpr hgt]
      exact mul_lt_mul_of_pos_right (Nat.cast_lt.mpr hgt) hpos
  · rw [compare_gt_iff_gt.mpr hgt]
    exact h'.lt_of_exponent_lt h hgt

/-- A magnitude with its sign. -/
def signed (negative : Bool) (magnitude : ℚ) : ℚ :=
  if negative then -magnitude else magnitude

lemma compares_neg {o : Ordering} {x y : ℚ} (h : o.Compares x y) : o.swap.Compares (-x) (-y) := by
  cases o with
  | lt => exact neg_lt_neg h
  | eq => exact congrArg Neg.neg h
  | gt => exact neg_lt_neg h

/-- Finite doubles compare as the numbers that they denote. -/
lemma compares_of_denotes {x y : Float} {b c : Bool} {q r : ℚ} (hx : Denotes x b q) (hy : Denotes y c r) :
    ∃ o, x.toModel.unpack.compare y.toModel.unpack = some o ∧ o.Compares (signed b q) (signed c r) := by
  obtain ⟨s, t, hx, rfl⟩ := hx
  obtain ⟨s', t', hy, rfl⟩ := hy
  obtain ⟨hcanonical, ⟨rfl, hux⟩ | ⟨hs, hux⟩⟩ := unpack_of_parts hx <;>
    obtain ⟨hcanonical', ⟨rfl, huy⟩ | ⟨hs', huy⟩⟩ := unpack_of_parts hy <;> rw [hux, huy]
  · exact ⟨.eq, rfl, by simp [signed]⟩
  · have hpos : (0 : ℚ) < s' * 2 ^ t' := by positivity
    cases c
    · exact ⟨.lt, rfl, by simpa [signed] using hpos⟩
    · exact ⟨.gt, rfl, by simpa [signed] using hpos⟩
  · have hpos : (0 : ℚ) < s * 2 ^ t := by positivity
    cases b
    · exact ⟨.gt, rfl, by simpa [signed] using hpos⟩
    · exact ⟨.lt, rfl, by simpa [signed] using hpos⟩
  · have hpos : (0 : ℚ) < s * 2 ^ t := by positivity
    have hpos' : (0 : ℚ) < s' * 2 ^ t' := by positivity
    have hcompares := hcanonical.compares hcanonical'
    cases b <;> cases c
    · exact ⟨_, rfl, hcompares⟩
    · exact ⟨.gt, rfl, (neg_neg_of_pos hpos').trans hpos⟩
    · exact ⟨.lt, rfl, (neg_neg_of_pos hpos).trans hpos'⟩
    · exact ⟨_, rfl, compares_neg hcompares⟩

variable {x y : Float} {b c : Bool} {q r z : ℚ}

lemma lt_iff_of_denotes (hx : Denotes x b q) (hy : Denotes y c r) : x < y ↔ signed b q < signed c r := by
  obtain ⟨o, ho, hcompares⟩ := compares_of_denotes hx hy
  have hmodel : x < y ↔ x.toModel.unpack.lt y.toModel.unpack = true := decide_eq_true_iff
  rw [hmodel, ← hcompares.eq_lt, UnpackedFloat.lt, ho]
  cases o <;> decide

lemma le_iff_of_denotes (hx : Denotes x b q) (hy : Denotes y c r) : x ≤ y ↔ signed b q ≤ signed c r := by
  obtain ⟨o, ho, hcompares⟩ := compares_of_denotes hx hy
  have hmodel : x ≤ y ↔ x.toModel.unpack.le y.toModel.unpack = true := decide_eq_true_iff
  have hgt : o = .gt ↔ signed c r < signed b q := hcompares.eq_gt
  rw [hmodel, ← not_lt, ← hgt, UnpackedFloat.le, ho]
  cases o <;> decide

lemma beq_iff_of_denotes (hx : Denotes x b q) (hy : Denotes y c r) : (x == y) = true ↔ signed b q = signed c r := by
  obtain ⟨o, ho, hcompares⟩ := compares_of_denotes hx hy
  have hmodel : (x == y) = x.toModel.unpack.beq y.toModel.unpack := rfl
  rw [hmodel, ← hcompares.eq_eq, UnpackedFloat.beq, ho]
  cases o <;> decide

/-- Two doubles on the same side of a third one stand in the same relations to it. -/
lemma floatRelation_congr {w : Float} {d : Bool} (hx : Denotes x b q) (hy : Denotes y c r) (hw : Denotes w d z)
    (hlt : signed b q < signed d z ↔ signed c r < signed d z) (hgt : signed d z < signed b q ↔ signed d z < signed c r)
    (op : CompareOperator) : Value.floatRelation op x w = Value.floatRelation op y w ∧
      Value.floatRelation op w x = Value.floatRelation op w y := by
  have heq : signed b q = signed d z ↔ signed c r = signed d z := by
    rw [le_antisymm_iff, le_antisymm_iff, ← not_lt, ← not_lt, ← not_lt, ← not_lt, hlt, hgt]
  have heq' : signed d z = signed b q ↔ signed d z = signed c r := by
    rw [eq_comm, heq, eq_comm]
  have hle : signed b q ≤ signed d z ↔ signed c r ≤ signed d z := by rw [← not_lt, ← not_lt, hgt]
  have hge : signed d z ≤ signed b q ↔ signed d z ≤ signed c r := by rw [← not_lt, ← not_lt, hlt]
  have hbeq : (x == w) = (y == w) := by
    rw [Bool.eq_iff_iff, beq_iff_of_denotes hx hw, beq_iff_of_denotes hy hw, heq]
  have hbeq' : (w == x) = (w == y) := by
    rw [Bool.eq_iff_iff, beq_iff_of_denotes hw hx, beq_iff_of_denotes hw hy, heq']
  cases op <;> simp only [Value.floatRelation, hbeq, hbeq', lt_iff_of_denotes hx hw, lt_iff_of_denotes hy hw,
    lt_iff_of_denotes hw hx, lt_iff_of_denotes hw hy, le_iff_of_denotes hx hw, le_iff_of_denotes hy hw,
    le_iff_of_denotes hw hx, le_iff_of_denotes hw hy, hlt, hgt, hle, hge, and_self]

end Order

/-! ### Integers beside singles -/

/-- A number rounded to fewer digits is on the same side of a number that has so few of them, unless it is
rounded onto that number. -/
lemma roundDigits_lt_iff {p q n : ℕ} (hp : 1 < p) (hlt : p < q) {c : ℚ} (hc : IsShort p c)
    (hne : c ≠ roundDigits p n) :
    ((roundDigits q n : ℚ) < c ↔ (roundDigits p n : ℚ) < c) ∧ (c < roundDigits q n ↔ c < roundDigits p n) := by
  have hcoarse := roundsTo_roundDigits hp n
  have hfine := roundsTo_roundDigits (by omega : 1 < q) n
  have hnearc := hcoarse.nearest c hc
  have hnearc' := hfine.nearest c (hc.mono hlt.le)
  have hnear' := hfine.nearest _ (hcoarse.short.mono hlt.le)
  -- halfway between two numbers of few digits only one more is needed
  have htie (h : |(n : ℚ) - c| = |(n : ℚ) - roundDigits p n|) : (roundDigits q n : ℚ) = n := by
    have hshort := (isShort_of_tie hp hc hne h).mono (Nat.succ_le_of_lt hlt)
    exact_mod_cast hfine.eq_of_isShort hshort
  generalize (roundDigits p n : ℚ) = b at *
  generalize (roundDigits q n : ℚ) = a at *
  have hbelow (h : b < c) : a < c := by
    by_contra hac
    have hn : (n : ℚ) < c := by
      by_contra hn
      rw [abs_of_nonneg (by linarith), abs_of_nonneg (by linarith)] at hnearc
      linarith
    have hfar : |(n : ℚ) - a| = a - n := by rw [abs_of_nonpos (by linarith), neg_sub]
    have hdist : |(n : ℚ) - c| = c - n := by rw [abs_of_nonpos (by linarith), neg_sub]
    have heq := htie (le_antisymm (by linarith) hnearc)
    linarith
  have habove (h : c < b) : c < a := by
    by_contra hac
    have hn : c < n := by
      by_contra hn
      rw [abs_of_nonpos (by linarith), abs_of_nonpos (by linarith)] at hnearc
      linarith
    have hfar : |(n : ℚ) - a| = n - a := abs_of_nonneg (by linarith)
    have hdist : |(n : ℚ) - c| = n - c := abs_of_nonneg (by linarith)
    have heq := htie (le_antisymm (by linarith) hnearc)
    linarith
  obtain h | h := lt_or_gt_of_ne hne
  · exact ⟨iff_of_false (habove h).not_gt h.not_gt, iff_of_true (habove h) h⟩
  · exact ⟨iff_of_true (hbelow h) h, iff_of_false (hbelow h).not_gt h.not_gt⟩

/-- The double made of an integer denotes the integer, rounded to 53 digits. -/
lemma denotes_ofInt (n : ℤ) (hn : n.natAbs < 2 ^ 64) :
    Denotes (ofInt n) (decide (n < 0)) (roundDigits 53 n.natAbs) := by
  have hlength : bitLength n.natAbs ≤ 64 := bitLength_le_iff.mpr hn
  obtain rfl | hne := eq_or_ne n 0
  · exact ⟨0, -1074, by decide +kernel, by rw [roundDigits_of_lt (by decide)]; simp⟩
  have hm : n.natAbs ≠ 0 := Int.natAbs_ne_zero.mpr hne
  obtain hsmall | hlarge := Nat.lt_or_ge n.natAbs (2 ^ 53)
  · have hdenotes := denotes_ofParts_exact (e := 0) (decide (n < 0)) hm hsmall (by omega) (by omega)
    rw [roundDigits_of_lt hsmall]
    rwa [zpow_zero, mul_one] at hdenotes
  · have hdigits : 53 < bitLength n.natAbs := lt_bitLength_iff.mpr hlarge
    have hnearest : Format.double.nearest? n.natAbs 0 =
        some (roundHalfEven n.natAbs (bitLength n.natAbs - 53), ((bitLength n.natAbs - 53 : ℕ) : ℤ)) := by
      have hrounded := (neighbours_roundHalfEven (p := 53) (by decide) hlarge).rounded_bounds.2
      have htarget : max ((0 : ℤ) + bitLength n.natAbs - (53 : ℕ)) (-1074) = ((bitLength n.natAbs - 53 : ℕ) : ℤ) := by
        omega
      have hcarry : bitLength (roundHalfEven n.natAbs (bitLength n.natAbs - 53)) ≤ 54 := bitLength_le_iff.mpr (by omega)
      have hcoarse : ¬((bitLength n.natAbs - 53 : ℕ) : ℤ) ≤ 0 := by omega
      simp only [Format.nearest?, Format.double, htarget, if_neg hcoarse, sub_zero, Int.toNat_natCast]
      rw [if_neg (by omega)]
    have hdenotes := denotes_ofParts (decide (n < 0)) hm hnearest
    rw [roundDigits]
    push_cast
    rwa [zpow_natCast] at hdenotes

lemma isShort_zero (p : ℕ) : IsShort p 0 :=
  ⟨0, by rw [abs_zero]; positivity, 0, by simp⟩

/-- A carry leaves a power of two, which has one digit. -/
lemma isShort_carry {r : ℕ} (hr : r ≤ 2 ^ 24) (u : ℤ) : IsShort 24 (r * 2 ^ u) := by
  obtain hlt | rfl := Nat.lt_or_eq_of_le hr
  · exact ⟨r, by rw [Nat.abs_cast]; exact_mod_cast hlt, u, by push_cast; rfl⟩
  · refine ⟨2 ^ 23, by norm_num, u + 1, ?_⟩
    rw [zpow_add_one₀ (by norm_num)]
    push_cast
    ring

lemma Denotes.unique {x : Float} {b c : Bool} {q r : ℚ} (h : Denotes x b q) (h' : Denotes x c r) : q = r := by
  obtain ⟨s, t, hparts, rfl⟩ := h
  obtain ⟨s', t', hparts', rfl⟩ := h'
  obtain ⟨-, rfl, rfl⟩ := Parts.finite.inj (hparts.symm.trans hparts')
  rfl

lemma not_denotes_infinity (negative b : Bool) (q : ℚ) : ¬Denotes (infinity negative) b q := by
  rintro ⟨s, t, hparts, -⟩
  have hinfinite : parts (infinity negative) = .infinite negative := by cases negative <;> decide +kernel
  cases hinfinite.symm.trans hparts

lemma eq_zero_of_nearest? {f : Format} {s : ℕ} {e t : ℤ} (h : f.nearest? 0 e = some (s, t)) : s = 0 := by
  unfold Format.nearest? at h
  dsimp only at h
  obtain ⟨-, hpair⟩ := Option.ite_none_left_eq_some.mp h
  rw [← (Prod.mk.inj (Option.some.inj hpair)).1]
  split
  · exact Nat.zero_mul _
  · simp [roundHalfEven]

lemma eq_zero_of_denotes_ofParts_zero {negative b : Bool} {e : ℤ} {q : ℚ} (h : Denotes (ofParts negative 0 e) b q) :
    q = 0 := by
  cases hnearest : Format.double.nearest? 0 e with
  | none =>
    simp only [ofParts, hnearest] at h
    exact absurd h (not_denotes_infinity negative b q)
  | some rounded =>
    obtain ⟨s, t⟩ := rounded
    obtain rfl := eq_zero_of_nearest? hnearest
    have hparts := @parts_ofBits 0 0 negative (by decide) (by decide)
    simp only [ofParts, hnearest] at h
    exact h.unique ⟨0, -1074, hparts, by simp⟩

/-- A double that rounding to a single gives has no more digits than singles have. -/
lemma isShort_of_toSingle {x : Float} {b : Bool} {q : ℚ} (h : Denotes (toSingle x) b q) : IsShort 24 q := by
  unfold toSingle at h
  split at h
  · next negative s t hparts =>
    split at h
    · exact absurd h (not_denotes_infinity negative b q)
    · next r u hnearest =>
      obtain rfl | hs := Nat.eq_zero_or_pos s
      · obtain rfl := eq_zero_of_nearest? hnearest
        obtain rfl := eq_zero_of_denotes_ofParts_zero h
        exact isShort_zero 24
      · obtain ⟨hle, hmin, hmax, -⟩ := keeps_of_nearest? (by decide) hs.ne' hnearest
        simp only [Format.single] at hle hmin hmax
        obtain rfl | hr := Nat.eq_zero_or_pos r
        · obtain rfl := eq_zero_of_denotes_ofParts_zero h
          exact isShort_zero 24
        · have hlt : r < 2 ^ 53 := Nat.lt_of_le_of_lt hle (by decide)
          obtain rfl := h.unique (denotes_ofParts_exact negative hr.ne' hlt (by omega) (by omega))
          exact isShort_carry hle u
  · next hother =>
    obtain ⟨s, t, hparts, -⟩ := h
    exact absurd hparts (hother b s t)

lemma signed_lt_iff {p q n : ℕ} (hp : 1 < p) (hlt : p < q) {c : ℚ} (hc : IsShort p c) (negative : Bool)
    (hne : c ≠ signed negative (roundDigits p n)) :
    (signed negative (roundDigits q n) < c ↔ signed negative (roundDigits p n) < c) ∧
      (c < signed negative (roundDigits q n) ↔ c < signed negative (roundDigits p n)) := by
  cases negative with
  | false => exact roundDigits_lt_iff hp hlt hc hne
  | true =>
    obtain ⟨hbelow, habove⟩ :=
      roundDigits_lt_iff (q := q) (n := n) hp hlt hc.neg fun h => hne (neg_eq_iff_eq_neg.mp h)
    exact ⟨by simpa [signed, neg_lt] using habove, by simpa [signed, lt_neg] using hbelow⟩

/-- An integer beside a single compares like the single it is rounded to, unless it is rounded onto that one
and differs from it. -/
lemma floatRelation_singleOfInt {n : ℤ} {x y : Float} {b : Bool} {q : ℚ} (hn : n.natAbs < 2 ^ 64) (hx : Denotes x b q)
    (hsingle : x = toSingle y) (honto : (singleOfInt n == x) = true → (ofInt n == x) = true) (op : CompareOperator) :
    Value.floatRelation op (ofInt n) x = Value.floatRelation op (singleOfInt n) x ∧
      Value.floatRelation op x (ofInt n) = Value.floatRelation op x (singleOfInt n) := by
  have hdouble := denotes_ofInt n hn
  have hrounded := denotes_singleOfInt n hn
  rw [beq_iff_of_denotes hrounded hx, beq_iff_of_denotes hdouble hx] at honto
  have hshort : IsShort 24 (signed b q) := by
    have h := isShort_of_toSingle (hsingle ▸ hx)
    cases b
    · exact h
    · exact h.neg
  by_cases heq : signed (decide (n < 0)) (nearestSingle n.natAbs) = signed b q
  · have hexact := (honto heq).trans heq.symm
    exact floatRelation_congr hdouble hrounded hx (by rw [hexact]) (by rw [hexact]) op
  · obtain ⟨hbelow, habove⟩ :=
      signed_lt_iff (p := 24) (q := 53) (n := n.natAbs) (by decide) (by decide) hshort _ (Ne.symm heq)
    exact floatRelation_congr hdouble hrounded hx hbelow habove op

end PredicateTrace.Number
