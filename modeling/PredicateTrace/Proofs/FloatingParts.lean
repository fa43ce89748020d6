import Mathlib
import PredicateTrace.Number.Binary

/-!
# Parts of floating numbers

Numbers that have a place in a binary format are rounded to themselves, and the parts of the double
made of such a number denote the number. A double whose number has a place among the singles is
therefore left as it is when it is rounded to a single.
-/

namespace PredicateTrace.Number

section Rounding

variable {m n s k : Nat} {e t : Int}

lemma bitLength_le_iff : bitLength n ≤ k ↔ n < 2 ^ k := by
  obtain rfl | hn := Nat.eq_zero_or_pos n
  · simp [bitLength]
  · rw [bitLength, if_neg hn.ne']
    exact Nat.log2_lt hn.ne'

lemma lt_bitLength_iff : k < bitLength n ↔ 2 ^ k ≤ n := by
  rw [← Nat.not_le, bitLength_le_iff, Nat.not_lt]

lemma bitLength_mul_two_pow (hn : n ≠ 0) (k : Nat) : bitLength (n * 2 ^ k) = bitLength n + k := by
  have hpos : 0 < 2 ^ k := Nat.two_pow_pos k
  have hlength : 0 < bitLength n := lt_bitLength_iff.mpr (Nat.pos_of_ne_zero hn)
  have hupper : bitLength (n * 2 ^ k) ≤ bitLength n + k := by
    rw [bitLength_le_iff, Nat.pow_add]
    exact Nat.mul_lt_mul_of_pos_right (bitLength_le_iff.mp (Nat.le_refl _)) hpos
  have hlower : bitLength n - 1 + k < bitLength (n * 2 ^ k) := by
    rw [lt_bitLength_iff, Nat.pow_add]
    exact Nat.mul_le_mul_right _ (lt_bitLength_iff.mp (by omega))
  omega

/-- Digits that are zero are dropped without a loss. -/
lemma roundHalfEven_mul_two_pow (n : Nat) (h : s ≤ k) : roundHalfEven (n * 2 ^ k) s = n * 2 ^ (k - s) := by
  have hsplit : n * 2 ^ k = n * 2 ^ (k - s) * 2 ^ s := by
    rw [Nat.mul_assoc, ← Nat.pow_add, Nat.sub_add_cancel h]
  have hpos : 0 < 2 ^ s := Nat.two_pow_pos s
  simp only [roundHalfEven, hsplit, Nat.mul_div_cancel _ hpos, Nat.mul_mod_left]
  rw [if_neg (by omega)]

/-- Rounding away zeros on the right of a number is rounding the number itself. -/
lemma roundHalfEven_scaled (n k j : Nat) : roundHalfEven (n * 2 ^ k) (j + k) = roundHalfEven n j := by
  have hpos : 0 < 2 ^ k := Nat.two_pow_pos k
  have hdiv : n * 2 ^ k / 2 ^ (j + k) = n / 2 ^ j := by
    rw [Nat.pow_add, Nat.mul_div_mul_right _ _ hpos]
  have hmod : n * 2 ^ k % 2 ^ (j + k) = n % 2 ^ j * 2 ^ k := by
    rw [Nat.pow_add, Nat.mul_mod_mul_right]
  have hgt : 2 * (n % 2 ^ j * 2 ^ k) > 2 ^ j * 2 ^ k ↔ 2 * (n % 2 ^ j) > 2 ^ j := by
    rw [← Nat.mul_assoc]
    exact Nat.mul_lt_mul_right hpos
  have heq : 2 * (n % 2 ^ j * 2 ^ k) = 2 ^ j * 2 ^ k ↔ 2 * (n % 2 ^ j) = 2 ^ j := by
    rw [← Nat.mul_assoc]
    exact Nat.mul_left_inj hpos.ne'
  simp only [roundHalfEven, hdiv, hmod]
  simp only [Nat.pow_add, hgt, heq]

/-- `m · 2^e` as a multiple of `2^t`, rounded to a whole number where it is none. -/
lemma rounded_scaled (m k : Nat) (e t : Int) :
    (if t ≤ e - k then m * 2 ^ k * 2 ^ (e - k - t).toNat else roundHalfEven (m * 2 ^ k) (t - (e - k)).toNat) =
      if t ≤ e then m * 2 ^ (e - t).toNat else roundHalfEven m (t - e).toNat := by
  obtain hfine | ⟨hmiddle, hle⟩ | hcoarse : t ≤ e - k ∨ ¬t ≤ e - k ∧ t ≤ e ∨ e < t := by omega
  · rw [if_pos hfine, if_pos (by omega), Nat.mul_assoc, ← Nat.pow_add]
    congr 2
    omega
  · rw [if_neg hmiddle, if_pos hle, roundHalfEven_mul_two_pow m (by omega)]
    congr 2
    omega
  · rw [if_neg (by omega), if_neg (by omega), ← roundHalfEven_scaled m k (t - e).toNat]
    congr 1
    omega

/-- The nearest number of a format depends on the value only, not on how it is written. -/
lemma nearest?_scaled (f : Format) (hm : m ≠ 0) (k : Nat) (e : Int) :
    f.nearest? (m * 2 ^ k) (e - k) = f.nearest? m e := by
  have htarget : e - k + bitLength (m * 2 ^ k) - f.precision = e + bitLength m - f.precision := by
    rw [bitLength_mul_two_pow hm]
    omega
  simp only [Format.nearest?, htarget, rounded_scaled]

/-- A significand and an exponent in the form that a format keeps them in: all digits are used, but for
the numbers next to zero. Rounding up may have carried into one digit more. -/
structure Format.Keeps (f : Format) (s : Nat) (t : Int) : Prop where
  significand_le : s ≤ 2 ^ f.precision
  minExponent_le : f.minExponent ≤ t
  le_overflow : t + bitLength s ≤ f.overflow
  subnormal : s < 2 ^ (f.precision - 1) → t = f.minExponent

lemma le_roundHalfEven (n k : Nat) : n / 2 ^ k ≤ roundHalfEven n k ∧ roundHalfEven n k ≤ n / 2 ^ k + 1 := by
  simp only [roundHalfEven]
  split <;> omega

/-- A multiple of `2^t` that is as fine as `p` digits ask for has no more of them, but for a carry. -/
lemma rounded_le {p : Nat} (ht : e + bitLength m - p ≤ t) :
    (if t ≤ e then m * 2 ^ (e - t).toNat else roundHalfEven m (t - e).toNat) ≤ 2 ^ p := by
  split
  · apply Nat.le_of_lt
    obtain rfl | hm := Nat.eq_zero_or_pos m
    · rw [Nat.zero_mul]
      exact Nat.two_pow_pos p
    · rw [← bitLength_le_iff, bitLength_mul_two_pow hm.ne']
      omega
  · have hlt : m < 2 ^ p * 2 ^ (t - e).toNat := by
      rw [← Nat.pow_add, ← bitLength_le_iff]
      omega
    have hquotient := (Nat.div_lt_iff_lt_mul (Nat.two_pow_pos _)).mpr hlt
    have hround := (le_roundHalfEven m (t - e).toNat).2
    omega

/-- A multiple of `2^t` that is no finer than `p` digits ask for has all of them. -/
lemma le_rounded {p : Nat} (hp : 0 < p) (hm : m ≠ 0) (ht : t = e + bitLength m - p) :
    2 ^ (p - 1) ≤ if t ≤ e then m * 2 ^ (e - t).toNat else roundHalfEven m (t - e).toNat := by
  split
  · rw [← lt_bitLength_iff, bitLength_mul_two_pow hm]
    omega
  · have hle : 2 ^ (p - 1) * 2 ^ (t - e).toNat ≤ m := by
      rw [← Nat.pow_add, ← lt_bitLength_iff]
      omega
    have hquotient := (Nat.le_div_iff_mul_le (Nat.two_pow_pos _)).mpr hle
    exact Nat.le_trans hquotient (le_roundHalfEven m (t - e).toNat).1

lemma keeps_of_nearest? {f : Format} (hf : 0 < f.precision) (hm : m ≠ 0) (h : f.nearest? m e = some (s, t)) :
    f.Keeps s t := by
  unfold Format.nearest? at h
  dsimp only at h
  obtain ⟨target, htarget⟩ : ∃ target, max (e + bitLength m - f.precision) f.minExponent = target := ⟨_, rfl⟩
  rw [htarget] at h
  obtain ⟨hoverflow, hpair⟩ := Option.ite_none_left_eq_some.mp h
  obtain ⟨rfl, rfl⟩ := Prod.mk.inj (Option.some.inj hpair)
  refine ⟨rounded_le (by omega), by omega, Int.not_lt.mp hoverflow, fun hsmall => ?_⟩
  by_contra hother
  have hdigits := le_rounded (e := e) (t := target) hf hm (by omega)
  omega

/-- A number that has a place in the format is nearest to itself. -/
lemma nearest?_exact {f : Format} (hm : m ≠ 0) (hlt : m < 2 ^ f.precision) (hmin : f.minExponent ≤ e)
    (hmax : e + bitLength m ≤ f.overflow) :
    ∃ t, t ≤ e ∧ f.nearest? m e = some (m * 2 ^ (e - t).toNat, t) ∧ m * 2 ^ (e - t).toNat < 2 ^ f.precision := by
  obtain ⟨t, ht⟩ : ∃ t, max (e + bitLength m - f.precision) f.minExponent = t := ⟨_, rfl⟩
  have hlength : bitLength m ≤ f.precision := bitLength_le_iff.mpr hlt
  have hle : t ≤ e := by omega
  have hrounded : bitLength (m * 2 ^ (e - t).toNat) = bitLength m + (e - t).toNat :=
    bitLength_mul_two_pow hm _
  refine ⟨t, hle, ?_, ?_⟩
  · simp only [Format.nearest?, ht]
    rw [if_pos hle, if_neg (by omega)]
  · rw [← bitLength_le_iff]
    omega

end Rounding

/-! ### Bits of a double -/

variable {a : UInt64} {biased fraction m s : Nat} {e t : Int}

lemma toBits_ofBits (ha : a.toNat / 2 ^ 52 % 2 ^ 11 ≠ 2047) : (Float.ofBits a).toBits = a := by
  apply UInt64.eq_of_toBitVec_eq
  refine (@Float.Model.UnpackedFloat.pack_unpack Float.Model.Format.binary64 a.toBitVec (by decide)).trans
    (if_neg fun hnan => ha ?_)
  have hexponent := congrArg BitVec.toNat (of_decide_eq_true hnan).1
  rw [← Nat.shiftRight_eq_div_pow]
  simpa [Float.Model.UnpackedFloat.unpackExponent] using hexponent

/-- The number that a sign, an exponent and the digits behind the first one make up. -/
lemma parts_ofBits (negative : Bool) (hbiased : biased < 2047) (hfraction : fraction < 2 ^ 52) :
    parts (Float.ofBits (UInt64.ofNat ((if negative then 2 ^ 63 else 0) + biased * 2 ^ 52 + fraction))) =
      if biased = 0 then .finite negative fraction (-1074)
      else .finite negative (fraction + 2 ^ 52) (Int.ofNat biased - 1075) := by
  generalize hbits : (if negative then 2 ^ 63 else 0) + biased * 2 ^ 52 + fraction = bits
  have hlt : bits < 2 ^ 64 := by
    cases negative <;> simp at hbits <;> omega
  have hword : (UInt64.ofNat bits).toNat = bits := UInt64.toNat_ofNat_of_lt hlt
  have hexponent : bits / 2 ^ 52 % 2 ^ 11 = biased := by
    cases negative <;> simp at hbits <;> omega
  have hdigits : bits % 2 ^ 52 = fraction := by
    cases negative <;> simp at hbits <;> omega
  have hsign : decide (2 ^ 63 ≤ bits) = negative := by
    cases negative <;> simp at hbits ⊢ <;> omega
  simp only [parts]
  rw [toBits_ofBits (by rw [hword, hexponent]; omega)]
  simp only [hword, hexponent, hdigits, hsign]
  rw [if_neg hbiased.ne]

/-- The parts of a double are those that the double format keeps. -/
lemma parts_ofParts (negative : Bool) (h : Format.double.nearest? m e = some (s, t)) (hm : m ≠ 0) (hlt : s < 2 ^ 53) :
    parts (ofParts negative m e) = .finite negative s t := by
  obtain ⟨-, hmin, hmax, hsubnormal⟩ := keeps_of_nearest? (f := .double) (by decide) hm h
  simp only [Format.double] at hmin hmax hsubnormal
  simp only [ofParts, h]
  split
  · next hsmall =>
    obtain rfl := hsubnormal hsmall
    have hparts := @parts_ofBits 0 _ negative (by decide) hsmall
    rw [Nat.zero_mul, Nat.add_zero, if_pos rfl] at hparts
    exact hparts
  · next hlarge =>
    have hlength : 52 < bitLength s := lt_bitLength_iff.mpr (by omega)
    have hfraction : s - 2 ^ 52 + 2 ^ 52 = s := by omega
    have hword : (t + 1075).toNat * 2 ^ 52 + (s - 2 ^ 52) = (t + 1074).toNat * 2 ^ 52 + s := by omega
    have hexponent : Int.ofNat (t + 1075).toNat - 1075 = t := by
      rw [Int.ofNat_eq_natCast]
      omega
    have hparts := @parts_ofBits (t + 1075).toNat (s - 2 ^ 52) negative (by omega) (by omega)
    have hnormal : ¬(t + 1075).toNat = 0 := by omega
    rw [if_neg hnormal, hfraction, hexponent, Nat.add_assoc, hword, ← Nat.add_assoc] at hparts
    exact hparts

/-- A carry makes the first double of the next power of two. -/
lemma parts_ofParts_carry (negative : Bool) (h : Format.double.nearest? m e = some (2 ^ 53, t)) (hm : m ≠ 0) :
    parts (ofParts negative m e) = .finite negative (2 ^ 52) (t + 1) := by
  obtain ⟨-, hmin, hmax, -⟩ := keeps_of_nearest? (f := .double) (by decide) hm h
  have hlength : bitLength (2 ^ 53) = 54 := by decide
  simp only [Format.double, hlength] at hmin hmax
  have hword : (t + 1076).toNat * 2 ^ 52 + 0 = (t + 1074).toNat * 2 ^ 52 + 2 ^ 53 := by omega
  have hexponent : Int.ofNat (t + 1076).toNat - 1075 = t + 1 := by
    rw [Int.ofNat_eq_natCast]
    omega
  have hparts := @parts_ofBits (t + 1076).toNat 0 negative (by omega) (by decide)
  have hnormal : ¬(t + 1076).toNat = 0 := by omega
  rw [if_neg hnormal, hexponent, Nat.add_assoc, hword, ← Nat.add_assoc, Nat.zero_add] at hparts
  simp only [ofParts, h]
  rw [if_neg (by decide)]
  exact hparts

/-- A double is finite and has a sign and a magnitude. -/
def Denotes (x : Float) (negative : Bool) (magnitude : ℚ) : Prop :=
  ∃ s t, parts x = .finite negative s t ∧ (s : ℚ) * 2 ^ t = magnitude

lemma mul_two_zpow_of_le (m : Nat) (h : t ≤ e) : ((m * 2 ^ (e - t).toNat : Nat) : ℚ) * 2 ^ t = m * 2 ^ e := by
  have hexponent : ((e - t).toNat : ℤ) + t = e := by omega
  push_cast
  rw [mul_assoc, ← zpow_natCast, ← zpow_add₀ (by norm_num), hexponent]

/-- The double that is made of a number denotes what the number is rounded to. -/
lemma denotes_ofParts (negative : Bool) (hm : m ≠ 0) (h : Format.double.nearest? m e = some (s, t)) :
    Denotes (ofParts negative m e) negative (s * 2 ^ t) := by
  obtain hlt | rfl := Nat.lt_or_eq_of_le (keeps_of_nearest? (f := .double) (by decide) hm h).significand_le
  · exact ⟨s, t, parts_ofParts negative h hm hlt, rfl⟩
  · refine ⟨2 ^ 52, t + 1, parts_ofParts_carry negative h hm, ?_⟩
    rw [zpow_add_one₀ (by norm_num)]
    push_cast [Format.double]
    ring

/-- The double depends on the value only. -/
lemma ofParts_scaled (negative : Bool) (hm : m ≠ 0) (k : Nat) (e : Int) :
    ofParts negative (m * 2 ^ k) (e - k) = ofParts negative m e := by
  simp only [ofParts, nearest?_scaled _ hm]

/-- The parts of a number with at most 53 digits that is not beyond the ends of the double format. -/
lemma parts_ofParts_exact (negative : Bool) (hm : m ≠ 0) (hlt : m < 2 ^ 53) (hmin : -1074 ≤ e)
    (hmax : e + bitLength m ≤ 1024) :
    ∃ t, t ≤ e ∧ parts (ofParts negative m e) = .finite negative (m * 2 ^ (e - t).toNat) t := by
  obtain ⟨t, hle, hnearest, hdigits⟩ := nearest?_exact (f := .double) hm hlt hmin hmax
  exact ⟨t, hle, parts_ofParts negative hnearest hm hdigits⟩

lemma denotes_ofParts_exact (negative : Bool) (hm : m ≠ 0) (hlt : m < 2 ^ 53) (hmin : -1074 ≤ e)
    (hmax : e + bitLength m ≤ 1024) : Denotes (ofParts negative m e) negative (m * 2 ^ e) := by
  obtain ⟨t, hle, hparts⟩ := parts_ofParts_exact negative hm hlt hmin hmax
  exact ⟨_, t, hparts, mul_two_zpow_of_le m hle⟩

/-- A double that has the single format is not rounded. -/
theorem toSingle_ofParts (negative : Bool) (hm : m ≠ 0) (hlt : m < 2 ^ 24) (hmin : -149 ≤ e)
    (hmax : e + bitLength m ≤ 128) : toSingle (ofParts negative m e) = ofParts negative m e := by
  obtain ⟨t, hle, hparts⟩ :=
    parts_ofParts_exact (e := e) negative hm (Nat.lt_trans hlt (by decide)) (by omega) (by omega)
  obtain ⟨r, hr, hnearest, -⟩ := nearest?_exact (f := .single) hm hlt hmin hmax
  have hsingle : Format.single.nearest? (m * 2 ^ (e - t).toNat) t = Format.single.nearest? m e := by
    rw [← nearest?_scaled _ hm (e - t).toNat e]
    congr 1
    omega
  have hdouble : ofParts negative (m * 2 ^ (e - r).toNat) r = ofParts negative m e := by
    rw [← ofParts_scaled negative hm (e - r).toNat e]
    congr 1
    omega
  simp only [toSingle, hparts, hsingle, hnearest]
  exact hdouble

end PredicateTrace.Number
