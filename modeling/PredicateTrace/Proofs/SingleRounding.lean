import PredicateTrace.Proofs.FloatingParts
import PredicateTrace.Value.Arithmetic

/-!
# Integers as singles

A single has 24 significant digits, so that most integers have no single of their own. The one that an
integer is converted to is the nearest, and between two that are equally near the one with an even
significand. The neighbours of an integer are the two multiples of the last place that the quotient of
the rounding lies between; the upper one may begin the next power of two, and then has a digit less.

Nothing of this depends on the number of digits, so that it is proved for all of them.
-/

namespace PredicateTrace.Number

/-- A number has at most `p` significant binary digits. -/
def IsShort (p : ℕ) (x : ℚ) : Prop :=
  ∃ s : ℤ, |s| < 2 ^ p ∧ ∃ j : ℤ, x = s * 2 ^ j

/-- No number with at most `p` significant digits is nearer to `n` than `m`, which is one of them. When
there is another one as near, the `p` digits of `m` are an even number. -/
structure RoundsTo (p n m : ℕ) : Prop where
  short : IsShort p m
  nearest : ∀ c, IsShort p c → |(n : ℚ) - m| ≤ |n - c|
  tie_even : ∀ c, IsShort p c → c ≠ m → |(n : ℚ) - c| = |(n : ℚ) - m| →
    ∃ s k : ℕ, m = s * 2 ^ k ∧ 2 ^ (p - 1) ≤ s ∧ s < 2 ^ p ∧ Even s

variable {p n m q k : ℕ}

lemma IsShort.mono {x : ℚ} (h : IsShort p x) (hle : p ≤ q) : IsShort q x := by
  obtain ⟨s, hs, j, hx⟩ := h
  exact ⟨s, hs.trans_le (pow_le_pow_right₀ (by norm_num) hle), j, hx⟩

lemma IsShort.neg {x : ℚ} (h : IsShort p x) : IsShort p (-x) := by
  obtain ⟨s, hs, j, rfl⟩ := h
  exact ⟨-s, by rwa [abs_neg], j, by push_cast; ring⟩

lemma RoundsTo.eq_of_isShort (h : RoundsTo p n m) (hn : IsShort p n) : m = n := by
  have hdistance := h.nearest n hn
  rw [sub_self, abs_zero] at hdistance
  have hzero := abs_eq_zero.mp (le_antisymm hdistance (abs_nonneg _))
  exact_mod_cast (sub_eq_zero.mp hzero).symm

lemma roundsTo_self (hn : IsShort p n) : RoundsTo p n n where
  short := hn
  nearest c _ := by
    rw [sub_self, abs_zero]
    exact abs_nonneg _
  tie_even c _ hne htie := by
    rw [sub_self, abs_zero, abs_eq_zero, sub_eq_zero] at htie
    exact absurd htie.symm hne

lemma isShort_mul_two_pow (hq : q < 2 ^ p) (k : ℕ) : IsShort p (q * 2 ^ k : ℕ) :=
  ⟨q, by rw [Nat.abs_cast]; exact_mod_cast hq, k, by push_cast; rfl⟩

/-- Between two multiples of a power of two that have `p` digits no number has so few of them. -/
lemma IsShort.le_or_le {c : ℚ} (hc : IsShort p c) (hp : 0 < p) (hq : 2 ^ (p - 1) ≤ q) (k : ℕ) :
    c ≤ (q * 2 ^ k : ℕ) ∨ ((q + 1) * 2 ^ k : ℕ) ≤ c := by
  obtain ⟨s, hs, j, rfl⟩ := hc
  rw [or_iff_not_imp_left, not_le]
  intro habove
  have htwo : (1 : ℚ) < 2 := by norm_num
  have hexponent : (k : ℤ) ≤ j := by
    have hsignificand : (s : ℚ) < 2 ^ (p : ℤ) := by
      rw [zpow_natCast]
      exact_mod_cast (abs_lt.mp hs).2
    have hquotient : (2 : ℚ) ^ ((p - 1 : ℕ) : ℤ) ≤ q := by
      rw [zpow_natCast]
      exact_mod_cast hq
    have hpower : (2 : ℚ) ^ (((p - 1 : ℕ) : ℤ) + k) < 2 ^ ((p : ℤ) + j) := calc
      (2 : ℚ) ^ (((p - 1 : ℕ) : ℤ) + k) = 2 ^ ((p - 1 : ℕ) : ℤ) * 2 ^ k := by
        rw [zpow_add₀ (by norm_num), zpow_natCast, zpow_natCast]
      _ ≤ q * 2 ^ k := mul_le_mul_of_nonneg_right hquotient (by positivity)
      _ = (q * 2 ^ k : ℕ) := by push_cast; rfl
      _ < s * 2 ^ j := habove
      _ < 2 ^ (p : ℤ) * 2 ^ j := mul_lt_mul_of_pos_right hsignificand (by positivity)
      _ = 2 ^ ((p : ℤ) + j) := (zpow_add₀ (by norm_num) _ _).symm
    have hlt := (zpow_lt_zpow_iff_right₀ htwo).mp hpower
    omega
  obtain ⟨i, rfl⟩ := Int.le.dest hexponent
  have hmultiple : (s : ℚ) * 2 ^ ((k : ℤ) + i) = (s * 2 ^ i : ℤ) * 2 ^ k := by
    rw [zpow_add₀ (by norm_num), zpow_natCast, zpow_natCast]
    push_cast
    ring
  rw [hmultiple] at habove ⊢
  push_cast at habove ⊢
  have hpos : (0 : ℚ) < 2 ^ k := by positivity
  have hlt : (q : ℤ) < s * 2 ^ i := by exact_mod_cast lt_of_mul_lt_mul_right habove hpos.le
  have hle : ((q + 1 : ℤ) : ℚ) ≤ (s * 2 ^ i : ℤ) := by exact_mod_cast hlt
  push_cast at hle
  exact mul_le_mul_of_nonneg_right hle hpos.le

/-- The nearer one of two neighbours is not farther than any number that does not lie between them. -/
lemma distance_of_neighbours {x y c lower upper : ℚ} (hlower : lower ≤ x) (hupper : x ≤ upper)
    (hnear : y = lower ∧ x - lower ≤ upper - x ∨ y = upper ∧ upper - x ≤ x - lower) (hc : c ≤ lower ∨ upper ≤ c) :
    |x - y| ≤ |x - c| ∧ (c ≠ y → |x - c| = |x - y| → x - lower = upper - x) := by
  obtain ⟨rfl, hdist⟩ | ⟨rfl, hdist⟩ := hnear
  · rw [abs_of_nonneg (sub_nonneg.mpr hlower)]
    obtain hc | hc := hc
    · rw [abs_of_nonneg (by linarith)]
      exact ⟨by linarith, fun hne heq => absurd (by linarith) hne⟩
    · rw [abs_of_nonpos (by linarith)]
      exact ⟨by linarith, fun hne heq => by linarith⟩
  · rw [abs_of_nonpos (sub_nonpos.mpr hupper)]
    obtain hc | hc := hc
    · rw [abs_of_nonneg (by linarith)]
      exact ⟨by linarith, fun hne heq => by linarith⟩
    · rw [abs_of_nonpos (by linarith)]
      exact ⟨by linarith, fun hne heq => absurd (by linarith) hne⟩

/-! ### Rounding to a number of digits -/

/-- `n` rounded to `p` significant digits, a tie to the even neighbour. -/
def roundDigits (p n : ℕ) : ℕ :=
  roundHalfEven n (bitLength n - p) * 2 ^ (bitLength n - p)

lemma nearestSingle_eq (n : ℕ) : nearestSingle n = roundDigits 24 n :=
  rfl

lemma roundDigits_of_lt (hn : n < 2 ^ p) : roundDigits p n = n := by
  have hexcess : bitLength n - p = 0 := Nat.sub_eq_zero_of_le (bitLength_le_iff.mpr hn)
  have hround := roundHalfEven_mul_two_pow n (Nat.zero_le 0)
  simpa [roundDigits, hexcess] using hround

/-- The multiples `q · 2^k` and `(q + 1) · 2^k` are the numbers of `p` digits next to `n`, and `r · 2^k` is
the nearer one of them, or of two that are as near the even one. -/
structure Neighbours (p n r q k : ℕ) : Prop where
  le_quotient : 2 ^ (p - 1) ≤ q
  quotient_lt : q < 2 ^ p
  lower_le : q * 2 ^ k ≤ n
  le_upper : n ≤ (q + 1) * 2 ^ k
  nearer : r = q ∧ n - q * 2 ^ k ≤ (q + 1) * 2 ^ k - n ∨ r = q + 1 ∧ (q + 1) * 2 ^ k - n ≤ n - q * 2 ^ k
  even_of_tie : n - q * 2 ^ k = (q + 1) * 2 ^ k - n → Even r

lemma roundHalfEven_cases (n k : ℕ) :
    roundHalfEven n k = n / 2 ^ k ∧ 2 * (n % 2 ^ k) ≤ 2 ^ k ∧ (2 * (n % 2 ^ k) = 2 ^ k → Even (n / 2 ^ k)) ∨
      roundHalfEven n k = n / 2 ^ k + 1 ∧ 2 ^ k ≤ 2 * (n % 2 ^ k) ∧
        (2 * (n % 2 ^ k) = 2 ^ k → Even (n / 2 ^ k + 1)) := by
  simp only [Nat.even_iff, roundHalfEven]
  split <;> omega

lemma neighbours_roundHalfEven (hp : 0 < p) (hn : 2 ^ p ≤ n) :
    Neighbours p n (roundHalfEven n (bitLength n - p)) (n / 2 ^ (bitLength n - p)) (bitLength n - p) := by
  have hlength : p < bitLength n := lt_bitLength_iff.mpr hn
  have hcases := roundHalfEven_cases n (bitLength n - p)
  have hsplit := Nat.div_add_mod' n (2 ^ (bitLength n - p))
  have hmod := Nat.mod_lt n (Nat.two_pow_pos (bitLength n - p))
  have hlo : 2 ^ (p - 1) ≤ n / 2 ^ (bitLength n - p) := by
    rw [Nat.le_div_iff_mul_le (Nat.two_pow_pos _), ← Nat.pow_add, ← lt_bitLength_iff]
    omega
  have hhi : n / 2 ^ (bitLength n - p) < 2 ^ p := by
    rw [Nat.div_lt_iff_lt_mul (Nat.two_pow_pos _), ← Nat.pow_add, ← bitLength_le_iff]
    omega
  generalize bitLength n - p = k at *
  generalize n / 2 ^ k = q at *
  generalize n % 2 ^ k = r at *
  have hup : (q + 1) * 2 ^ k = q * 2 ^ k + 2 ^ k := Nat.succ_mul q _
  obtain ⟨hround, hr, htie⟩ | ⟨hround, hr, htie⟩ := hcases
  · exact ⟨hlo, hhi, by omega, by omega, Or.inl ⟨hround, by omega⟩, fun h => hround ▸ htie (by omega)⟩
  · exact ⟨hlo, hhi, by omega, by omega, Or.inr ⟨hround, by omega⟩, fun h => hround ▸ htie (by omega)⟩

/-- A number of `p` digits, or the first one of `p + 1`, written with `p` digits. -/
lemma exists_significand (hp : 1 < p) (hlo : 2 ^ (p - 1) ≤ q) (hhi : q ≤ 2 ^ p) (k : ℕ) :
    ∃ s j : ℕ, q * 2 ^ k = s * 2 ^ j ∧ 2 ^ (p - 1) ≤ s ∧ s < 2 ^ p ∧ (Even q → Even s) ∧ j ≤ k + 1 := by
  obtain hlt | rfl := Nat.lt_or_eq_of_le hhi
  · exact ⟨q, k, rfl, hlo, hlt, id, Nat.le_succ k⟩
  · have hpower : 2 ^ p = 2 ^ (p - 1) * 2 := by rw [← pow_succ, Nat.sub_add_cancel (by omega)]
    refine ⟨2 ^ (p - 1), k + 1, by rw [hpower]; ring, le_rfl, Nat.pow_lt_pow_right (by decide) (by omega), fun _ => ?_,
      le_rfl⟩
    exact (Nat.even_pow.mpr ⟨even_two, by omega⟩)

variable {r : ℕ}

lemma Neighbours.rounded_bounds (h : Neighbours p n r q k) : 2 ^ (p - 1) ≤ r ∧ r ≤ 2 ^ p := by
  obtain ⟨hlo, hhi, -, -, ⟨rfl, -⟩ | ⟨rfl, -⟩, -⟩ := h <;> omega

/-- No short number is nearer than the rounded one; when another one is as near, `n` lies in the middle. -/
lemma Neighbours.distance (h : Neighbours p n r q k) (hp : 0 < p) {c : ℚ} (hc : IsShort p c) :
    |(n : ℚ) - (r * 2 ^ k : ℕ)| ≤ |n - c| ∧
      (c ≠ (r * 2 ^ k : ℕ) → |(n : ℚ) - c| = |(n : ℚ) - (r * 2 ^ k : ℕ)| → n - q * 2 ^ k = (q + 1) * 2 ^ k - n) := by
  have hbelow : ((n - q * 2 ^ k : ℕ) : ℚ) = n - (q * 2 ^ k : ℕ) := Nat.cast_sub h.lower_le
  have habove : (((q + 1) * 2 ^ k - n : ℕ) : ℚ) = ((q + 1) * 2 ^ k : ℕ) - n := Nat.cast_sub h.le_upper
  have hnear : ((r * 2 ^ k : ℕ) : ℚ) = (q * 2 ^ k : ℕ) ∧ (n : ℚ) - (q * 2 ^ k : ℕ) ≤ ((q + 1) * 2 ^ k : ℕ) - n ∨
      ((r * 2 ^ k : ℕ) : ℚ) = ((q + 1) * 2 ^ k : ℕ) ∧ (((q + 1) * 2 ^ k : ℕ) : ℚ) - n ≤ n - (q * 2 ^ k : ℕ) := by
    rw [← hbelow, ← habove, Nat.cast_le, Nat.cast_le]
    obtain ⟨rfl, hle⟩ | ⟨rfl, hle⟩ := h.nearer
    · exact Or.inl ⟨rfl, hle⟩
    · exact Or.inr ⟨rfl, hle⟩
  rw [← Nat.cast_inj (R := ℚ), hbelow, habove]
  exact distance_of_neighbours (Nat.cast_le.mpr h.lower_le) (Nat.cast_le.mpr h.le_upper) hnear
    (hc.le_or_le hp h.le_quotient k)

/-- Rounding to a number of digits gives the nearest number that has no more, of two the even one. -/
theorem roundsTo_roundDigits (hp : 1 < p) (n : ℕ) : RoundsTo p n (roundDigits p n) := by
  obtain hsmall | hlarge := Nat.lt_or_ge n (2 ^ p)
  · rw [roundDigits_of_lt hsmall]
    have hshort := isShort_mul_two_pow hsmall 0
    rw [Nat.pow_zero, Nat.mul_one] at hshort
    exact roundsTo_self hshort
  · have h := neighbours_roundHalfEven (by omega) hlarge
    obtain ⟨s, j, hs, hslo, hshi, heven, -⟩ :=
      exists_significand hp h.rounded_bounds.1 h.rounded_bounds.2 (bitLength n - p)
    refine ⟨?_, fun c hc => (h.distance (by omega) hc).1, fun c hc hne htie => ?_⟩
    · rw [roundDigits, hs]
      exact isShort_mul_two_pow hshi j
    · exact ⟨s, j, hs, hslo, hshi, heven (h.even_of_tie ((h.distance (by omega) hc).2 hne htie))⟩

/-- A number in the middle of two that have `p` digits has only one digit more. -/
lemma isShort_of_tie (hp : 1 < p) {c : ℚ} (hc : IsShort p c) (hne : c ≠ roundDigits p n)
    (htie : |(n : ℚ) - c| = |(n : ℚ) - roundDigits p n|) : IsShort (p + 1) n := by
  obtain hsmall | hlarge := Nat.lt_or_ge n (2 ^ p)
  · have hshort := isShort_mul_two_pow (p := p + 1) (q := n) (by rw [pow_succ]; omega) 0
    rwa [Nat.pow_zero, Nat.mul_one] at hshort
  · have h := neighbours_roundHalfEven (by omega) hlarge
    have hlength : p < bitLength n := lt_bitLength_iff.mpr hlarge
    have hmiddle := (h.distance (by omega) hc).2 hne htie
    obtain ⟨i, hi⟩ : ∃ i, bitLength n - p = i + 1 := ⟨bitLength n - p - 1, by omega⟩
    have hdigits := h.quotient_lt
    have hlower := h.lower_le
    have hupper := h.le_upper
    rw [hi] at hmiddle hdigits hlower hupper
    generalize n / 2 ^ (i + 1) = q at *
    have hn : n = (2 * q + 1) * 2 ^ i := by
      have hq : q * 2 ^ (i + 1) = 2 * (q * 2 ^ i) := by ring
      have hnext : (q + 1) * 2 ^ (i + 1) = 2 * (q * 2 ^ i) + 2 * 2 ^ i := by ring
      have hodd : (2 * q + 1) * 2 ^ i = 2 * (q * 2 ^ i) + 2 ^ i := by ring
      omega
    rw [hn]
    exact isShort_mul_two_pow (by rw [pow_succ]; omega) i

/-- What a positive number is rounded to, written with `p` digits. -/
lemma exists_roundDigits (hp : 1 < p) (hn : n ≠ 0) :
    ∃ s j : ℕ, roundDigits p n = s * 2 ^ j ∧ s ≠ 0 ∧ s < 2 ^ p ∧ j ≤ bitLength n - p + 1 := by
  obtain hsmall | hlarge := Nat.lt_or_ge n (2 ^ p)
  · exact ⟨n, 0, by rw [roundDigits_of_lt hsmall, Nat.pow_zero, Nat.mul_one], hn, hsmall, Nat.zero_le _⟩
  · have h := neighbours_roundHalfEven (by omega) hlarge
    obtain ⟨s, j, hs, hslo, hshi, -, hj⟩ :=
      exists_significand hp h.rounded_bounds.1 h.rounded_bounds.2 (bitLength n - p)
    have hpos := Nat.two_pow_pos (p - 1)
    exact ⟨s, j, hs, by omega, hshi, hj⟩

/-! ### Singles -/

/-- The single is made of the rounded number without any further rounding. -/
lemma singleOfInt_eq (n : ℤ) (hn : n.natAbs < 2 ^ 64) :
    singleOfInt n = ofParts (decide (n < 0)) (nearestSingle n.natAbs) 0 := by
  obtain rfl | hne := eq_or_ne n 0
  · decide +kernel
  obtain ⟨s, j, hs, hs0, hlt, hj⟩ := exists_roundDigits (p := 24) (by decide) (Int.natAbs_ne_zero.mpr hne)
  have hlength : bitLength n.natAbs ≤ 64 := bitLength_le_iff.mpr hn
  have hdigits : bitLength s ≤ 24 := bitLength_le_iff.mpr hlt
  have hscaled := ofParts_scaled (decide (n < 0)) hs0 j j
  rw [sub_self] at hscaled
  rw [singleOfInt, nearestSingle_eq, hs, hscaled]
  exact toSingle_ofParts _ hs0 hlt (by omega) (by omega)

/-- An integer with few digits is the same as a single and as a double. -/
lemma singleOfInt_of_lt {n : ℤ} (hn : n.natAbs < 2 ^ 24) : singleOfInt n = ofInt n := by
  rw [singleOfInt_eq n (Nat.lt_trans hn (by decide)), nearestSingle_eq, roundDigits_of_lt hn]
  rfl

/-- The single has the sign of the integer, and the rounded magnitude. -/
lemma denotes_singleOfInt (n : ℤ) (hn : n.natAbs < 2 ^ 64) :
    Denotes (singleOfInt n) (decide (n < 0)) (nearestSingle n.natAbs) := by
  rw [singleOfInt_eq n hn]
  obtain rfl | hne := eq_or_ne n 0
  · exact ⟨0, -1074, by decide +kernel, by rw [nearestSingle_eq, roundDigits_of_lt (by decide)]; simp⟩
  obtain ⟨s, j, hs, hs0, hlt, hj⟩ := exists_roundDigits (p := 24) (by decide) (Int.natAbs_ne_zero.mpr hne)
  have hlength : bitLength n.natAbs ≤ 64 := bitLength_le_iff.mpr hn
  have hdigits : bitLength s ≤ 24 := bitLength_le_iff.mpr hlt
  have hscaled := ofParts_scaled (decide (n < 0)) hs0 j j
  rw [sub_self] at hscaled
  have hdenotes :=
    denotes_ofParts_exact (e := j) (decide (n < 0)) hs0 (Nat.lt_trans hlt (by decide)) (by omega) (by omega)
  rw [nearestSingle_eq, hs, hscaled]
  push_cast
  rwa [zpow_natCast] at hdenotes

end PredicateTrace.Number

namespace PredicateTrace

open Number

/-- A value of an integral kind is converted to the single of its number. -/
lemma Value.convert?_float {v : Value} {n : ℤ} (hv : v.integer? = some n) :
    v.convert? .float = some (.single (singleOfInt n)) := by
  cases v with
  | integral kind m =>
    obtain rfl := Option.some.inj hv
    cases kind <;> rfl
  | char code =>
    obtain rfl := Option.some.inj hv
    rfl
  | _ => cases hv

/-- An integer is converted to a single in one rounding, to the nearest one and to the even one of two
that are equally near. -/
theorem singleOfInt_nearest (n : ℤ) (hn : n.natAbs < 2 ^ 64) :
    RoundsTo 24 n.natAbs (nearestSingle n.natAbs) ∧
      (IsShort 24 n.natAbs → nearestSingle n.natAbs = n.natAbs) ∧
      Denotes (singleOfInt n) (decide (n < 0)) (nearestSingle n.natAbs) ∧
      ∀ v : Value, v.integer? = some n → v.convert? .float = some (.single (singleOfInt n)) := by
  have hrounds := roundsTo_roundDigits (p := 24) (by decide) n.natAbs
  exact ⟨hrounds, hrounds.eq_of_isShort, denotes_singleOfInt n hn, fun v hv => Value.convert?_float hv⟩

/-- A tie between two neighbours, of which the even one is the first number of 26 digits. -/
theorem singleOfInt_nearest_of_tie :
    let n : ℤ := -(2 ^ 25 - 1)
    n.natAbs < 2 ^ 64 ∧ nearestSingle n.natAbs = 2 ^ 25 ∧ RoundsTo 24 n.natAbs (2 ^ 25) ∧
      Denotes (singleOfInt n) true (2 ^ 25) := by
  intro n
  have hn : n.natAbs < 2 ^ 64 := by decide
  have hrounded : nearestSingle n.natAbs = 2 ^ 25 := by decide
  obtain ⟨hrounds, -, hdenotes, -⟩ := singleOfInt_nearest n hn
  rw [hrounded] at hrounds hdenotes
  push_cast at hdenotes
  exact ⟨hn, hrounded, hrounds, hdenotes⟩

end PredicateTrace
