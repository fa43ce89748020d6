import Mathlib.Algebra.Order.Floor.Ring
import Mathlib.Data.Rat.Floor
import PredicateTrace.Value.Arithmetic

/-!
# Integer arithmetic as arithmetic on words

The integers of a kind are the words of its width, read in two's complement. The operations on two
integers of one kind are then the operations on bit vectors of that width. Division needs more than a
bit vector operation to be told what it is: `Divided` states quotient and remainder by the exact
quotient of the two numbers, which is a rational one.
-/

namespace PredicateTrace

open Host (IntKind)
open Number (wrap lowBits)

/-- The whole number next to a rational one on the side of zero. -/
def towardZero (r : ℚ) : ℤ :=
  if 0 ≤ r then ⌊r⌋ else ⌈r⌉

lemma towardZero_neg (r : ℚ) : towardZero (-r) = -towardZero r := by
  obtain h | rfl | h := lt_trichotomy r 0
  · rw [towardZero, towardZero, if_pos (by linarith), if_neg (by linarith), Int.floor_neg]
  · simp [towardZero]
  · rw [towardZero, towardZero, if_neg (by linarith), if_pos h.le, Int.ceil_neg]

lemma towardZero_natCast_div (m n : ℕ) : towardZero (m / n) = (m / n : ℕ) := by
  rw [towardZero, if_pos (by positivity), Int.natCast_div]
  exact Rat.floor_intCast_div_natCast m n

lemma towardZero_div (a b : ℤ) : towardZero (a / b) = a.tdiv b := by
  obtain ⟨m, rfl | rfl⟩ := a.eq_nat_or_neg <;> obtain ⟨n, rfl | rfl⟩ := b.eq_nat_or_neg <;>
    simp [neg_div, div_neg, towardZero_neg, towardZero_natCast_div]

section Words

variable {w : ℕ} (x y : BitVec w)

/-- `q` and `r` are the quotient and the remainder of the word `x` by the word `y`. The exact quotient
is no word in one case only, that of the smallest word and minus one. -/
structure Divided (q r : BitVec w) : Prop where
  identity : x = q * y + r
  remainder_lt : |r.toInt| < |y.toInt|
  remainder_sign : r = 0 ∨ r.toInt.sign = x.toInt.sign
  quotient : ¬(x = BitVec.intMin w ∧ y = -1) → q.toInt = towardZero (x.toInt / y.toInt)
  overflow : x = BitVec.intMin w → y = -1 → q = BitVec.intMin w ∧ r = 0

lemma wrap_eq_toInt (n : ℤ) : wrap w n = (BitVec.ofInt w n).toInt :=
  (BitVec.toInt_ofInt n).symm

lemma lowBits_toInt : lowBits w x.toInt = x.toNat := by
  rw [← BitVec.ofInt_toInt (x := x), BitVec.toNat_ofInt, BitVec.ofInt_toInt]
  simp [lowBits]

lemma shiftLeft_toInt (n : ℕ) : Number.shiftLeft w x.toInt n = (x <<< n).toInt := by
  rw [Number.shiftLeft, wrap, BitVec.toInt_shiftLeft, BitVec.toInt_eq_toNat_bmod, Int.bmod_mul_bmod,
    Nat.shiftLeft_eq]
  simp

lemma shiftRight_toInt (n : ℕ) : Number.shiftRight w x.toInt n = (x.sshiftRight n).toInt := by
  have hshift : (x.sshiftRight n).toInt = x.toInt / 2 ^ n := by
    rw [BitVec.toInt_sshiftRight, Int.shiftRight_eq_div_pow]
    rfl
  rw [Number.shiftRight, wrap, ← hshift, BitVec.toInt_bmod_cancel]

lemma shiftRightUnsigned_toInt (n : ℕ) : Number.shiftRightUnsigned w x.toInt n = (x >>> n).toInt := by
  rw [Number.shiftRightUnsigned, wrap, lowBits_toInt, BitVec.toInt_eq_toNat_bmod,
    BitVec.toNat_ushiftRight, Nat.shiftRight_eq_div_pow]

lemma sdiv_mul_add_srem : x.sdiv y * y + x.srem y = x := by
  apply BitVec.eq_of_toInt_eq
  rw [BitVec.toInt_add, BitVec.toInt_mul, BitVec.toInt_sdiv, BitVec.toInt_srem, Int.bmod_mul_bmod,
    Int.bmod_add_bmod, Int.tdiv_mul_add_tmod, BitVec.toInt_bmod_cancel]

lemma intMin_srem_neg_one : (BitVec.intMin w).srem (-1) = 0 := by
  have h := sdiv_mul_add_srem (BitVec.intMin w) (-1)
  have hproduct : (BitVec.intMin w).sdiv (-1#w) * (-1#w) = BitVec.intMin w := by
    rw [BitVec.intMin_sdiv_neg_one, BitVec.mul_neg, BitVec.mul_one, BitVec.neg_intMin]
  rw [show (-1 : BitVec w) = -1#w from rfl, hproduct] at h
  simpa using h

lemma toInt_eq_zero_iff : y.toInt = 0 ↔ y = 0 :=
  ⟨fun h => BitVec.eq_of_toInt_eq (by simpa using h), fun h => by simp [h]⟩

lemma divided_sdiv_srem (hy : y ≠ 0) : Divided x y (x.sdiv y) (x.srem y) where
  identity := (sdiv_mul_add_srem x y).symm
  remainder_lt := by
    rw [BitVec.toInt_srem, Int.abs_eq_natAbs, Int.natAbs_tmod, Int.abs_eq_natAbs]
    exact_mod_cast Nat.mod_lt _ (Int.natAbs_pos.mpr (mt (toInt_eq_zero_iff y).mp hy))
  remainder_sign := by
    have hsign := Int.sign_tmod x.toInt y.toInt
    rw [← BitVec.toInt_srem] at hsign
    split_ifs at hsign
    · exact Or.inl (BitVec.eq_of_toInt_eq (by simpa [Int.sign_eq_zero_iff_zero] using hsign))
    · exact Or.inr hsign
  quotient h := by
    rw [towardZero_div, BitVec.toInt_sdiv_of_ne_or_ne]
    exact not_and_or.mp h
  overflow hx hy := by
    subst hx hy
    exact ⟨BitVec.intMin_sdiv_neg_one, intMin_srem_neg_one⟩

open Value (integerOp)

lemma integerOp_add : integerOp w .add x.toInt y.toInt = some (x + y).toInt := by
  rw [BitVec.toInt_add]
  rfl

lemma integerOp_sub : integerOp w .sub x.toInt y.toInt = some (x - y).toInt := by
  rw [BitVec.toInt_sub]
  rfl

lemma integerOp_mul : integerOp w .mul x.toInt y.toInt = some (x * y).toInt := by
  rw [BitVec.toInt_mul]
  rfl

lemma integerOp_and : integerOp w .and x.toInt y.toInt = some (x &&& y).toInt := by
  rw [BitVec.toInt_and, ← lowBits_toInt, ← lowBits_toInt]
  rfl

lemma integerOp_or : integerOp w .or x.toInt y.toInt = some (x ||| y).toInt := by
  rw [BitVec.toInt_or, ← lowBits_toInt, ← lowBits_toInt]
  rfl

lemma integerOp_xor : integerOp w .xor x.toInt y.toInt = some (x ^^^ y).toInt := by
  rw [BitVec.toInt_xor, ← lowBits_toInt, ← lowBits_toInt]
  rfl

lemma integerOp_div :
    integerOp w .div x.toInt y.toInt = if y = 0 then none else some (x.sdiv y).toInt := by
  rw [BitVec.toInt_sdiv, integerOp]
  exact if_congr (toInt_eq_zero_iff y) rfl rfl

lemma integerOp_mod :
    integerOp w .mod x.toInt y.toInt = if y = 0 then none else some (x.srem y).toInt := by
  rw [← BitVec.toInt_bmod_cancel (x.srem y), BitVec.toInt_srem, integerOp]
  exact if_congr (toInt_eq_zero_iff y) rfl rfl

end Words

/-- The value of a kind that a word denotes. -/
def Value.ofWord (kind : IntKind) (x : BitVec kind.bits) : Value :=
  .integral kind x.toInt

lemma ofInt_eq_ofWord (kind : IntKind) (n : ℤ) :
    Value.ofInt kind n = Value.ofWord kind (BitVec.ofInt kind.bits n) := by
  rw [Value.ofInt, wrap_eq_toInt]
  rfl

/-- The operations on the integers of a kind are the operations on words of its width. -/
structure TwosComplement (kind : IntKind) : Prop where
  ofInt (n : ℤ) : Value.ofInt kind n = .ofWord kind (BitVec.ofInt kind.bits n)
  add (x y) : Value.binary (.arith .add) (.ofWord kind x) (.ofWord kind y) =
    .ok (some (.ofWord kind (x + y)))
  sub (x y) : Value.binary (.arith .sub) (.ofWord kind x) (.ofWord kind y) =
    .ok (some (.ofWord kind (x - y)))
  mul (x y) : Value.binary (.arith .mul) (.ofWord kind x) (.ofWord kind y) =
    .ok (some (.ofWord kind (x * y)))
  and (x y) : Value.binary (.arith .and) (.ofWord kind x) (.ofWord kind y) =
    .ok (some (.ofWord kind (x &&& y)))
  or (x y) : Value.binary (.arith .or) (.ofWord kind x) (.ofWord kind y) =
    .ok (some (.ofWord kind (x ||| y)))
  xor (x y) : Value.binary (.arith .xor) (.ofWord kind x) (.ofWord kind y) =
    .ok (some (.ofWord kind (x ^^^ y)))
  neg (x) : (Value.ofWord kind x).negate? = some (.ofWord kind (-x))
  div_by_zero (x y) :
    Value.binary (.arith .div) (.ofWord kind x) (.ofWord kind y) = .error .arithmetic ↔ y = 0
  mod_by_zero (x y) :
    Value.binary (.arith .mod) (.ofWord kind x) (.ofWord kind y) = .error .arithmetic ↔ y = 0
  divided (x y) : y ≠ 0 → ∃ q r, Divided x y q r ∧
    Value.binary (.arith .div) (.ofWord kind x) (.ofWord kind y) = .ok (some (.ofWord kind q)) ∧
    Value.binary (.arith .mod) (.ofWord kind x) (.ofWord kind y) = .ok (some (.ofWord kind r))
  /-- The amount of a shift is any integer of the right kind, negative ones included. -/
  shifted (x) (amount : Value) (p : Primitive) : amount.kind? = some p → p.isIntegral →
    ∃ n, amount.integer? = some n ∧
      let places := (n % kind.bits).toNat
      Value.binary (.shift .lshl) (.ofWord kind x) amount =
        .ok (some (.ofWord kind (x <<< places))) ∧
      Value.binary (.shift .ashr) (.ofWord kind x) amount =
        .ok (some (.ofWord kind (x.sshiftRight places))) ∧
      Value.binary (.shift .lshr) (.ofWord kind x) amount =
        .ok (some (.ofWord kind (x >>> places)))

section Operations

variable {kind : IntKind} (hkind : kind = .int ∨ kind = .long) {op : ArithOperator}
  (x y : BitVec kind.bits)

include hkind

lemma binary_arith_ofWord :
    Value.binary (.arith op) (.ofWord kind x) (.ofWord kind y) =
      match Value.integerOp kind.bits op x.toInt y.toInt with
      | some n => .ok (some (.integral kind n))
      | none => .error .arithmetic := by
  obtain rfl | rfl := hkind <;> rfl

lemma binary_arith_eq_ok {z : BitVec kind.bits}
    (hz : Value.integerOp kind.bits op x.toInt y.toInt = some z.toInt) :
    Value.binary (.arith op) (.ofWord kind x) (.ofWord kind y) = .ok (some (.ofWord kind z)) := by
  rw [binary_arith_ofWord hkind, hz]
  rfl

lemma negate?_ofWord : (Value.ofWord kind x).negate? = some (.ofWord kind (-x)) := by
  rw [Value.ofWord, Value.ofWord, BitVec.toInt_neg]
  obtain rfl | rfl := hkind <;> rfl

lemma binary_shift_ofWord (op : ShiftOperator) {amount : Value} {n : ℤ}
    (hn : amount.integer? = some n) :
    Value.binary (.shift op) (.ofWord kind x) amount =
      .ok (some (.integral kind (Value.shift?.apply op kind.bits x.toInt n))) := by
  obtain rfl | rfl := hkind <;> simp [Value.binary, Value.shift?, Value.ofWord, hn, IntKind.bits]

end Operations

lemma exists_integer? {v : Value} {p : Primitive} (hv : v.kind? = some p) (hp : p.isIntegral = true) :
    ∃ n, v.integer? = some n := by
  cases v <;> simp [Value.kind?, Value.integer?] at hv ⊢
  case bool => simp [← hv, Primitive.isIntegral] at hp
  case floating kind _ _ =>
    cases kind <;> simp [← hv, Primitive.isIntegral, Host.FloatKind.primitive] at hp

lemma twosComplement {kind : IntKind} (hkind : kind = .int ∨ kind = .long) : TwosComplement kind where
  ofInt := ofInt_eq_ofWord kind
  add x y := binary_arith_eq_ok hkind x y (integerOp_add x y)
  sub x y := binary_arith_eq_ok hkind x y (integerOp_sub x y)
  mul x y := binary_arith_eq_ok hkind x y (integerOp_mul x y)
  and x y := binary_arith_eq_ok hkind x y (integerOp_and x y)
  or x y := binary_arith_eq_ok hkind x y (integerOp_or x y)
  xor x y := binary_arith_eq_ok hkind x y (integerOp_xor x y)
  neg := negate?_ofWord hkind
  div_by_zero x y := by
    rw [binary_arith_ofWord hkind, integerOp_div]
    split_ifs with hy
    · simp [hy]
    · exact iff_of_false (by simp) hy
  mod_by_zero x y := by
    rw [binary_arith_ofWord hkind, integerOp_mod]
    split_ifs with hy
    · simp [hy]
    · exact iff_of_false (by simp) hy
  divided x y hy := by
    refine ⟨x.sdiv y, x.srem y, divided_sdiv_srem x y hy, ?_, ?_⟩
    · exact binary_arith_eq_ok hkind x y ((integerOp_div x y).trans (if_neg hy))
    · exact binary_arith_eq_ok hkind x y ((integerOp_mod x y).trans (if_neg hy))
  shifted x amount p hamount hp := by
    obtain ⟨n, hn⟩ := exists_integer? hamount hp
    refine ⟨n, hn, ?_, ?_, ?_⟩
    · rw [binary_shift_ofWord hkind x _ hn, Value.shift?.apply, shiftLeft_toInt]
      rfl
    · rw [binary_shift_ofWord hkind x _ hn, Value.shift?.apply, shiftRight_toInt]
      rfl
    · rw [binary_shift_ofWord hkind x _ hn, Value.shift?.apply, shiftRightUnsigned_toInt]
      rfl

/-- Arithmetic on `int` and on `long` is two's complement arithmetic on 32 and on 64 bits. -/
theorem integers_are_words : TwosComplement .int ∧ TwosComplement .long :=
  ⟨twosComplement (.inl rfl), twosComplement (.inr rfl)⟩

end PredicateTrace
