import Mathlib.Tactic.Lemma
import Mathlib.Tactic.SplitIfs
import PredicateTrace.Typing
import PredicateTrace.Value.Arithmetic

/-!
# Kinds of primitive values

What the operations on primitive values give, by the kinds of their operands. On the kinds that operands
are promoted to, every operation gives a value of a known kind, but for a division by zero.
-/

namespace PredicateTrace

open Host (IntKind FloatKind)

namespace Primitive

/-- The kind that an operand is promoted to on its own. -/
def promoted (p : Primitive) : Primitive :=
  (TypeRef.prim p).promoted

/-- The kind that two operands are promoted to. -/
def common (p q : Primitive) : Primitive :=
  TypeRef.binaryPromotion (.prim p) (.prim q)

/-- The kinds that operands are promoted to. -/
def IsPromoted (p : Primitive) : Prop :=
  p = .int ∨ p = .long ∨ p = .float ∨ p = .double

/-- The kinds that whole operands are promoted to. -/
def IsWhole (p : Primitive) : Prop :=
  p = .int ∨ p = .long

lemma IsWhole.isPromoted {p : Primitive} (h : p.IsWhole) : p.IsPromoted := by
  rcases h with rfl | rfl <;> simp [IsPromoted]

lemma IsWhole.kind_cases {p : Primitive} (h : p.IsWhole) :
    ∃ kind : IntKind, (kind = .int ∨ kind = .long) ∧ p = kind.primitive := by
  rcases h with rfl | rfl
  · exact ⟨.int, Or.inl rfl, rfl⟩
  · exact ⟨.long, Or.inr rfl, rfl⟩

lemma IsPromoted.kind_cases {p : Primitive} (h : p.IsPromoted) :
    (∃ kind : IntKind, (kind = .int ∨ kind = .long) ∧ p = kind.primitive) ∨
      ∃ kind : FloatKind, p = kind.primitive := by
  rcases h with rfl | rfl | rfl | rfl
  · exact Or.inl ⟨.int, Or.inl rfl, rfl⟩
  · exact Or.inl ⟨.long, Or.inr rfl, rfl⟩
  · exact Or.inr ⟨.float, rfl⟩
  · exact Or.inr ⟨.double, rfl⟩

lemma isPromoted_promoted {p : Primitive} (h : p.isNumeric = true) : p.promoted.IsPromoted := by
  cases p <;> simp [isNumeric, isIntegral, isFloating] at h <;>
    simp [promoted, TypeRef.promoted, TypeRef.unaryPromotion, TypeRef.unboxed?, IsPromoted]

lemma isWhole_promoted {p : Primitive} (h : p.isIntegral = true) : p.promoted.IsWhole := by
  cases p <;> simp [isIntegral] at h <;>
    simp [promoted, TypeRef.promoted, TypeRef.unaryPromotion, TypeRef.unboxed?, IsWhole]

lemma isPromoted_common (p q : Primitive) : (p.common q).IsPromoted := by
  unfold common TypeRef.binaryPromotion IsPromoted
  dsimp only
  split_ifs <;> simp

lemma isWhole_common {p q : Primitive} (hp : p.isIntegral = true) (hq : q.isIntegral = true) :
    (p.common q).IsWhole := by
  cases p <;> simp [isIntegral] at hp <;> cases q <;> simp [isIntegral] at hq <;>
    simp [common, TypeRef.binaryPromotion, TypeRef.unboxed?, IsWhole]

lemma isNumeric_of_isIntegral {p : Primitive} (h : p.isIntegral = true) : p.isNumeric = true := by
  simp [isNumeric, h]

lemma IsPromoted.isNumeric {p : Primitive} (h : p.IsPromoted) : p.isNumeric = true := by
  rcases h with rfl | rfl | rfl | rfl <;> rfl

end Primitive

namespace Value

/-- The value of a kind that a value is converted to; one of that kind stays as it is. -/
def toKind? (p : Primitive) (v : Value) : Option Value :=
  if v.kind? = some p then some v else v.convert? p

/-- The number all bits of which differ from those of a whole number of a kind. -/
def complement? : Value → Option Value
  | .integral kind n => some (.integral kind (~~~BitVec.ofInt kind.bits n).toInt)
  | _ => none

lemma toKind?_of_kind {v : Value} {p : Primitive} (h : v.kind? = some p) : v.toKind? p = some v :=
  if_pos h

/-- Numbers have a value of every numeric kind. -/
lemma exists_toKind? {v : Value} {p q : Primitive} (hv : v.kind? = some p) (hp : p.isNumeric = true)
    (hq : q.isNumeric = true) : ∃ w, v.toKind? q = some w ∧ w.kind? = some q := by
  unfold toKind?
  split
  · next hsame => exact ⟨v, rfl, hsame⟩
  · next hother =>
    unfold convert?
    rw [if_neg hother]
    cases v with
    | char code | integral kind n | floating kind x id =>
      cases q <;> simp [Primitive.isNumeric, Primitive.isIntegral, Primitive.isFloating] at hq <;>
        exact ⟨_, rfl, rfl⟩
    | bool b =>
      obtain rfl := Option.some.inj hv
      cases hp
    | _ => cases hv

lemma kind_integral {v : Value} {kind : IntKind} (h : v.kind? = some kind.primitive) :
    ∃ n, v = .integral kind n := by
  cases v with
  | integral kind' n =>
    obtain rfl : kind' = kind := by cases kind <;> cases kind' <;> first | rfl | cases h
    exact ⟨n, rfl⟩
  | floating kind' x id => cases kind <;> cases kind' <;> cases h
  | _ => cases kind <;> cases h

lemma kind_floating {v : Value} {kind : FloatKind} (h : v.kind? = some kind.primitive) :
    ∃ x id, v = .floating kind x id := by
  cases v with
  | integral kind' n => cases kind <;> cases kind' <;> cases h
  | floating kind' x id =>
    obtain rfl : kind' = kind := by cases kind <;> cases kind' <;> first | rfl | cases h
    exact ⟨x, id, rfl⟩
  | _ => cases kind <;> cases h

lemma kind_boolean {v : Value} (h : v.kind? = some .boolean) : ∃ b, v = .bool b := by
  cases v with
  | bool b => exact ⟨b, rfl⟩
  | integral kind n => cases kind <;> cases h
  | floating kind x id => cases kind <;> cases h
  | _ => cases h

lemma kind?_ne_void (v : Value) : v.kind? ≠ some .void := by
  cases v with
  | integral kind n => cases kind <;> simp [kind?, Host.IntKind.primitive]
  | floating kind x id => cases kind <;> simp [kind?, Host.FloatKind.primitive]
  | _ => simp [kind?]

lemma kind?_ofFloat (kind : FloatKind) (x : Float) : (ofFloat kind x).kind? = some kind.primitive := by
  cases kind <;> rfl

lemma arith_integral (op : ArithOperator) {kind : IntKind} (hk : kind = .int ∨ kind = .long) (m n : Int) :
    arith op (.integral kind m) (.integral kind n) = arith.integral op kind m n := by
  rcases hk with rfl | rfl <;> rfl

/-- Arithmetic on two promoted values of one kind gives a value of that kind, or divides by zero. -/
theorem arith_kind (op : ArithOperator) {a b : Value} {p : Primitive} (ha : a.kind? = some p)
    (hb : b.kind? = some p) (hp : p.IsPromoted) (hbits : Typing.isBitwise op = true → p.IsWhole) :
    (∃ v, arith op a b = .ok (some v) ∧ v.kind? = some p) ∨ arith op a b = .error .arithmetic := by
  rcases hp.kind_cases with ⟨kind, hkind, rfl⟩ | ⟨kind, rfl⟩
  · obtain ⟨m, rfl⟩ := kind_integral ha
    obtain ⟨n, rfl⟩ := kind_integral hb
    rw [arith_integral op hkind, arith.integral]
    cases integerOp kind.bits op m n with
    | some n => exact Or.inl ⟨_, rfl, rfl⟩
    | none => exact Or.inr rfl
  · obtain ⟨x, i, rfl⟩ := kind_floating ha
    obtain ⟨y, j, rfl⟩ := kind_floating hb
    have hfloat : ∃ z, floatingOp? op x y = some z := by
      cases op with
      | and | or | xor => rcases hbits rfl with h | h <;> cases kind <;> cases h
      | _ => exact ⟨_, rfl⟩
    obtain ⟨z, hz⟩ := hfloat
    exact Or.inl ⟨ofFloat kind z, by simp [arith, hz], kind?_ofFloat kind z⟩

/-- A shift of a promoted whole number gives one of the same kind. -/
lemma shift_kind (op : ShiftOperator) {a b : Value} {p q : Primitive} (ha : a.kind? = some p)
    (hb : b.kind? = some q) (hp : p.IsWhole) (hq : q.IsWhole) :
    ∃ v, shift? op a b = some v ∧ v.kind? = some p := by
  obtain ⟨kind, hkind, rfl⟩ := hp.kind_cases
  obtain ⟨kind', -, rfl⟩ := hq.kind_cases
  obtain ⟨m, rfl⟩ := kind_integral ha
  obtain ⟨n, rfl⟩ := kind_integral hb
  rcases hkind with rfl | rfl <;> exact ⟨_, rfl, rfl⟩

/-- The opposite of a promoted number has its kind. -/
lemma negate_kind {v : Value} {p : Primitive} (hv : v.kind? = some p) (hp : p.IsPromoted) :
    ∃ w, v.negate? = some w ∧ w.kind? = some p := by
  rcases hp.kind_cases with ⟨kind, rfl | rfl, rfl⟩ | ⟨kind, rfl⟩
  · obtain ⟨n, rfl⟩ := kind_integral hv
    exact ⟨_, rfl, rfl⟩
  · obtain ⟨n, rfl⟩ := kind_integral hv
    exact ⟨_, rfl, rfl⟩
  · obtain ⟨x, i, rfl⟩ := kind_floating hv
    exact ⟨_, rfl, kind?_ofFloat kind (-x)⟩

/-- Numbers take part in comparisons. -/
lemma exists_comparand? {v : Value} {p : Primitive} (hv : v.kind? = some p) (hp : p.isNumeric = true) :
    ∃ n, v.comparand? = some n := by
  cases v with
  | char code | integral kind n | floating kind x id => exact ⟨_, rfl⟩
  | bool b =>
    obtain rfl := Option.some.inj hv
    cases hp
  | _ => cases hv

lemma Numeric.relation_neq (a b : Numeric) : relation .neq a b = !relation .eq a b := by
  rcases a with m | x <;> rcases b with n | y <;> rfl

lemma staticType_eq_prim {v : Value} {p : Primitive} : v.staticType = .prim p ↔ v.kind? = some p := by
  cases v <;> simp [staticType, kind?, TypeRef.string, TypeRef.object, TypeRef.ofName, TypeRef.ofClass]

lemma staticType_eq_array {v : Value} {t : TypeRef} :
    v.staticType = .array t ↔ ∃ id items, v = .array id t items := by
  cases v <;> simp [staticType, kind?, TypeRef.string, TypeRef.object, TypeRef.ofName, TypeRef.ofClass]

end Value

namespace Number

lemma wordXor_eq (w : Nat) (m n : Int) :
    wordXor w m n = (BitVec.ofInt w m ^^^ BitVec.ofInt w n).toInt := by
  rw [wordXor, wrap, BitVec.toInt_eq_toNat_bmod, BitVec.toNat_xor, BitVec.toNat_ofInt, BitVec.toNat_ofInt]
  simp [lowBits]

/-- Exclusive disjunction with a word of ones is the complement. -/
theorem wordXor_neg_one (w : Nat) (n : Int) : wordXor w n (-1) = (~~~BitVec.ofInt w n).toInt := by
  rw [wordXor_eq]
  have hones : BitVec.ofInt w (-1) = BitVec.allOnes w := by
    rw [BitVec.ofInt_neg, BitVec.ofInt_ofNat, BitVec.neg_one_eq_allOnes]
  rw [hones, BitVec.xor_allOnes]

end Number

end PredicateTrace
