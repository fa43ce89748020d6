import Mathlib.Data.Int.ModEq
import Mathlib.Tactic.Lemma
import PredicateTrace.Evaluation
import PredicateTrace.Proofs.PrimitiveKinds

/-!
# Conversions between integral kinds

A value of an integral kind is converted to the number of the other kind that is congruent to it modulo
the width of that kind. There is one such number, so that conversions compose as residues do: a detour
through a kind that is no narrower than the last one is not noticed, and one through a kind that holds
all numbers of the first leads back to the value that it began with.
-/

namespace PredicateTrace

namespace Primitive

/-- The number of bits of an integral kind. -/
def width : Primitive → Nat
  | .byte => 8
  | .short | .char => 16
  | .int => 32
  | .long => 64
  | .float | .double | .boolean | .void => 0

/-- The least number of an integral kind; characters have no sign. -/
def least : Primitive → Int
  | .char => 0
  | p => -2 ^ (p.width - 1)

/-- A number is one of those of an integral kind. -/
def InRange (p : Primitive) (n : Int) : Prop :=
  p.least ≤ n ∧ n < p.least + 2 ^ p.width

/-- The number of a kind that is congruent to a number. -/
def residue (p : Primitive) (n : Int) : Int :=
  p.least + (n - p.least) % 2 ^ p.width

variable {p : Primitive} {m n : Int}

lemma modulus_pos (p : Primitive) : (0 : Int) < 2 ^ p.width :=
  Int.pow_pos (by decide)

lemma inRange_residue (p : Primitive) (n : Int) : p.InRange (p.residue n) := by
  have hnonneg := Int.emod_nonneg (n - p.least) (modulus_pos p).ne'
  have hlt := Int.emod_lt_of_pos (n - p.least) (modulus_pos p)
  exact ⟨by rw [residue]; omega, by rw [residue]; omega⟩

lemma residue_modEq (p : Primitive) (n : Int) : p.residue n ≡ n [ZMOD 2 ^ p.width] := by
  have hmod := (Int.mod_modEq (n - p.least) (2 ^ p.width)).add_left p.least
  rwa [add_sub_cancel] at hmod

/-- Two numbers of one kind that are congruent are the same. -/
lemma InRange.eq_of_modEq (hm : p.InRange m) (hn : p.InRange n) (h : m ≡ n [ZMOD 2 ^ p.width]) : m = n := by
  have hdistance : |n - m| < 2 ^ p.width := by
    rw [abs_lt]
    obtain ⟨hmlo, hmhi⟩ := hm
    obtain ⟨hnlo, hnhi⟩ := hn
    constructor <;> omega
  have hzero := Int.eq_zero_of_abs_lt_dvd (Int.modEq_iff_dvd.mp h) hdistance
  omega

lemma residue_of_inRange (hn : p.InRange n) : p.residue n = n :=
  (inRange_residue p n).eq_of_modEq hn (residue_modEq p n)

/-- The residue of a residue modulo a wider word is that of the number itself. -/
lemma residue_residue {q r : Primitive} (hwidth : r.width ≤ q.width) (n : Int) :
    r.residue (q.residue n) = r.residue n := by
  have hq : q.residue n ≡ n [ZMOD 2 ^ r.width] := (q.residue_modEq n).of_dvd (pow_dvd_pow 2 hwidth)
  refine (inRange_residue r _).eq_of_modEq (inRange_residue r n) ?_
  exact (r.residue_modEq _).trans (hq.trans (r.residue_modEq n).symm)

end Primitive

namespace Value

open Primitive (InRange residue)

variable {v w : Value} {p q r : Primitive} {m n : Int}

/-- A value of an integral kind has the number `n`, which is one of that kind. -/
structure Holds (v : Value) (p : Primitive) (n : Int) : Prop where
  kind : v.kind? = some p
  number : v.integer? = some n
  inRange : p.InRange n

lemma wrap_eq_residue (kind : Host.IntKind) (n : Int) : Number.wrap kind.bits n = kind.primitive.residue n := by
  have hwidth : ((2 ^ kind.bits : Nat) : Int) = 2 ^ kind.primitive.width := by cases kind <;> rfl
  have hpos : 0 < 2 ^ kind.bits := Nat.two_pow_pos _
  have hrange : kind.primitive.InRange (Number.wrap kind.bits n) := by
    have hlo := Int.le_bmod (x := n) hpos
    have hhi := Int.bmod_lt (x := n) hpos
    cases kind <;> exact ⟨hlo, hhi⟩
  have hmod : Number.wrap kind.bits n ≡ n [ZMOD 2 ^ kind.primitive.width] := by
    rw [← hwidth]
    exact Int.bmod_emod
  exact hrange.eq_of_modEq (Primitive.inRange_residue _ n) (hmod.trans (Primitive.residue_modEq _ n).symm)

lemma holds_ofInt (kind : Host.IntKind) (n : Int) :
    (ofInt kind n).Holds kind.primitive (kind.primitive.residue n) where
  kind := rfl
  number := congrArg some (wrap_eq_residue kind n)
  inRange := Primitive.inRange_residue _ n

lemma holds_char (n : Int) : (char (Number.lowBits 16 n)).Holds .char (Primitive.char.residue n) where
  kind := rfl
  number := by
    have hnonneg : 0 ≤ n % 2 ^ 16 := Int.emod_nonneg n (by decide)
    have hcode : ((Number.lowBits 16 n : Nat) : Int) = n % 2 ^ 16 := Int.toNat_of_nonneg hnonneg
    rw [integer?, hcode, residue]
    simp [Primitive.least, Primitive.width]
  inRange := Primitive.inRange_residue _ n

lemma Holds.shape (hv : v.Holds p n) :
    (∃ kind, v = .integral kind n ∧ p = Host.IntKind.primitive kind) ∨
      ∃ code : Nat, v = .char code ∧ p = .char ∧ n = code := by
  obtain ⟨hkind, hnumber, -⟩ := hv
  cases v with
  | integral kind k => exact Or.inl ⟨kind, by rw [Option.some.inj hnumber], (Option.some.inj hkind).symm⟩
  | char code => exact Or.inr ⟨code, rfl, (Option.some.inj hkind).symm, (Option.some.inj hnumber).symm⟩
  | _ => cases hnumber

lemma Holds.isIntegral (hv : v.Holds p n) : p.isIntegral = true := by
  obtain ⟨kind, -, rfl⟩ | ⟨code, -, rfl, -⟩ := hv.shape
  · cases kind <;> rfl
  · rfl

/-- A value is determined by its kind and its number. -/
lemma Holds.unique (hv : v.Holds p n) (hw : w.Holds p n) : v = w := by
  obtain ⟨kind, rfl, rfl⟩ | ⟨code, rfl, rfl, rfl⟩ := hv.shape
  · obtain ⟨k, rfl⟩ := kind_integral hw.kind
    exact congrArg _ (Option.some.inj hw.number).symm
  · obtain ⟨kind, -, hkind⟩ | ⟨code', rfl, -, hcode⟩ := hw.shape
    · cases kind <;> cases hkind
    · exact congrArg _ (Int.ofNat_inj.mp hcode)

/-- A conversion between integral kinds gives the residue of the number. -/
lemma Holds.toKind? (hv : v.Holds p n) (hq : q.isIntegral = true) :
    ∃ w, v.toKind? q = some w ∧ w.Holds q (q.residue n) := by
  by_cases hsame : v.kind? = some q
  · obtain rfl : p = q := Option.some.inj (hv.kind.symm.trans hsame)
    refine ⟨v, toKind?_of_kind hsame, ?_⟩
    rw [Primitive.residue_of_inRange hv.inRange]
    exact hv
  · rw [Value.toKind?, if_neg hsame]
    unfold convert?
    rw [if_neg hsame]
    obtain ⟨kind, rfl, -⟩ | ⟨code, rfl, -, rfl⟩ := hv.shape <;> cases q <;> first
      | exact ⟨_, rfl, holds_ofInt _ _⟩
      | exact ⟨_, rfl, holds_char _⟩
      | cases hq

/-- What a conversion of the evaluator does with a value of a kind. -/
lemma applyConversion_eq (hv : v.kind? = some p) (q : Primitive) :
    Head.applyConversion (.prim q) v = pure (v.toKind? q) := by
  have hpresent : Head.applyConversion (.prim q) v =
      if v.kind? = some q then pure (some v) else pure (v.convert? q) := by
    cases v <;> first | rfl | cases hv
  rw [hpresent, Value.toKind?]
  split <;> rfl

/-- Conversion between integral kinds is reduction modulo the width of the target. -/
theorem integral_conversion (hq : q.isIntegral = true) (hr : r.isIntegral = true) (hv : v.Holds p n) :
    ∃ w m, Head.applyConversion (.prim q) v = pure (some w) ∧ w.Holds q m ∧
      (∀ k, q.InRange k ∧ k ≡ n [ZMOD 2 ^ q.width] ↔ k = m) ∧
      (r.width ≤ q.width → Head.applyConversion (.prim r) w = Head.applyConversion (.prim r) v) ∧
      ((∀ k, p.InRange k → q.InRange k) → Head.applyConversion (.prim p) w = pure (some v)) := by
  obtain ⟨w, hw, hwholds⟩ := hv.toKind? hq
  have hmod := q.residue_modEq n
  refine ⟨w, q.residue n, by rw [applyConversion_eq hv.kind, hw], hwholds, fun k => ⟨fun hk => ?_, ?_⟩,
    fun hwidth => ?_, fun hsub => ?_⟩
  · exact hk.1.eq_of_modEq (q.inRange_residue n) (hk.2.trans hmod.symm)
  · rintro rfl
    exact ⟨q.inRange_residue n, hmod⟩
  · obtain ⟨x, hx, hxholds⟩ := hwholds.toKind? hr
    obtain ⟨y, hy, hyholds⟩ := hv.toKind? hr
    rw [Primitive.residue_residue hwidth] at hxholds
    rw [applyConversion_eq hwholds.kind, applyConversion_eq hv.kind, hx, hy, hxholds.unique hyholds]
  · have hkept : q.residue n = n := Primitive.residue_of_inRange (hsub n hv.inRange)
    rw [hkept] at hwholds
    obtain ⟨x, hx, hxholds⟩ := hwholds.toKind? hv.isIntegral
    rw [Primitive.residue_of_inRange hv.inRange] at hxholds
    rw [applyConversion_eq hwholds.kind, hx, hxholds.unique hv]

/-- The `char` of the `byte` -1 is the last one, and its `short` and its `byte` are -1 again. -/
theorem integral_conversion_of_negative_byte :
    (integral .byte (-1)).Holds .byte (-1) ∧
      Head.applyConversion (.prim .char) (integral .byte (-1)) = pure (some (char 0xffff)) ∧
      Head.applyConversion (.prim .byte) (char 0xffff) = pure (some (integral .byte (-1))) := by
  have hv : (integral .byte (-1)).Holds .byte (-1) := ⟨rfl, rfl, by decide, by decide⟩
  obtain ⟨w, m, hw, hwholds, hunique, hdetour, -⟩ :=
    integral_conversion (q := .char) (r := .byte) rfl rfl hv
  have hm : 0xffff = m := (hunique 0xffff).mp ⟨⟨by decide, by decide⟩, by decide⟩
  subst hm
  have hchar : w = char 0xffff := hwholds.unique ⟨rfl, rfl, by decide, by decide⟩
  subst hchar
  exact ⟨hv, hw, (hdetour (by decide)).trans rfl⟩

end Value
end PredicateTrace
