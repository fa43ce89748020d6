import PredicateTrace.Proofs.FloatingOrder
import PredicateTrace.Proofs.IntegralConversions

/-!
# Comparisons of mixed kinds

Two numbers whose kinds are known are converted to a common kind before they are compared; two that come
without a static type are compared as they are, as doubles if either of them is floating. Both ways give
the same answer, but for an `int` or a `long` that differs from a `float` it would be rounded to.
-/

namespace PredicateTrace

open Number (Denotes)

namespace Primitive

/-- The kind that two numbers are compared in as they are. -/
def comparison (p q : Primitive) : Primitive :=
  if p.isFloating || q.isFloating then .double else .long

variable {p q : Primitive}

lemma common_floating (hp : p.isIntegral = true) (kind : Host.FloatKind) :
    p.common kind.primitive = kind.primitive ∧ Primitive.common kind.primitive p = kind.primitive := by
  revert hp
  cases p <;> cases kind <;> decide

lemma common_integral (hp : p.isIntegral = true) (hq : q.isIntegral = true) :
    p.common q = .long ∨ p.common q = .int ∧ p ≠ .long ∧ q ≠ .long := by
  revert hp hq
  cases p <;> cases q <;> decide

lemma comparison_integral (hp : p.isIntegral = true) (hq : q.isIntegral = true) : p.comparison q = .long := by
  revert hp hq
  cases p <;> cases q <;> decide

lemma comparison_floating (kind : Host.FloatKind) (p : Primitive) :
    p.comparison kind.primitive = .double ∧ Primitive.comparison kind.primitive p = .double := by
  cases p <;> cases kind <;> decide

end Primitive

namespace Value

variable {a b v : Value} {x y : Numeric} {p q : Primitive} {n : Int}

/-- A finite number as it is kept: an integer is one of its kind, a character is a code point, and a `float`
has been rounded. -/
def IsNumber : Value → Prop
  | .integral kind n => kind.primitive.InRange n
  | .char code => code < 0x110000
  | .floating kind x _ => (∃ negative r, Denotes x negative r) ∧ (kind = .float → ∃ y, x = Number.toSingle y)
  | _ => False

/-- An `int` or a `long` differs from a `float` that it is rounded to. -/
def RoundsOnto (a b : Value) : Prop :=
  ∃ n x id, (a = .integral .int n ∨ a = .integral .long n) ∧ b = .floating .float x id ∧
    (Number.singleOfInt n == x) = true ∧ (Number.ofInt n == x) = false

/-- What a comparison of two numbers gives, without regard to the heap. -/
lemma applyCompare_eq (ha : a.comparand? = some x) (hb : b.comparand? = some y) (op : CompareOperator) :
    Head.applyCompare (.compare op) a b = pure (some (.bool (Numeric.relation op x y))) := by
  have hequals (same : Nat → Nat → Bool) : Value.equals same a b = Numeric.relation .eq x y := by
    simp only [Value.equals, ha, hb]
  cases op with
  | eq =>
    simp only [Head.applyCompare, hequals]
    rfl
  | neq =>
    simp only [Head.applyCompare, hequals, Numeric.relation_neq]
    rfl
  | _ =>
    simp only [Head.applyCompare, relate, ha, hb]
    rfl

/-! ### Conversions of comparands -/

lemma toKind?_double (hv : v.comparand? = some x) :
    ∃ w, v.toKind? .double = some w ∧ w.comparand? = some (.fractional x.toFloat) := by
  cases v with
  | integral kind n =>
    obtain rfl := Option.some.inj hv
    cases kind <;> exact ⟨_, rfl, rfl⟩
  | char code =>
    obtain rfl := Option.some.inj hv
    exact ⟨_, rfl, rfl⟩
  | floating kind z id =>
    obtain rfl := Option.some.inj hv
    cases kind <;> exact ⟨_, rfl, rfl⟩
  | _ => cases hv

/-- A number as a single, rounded if it is an integer. -/
def Numeric.toSingle : Numeric → Float
  | .whole n => Number.singleOfInt n
  | .fractional x => x

lemma toKind?_float (hv : v.comparand? = some x) (hdouble : v.kind? ≠ some .double) :
    ∃ w, v.toKind? .float = some w ∧ w.comparand? = some (.fractional x.toSingle) := by
  cases v with
  | integral kind n =>
    obtain rfl := Option.some.inj hv
    cases kind <;> exact ⟨_, rfl, rfl⟩
  | char code =>
    obtain rfl := Option.some.inj hv
    exact ⟨_, rfl, rfl⟩
  | floating kind z id =>
    obtain rfl := Option.some.inj hv
    cases kind with
    | float => exact ⟨_, rfl, rfl⟩
    | double => exact absurd rfl hdouble
  | _ => cases hv

lemma toKind?_whole {kind : Host.IntKind} (hkind : kind = .int ∨ kind = .long) (hv : v.integer? = some n)
    (hn : kind.primitive.InRange n) : ∃ w, v.toKind? kind.primitive = some w ∧ w.comparand? = some (.whole n) := by
  have hkept : ofInt kind n = .integral kind n := by
    rw [ofInt, wrap_eq_residue, Primitive.residue_of_inRange hn]
  cases v with
  | integral kind' m =>
    obtain rfl : m = n := Option.some.inj hv
    obtain rfl | rfl := hkind <;> cases kind' <;> first
      | exact ⟨_, rfl, rfl⟩
      | exact ⟨_, congrArg some hkept, rfl⟩
  | char code =>
    obtain rfl := Option.some.inj hv
    obtain rfl | rfl := hkind <;> exact ⟨_, congrArg some hkept, rfl⟩
  | _ => cases hv

/-! ### Both ways of comparing -/

/-- Two numbers compare as they are like in a kind that both are converted to. -/
def AgreesIn (kind : Primitive) (op : CompareOperator) (a b : Value) : Prop :=
  ∃ a' b' r, Head.applyConversion (.prim kind) a = pure (some a') ∧
    Head.applyConversion (.prim kind) b = pure (some b') ∧
    Head.applyCompare (.compare op) a b = pure (some (.bool r)) ∧
    Head.applyCompare (.compare op) a' b' = pure (some (.bool r))

lemma agreesIn_of_relation {kind : Primitive} {a' b' : Value} {x' y' : Numeric} {op : CompareOperator}
    (hp : a.kind? = some p) (hq : b.kind? = some q) (ha : a.comparand? = some x) (hb : b.comparand? = some y)
    (ha' : a.toKind? kind = some a') (hb' : b.toKind? kind = some b') (hx : a'.comparand? = some x')
    (hy : b'.comparand? = some y') (h : Numeric.relation op x y = Numeric.relation op x' y') :
    AgreesIn kind op a b :=
  ⟨a', b', _, by rw [applyConversion_eq hp, ha'], by rw [applyConversion_eq hq, hb'], applyCompare_eq ha hb op,
    by rw [applyCompare_eq hx hy, h]⟩

lemma relation_fractional (op : CompareOperator) (h : (∃ z, x = .fractional z) ∨ ∃ z, y = .fractional z) :
    Numeric.relation op x y = floatRelation op x.toFloat y.toFloat := by
  obtain ⟨z, rfl⟩ | ⟨z, rfl⟩ := h
  · rfl
  · cases x <;> rfl

lemma agreesIn_double (hp : a.kind? = some p) (hq : b.kind? = some q) (ha : a.comparand? = some x)
    (hb : b.comparand? = some y) (h : (∃ z, x = .fractional z) ∨ ∃ z, y = .fractional z) (op : CompareOperator) :
    AgreesIn .double op a b := by
  obtain ⟨a', ha', hx⟩ := toKind?_double ha
  obtain ⟨b', hb', hy⟩ := toKind?_double hb
  exact agreesIn_of_relation hp hq ha hb ha' hb' hx hy (relation_fractional op h)

lemma comparand?_of_integer (hv : v.integer? = some n) : v.comparand? = some (.whole n) := by
  unfold comparand?
  rw [hv]

lemma agreesIn_whole {m : Int} (kind : Host.IntKind) (hkind : kind = .int ∨ kind = .long) (hp : a.kind? = some p)
    (hq : b.kind? = some q) (ha : a.integer? = some m) (hb : b.integer? = some n) (hm : kind.primitive.InRange m)
    (hn : kind.primitive.InRange n) (op : CompareOperator) : AgreesIn kind.primitive op a b := by
  obtain ⟨a', ha', hx⟩ := toKind?_whole hkind ha hm
  obtain ⟨b', hb', hy⟩ := toKind?_whole hkind hb hn
  exact agreesIn_of_relation hp hq (comparand?_of_integer ha) (comparand?_of_integer hb) ha' hb' hx hy rfl

/-- A number is either an integer of its kind, or a floating number. -/
inductive NumberShape (v : Value) (p : Primitive) : Prop
  | whole (n : Int) (hv : v.integer? = some n) (hp : p.isIntegral = true) (hlong : Primitive.long.InRange n)
      (hint : p ≠ .long → Primitive.int.InRange n) (hsmall : p ≠ .long → p ≠ .int → n.natAbs < 2 ^ 24)
  | floating (kind : Host.FloatKind) (z : Float) (id : Nat) (hv : v = .floating kind z id) (hp : p = kind.primitive)

lemma IsNumber.shape (hv : v.IsNumber) (hp : v.kind? = some p) : NumberShape v p := by
  cases v with
  | integral kind n =>
    obtain ⟨hlo, hhi⟩ := hv
    obtain rfl := Option.some.inj hp
    refine .whole n rfl (by cases kind <;> rfl) ?_ ?_ ?_
    all_goals
      cases kind <;>
        simp [Primitive.InRange, Primitive.least, Primitive.width, Host.IntKind.primitive] at hlo hhi ⊢ <;> omega
  | char code =>
    have hcode : code < 0x110000 := hv
    obtain rfl := Option.some.inj hp
    refine .whole code rfl rfl ?_ (fun _ => ?_) fun _ _ => ?_
    · simp [Primitive.InRange, Primitive.least, Primitive.width]; omega
    · simp [Primitive.InRange, Primitive.least, Primitive.width]; omega
    · simp; omega
  | floating kind z id => exact .floating kind z id rfl (Option.some.inj hp).symm
  | bool => cases hv
  | _ => cases hp

lemma kind_of_integer (hp : v.kind? = some p) (hv : v.integer? = some n) (hkind : p = .int ∨ p = .long) :
    v = .integral .int n ∨ v = .integral .long n := by
  obtain rfl | rfl := hkind
  · obtain ⟨m, rfl⟩ := @kind_integral _ .int hp
    exact Or.inl (congrArg _ (Option.some.inj hv))
  · obtain ⟨m, rfl⟩ := @kind_integral _ .long hp
    exact Or.inr (congrArg _ (Option.some.inj hv))

/-- An integer beside a `float` that it is not rounded onto compares like the single it is rounded to. -/
lemma relation_single {z : Float} {id : Nat} (hp : a.kind? = some p) (ha : a.integer? = some n)
    (hlong : Primitive.long.InRange n) (hsmall : p ≠ .long → p ≠ .int → n.natAbs < 2 ^ 24)
    (hb : (floating .float z id).IsNumber) (honto : ¬a.RoundsOnto (.floating .float z id)) (op : CompareOperator) :
    floatRelation op (Number.ofInt n) z = floatRelation op (Number.singleOfInt n) z ∧
      floatRelation op z (Number.ofInt n) = floatRelation op z (Number.singleOfInt n) := by
  obtain ⟨⟨negative, r, hz⟩, hsingle⟩ := hb
  obtain ⟨y, hy⟩ := hsingle rfl
  have hn : n.natAbs < 2 ^ 64 := by
    obtain ⟨hlo, hhi⟩ := hlong
    simp [Primitive.least, Primitive.width] at hlo hhi
    omega
  by_cases hkind : p = .int ∨ p = .long
  · refine Number.floatRelation_singleOfInt hn hz hy (fun heq => ?_) op
    by_contra hne
    exact honto ⟨n, z, id, kind_of_integer hp ha hkind, rfl, heq, Bool.eq_false_iff.mpr hne⟩
  · obtain ⟨hint, hlong⟩ := not_or.mp hkind
    rw [Number.singleOfInt_of_lt (hsmall hlong hint)]
    exact ⟨rfl, rfl⟩

/-- Two numbers compare like after their promotion to a common kind, unless one is rounded onto the other. -/
lemma agreesIn_common (ha : a.IsNumber) (hb : b.IsNumber) (hp : a.kind? = some p) (hq : b.kind? = some q)
    (hab : ¬a.RoundsOnto b) (hba : ¬b.RoundsOnto a) (op : CompareOperator) : AgreesIn (p.common q) op a b := by
  cases ha.shape hp with
  | whole m ham hpm hmlong hmint hmsmall =>
    cases hb.shape hq with
    | whole n hbn hqn hnlong hnint hnsmall =>
      obtain hcommon | ⟨hcommon, hpl, hql⟩ := Primitive.common_integral hpm hqn <;> rw [hcommon]
      · exact agreesIn_whole .long (Or.inr rfl) hp hq ham hbn hmlong hnlong op
      · exact agreesIn_whole .int (Or.inl rfl) hp hq ham hbn (hmint hpl) (hnint hql) op
    | floating kind z id hbz hqz =>
      subst hbz hqz
      rw [(Primitive.common_floating hpm kind).1]
      have hx := comparand?_of_integer ham
      cases kind with
      | double => exact agreesIn_double hp hq hx rfl (Or.inr ⟨z, rfl⟩) op
      | float =>
        obtain ⟨a', ha', hx'⟩ := toKind?_float hx (by rw [hp]; rintro ⟨⟩; cases hpm)
        exact agreesIn_of_relation hp hq hx rfl ha' (toKind?_of_kind hq) hx' rfl
          (relation_single hp ham hmlong hmsmall hb hab op).1
  | floating kind z id haz hpz =>
    subst haz hpz
    cases hb.shape hq with
    | whole n hbn hqn hnlong hnint hnsmall =>
      rw [(Primitive.common_floating hqn kind).2]
      have hy := comparand?_of_integer hbn
      cases kind with
      | double => exact agreesIn_double hp hq rfl hy (Or.inl ⟨z, rfl⟩) op
      | float =>
        obtain ⟨b', hb', hy'⟩ := toKind?_float hy (by rw [hq]; rintro ⟨⟩; cases hqn)
        exact agreesIn_of_relation hp hq rfl hy (toKind?_of_kind hp) hb' rfl hy'
          (relation_single hq hbn hnlong hnsmall ha hba op).2
    | floating kind' z' id' hbz hqz =>
      subst hbz hqz
      cases kind with
      | double => exact agreesIn_double (p := .double) hp hq rfl rfl (Or.inl ⟨z, rfl⟩) op
      | float =>
        cases kind' with
        | double => exact agreesIn_double hp hq rfl rfl (Or.inl ⟨z, rfl⟩) op
        | float => exact agreesIn_of_relation hp hq rfl rfl (toKind?_of_kind hp) (toKind?_of_kind hq) rfl rfl rfl

lemma NumberShape.exists_comparand (h : v.NumberShape p) : ∃ x, v.comparand? = some x := by
  cases h with
  | whole n hv => exact ⟨_, comparand?_of_integer hv⟩
  | floating kind z id hv => exact ⟨_, by rw [hv]; rfl⟩

/-- Two numbers compare like doubles if either is floating, and like `long`s otherwise. -/
lemma agreesIn_comparison (ha : a.IsNumber) (hb : b.IsNumber) (hp : a.kind? = some p) (hq : b.kind? = some q)
    (op : CompareOperator) : AgreesIn (p.comparison q) op a b := by
  cases ha.shape hp with
  | whole m ham hpm hmlong =>
    cases hb.shape hq with
    | whole n hbn hqn hnlong =>
      rw [Primitive.comparison_integral hpm hqn]
      exact agreesIn_whole .long (Or.inr rfl) hp hq ham hbn hmlong hnlong op
    | floating kind z id hbz hqz =>
      subst hbz hqz
      rw [(Primitive.comparison_floating kind p).1]
      exact agreesIn_double hp hq (comparand?_of_integer ham) rfl (Or.inr ⟨z, rfl⟩) op
  | floating kind z id haz hpz =>
    subst haz hpz
    obtain ⟨y, hy⟩ := (hb.shape hq).exists_comparand
    rw [(Primitive.comparison_floating kind q).2]
    exact agreesIn_double hp hq rfl hy (Or.inl ⟨z, rfl⟩) op

/-- Two numbers compare as they are like after their promotion to a common kind, unless one of them is
rounded onto the other. Their order is in any case that of doubles, or of `long`s if neither is floating. -/
theorem comparison_of_promoted (ha : a.IsNumber) (hb : b.IsNumber) (hp : a.kind? = some p) (hq : b.kind? = some q) :
    (¬a.RoundsOnto b → ¬b.RoundsOnto a → ∀ op, AgreesIn (p.common q) op a b) ∧
      ∀ op, op ≠ .eq → op ≠ .neq → AgreesIn (p.comparison q) op a b :=
  ⟨agreesIn_common ha hb hp hq, fun op _ _ => agreesIn_comparison ha hb hp hq op⟩

/-- An `int` is rounded to the `float` before the one that it is compared with. -/
theorem comparison_of_promoted_next_float :
    let a : Value := integral .int 16777217
    let b : Value := floating .float (Number.ofInt 16777218) 0
    a.IsNumber ∧ b.IsNumber ∧ ¬a.RoundsOnto b ∧ ¬b.RoundsOnto a ∧ AgreesIn .float .lt a b := by
  intro a b
  have ha : a.IsNumber := ⟨by decide, by decide⟩
  have hb : b.IsNumber := by
    refine ⟨⟨false, _, 2 ^ 52 + 2 ^ 29, -28, ?_, rfl⟩, fun _ => ⟨Number.ofInt 16777218, ?_⟩⟩ <;> decide +kernel
  have hab : ¬a.RoundsOnto b := by
    change ¬(integral .int 16777217).RoundsOnto (floating .float (Number.ofInt 16777218) 0)
    rintro ⟨n, x, id, hn | hn, hx, hrounded, -⟩ <;> cases hn
    cases hx
    revert hrounded
    decide +kernel
  have hba : ¬b.RoundsOnto a := by
    change ¬(floating .float (Number.ofInt 16777218) 0).RoundsOnto (integral .int 16777217)
    rintro ⟨n, x, id, hn | hn, -⟩ <;> cases hn
  exact ⟨ha, hb, hab, hba, (comparison_of_promoted ha hb rfl rfl).1 hab hba .lt⟩

/-- An `int` that is rounded onto a `float` compares with it as a double, and the rounded one as equal. -/
theorem comparison_of_rounded_int :
    let a : Value := integral .int 16777217
    let b : Value := floating .float (Number.ofInt 16777216) 0
    a.IsNumber ∧ b.IsNumber ∧ a.kind? = some .int ∧ b.kind? = some .float ∧ Primitive.common .int .float = .float ∧
      Head.applyConversion (.prim .float) a = pure (some b) ∧ Head.applyConversion (.prim .float) b = pure (some b) ∧
      Head.applyCompare (.compare .le) a b = pure (some (.bool false)) ∧
      Head.applyCompare (.compare .le) b b = pure (some (.bool true)) := by
  intro a b
  have ha : a.IsNumber := ⟨by decide, by decide⟩
  have hb : b.IsNumber := by
    refine ⟨⟨false, _, 2 ^ 52, -28, ?_, rfl⟩, fun _ => ⟨Number.ofInt 16777216, ?_⟩⟩ <;> decide +kernel
  have hrounded : Number.singleOfInt 16777217 = Number.ofInt 16777216 := by decide +kernel
  have hbelow : Numeric.relation .le (.whole 16777217) (.fractional (Number.ofInt 16777216)) = false := by
    decide +kernel
  have hequal :
      Numeric.relation .le (.fractional (Number.ofInt 16777216)) (.fractional (Number.ofInt 16777216)) = true := by
    decide +kernel
  refine ⟨ha, hb, rfl, rfl, rfl, ?_, applyConversion_eq rfl .float, ?_, ?_⟩
  · rw [applyConversion_eq (v := a) rfl, show a.toKind? .float = some (single (Number.singleOfInt 16777217)) from rfl,
      hrounded]
    rfl
  · rw [applyCompare_eq (a := a) rfl rfl, hbelow]
  · rw [applyCompare_eq (a := b) rfl rfl, hequal]

end Value
end PredicateTrace
