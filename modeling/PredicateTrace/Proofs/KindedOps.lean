import Mathlib.Data.List.GetD
import PredicateTrace.Proofs.PrimitiveOps

/-!
# Ops on operands of known kinds

For each operation of the primitive fragment, the op on operands whose outcomes fit the kinds that checking
prescribes: its outcome fits the kind of its result, and it is what the operation directly gives.
-/

namespace PredicateTrace

open Host (Heap)
open Evaluation (Runs Answers)

/-- An operand has an outcome that fits a kind. -/
structure Computes (arrays : Bool) (captures : Captures) (heap : Heap) (x : Operand) (p : Primitive)
    (o : Outcome) : Prop where
  fits : o.Fits arrays p
  runs : Runs arrays captures heap x o

namespace Computes

variable {arrays : Bool} {captures : Captures} {heap : Heap} {head : Head} {x y z : Operand}
  {o o' oc : Outcome} {p q m : Primitive}

lemma one {f : Value → Outcome} (hx : Computes arrays captures heap x p o) (hpure : head.isPure = true)
    (ht : head.resultType? = some (.prim q))
    (hf : ∀ v, v.kind? = some p → Answers head [v] (f v) ∧ (f v).Fits arrays q) :
    Computes arrays captures heap (.op (.of head [x])) q (o.andThen f) := by
  have hfits : (o.andThen f).Fits arrays q := hx.fits.andThen fun v hv => (hf v hv).2
  refine ⟨hfits, hx.runs.unary hpure ?_ (hfits.admits ht)⟩
  rintro v rfl
  exact (hf v hx.fits).1

lemma two {f : Value → Value → Outcome} (hx : Computes arrays captures heap x p o)
    (hy : Computes arrays captures heap y q o') (hpure : head.isPure = true)
    (ht : head.resultType? = some (.prim m))
    (hf : ∀ a b, a.kind? = some p → b.kind? = some q → Answers head [a, b] (f a b) ∧ (f a b).Fits arrays m) :
    Computes arrays captures heap (.op (.of head [x, y])) m (o.andThen fun a => o'.andThen (f a)) := by
  have hfits : (o.andThen fun a => o'.andThen (f a)).Fits arrays m :=
    hx.fits.andThen fun a ha => hy.fits.andThen fun b hb => (hf a b ha hb).2
  refine ⟨hfits, hx.runs.binary hy.runs hpure ?_ (hfits.admits ht)⟩
  rintro a b rfl rfl
  exact (hf a b hx.fits hy.fits).1

lemma constant {v : Value} (hv : v.kind? = some p) :
    Computes arrays captures heap (.op (.leaf (.const v (.prim p)))) p (.value v) := by
  have hfits : (Outcome.value v).Fits arrays p := hv
  exact ⟨hfits, Evaluation.runs_leaf rfl (Evaluation.answers_const _ hv) (hfits.admits rfl)⟩

lemma conversion (hx : Computes arrays captures heap x p o) (hp : p.isNumeric = true)
    (hq : q.isNumeric = true) :
    Computes arrays captures heap (.op (.of (.conv (.prim q)) [x])) q (o.andThen (Direct.convertTo q)) := by
  refine hx.one rfl rfl fun v hv => ⟨Evaluation.answers_conversion q hv, ?_⟩
  obtain ⟨w, hw, hkind⟩ := Direct.convertTo_value hv hp hq
  rw [hw]
  exact hkind

lemma negation (hx : Computes arrays captures heap x .boolean o) :
    Computes arrays captures heap (.op (.of .not [x])) .boolean (o.andThen (Direct.unary .not)) := by
  refine hx.one rfl rfl fun v hv => ?_
  obtain ⟨b, rfl⟩ := Value.kind_boolean hv
  exact ⟨Evaluation.answers_not b, rfl⟩

lemma opposite (hx : Computes arrays captures heap x p o) (hp : p.IsPromoted) :
    Computes arrays captures heap (.op (.of (.neg (.prim p)) [x])) p
      (o.andThen fun v => .ofOption v.negate?) :=
  hx.one rfl rfl fun v hv =>
    ⟨Evaluation.answers_negation _ v, Outcome.fits_ofOption (Value.negate_kind hv hp)⟩

lemma arithmetic (op : ArithOperator) (hx : Computes arrays captures heap x p o)
    (hy : Computes arrays captures heap y p o') (hp : p.IsPromoted)
    (hbits : Typing.isBitwise op = true → p.IsWhole) :
    Computes arrays captures heap (.op (.of (.binary (.arith op) (.prim p)) [x, y])) p
      (o.andThen fun a => o'.andThen fun b => .ofResult (Value.arith op a b)) := by
  refine hx.two hy rfl rfl fun a b ha hb => ⟨Evaluation.answers_binary _ _ ha hb, ?_⟩
  rcases Value.arith_kind op ha hb hp hbits with ⟨v, hv, hkind⟩ | hzero
  · rw [hv]
    exact hkind
  · rw [hzero]
    exact Or.inl rfl

lemma shift (op : ShiftOperator) (hx : Computes arrays captures heap x p o)
    (hy : Computes arrays captures heap y q o') (hp : p.IsWhole) (hq : q.IsWhole) :
    Computes arrays captures heap (.op (.of (.binary (.shift op) (.prim p)) [x, y])) p
      (o.andThen fun a => o'.andThen fun b => .ofOption (Value.shift? op a b)) :=
  hx.two hy rfl rfl fun _ _ ha hb =>
    ⟨Evaluation.answers_binary (.shift op) _ ha hb, Outcome.fits_ofOption (Value.shift_kind op ha hb hp hq)⟩

/-- The complement is an exclusive disjunction with a constant of the same kind. -/
lemma complement (hx : Computes arrays captures heap x p o) (hp : p.IsWhole) :
    Computes arrays captures heap
      (.op (.of (.binary (.arith .xor) (.prim p)) [x, .op (Lowering.allOnes (.prim p))])) p
      (o.andThen fun v => .ofOption v.complement?) := by
  obtain ⟨kind, hkind, rfl⟩ := hp.kind_cases
  have hones : Lowering.allOnes (.prim kind.primitive) =
      .leaf (.const (.integral kind (-1)) (.prim kind.primitive)) := by
    rcases hkind with rfl | rfl <;> rfl
  have honesRun : Computes arrays captures heap
      (.op (.leaf (.const (.integral kind (-1)) (.prim kind.primitive)))) kind.primitive
      (.value (.integral kind (-1))) := constant rfl
  have hfits : (o.andThen fun v => .ofOption v.complement?).Fits arrays kind.primitive := by
    refine hx.fits.andThen fun v hv => ?_
    obtain ⟨n, rfl⟩ := Value.kind_integral hv
    exact hv
  refine ⟨hfits, ?_⟩
  rw [hones]
  refine hx.runs.binary (f := fun a _ => .ofOption a.complement?) honesRun.runs rfl ?_ (hfits.admits rfl)
  rintro a b rfl hb
  obtain rfl := Outcome.value.inj hb
  obtain ⟨n, rfl⟩ := Value.kind_integral hx.fits
  exact Evaluation.answers_complement _ n hkind

lemma related (op : CompareOperator) (hx : Computes arrays captures heap x p o)
    (hy : Computes arrays captures heap y p o') (hp : p.isNumeric = true) :
    Computes arrays captures heap (.op (.of (.compare (.compare op)) [x, y])) .boolean
      (o.andThen fun a => o'.andThen (Direct.compare.related op a)) := by
  refine hx.two hy rfl rfl fun a b ha hb => ?_
  obtain ⟨i, hi⟩ := Value.exists_comparand? ha hp
  obtain ⟨j, hj⟩ := Value.exists_comparand? hb hp
  simp only [Direct.compare.related, hi, hj]
  exact ⟨Evaluation.answers_relation op hi hj, rfl⟩

lemma sameTruth {op : CompareOperator} (hop : op = .eq ∨ op = .neq)
    (hx : Computes arrays captures heap x .boolean o) (hy : Computes arrays captures heap y .boolean o') :
    Computes arrays captures heap (.op (.of (.compare (.compare op)) [x, y])) .boolean
      (o.andThen fun a => o'.andThen (Direct.compare op a)) := by
  refine hx.two hy rfl rfl fun a b ha hb => ?_
  obtain ⟨s, rfl⟩ := Value.kind_boolean ha
  obtain ⟨t, rfl⟩ := Value.kind_boolean hb
  refine ⟨Evaluation.answers_identity hop fun heap => Evaluation.equals_bool _ s t, ?_⟩
  rcases hop with rfl | rfl <;> rfl

lemma sameArray {op : CompareOperator} (hop : op = .eq ∨ op = .neq) {i j : Nat} {s t : TypeRef}
    {xs ys : List Value} (hx : Runs arrays captures heap x (.value (.array i s xs)))
    (hy : Runs arrays captures heap y (.value (.array j t ys))) :
    Computes arrays captures heap (.op (.of (.compare (.compare op)) [x, y])) .boolean
      (Direct.compare op (.array i s xs) (.array j t ys)) := by
  have hfits : (Direct.compare op (.array i s xs) (.array j t ys)).Fits arrays .boolean := by
    rcases hop with rfl | rfl <;> rfl
  refine ⟨hfits, hx.binary hy (f := Direct.compare op) rfl ?_ (hfits.admits rfl)⟩
  rintro a b ha hb
  obtain rfl := Outcome.value.inj ha
  obtain rfl := Outcome.value.inj hb
  exact Evaluation.answers_identity hop fun heap => Evaluation.equals_array _ i j s t xs ys

/-- An element of an array has the kind of the array, or its index is out of bounds. -/
lemma element (harrays : arrays = true) {i : Nat} {items : List Value}
    (hitems : ∀ item ∈ items, item.kind? = some p)
    (hx : Runs arrays captures heap x (.value (.array i (.prim p) items)))
    (hy : Computes arrays captures heap y .int o) :
    Computes arrays captures heap (.op (.of (.arrayLoad (.prim p)) [x, y])) p
      (o.andThen (Direct.element.elementAt (.array i (.prim p) items))) := by
  have hindex {v : Value} (hv : v.kind? = some .int) : ∃ n, v = .integral .int n := Value.kind_integral hv
  have hfits : (o.andThen (Direct.element.elementAt (.array i (.prim p) items))).Fits arrays p := by
    refine hy.fits.andThen fun v hv => ?_
    obtain ⟨n, rfl⟩ := hindex hv
    unfold Direct.element.elementAt Host.checkIndex
    by_cases hbounds : 0 ≤ n ∧ n < items.length
    · simp only [if_pos hbounds]
      have hplace : n.toNat < items.length := by omega
      rw [List.getD_eq_getElem _ _ hplace]
      exact hitems _ (List.getElem_mem hplace)
    · simp only [if_neg hbounds]
      exact Or.inr ⟨harrays, n, items.length, rfl⟩
  refine ⟨hfits, hx.binary (f := Direct.element.elementAt) hy.runs rfl ?_ (hfits.admits rfl)⟩
  rintro a b ha rfl
  obtain rfl := Outcome.value.inj ha
  obtain ⟨n, rfl⟩ := hindex hy.fits
  exact Evaluation.answers_element _ i _ items n

lemma length {i : Nat} {t : TypeRef} {items : List Value}
    (hx : Runs arrays captures heap x (.value (.array i t items))) :
    Computes arrays captures heap (.op (.of .arrayLength [x])) .int
      (Direct.length (.array i t items)) := by
  have hfits : (Direct.length (.array i t items)).Fits arrays .int := rfl
  refine ⟨hfits, hx.unary (f := Direct.length) rfl ?_ (hfits.admits rfl)⟩
  rintro a ha
  obtain rfl := Outcome.value.inj ha
  exact Evaluation.answers_length i t items

/-- One more body of a short-circuit operator. -/
lemma chain_snoc {decisive : Bool} {bodies : List Body} {body : Body}
    (hd : head.decisive? = some decisive)
    (hx : Computes arrays captures heap (.op (.mk head [] bodies)) .boolean o)
    (hbody : body.yielded? = some y) (hy : Computes arrays captures heap y .boolean o') :
    Computes arrays captures heap (.op (.mk head [] (bodies ++ [body]))) .boolean
      (o.andThen (Direct.shortCircuit decisive o')) := by
  refine ⟨hx.fits.andThen fun v hv => ?_, hx.runs.chain_snoc hd hbody hy.runs hx.fits hy.fits⟩
  obtain ⟨b, rfl⟩ := Value.kind_boolean hv
  rw [Direct.shortCircuit]
  split
  · rfl
  · exact hy.fits

lemma chain_singleton {decisive : Bool} {body : Body} (hd : head.decisive? = some decisive)
    (hbody : body.yielded? = some y) (hy : Computes arrays captures heap y .boolean o) :
    Computes arrays captures heap (.op (.mk head [] [body])) .boolean o :=
  ⟨hy.fits, hy.runs.chain_singleton hd hbody hy.fits⟩

lemma choice {c yes no : Body} (hc : c.yielded? = some x) (hyes : yes.yielded? = some y)
    (hno : no.yielded? = some z) (hx : Computes arrays captures heap x .boolean oc)
    (hy : Computes arrays captures heap y p o) (hz : Computes arrays captures heap z p o') :
    Computes arrays captures heap (.op (.mk (.ternary (.prim p)) [] [c, yes, no])) p
      (oc.andThen (Direct.select o o')) := by
  have hfits : (oc.andThen (Direct.select o o')).Fits arrays p := by
    refine hx.fits.andThen fun v hv => ?_
    obtain ⟨b, rfl⟩ := Value.kind_boolean hv
    cases b
    · exact hz.fits
    · exact hy.fits
  exact ⟨hfits, hx.runs.choice hc hyes hno hy.runs hz.runs hx.fits (hfits.admits rfl)⟩

end Computes

end PredicateTrace
