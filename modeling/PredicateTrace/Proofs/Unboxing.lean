import PredicateTrace.Proofs.FailureSpine
import PredicateTrace.Proofs.PlacedNodes
import PredicateTrace.Proofs.PrimitiveTyping
import PredicateTrace.Proofs.SubExpressions

/-!
# Unboxing of null

Where an expression uses the primitive value of an operand whose type is a wrapper class, lowering converts the
operand. The conversion of `null` is a null pointer error, which the nodes around it hand on. Operands of `!`,
`&&` and `||`, the condition of a conditional, and truth values that are tested for equality are not converted.
-/

namespace PredicateTrace

open Host (Heap)
open Typing (IsChecked accepts_of_check)

/-- A class that wraps a primitive type. -/
def TypeRef.IsWrapper (t : TypeRef) : Prop :=
  t.isPrimitive = false ∧ t.unboxed?.isSome

/-- An operator works on the primitive values of operands of the given types. A test of equality does so for
numbers, unless both are references. -/
def BinaryOperator.TakesPrimitives (op : BinaryOperator) (left right : TypeRef) : Prop :=
  left.isDynamic = false ∧ right.isDynamic = false ∧
    match op with
    | .conjunction | .disjunction => False
    | .compare .eq | .compare .neq =>
      left.isNumeric = true ∧ right.isNumeric = true ∧ (left.isPrimitive = true ∨ right.isPrimitive = true)
    | .arith .add => (left == .string) = false ∧ (right == .string) = false
    | _ => True

lemma BinaryOperator.TakesPrimitives.chainHead?_eq {op : BinaryOperator} {left right : TypeRef}
    (h : op.TakesPrimitives left right) : Lowering.chainHead? op = none := by
  cases op with
  | conjunction | disjunction => exact h.2.2.elim
  | arith | shift | compare => rfl

/-- An expression uses the primitive value of an operand, which its op converts at a place inside of it. -/
inductive Unboxes : TypedExpr → TypedExpr → Place → Prop
  | plus {note x} : Unboxes (.unary note .plus x) x []
  | unary {note op x} (hop : op = .minus ∨ op = .complement) : Unboxes (.unary note op x) x [.operand 0]
  | left {note op x y} (hop : op.TakesPrimitives x.type y.type) : Unboxes (.binary note op x y) x [.operand 0]
  | right {note op x y} (hop : op.TakesPrimitives x.type y.type) : Unboxes (.binary note op x y) y [.operand 1]
  | index {note array x} : Unboxes (.index note array x) x [.operand 1]
  | cast {note t x p} (htype : note.type = some (.prim p)) : Unboxes (.cast note t x) x []
  | thenArm {note c x y} (hx : x.type.isNumeric = true) (hy : y.type.isNumeric = true)
      (hprim : y.type.isPrimitive = true) : Unboxes (.conditional note c x y) x [.body 1]
  | elseArm {note c x y} (hx : x.type.isNumeric = true) (hy : y.type.isNumeric = true)
      (hprim : x.type.isPrimitive = true) : Unboxes (.conditional note c x y) y [.body 2]

/-! ### The conversions that checking records -/

namespace TypeRef.IsWrapper

variable {t : TypeRef}

lemma beq_eq_false (h : t.IsWrapper) {name : String} (hname : (TypeRef.ofName name).unboxed? = none) :
    (t == .ofName name) = false := by
  obtain ⟨hprim, hsome⟩ := h
  cases t with
  | prim => cases hprim
  | array => cases hsome
  | named other host =>
    by_contra heq
    obtain rfl : other = name := by simpa [BEq.beq, beq, TypeRef.ofName] using heq
    change (TypeRef.ofName other).unboxed?.isSome = true at hsome
    rw [hname] at hsome
    cases hsome

lemma isDynamic_eq (h : t.IsWrapper) : t.isDynamic = false :=
  h.beq_eq_false (by decide)

/-- A wrapper is never what it is converted to. -/
lemma needsConversion_eq (h : t.IsWrapper) (p : Primitive) : Lowering.needsConversion t p = true := by
  have hprim : (t == .prim p) = false := by
    obtain ⟨hprim, -⟩ := h
    cases t with
    | prim => cases hprim
    | array | named => rfl
  have hobject : (t == .object) = false := h.isDynamic_eq
  have hnull : (t == .null) = false := h.beq_eq_false (by decide)
  simp [Lowering.needsConversion, bne, hobject, hnull, hprim, h.2]

end TypeRef.IsWrapper

namespace Lowering

/-- The operand with a number is converted to a primitive type. -/
def Converts (note : Typing) (i : Nat) : Prop :=
  ∃ p, conversionAt note i = some p

section Checked

variable {pos : Position} {note : Typing} {op : BinaryOperator} {s t : TypeRef}

lemma converts_unary {op : UnaryOperator} (hop : op ≠ .not) (ht : t.isDynamic = false)
    (h : Typing.unaryType pos op t = .ok note) : Converts note 0 := by
  rcases unaryType_eq_ok ht h with ⟨rfl, -⟩ | ⟨-, -, -, rfl⟩
  · exact absurd rfl hop
  · exact ⟨_, rfl⟩

lemma converts_equality (hs : s.isNumeric = true) (ht : t.isNumeric = true)
    (hprim : s.isPrimitive = true ∨ t.isPrimitive = true) (h : Typing.equalityType pos op s t = .ok note) :
    Converts note 0 ∧ Converts note 1 := by
  have href : (!(!s.isPrimitive && !t.isPrimitive)) = true := by
    rcases hprim with hprim | hprim <;> simp [hprim]
  simp only [Typing.equalityType, hs, ht, href, Bool.and_self, if_true] at h
  obtain rfl := Except.ok.inj h
  exact ⟨⟨_, rfl⟩, ⟨_, rfl⟩⟩

/-- An operator that takes primitive values has both operands converted, if they are accepted. -/
lemma converts_binary (hop : op.TakesPrimitives s t) (h : Typing.binaryType pos op s t = .ok note) :
    Converts note 0 ∧ Converts note 1 := by
  obtain ⟨hs, ht, hop⟩ := hop
  have hnumeric {accepts : TypeRef → Bool} {promote : Primitive × Primitive × Primitive}
      (h : Typing.numericType pos op s t accepts promote = .ok note) :
      Converts note 0 ∧ Converts note 1 := by
    obtain ⟨-, -, rfl⟩ := numericType_eq_ok hs ht h
    exact ⟨⟨_, rfl⟩, ⟨_, rfl⟩⟩
  cases op with
  | conjunction | disjunction => exact hop.elim
  | shift =>
    simp only [Typing.binaryType] at h
    exact hnumeric h
  | compare c =>
    cases c with
    | eq | neq => exact converts_equality hop.1 hop.2.1 hop.2.2 h
    | lt | le | gt | ge =>
      obtain ⟨-, -, rfl⟩ := relationalType_eq_ok hs ht h
      exact ⟨⟨_, rfl⟩, ⟨_, rfl⟩⟩
  | arith a =>
    have htext : (decide (a = .add) && (s == .string || t == .string)) = false := by
      cases a with
      | add => simp [hop.1, hop.2]
      | _ => rfl
    simp only [Typing.binaryType, htext, Bool.false_eq_true, if_false] at h
    split at h
    · split at h
      · obtain rfl := Except.ok.inj h
        exact ⟨⟨_, rfl⟩, ⟨_, rfl⟩⟩
      · exact hnumeric h
    · exact hnumeric h

lemma converts_index (ht : t.isDynamic = false) (h : Typing.indexType pos s t = .ok note) :
    Converts note 1 := by
  have hindex : t.isIndex = true := by
    by_contra hindex
    rw [Bool.not_eq_true] at hindex
    simp [Typing.indexType, hindex, ht] at h
  have hwhole : t.isIntegral = true := (Bool.and_eq_true_iff.mp hindex).1
  simp only [Typing.indexType, hindex, hwhole, Bool.not_true, Bool.false_and, Bool.false_eq_true, if_true,
    if_false] at h
  split at h
  · obtain rfl := Except.ok.inj h
    exact ⟨_, rfl⟩
  · split at h
    · obtain rfl := Except.ok.inj h
      exact ⟨_, rfl⟩
    · cases h

lemma converts_arms {c : TypeRef} (hs : s.isNumeric = true) (ht : t.isNumeric = true)
    (hprim : s.isPrimitive = true ∨ t.isPrimitive = true) (h : Typing.conditionalType pos c s t = .ok note) :
    Converts note 1 ∧ Converts note 2 := by
  have harms : (s.isNumeric && t.isNumeric && (s.isPrimitive || t.isPrimitive)) = true := by
    rcases hprim with hprim | hprim <;> simp [hs, ht, hprim]
  simp only [Typing.conditionalType, harms, if_true] at h
  split at h
  · cases h
  · obtain rfl := Except.ok.inj h
    exact ⟨⟨_, rfl⟩, ⟨_, rfl⟩⟩

end Checked

variable {scope : Scope} {heap : Heap} {note : Typing} {u x : TypedExpr} {y : Operand}

/-- An operand is the conversion of what an expression is lowered to. -/
def Converted (scope : Scope) (heap : Heap) (x : TypedExpr) (y : Operand) : Prop :=
  ∃ p z, y = .op (.of (.conv (.prim p)) [z]) ∧ Becomes scope heap x z

/-- An op that does not short-circuit converts, at a place inside of it, what an expression is lowered to. -/
def ConvertedAt (scope : Scope) (heap : Heap) (x : TypedExpr) (place : Place) (y : Operand) : Prop :=
  y.isChain = false ∧ ∃ z, y.inside? place = some z ∧ Converted scope heap x z

lemma Converted.at_itself (h : Converted scope heap x y) : ConvertedAt scope heap x [] y := by
  obtain ⟨p, z, rfl, hz⟩ := h
  exact ⟨rfl, _, rfl, p, z, rfl, hz⟩

lemma converted_operand (hx : x.type.IsWrapper) {i : Nat} (hi : Converts note i) :
    Results (Converted scope heap x)
      (lower scope heap x >>= fun value => convert value x.type (conversionAt note i)) := by
  obtain ⟨p, hp⟩ := hi
  refine (results_becomes scope heap x).bind fun z hz => ?_
  simp only [hp, convert, hx.needsConversion_eq p, if_true]
  exact results_emit ⟨p, z, rfl, hz⟩

lemma converted_body (hx : x.type.IsWrapper) {i : Nat} (hi : Converts note i) :
    Results (fun b => ∃ z, b.yielded? = some z ∧ Converted scope heap x z)
      (body x.type (conversionAt note i) (lower scope heap x)) :=
  (converted_operand hx hi).body

lemma convertedAt_unaryOperation (h : Converted scope heap x y) {op : UnaryOperator}
    (hop : op = .minus ∨ op = .complement) (type : TypeRef) :
    Results (ConvertedAt scope heap x [.operand 0]) (unaryOperation type y op) := by
  rcases hop with rfl | rfl
  · exact results_emit ⟨rfl, y, Operand.inside?_operand rfl, h⟩
  · exact results_behind fun ones => results_emit ⟨rfl, y, Operand.inside?_operand rfl, h⟩

lemma convertedAt_operation {op : BinaryOperator} (hop : chainHead? op = none) {l r : Operand} {i : Nat}
    (hy : [l, r][i]? = some y) (h : Converted scope heap x y) :
    Results (ConvertedAt scope heap x [.operand i]) (operation note op l r) := by
  cases op with
  | conjunction | disjunction => cases hop
  | arith | shift | compare => exact results_emit ⟨rfl, y, Operand.inside?_operand hy, h⟩

/-- Lowering converts an operand that is a wrapper where its primitive value is used. -/
theorem convertedAt_lower {place : Place} (h : IsChecked scope heap u) (huse : Unboxes u x place)
    (hx : x.type.IsWrapper) : Results (ConvertedAt scope heap x place) (lower scope heap u) := by
  obtain ⟨e, he⟩ := h
  cases huse with
  | plus =>
    cases accepts_of_check he with
    | unary _ hnote =>
      rw [lower_unary]
      exact (converted_operand hx (converts_unary (by simp) hx.isDynamic_eq hnote)).bind fun y hy =>
        results_pure hy.at_itself
  | @unary _ op _ hop =>
    cases accepts_of_check he with
    | unary _ hnote =>
      have hplain : op ≠ .not := by rcases hop with rfl | rfl <;> simp
      rw [lower_unary]
      exact (converted_operand hx (converts_unary hplain hx.isDynamic_eq hnote)).bind fun y hy =>
        convertedAt_unaryOperation hy hop _
  | left hop =>
    cases accepts_of_check he with
    | binary _ _ hnote =>
      rw [lower_binary _ hop.chainHead?_eq]
      exact (converted_operand hx (converts_binary hop hnote).1).bind fun y hy => results_behind fun z =>
        convertedAt_operation hop.chainHead?_eq rfl hy
  | right hop =>
    cases accepts_of_check he with
    | binary _ _ hnote =>
      rw [lower_binary _ hop.chainHead?_eq]
      exact results_behind fun z => (converted_operand hx (converts_binary hop hnote).2).bind fun y hy =>
        convertedAt_operation hop.chainHead?_eq rfl hy
  | index =>
    cases accepts_of_check he with
    | index _ _ hnote =>
      rw [lower]
      refine results_behind fun array => ?_
      rw [← bind_assoc]
      exact (converted_operand hx (converts_index hx.isDynamic_eq hnote)).bind fun y hy =>
        results_emit ⟨rfl, y, Operand.inside?_operand rfl, hy⟩
  | @cast _ _ _ p htype =>
    rw [lower, htype, Option.getD_some]
    refine (results_becomes scope heap x).bind fun z hz => ?_
    have hobject : (x.type == .object) = false := hx.isDynamic_eq
    have hconverted : Converted scope heap x (.op (.of (.conv (.prim p)) [z])) := ⟨p, z, rfl, hz⟩
    simp only [castOperation, convert, hobject, hx.needsConversion_eq p, if_true, Bool.false_eq_true, if_false]
    exact results_emit hconverted.at_itself
  | thenArm hxn hyn hprim =>
    cases accepts_of_check he with
    | conditional _ _ _ _ hnote =>
      rw [lower_conditional]
      have harm := @converted_body scope heap _ _ hx _ (converts_arms hxn hyn (Or.inr hprim) hnote).1
      refine results_behind fun c => harm.bind fun yes hyes => results_behind fun no => ?_
      obtain ⟨z, hyield, hz⟩ := hyes
      exact results_emit ⟨rfl, z, Operand.inside?_body rfl hyield, hz⟩
  | elseArm hxn hyn hprim =>
    cases accepts_of_check he with
    | conditional _ _ _ _ hnote =>
      rw [lower_conditional]
      have harm := @converted_body scope heap _ _ hx _ (converts_arms hxn hyn (Or.inl hprim) hnote).2
      refine results_behind fun c => results_behind fun yes => harm.bind fun no hno => ?_
      obtain ⟨z, hyield, hz⟩ := hno
      exact results_emit ⟨rfl, z, Operand.inside?_body rfl hyield, hz⟩

end Lowering

/-! ### Where a conversion fails -/

namespace Evaluation

variable {captures : Captures} {before after : Progress} {n d : Trace}

/-- The conversion of `null` to a primitive type is a null pointer error. -/
lemma threw_of_conversion {p : Primitive} {z : Operand}
    (h : Gives (evaluateOperand captures (.op (.of (.conv (.prim p)) [z]))) before n after)
    (hd : d ∈ n.children) (hnull : d.value? = some .null) : n.outcome = .threw .nullPointer := by
  obtain ⟨r, q, hoperands, hnodes, ho⟩ := gives_strict rfl rfl h
  rw [hnodes] at hd
  cases hoperands with
  | failed _ hv =>
    obtain rfl := List.mem_singleton.mp hd
    rw [hv] at hnull
    cases hnull
  | next _ hv hrest =>
    cases hrest
    obtain rfl := List.mem_singleton.mp hd
    obtain rfl : _ = Value.null := Option.some.inj (hv.symm.trans hnull)
    exact (gives_outcomeOf.mp ho).2

/-- An op that converts `null` at a place inside of it fails with a null pointer error. -/
theorem threw_of_null {y z : Operand} {p : Primitive} {place : Place}
    (h : Gives (evaluateOperand captures y) before n after) (hy : y.WellShaped)
    (hconv : y.inside? place = some (.op (.of (.conv (.prim p)) [z])))
    (hd : (place ++ [.operand 0], d) ∈ n.places) (hnull : d.value? = some .null) :
    n.outcome = .threw .nullPointer := by
  obtain ⟨c, hc, hdc⟩ := Trace.exists_of_mem_places_append hd
  obtain ⟨_, q, q', hinside, hg⟩ := (located_of_gives h hy (place, c) hc).inside
  obtain rfl := Option.some.inj (hconv.symm.trans hinside)
  obtain ⟨i, hi, -⟩ := Trace.child_of_mem_places hdc
  have hthrew : c.outcome = .threw .nullPointer := threw_of_conversion hg (List.mem_of_getElem? hi) hnull
  have hnode : c ∈ n.nodes := by
    rw [← Trace.map_snd_places]
    exact List.mem_map_of_mem hc
  rw [← hthrew]
  exact Trace.outcome_of_failed (fun m hm => (node_origin h hm).failsWithLast) hnode
    (by simp [Trace.hasValue, Trace.value?, hthrew, Outcome.value?])

end Evaluation

/-- Whenever a predicate is evaluated, `null` at a place inside of the node at another place is a null pointer
error of that node. -/
def Quoted.RejectsNull (q : Quoted) (outer inner : Place) : Prop :=
  ∀ later t p, q.evaluate later = (.ok t, p) → ∀ n d, (outer, n) ∈ t.places → (inner, d) ∈ n.places →
    d.value? = some .null → n.outcome = .threw .nullPointer

lemma Lowering.rejectsNull_of_conversion {scope : Scope} {heap : Heap} {te : TypedExpr} {y z : Operand} {p : Primitive}
    {outer inner : Place} (houter : (root scope heap te).inside? outer = some y)
    (hinner : y.inside? inner = some (.op (.of (.conv (.prim p)) [z]))) :
    (quote scope heap te).RejectsNull outer (inner ++ [.operand 0]) := by
  intro later t p' ht n d hn hd hnull
  obtain ⟨_, _, _, _, hshaped⟩ := emits_lower scope heap te ⟨[], []⟩
  obtain ⟨_, _, -, hg⟩ := gives_of_mem_places houter ht hn
  exact Evaluation.threw_of_null hg (hshaped.of_part (Operand.part_of_inside? houter)) hinner hd hnull

/-- In an accepted predicate, an expression of a wrapper class that is `null` is a null pointer error of the op
that uses its primitive value. -/
theorem null_unboxing_throws {scope : Scope} {heap : Heap} {e : Expr Position} {te u x : TypedExpr} {inner : Place}
    (h : Typing.checkPredicate scope heap e = .ok te) (hu : u.Within te) (huse : Unboxes u x inner)
    (hx : x.type.IsWrapper) :
    (∃ outer y, (Lowering.root scope heap te).inside? outer = some y ∧ Lowering.Becomes scope heap u y) ∧
      ∀ outer y, (Lowering.root scope heap te).inside? outer = some y → Lowering.Becomes scope heap u y →
        (∃ z, y.inside? (inner ++ [.operand 0]) = some z ∧ Lowering.Becomes scope heap x z) ∧
          (Lowering.quote scope heap te).RejectsNull outer (inner ++ [.operand 0]) := by
  have hchecked : IsChecked scope heap u := IsChecked.within ⟨e, (Typing.checkPredicate_eq_ok.mp h).1⟩ hu
  have hconverted := Lowering.convertedAt_lower hchecked huse hx
  constructor
  · have hplain (y : Operand) (hy : Lowering.Becomes scope heap u y) : y.isChain = false := by
      obtain ⟨b, rfl⟩ := hy
      exact (hconverted b).1
    obtain ⟨y, hpart, hy⟩ := Lowering.contains_of_within hplain hu ⟨[], []⟩
    obtain ⟨outer, houter⟩ := hpart.exists_inside?
    exact ⟨outer, y, houter, hy⟩
  · rintro outer y houter ⟨b, hy⟩
    obtain ⟨-, _, hinner, p, z, rfl, hz⟩ := hy ▸ hconverted b
    refine ⟨⟨z, ?_, hz⟩, Lowering.rejectsNull_of_conversion houter hinner⟩
    rw [Operand.inside?_append, hinner, Option.bind_some, Operand.inside?_operand rfl]

/-- The comparison inside of a negation unboxes a `null` that is cast to a wrapper class, and both of them fail. -/
theorem null_unboxing_throws_of_comparison :
    let scope : Scope := ⟨[], none, ⟨[("Integer", .name "java.lang.Integer")]⟩⟩
    let target : TypeName := ⟨.named ["Integer"], 0, ⟨1, 4⟩⟩
    let e : Expr Position := .unary ⟨1, 1⟩ .not (.binary ⟨1, 17⟩ (.compare .lt)
      (.cast ⟨1, 3⟩ target (.literal ⟨1, 12⟩ .null)) (.literal ⟨1, 18⟩ (.int 5)))
    let x : TypedExpr := .cast (.plain ⟨1, 3⟩ (.ofName "java.lang.Integer")) target
      (.literal (.plain ⟨1, 12⟩ .null) .null)
    let u : TypedExpr := .binary (.converting ⟨1, 17⟩ (.prim .boolean) [some .int, some .int]) (.compare .lt) x
      (.literal (.plain ⟨1, 18⟩ (.prim .int)) (.int 5))
    let te : TypedExpr := .unary (.converting ⟨1, 1⟩ (.prim .boolean) [none]) .not u
    Typing.checkPredicate scope Heap.empty e = .ok te ∧ u.Within te ∧ Unboxes u x [.operand 0] ∧
      x.type.IsWrapper ∧
      (Lowering.quote scope Heap.empty te).rootOutcome Heap.empty =
        (.ok (.threw .nullPointer), ⟨Heap.empty, []⟩) ∧
      (∃ outer y, (Lowering.root scope Heap.empty te).inside? outer = some y ∧
        Lowering.Becomes scope Heap.empty u y) ∧
      ∀ outer y, (Lowering.root scope Heap.empty te).inside? outer = some y →
        Lowering.Becomes scope Heap.empty u y →
          (∃ z, y.inside? [.operand 0, .operand 0] = some z ∧ Lowering.Becomes scope Heap.empty x z) ∧
            (Lowering.quote scope Heap.empty te).RejectsNull outer [.operand 0, .operand 0] := by
  intro scope target e x u te
  have h : Typing.checkPredicate scope Heap.empty e = .ok te := rfl
  have hu : u.Within te := .single (List.mem_singleton.mpr rfl)
  have huse : Unboxes u x [.operand 0] := .left ⟨rfl, rfl, trivial⟩
  have hx : x.type.IsWrapper := ⟨rfl, rfl⟩
  exact ⟨h, hu, huse, hx, rfl, null_unboxing_throws h hu huse hx⟩

/-- The negation of a `null` that is cast to a wrapper class has no conversion to fail, and is unsupported. -/
theorem null_negation_unsupported :
    let scope : Scope := ⟨[], none, ⟨[("Boolean", .name "java.lang.Boolean")]⟩⟩
    let e : Expr Position := .unary ⟨1, 1⟩ .not
      (.cast ⟨1, 2⟩ ⟨.named ["Boolean"], 0, ⟨1, 3⟩⟩ (.literal ⟨1, 12⟩ .null))
    ∃ note x n d p, Typing.checkPredicate scope Heap.empty e = .ok (.unary note .not x) ∧ x.type.IsWrapper ∧
      (Lowering.quote scope Heap.empty (.unary note .not x)).evaluate Heap.empty = (.ok n, p) ∧
      n.children = [d] ∧ d.value? = some .null ∧ n.outcome = .unsupported :=
  ⟨_, _, _, _, _, rfl, ⟨rfl, rfl⟩, rfl, rfl, rfl, rfl⟩

end PredicateTrace
