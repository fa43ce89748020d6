import PredicateTrace.Lowering
import PredicateTrace.Proofs.AcceptedForms
import PredicateTrace.Proofs.PrimitiveKinds

/-!
# Typing of the primitive fragment

The fragment of the checked expressions whose parts all have primitive types, and what checking says about
them: a relation with one rule for each form, which states the exact types and conversions that the checker
records.
-/

namespace PredicateTrace

open Host (Heap)
open Typing (plain named converting isBitwise)

/-! ### The fragment -/

/-- The type that was found is primitive. -/
def Typing.IsPrimitive (note : Typing) : Prop :=
  ∃ p, note.type = some (.prim p)

/-- An operation on two truth values that is written with a bitwise operator. -/
def BinaryOperator.IsLogicalBits (op : BinaryOperator) (left right : TypeRef) : Prop :=
  ∃ a, op = .arith a ∧ isBitwise a = true ∧ left = .prim .boolean ∧ right = .prim .boolean

/-- Literals, local variables, operators, casts and conditionals, in which every part has a primitive type.
Where arrays are allowed, variables may also be arrays of a primitive type, whose elements and lengths can be
taken. Bitwise operations on truth values are left out. -/
def Expr.Elementary (arrays : Bool) : TypedExpr → Prop
  | .literal note _ => note.IsPrimitive
  | .name note _ =>
    note.role = some .local ∧
      (note.IsPrimitive ∨ arrays = true ∧ ∃ p, note.type = some (.array (.prim p)))
  | .unary note _ x => note.IsPrimitive ∧ x.Elementary arrays
  | .binary note op l r =>
    note.IsPrimitive ∧ l.Elementary arrays ∧ r.Elementary arrays ∧ ¬op.IsLogicalBits l.type r.type
  | .cast note _ x => note.IsPrimitive ∧ x.Elementary arrays
  | .conditional note c yes no =>
    note.IsPrimitive ∧ c.Elementary arrays ∧ yes.Elementary arrays ∧ no.Elementary arrays
  | .index note array place =>
    arrays = true ∧ note.IsPrimitive ∧ array.Elementary arrays ∧ place.Elementary arrays
  | .field note array _ => arrays = true ∧ note.role = some .length ∧ array.Elementary arrays
  | _ => False

/-! ### Types of the fragment -/

namespace TypeRef

variable {p q : Primitive} {t : TypeRef}

@[simp] lemma isNumeric_prim : (prim p).isNumeric = p.isNumeric := rfl
@[simp] lemma isPrimitive_prim : (prim p).isPrimitive = true := rfl
@[simp] lemma isDynamic_prim : (prim p).isDynamic = false := rfl
@[simp] lemma isNumeric_array : (array t).isNumeric = false := rfl
@[simp] lemma isPrimitive_array : (array t).isPrimitive = false := rfl
@[simp] lemma isDynamic_array : (array t).isDynamic = false := rfl
@[simp] lemma isBoolean_array : (array t).isBoolean = false := rfl

@[simp]
lemma isBoolean_prim : (prim p).isBoolean = (p == .boolean) :=
  rfl

@[simp]
lemma beq_prim : ((prim p : TypeRef) == prim q) = (p == q) :=
  rfl

@[simp] lemma beq_prim_string : ((prim p : TypeRef) == string) = false := rfl
@[simp] lemma beq_prim_object : ((prim p : TypeRef) == object) = false := rfl
@[simp] lemma beq_prim_null : ((prim p : TypeRef) == null) = false := rfl
@[simp] lemma beq_array_string : ((array t : TypeRef) == string) = false := rfl
@[simp] lemma beq_array_null : ((array t : TypeRef) == null) = false := rfl
@[simp] lemma beq_array_prim : ((array t : TypeRef) == prim q) = false := rfl
@[simp] lemma beq_prim_array : ((prim p : TypeRef) == array t) = false := rfl

end TypeRef

/-! ### The rules of checking -/

/-- A local variable that holds an array of a primitive type. -/
inductive ArrayLocal (scope : Scope) (heap : Heap) : Expr Position → TypedExpr → Primitive → Prop
  | intro {pos n v p} (hv : scope.local? heap n = some v) (hp : v.staticType = .array (.prim p)) :
      ArrayLocal scope heap (.name pos n) (.name (named pos (.array (.prim p)) .local) n) p

/-- What checking makes of the expressions of the fragment, and their kinds. -/
inductive Elaborates (arrays : Bool) (scope : Scope) (heap : Heap) :
    Expr Position → TypedExpr → Primitive → Prop
  | literal {pos v p} (hp : Typing.literalType v = .prim p) :
      Elaborates arrays scope heap (.literal pos v) (.literal (plain pos (.prim p)) v) p
  | name {pos n v p} (hv : scope.local? heap n = some v) (hp : v.kind? = some p) :
      Elaborates arrays scope heap (.name pos n) (.name (named pos (.prim p) .local) n) p
  | not {pos x tx} (hx : Elaborates arrays scope heap x tx .boolean) :
      Elaborates arrays scope heap (.unary pos .not x)
        (.unary (converting pos (.prim .boolean) [none]) .not tx) .boolean
  | signed {pos op x tx p} (hop : op ≠ .not) (hx : Elaborates arrays scope heap x tx p)
      (hp : p.isNumeric = true) (hwhole : op = .complement → p.isIntegral = true) :
      Elaborates arrays scope heap (.unary pos op x)
        (.unary (converting pos (.prim p.promoted) [some p.promoted]) op tx) p.promoted
  | logical {pos op l r tl tr head} (hop : Lowering.chainHead? op = some head)
      (hl : Elaborates arrays scope heap l tl .boolean) (hr : Elaborates arrays scope heap r tr .boolean) :
      Elaborates arrays scope heap (.binary pos op l r)
        (.binary (converting pos (.prim .boolean) [none, none]) op tl tr) .boolean
  | arith {pos op l r tl tr p q} (hl : Elaborates arrays scope heap l tl p)
      (hr : Elaborates arrays scope heap r tr q) (hp : p.isNumeric = true) (hq : q.isNumeric = true)
      (hbits : isBitwise op = true → p.isIntegral = true ∧ q.isIntegral = true) :
      Elaborates arrays scope heap (.binary pos (.arith op) l r)
        (.binary (converting pos (.prim (p.common q)) [some (p.common q), some (p.common q)]) (.arith op) tl tr)
        (p.common q)
  | shift {pos op l r tl tr p q} (hl : Elaborates arrays scope heap l tl p)
      (hr : Elaborates arrays scope heap r tr q) (hp : p.isIntegral = true) (hq : q.isIntegral = true) :
      Elaborates arrays scope heap (.binary pos (.shift op) l r)
        (.binary (converting pos (.prim p.promoted) [some p.promoted, some q.promoted]) (.shift op) tl tr)
        p.promoted
  | compareNumbers {pos op l r tl tr p q} (hl : Elaborates arrays scope heap l tl p)
      (hr : Elaborates arrays scope heap r tr q) (hp : p.isNumeric = true) (hq : q.isNumeric = true) :
      Elaborates arrays scope heap (.binary pos (.compare op) l r)
        (.binary (converting pos (.prim .boolean) [some (p.common q), some (p.common q)]) (.compare op) tl tr)
        .boolean
  | compareTruths {pos op l r tl tr} (hop : op = .eq ∨ op = .neq)
      (hl : Elaborates arrays scope heap l tl .boolean) (hr : Elaborates arrays scope heap r tr .boolean) :
      Elaborates arrays scope heap (.binary pos (.compare op) l r)
        (.binary (converting pos (.prim .boolean) [none, none]) (.compare op) tl tr) .boolean
  | compareArrays {pos op l r tl tr p q} (hop : op = .eq ∨ op = .neq)
      (hl : ArrayLocal scope heap l tl p) (hr : ArrayLocal scope heap r tr q) :
      Elaborates arrays scope heap (.binary pos (.compare op) l r)
        (.binary (converting pos (.prim .boolean) [none, none]) (.compare op) tl tr) .boolean
  | cast {pos t x tx p q} (ht : Typing.writtenType scope.resolver t = .prim q)
      (hx : Elaborates arrays scope heap x tx p)
      (hpq : p.isNumeric = true ∧ q.isNumeric = true ∨ p = .boolean ∧ q = .boolean) :
      Elaborates arrays scope heap (.cast pos t x) (.cast (converting pos (.prim q) [some q]) t tx) q
  | numericChoice {pos c yes no tc tyes tno p q} (hc : Elaborates arrays scope heap c tc .boolean)
      (hyes : Elaborates arrays scope heap yes tyes p) (hno : Elaborates arrays scope heap no tno q)
      (hp : p.isNumeric = true) (hq : q.isNumeric = true) :
      Elaborates arrays scope heap (.conditional pos c yes no)
        (.conditional (converting pos (.prim (p.common q)) [none, some (p.common q), some (p.common q)])
          tc tyes tno) (p.common q)
  | truthChoice {pos c yes no tc tyes tno} (hc : Elaborates arrays scope heap c tc .boolean)
      (hyes : Elaborates arrays scope heap yes tyes .boolean)
      (hno : Elaborates arrays scope heap no tno .boolean) :
      Elaborates arrays scope heap (.conditional pos c yes no)
        (.conditional (converting pos (.prim .boolean) [none, none, none]) tc tyes tno) .boolean
  | index {pos a i ta ti p q} (harrays : arrays = true) (ha : ArrayLocal scope heap a ta p) (hp : p ≠ .void)
      (hi : Elaborates arrays scope heap i ti q) (hq : q.isIntegral = true) :
      Elaborates arrays scope heap (.index pos a i) (.index (converting pos (.prim p) [none, some .int]) ta ti) p
  | length {pos a ta p} (ha : ArrayLocal scope heap a ta p) :
      Elaborates arrays scope heap (.field pos a "length")
        (.field (named pos (.prim .int) .length) ta "length") .int

variable {arrays : Bool} {scope : Scope} {heap : Heap} {e : Expr Position} {te : TypedExpr}
  {k p q : Primitive}

lemma Elaborates.type_eq (h : Elaborates arrays scope heap e te k) : te.type = .prim k := by
  cases h <;> rfl

lemma ArrayLocal.type_eq (h : ArrayLocal scope heap e te p) : te.type = .array (.prim p) := by
  cases h
  rfl

/-- What can be said about a checked expression of the fragment: it follows the rules, or is a variable that
holds an array, or has the type `void`, of which no operation makes anything. -/
inductive Checked (arrays : Bool) (scope : Scope) (heap : Heap) (e : Expr Position) (te : TypedExpr) : Prop
  | kind {m : Primitive} (h : Elaborates arrays scope heap e te m)
  | array {m : Primitive} (harrays : arrays = true) (h : ArrayLocal scope heap e te m)
  | void (harrays : arrays = true) (h : te.type = .prim .void)

/-- No rule gives an expression the type `void`. -/
lemma Elaborates.kind_ne_void (h : Elaborates arrays scope heap e te k) : k ≠ .void := by
  have hpromoted {m : Primitive} (hm : m.IsPromoted) : m ≠ .void := by
    rintro rfl
    simp [Primitive.IsPromoted] at hm
  cases h with
  | @literal _ v _ hp => cases v <;> cases hp <;> simp
  | @name _ _ v _ _ hp =>
    rintro rfl
    exact Value.kind?_ne_void v hp
  | signed _ _ hp => exact hpromoted (Primitive.isPromoted_promoted hp)
  | arith => exact hpromoted (Primitive.isPromoted_common _ _)
  | shift _ _ hp => exact hpromoted (Primitive.isWhole_promoted hp).isPromoted
  | cast _ _ hpq =>
    rintro rfl
    rcases hpq with ⟨_, hq⟩ | ⟨_, hq⟩ <;> cases hq
  | numericChoice => exact hpromoted (Primitive.isPromoted_common _ _)
  | index _ _ hp => exact hp
  | _ => simp

namespace Checked

lemma not_dynamic (h : Checked arrays scope heap e te) : te.type.isDynamic = false := by
  cases h with
  | kind h => rw [h.type_eq, TypeRef.isDynamic_prim]
  | array _ h => rw [h.type_eq, TypeRef.isDynamic_array]
  | void _ h => rw [h, TypeRef.isDynamic_prim]

lemma of_numeric (h : Checked arrays scope heap e te) (hn : te.type.isNumeric = true) :
    ∃ k, Elaborates arrays scope heap e te k ∧ te.type = .prim k ∧ k.isNumeric = true := by
  cases h with
  | kind h =>
    rw [h.type_eq] at hn
    exact ⟨_, h, h.type_eq, hn⟩
  | array _ h => simp [h.type_eq] at hn
  | void _ h =>
    rw [h] at hn
    cases hn

lemma of_boolean (h : Checked arrays scope heap e te) (hb : te.type.isBoolean = true) :
    Elaborates arrays scope heap e te .boolean ∧ te.type = .prim .boolean := by
  cases h with
  | kind h =>
    rw [h.type_eq, TypeRef.isBoolean_prim, beq_iff_eq] at hb
    subst hb
    exact ⟨h, h.type_eq⟩
  | array _ h => simp [h.type_eq] at hb
  | void _ h =>
    rw [h] at hb
    cases hb

lemma of_condition (h : Checked arrays scope heap e te) (hc : te.type.isCondition = true) :
    Elaborates arrays scope heap e te .boolean ∧ te.type = .prim .boolean := by
  rw [TypeRef.isCondition, h.not_dynamic, Bool.or_false] at hc
  exact h.of_boolean hc

lemma of_reference (h : Checked arrays scope heap e te) (hr : te.type.isPrimitive = false) :
    arrays = true ∧ ∃ p, ArrayLocal scope heap e te p := by
  cases h with
  | kind h => simp [h.type_eq] at hr
  | array harrays h => exact ⟨harrays, _, h⟩
  | void _ h => simp [h] at hr

lemma type_cases (h : Checked arrays scope heap e te) :
    (∃ m, te.type = .prim m) ∨ ∃ m, te.type = .array (.prim m) := by
  cases h with
  | kind h => exact Or.inl ⟨_, h.type_eq⟩
  | array _ h => exact Or.inr ⟨_, h.type_eq⟩
  | void _ h => exact Or.inl ⟨_, h⟩

lemma of_void (h : Checked arrays scope heap e te) (hv : te.type = .prim .void) : arrays = true := by
  cases h with
  | kind h => exact absurd (TypeRef.prim.inj (h.type_eq.symm.trans hv)) h.kind_ne_void
  | array harrays _ => exact harrays
  | void harrays _ => exact harrays

end Checked

/-! ### What the parts of the checker accept -/

section Accepted

variable {pos : Position} {note : Typing} {s t : TypeRef}

lemma unaryType_eq_ok {op : UnaryOperator} (ht : t.isDynamic = false)
    (h : Typing.unaryType pos op t = .ok note) :
    op = .not ∧ t.isBoolean = true ∧ note = converting pos (.prim .boolean) [none] ∨
      op ≠ .not ∧ t.isNumeric = true ∧ (op = .complement → t.isIntegral = true) ∧
        note = converting pos (.prim t.promoted) [some t.promoted] := by
  cases op with
  | not =>
    simp only [Typing.unaryType, TypeRef.isCondition, ht, Bool.or_false] at h
    split at h
    · next hb => exact Or.inl ⟨rfl, hb, (Except.ok.inj h).symm⟩
    · cases h
  | _ =>
    simp only [Typing.unaryType, ht] at h
    split at h
    · next hd => cases hd
    · split at h
      · cases h
      · next hwhole =>
        split at h
        · cases h
        · next hn =>
          refine Or.inr ⟨by simp, by simpa using hn, fun hop => ?_, (Except.ok.inj h).symm⟩
          cases hop <;> simpa using hwhole

lemma numericType_eq_ok {op : BinaryOperator} {accepts : TypeRef → Bool}
    {promote : Primitive × Primitive × Primitive} (hs : s.isDynamic = false) (ht : t.isDynamic = false)
    (h : Typing.numericType pos op s t accepts promote = .ok note) :
    accepts s = true ∧ accepts t = true ∧
      note = converting pos (.prim promote.1) [some promote.2.1, some promote.2.2] := by
  simp only [Typing.numericType, hs, ht] at h
  split at h
  · next hd => cases hd
  · split at h
    · next haccepts =>
      rw [Bool.and_eq_true] at haccepts
      exact ⟨haccepts.1, haccepts.2, (Except.ok.inj h).symm⟩
    · cases h

lemma equalityType_eq_ok {op : BinaryOperator} (hs : s.isDynamic = false) (ht : t.isDynamic = false)
    (h : Typing.equalityType pos op s t = .ok note) :
    s.isNumeric = true ∧ t.isNumeric = true ∧
        note = converting pos (.prim .boolean)
          [some (TypeRef.binaryPromotion s t), some (TypeRef.binaryPromotion s t)] ∨
      note = converting pos (.prim .boolean) [none, none] ∧
        (s.isBoolean = true ∧ t.isBoolean = true ∨ s.isPrimitive = false ∧ t.isPrimitive = false) := by
  simp only [Typing.equalityType, hs, ht, Bool.or_false] at h
  split at h
  · next hn =>
    rw [Bool.and_eq_true, Bool.and_eq_true] at hn
    exact Or.inl ⟨hn.1.1, hn.1.2, (Except.ok.inj h).symm⟩
  · split at h
    · next hequal => exact Or.inr ⟨(Except.ok.inj h).symm, by simpa using hequal⟩
    · cases h

lemma relationalType_eq_ok {op : BinaryOperator} (hs : s.isDynamic = false) (ht : t.isDynamic = false)
    (h : Typing.relationalType pos op s t = .ok note) :
    s.isNumeric = true ∧ t.isNumeric = true ∧
      note = converting pos (.prim .boolean)
        [some (TypeRef.binaryPromotion s t), some (TypeRef.binaryPromotion s t)] := by
  simp only [Typing.relationalType, hs, ht] at h
  split at h
  · next hd => cases hd
  · split at h
    · next hn =>
      rw [Bool.and_eq_true] at hn
      exact ⟨hn.1, hn.2, (Except.ok.inj h).symm⟩
    · cases h

lemma castType_eq_ok (hs : s.isDynamic = false) (h : Typing.castType pos s t = .ok note)
    (hnote : note.IsPrimitive) :
    ∃ m, t = .prim m ∧ note = converting pos (.prim m) [some m] ∧
      (m.isNumeric = true ∧ s.isNumeric = true ∨ m = .boolean ∧ s.isBoolean = true) := by
  cases t with
  | prim m =>
    simp only [Typing.castType, TypeRef.isNumericOrDynamic, TypeRef.isCondition, hs, Bool.or_false] at h
    split at h
    · next hm => exact ⟨m, rfl, (Except.ok.inj h).symm, by simpa using hm⟩
    · cases h
  | _ =>
    simp only [Typing.castType] at h
    split at h
    · cases h
    · obtain rfl := (Except.ok.inj h).symm
      obtain ⟨m, hm⟩ := hnote
      cases hm

/-- Between two types of the fragment, a conditional with a primitive type has two numeric arms or two truth
values, or is of type `void`. -/
lemma conditionalType_eq_ok {c : TypeRef} (hs : (∃ m, s = .prim m) ∨ ∃ m, s = .array m)
    (ht : (∃ m, t = .prim m) ∨ ∃ m, t = .array m) (h : Typing.conditionalType pos c s t = .ok note)
    (hnote : note.IsPrimitive) :
    c.isCondition = true ∧
      (s.isNumeric = true ∧ t.isNumeric = true ∧ note = converting pos (.prim (TypeRef.binaryPromotion s t))
          [none, some (TypeRef.binaryPromotion s t), some (TypeRef.binaryPromotion s t)] ∨
        s.isBoolean = true ∧ t.isBoolean = true ∧ note = converting pos (.prim .boolean) [none, none, none] ∨
        s = .prim .void ∧ note.type = some (.prim .void)) := by
  obtain ⟨m, hm⟩ := hnote
  unfold Typing.conditionalType at h
  split at h
  · cases h
  next hc =>
  refine ⟨by simpa using hc, ?_⟩
  split at h
  · next hn =>
    rw [Bool.and_eq_true, Bool.and_eq_true] at hn
    exact Or.inl ⟨hn.1.1, hn.1.2, (Except.ok.inj h).symm⟩
  next hn =>
  split at h
  · next hb =>
    rw [Bool.and_eq_true] at hb
    exact Or.inr (Or.inl ⟨hb.1, hb.2, (Except.ok.inj h).symm⟩)
  next hb =>
  refine Or.inr (Or.inr ?_)
  rw [hm]
  rcases hs with ⟨a, rfl⟩ | ⟨a, rfl⟩ <;> rcases ht with ⟨b, rfl⟩ | ⟨b, rfl⟩
  · by_cases hab : a = b
    · subst hab
      obtain rfl : note = _ := by simpa using h.symm
      obtain rfl : a = m := by simpa [converting] using hm
      cases a <;> simp [Primitive.isNumeric, Primitive.isIntegral, Primitive.isFloating] at hn hb ⊢
    · obtain rfl : note = _ := by simpa [hab] using h.symm
      cases hm
  · obtain rfl : note = _ := by simpa using h.symm
    cases hm
  · obtain rfl : note = _ := by simpa using h.symm
    cases hm
  · simp only [TypeRef.beq_array_null, Bool.or_false] at h
    split at h
    all_goals
      obtain rfl := (Except.ok.inj h).symm
      cases hm

lemma indexType_eq_ok (hs : (∃ m, s = .prim m) ∨ ∃ m, s = .array m) (ht : t.isDynamic = false)
    (h : Typing.indexType pos s t = .ok note) :
    t.isIntegral = true ∧ ∃ m, s = .array m ∧ note = converting pos m [none, some .int] := by
  simp only [Typing.indexType, ht] at h
  split at h
  · cases h
  next hindex =>
  have hwhole : t.isIntegral = true := by
    simp [TypeRef.isIndex] at hindex
    exact hindex.1
  refine ⟨hwhole, ?_⟩
  rw [if_pos hwhole] at h
  rcases hs with ⟨m, rfl⟩ | ⟨m, rfl⟩
  · cases h
  · exact ⟨m, rfl, (Except.ok.inj h).symm⟩

end Accepted

/-! ### Checking follows the rules -/

namespace Checked

variable {pos : Position} {note : Typing} {x l r : Expr Position} {tx tl tr : TypedExpr}

lemma type_ne_string (h : Checked arrays scope heap e te) : (te.type == .string) = false := by
  rcases h.type_cases with ⟨m, hm⟩ | ⟨m, hm⟩ <;> rw [hm]
  · exact TypeRef.beq_prim_string
  · exact TypeRef.beq_array_string

lemma unary {op : UnaryOperator} (hx : Checked arrays scope heap x tx)
    (h : Typing.unaryType pos op tx.type = .ok note) :
    Checked arrays scope heap (.unary pos op x) (.unary note op tx) := by
  rcases unaryType_eq_ok hx.not_dynamic h with ⟨rfl, hb, rfl⟩ | ⟨hop, hn, hwhole, rfl⟩
  · exact .kind (.not (hx.of_boolean hb).1)
  · obtain ⟨m, hm, htype, hnumeric⟩ := hx.of_numeric hn
    rw [htype] at hwhole ⊢
    exact .kind (.signed hop hm hnumeric hwhole)

/-- An operation on two numbers that are converted to their common kind. -/
lemma of_numericType {op : ArithOperator} {accepts : TypeRef → Bool}
    (hl : Checked arrays scope heap l tl) (hr : Checked arrays scope heap r tr)
    (haccepts : ∀ t : TypeRef, accepts t = true → t.isNumeric = true)
    (hbits : isBitwise op = true → ∀ t : TypeRef, accepts t = true → t.isIntegral = true)
    (h : Typing.numericType pos (.arith op) tl.type tr.type accepts
      (TypeRef.binaryPromotion tl.type tr.type, TypeRef.binaryPromotion tl.type tr.type,
        TypeRef.binaryPromotion tl.type tr.type) = .ok note) :
    Checked arrays scope heap (.binary pos (.arith op) l r) (.binary note (.arith op) tl tr) := by
  obtain ⟨hal, har, rfl⟩ := numericType_eq_ok hl.not_dynamic hr.not_dynamic h
  obtain ⟨m, hm, htl, hpm⟩ := hl.of_numeric (haccepts _ hal)
  obtain ⟨n, hn, htr, hpn⟩ := hr.of_numeric (haccepts _ har)
  have hwhole : isBitwise op = true → m.isIntegral = true ∧ n.isIntegral = true := by
    intro hop
    have hil := hbits hop _ hal
    have hir := hbits hop _ har
    rw [htl] at hil
    rw [htr] at hir
    exact ⟨hil, hir⟩
  rw [htl, htr]
  exact .kind (.arith hm hn hpm hpn hwhole)

lemma isNumeric_of_isIntegral {t : TypeRef} (h : t.isIntegral = true) : t.isNumeric = true := by
  unfold TypeRef.isIntegral at h
  unfold TypeRef.isNumeric
  cases hp : t.unboxed? with
  | none => simp [hp] at h
  | some p =>
    rw [hp] at h
    exact Primitive.isNumeric_of_isIntegral h

lemma arith {op : ArithOperator} (hl : Checked arrays scope heap l tl) (hr : Checked arrays scope heap r tr)
    (hbits : ¬BinaryOperator.IsLogicalBits (.arith op) tl.type tr.type)
    (h : Typing.binaryType pos (.arith op) tl.type tr.type = .ok note) :
    Checked arrays scope heap (.binary pos (.arith op) l r) (.binary note (.arith op) tl tr) := by
  simp only [Typing.binaryType, hl.type_ne_string, hr.type_ne_string, Bool.or_false, Bool.and_false] at h
  split at h
  · next hfalse => cases hfalse
  split at h
  · next hop =>
    split at h
    · next hb =>
      rw [Bool.and_eq_true] at hb
      exact absurd ⟨op, rfl, hop, (hl.of_boolean hb.1).2, (hr.of_boolean hb.2).2⟩ hbits
    · exact hl.of_numericType hr (fun _ => isNumeric_of_isIntegral) (fun _ _ hi => hi) h
  · next hop => exact hl.of_numericType hr (fun _ hn => hn) (fun hbit => absurd hbit hop) h

lemma shift {op : ShiftOperator} (hl : Checked arrays scope heap l tl) (hr : Checked arrays scope heap r tr)
    (h : Typing.binaryType pos (.shift op) tl.type tr.type = .ok note) :
    Checked arrays scope heap (.binary pos (.shift op) l r) (.binary note (.shift op) tl tr) := by
  have hnumeric : Typing.numericType pos (.shift op) tl.type tr.type TypeRef.isIntegral
      (tl.type.promoted, tl.type.promoted, tr.type.promoted) = .ok note := h
  obtain ⟨hil, hir, rfl⟩ := numericType_eq_ok hl.not_dynamic hr.not_dynamic hnumeric
  obtain ⟨m, hm, htl, -⟩ := hl.of_numeric (isNumeric_of_isIntegral hil)
  obtain ⟨n, hn, htr, -⟩ := hr.of_numeric (isNumeric_of_isIntegral hir)
  rw [htl] at hil ⊢
  rw [htr] at hir ⊢
  exact .kind (.shift hm hn hil hir)

lemma compareNumbers {op : CompareOperator} (hl : Checked arrays scope heap l tl)
    (hr : Checked arrays scope heap r tr) (hnl : tl.type.isNumeric = true) (hnr : tr.type.isNumeric = true) :
    Checked arrays scope heap (.binary pos (.compare op) l r)
      (.binary (converting pos (.prim .boolean) [some (TypeRef.binaryPromotion tl.type tr.type),
        some (TypeRef.binaryPromotion tl.type tr.type)]) (.compare op) tl tr) := by
  obtain ⟨m, hm, htl, hpm⟩ := hl.of_numeric hnl
  obtain ⟨n, hn, htr, hpn⟩ := hr.of_numeric hnr
  rw [htl, htr]
  exact .kind (.compareNumbers hm hn hpm hpn)

lemma equality {op : CompareOperator} (hop : op = .eq ∨ op = .neq) (hl : Checked arrays scope heap l tl)
    (hr : Checked arrays scope heap r tr)
    (h : Typing.equalityType pos (.compare op) tl.type tr.type = .ok note) :
    Checked arrays scope heap (.binary pos (.compare op) l r) (.binary note (.compare op) tl tr) := by
  rcases equalityType_eq_ok hl.not_dynamic hr.not_dynamic h with
    ⟨hnl, hnr, rfl⟩ | ⟨rfl, ⟨hbl, hbr⟩ | ⟨hpl, hpr⟩⟩
  · exact hl.compareNumbers hr hnl hnr
  · exact .kind (.compareTruths hop (hl.of_boolean hbl).1 (hr.of_boolean hbr).1)
  · obtain ⟨-, m, hm⟩ := hl.of_reference hpl
    obtain ⟨-, n, hn⟩ := hr.of_reference hpr
    exact .kind (.compareArrays hop hm hn)

lemma logical {op : BinaryOperator} {head : Head} (hop : Lowering.chainHead? op = some head)
    (hl : Checked arrays scope heap l tl) (hr : Checked arrays scope heap r tr)
    (h : Typing.binaryType pos op tl.type tr.type = .ok note) :
    Checked arrays scope heap (.binary pos op l r) (.binary note op tl tr) := by
  have hboth : (if tl.type.isCondition && tr.type.isCondition then
      Except.ok (converting pos (.prim .boolean) [none, none])
    else .error (TypeError.mk pos (.binaryOperands op tl.type tr.type))) = .ok note := by
    cases op <;> first | exact h | cases hop
  split at hboth
  · next hc =>
    rw [Bool.and_eq_true] at hc
    obtain rfl := (Except.ok.inj hboth).symm
    exact .kind (.logical hop (hl.of_condition hc.1).1 (hr.of_condition hc.2).1)
  · cases hboth

lemma binary {op : BinaryOperator} (hl : Checked arrays scope heap l tl) (hr : Checked arrays scope heap r tr)
    (hbits : ¬op.IsLogicalBits tl.type tr.type)
    (h : Typing.binaryType pos op tl.type tr.type = .ok note) :
    Checked arrays scope heap (.binary pos op l r) (.binary note op tl tr) := by
  cases op with
  | arith a => exact hl.arith hr hbits h
  | shift s => exact hl.shift hr h
  | conjunction => exact hl.logical rfl hr h
  | disjunction => exact hl.logical rfl hr h
  | compare c =>
    have hrelation (hr' : Typing.relationalType pos (.compare c) tl.type tr.type = .ok note) :
        Checked arrays scope heap (.binary pos (.compare c) l r) (.binary note (.compare c) tl tr) := by
      obtain ⟨hnl, hnr, rfl⟩ := relationalType_eq_ok hl.not_dynamic hr.not_dynamic hr'
      exact hl.compareNumbers hr hnl hnr
    cases c with
    | eq => exact equality (Or.inl rfl) hl hr h
    | neq => exact equality (Or.inr rfl) hl hr h
    | lt | le | gt | ge => exact hrelation h

lemma cast {t : TypeName} (hx : Checked arrays scope heap x tx) (hnote : note.IsPrimitive)
    (h : Typing.castType pos tx.type (Typing.writtenType scope.resolver t) = .ok note) :
    Checked arrays scope heap (.cast pos t x) (.cast note t tx) := by
  obtain ⟨m, ht, rfl, ⟨hm, hn⟩ | ⟨rfl, hb⟩⟩ := castType_eq_ok hx.not_dynamic h hnote
  · obtain ⟨n, hn, -, hpn⟩ := hx.of_numeric hn
    exact .kind (.cast ht hn (Or.inl ⟨hpn, hm⟩))
  · exact .kind (.cast ht (hx.of_boolean hb).1 (Or.inr ⟨rfl, rfl⟩))

lemma conditional {c yes no : Expr Position} {tc tyes tno : TypedExpr}
    (hc : Checked arrays scope heap c tc) (hyes : Checked arrays scope heap yes tyes)
    (hno : Checked arrays scope heap no tno) (hnote : note.IsPrimitive)
    (h : Typing.conditionalType pos tc.type tyes.type tno.type = .ok note) :
    Checked arrays scope heap (.conditional pos c yes no) (.conditional note tc tyes tno) := by
  have hshape {x : Expr Position} {tx : TypedExpr} (hx : Checked arrays scope heap x tx) :
      (∃ m, tx.type = .prim m) ∨ ∃ m, tx.type = .array m :=
    hx.type_cases.imp id fun ⟨m, hm⟩ => ⟨_, hm⟩
  obtain ⟨hcond, ⟨hy, hn, rfl⟩ | ⟨hy, hn, rfl⟩ | ⟨harm, hvoid⟩⟩ :=
    conditionalType_eq_ok (hshape hyes) (hshape hno) h hnote
  · obtain ⟨m, hm, hty, hpm⟩ := hyes.of_numeric hy
    obtain ⟨n, hn, htn, hpn⟩ := hno.of_numeric hn
    rw [hty, htn]
    exact .kind (.numericChoice (hc.of_condition hcond).1 hm hn hpm hpn)
  · exact .kind (.truthChoice (hc.of_condition hcond).1 (hyes.of_boolean hy).1 (hno.of_boolean hn).1)
  · exact .void (hyes.of_void harm) (by rw [Expr.type, Expr.note, hvoid, Option.getD_some])

lemma index {a i : Expr Position} {ta ti : TypedExpr} (harrays : arrays = true)
    (ha : Checked arrays scope heap a ta) (hi : Checked arrays scope heap i ti)
    (h : Typing.indexType pos ta.type ti.type = .ok note) :
    Checked arrays scope heap (.index pos a i) (.index note ta ti) := by
  obtain ⟨hwhole, m, hm, rfl⟩ :=
    indexType_eq_ok (ha.type_cases.imp id fun ⟨m, hm⟩ => ⟨_, hm⟩) hi.not_dynamic h
  obtain ⟨-, p, hp⟩ := ha.of_reference (by rw [hm, TypeRef.isPrimitive_array])
  obtain rfl : m = .prim p := by simpa [hp.type_eq] using hm.symm
  obtain ⟨n, hn, htype, -⟩ := hi.of_numeric (isNumeric_of_isIntegral hwhole)
  rw [htype] at hwhole
  by_cases hvoid : p = .void
  · subst hvoid
    exact .void harrays rfl
  · exact .kind (.index harrays hp hvoid hn hwhole)

end Checked

/-- What the checker makes of an expression of the fragment follows the rules. -/
theorem checked_of_check {arrays : Bool} {scope : Scope} {heap : Heap} :
    (e : Expr Position) → {te : TypedExpr} → Typing.check scope heap e = .ok te → te.Elementary arrays →
      Checked arrays scope heap e te
  | .literal _ v, te, h, he => by
    cases Typing.accepts_of_check h
    obtain ⟨p, hp⟩ := he
    have hv : Typing.literalType v = .prim p := Option.some.inj hp
    rw [hv]
    exact .kind (.literal hv)
  | .name .., te, h, he => by
    cases Typing.accepts_of_check h with
    | @«local» _ _ v hlocal =>
      rcases he.2 with ⟨p, hp⟩ | ⟨harrays, p, hp⟩
      · have hp : v.staticType = .prim p := Option.some.inj hp
        rw [hp]
        exact .kind (.name hlocal (Value.staticType_eq_prim.mp hp))
      · have hp : v.staticType = .array (.prim p) := Option.some.inj hp
        rw [hp]
        exact .array harrays (.intro hlocal hp)
    | thisField => cases he.1
  | .unary _ _ x, te, h, he => by
    cases Typing.accepts_of_check h with
    | unary hx hnote => exact (checked_of_check x hx he.2).unary hnote
  | .binary _ _ l r, te, h, he => by
    cases Typing.accepts_of_check h with
    | binary hl hr hnote =>
      obtain ⟨-, hel, her, hbits⟩ := he
      exact (checked_of_check l hl hel).binary (checked_of_check r hr her) hbits hnote
  | .cast _ _ x, te, h, he => by
    cases Typing.accepts_of_check h with
    | cast hx hnote => exact (checked_of_check x hx he.2).cast he.1 hnote
  | .conditional _ c yes no, te, h, he => by
    cases Typing.accepts_of_check h with
    | conditional hc _ hyes hno hnote =>
      obtain ⟨hprim, hec, heyes, heno⟩ := he
      exact (checked_of_check c hc hec).conditional (checked_of_check yes hyes heyes)
        (checked_of_check no hno heno) hprim hnote
  | .index _ a i, te, h, he => by
    cases Typing.accepts_of_check h with
    | index ha hi hnote =>
      obtain ⟨harrays, -, hea, hei⟩ := he
      exact (checked_of_check a ha hea).index harrays (checked_of_check i hi hei) hnote
  | .field _ a _, te, h, he => by
    cases Typing.accepts_of_check h with
    | length _ ha htype =>
      obtain ⟨-, p, hp⟩ := (checked_of_check a ha he.2.2).of_reference (by rw [htype]; rfl)
      exact .kind (.length hp)
    | staticField | field => cases he.2.1
  | .this .., te, h, he | .call .., te, h, he | .thisCall .., te, h, he | .newObject .., te, h, he
  | .newArray .., te, h, he | .instanceOf .., te, h, he | .assign .., te, h, he => by
    cases Typing.accepts_of_check h <;> exact he.elim

/-- A predicate of the fragment is a truth value. -/
lemma elaborates_of_checkPredicate (h : Typing.checkPredicate scope heap e = .ok te)
    (he : te.Elementary arrays) : Elaborates arrays scope heap e te .boolean := by
  obtain ⟨hcheck, -⟩ := Typing.checkPredicate_eq_ok.mp h
  obtain hcondition | ⟨_, _, _, _, rfl⟩ := Typing.isCondition_or_assign h
  · exact ((checked_of_check e hcheck he).of_condition hcondition).1
  · exact he.elim

end PredicateTrace
