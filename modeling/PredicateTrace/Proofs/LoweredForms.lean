import PredicateTrace.Proofs.AcceptedForms
import PredicateTrace.Proofs.EmittedOps

/-!
# What an expression is lowered to

Every call on a receiver that lowering makes has one. A constant, or a constant under signs and a conversion,
is only made of an expression of a primitive type, a string or `null`; under a sign or a conversion the type is
numeric.
-/

namespace PredicateTrace

open Host (Heap)

/-- No call inside of an operand lacks its receiver. -/
def Operand.Received (x : Operand) : Prop :=
  ∀ op, Operand.Part (.op op) x → op.head.lacksReceiver op.operands = false

lemma Operand.Received.of_part {x y : Operand} (hx : x.Received) (h : Operand.Part y x) : y.Received :=
  fun op hop => hx op (hop.trans h)

/-- What lowering makes is received. -/
lemma Operand.Emitted.received {P : String → Prop} {x : Operand} (hx : x.Emitted P) : x.Received :=
  fun _ hop => (hx _ hop).received

/-! ### Constants -/

/-- A constant. -/
def Operand.IsConstant : Operand → Prop
  | .op o => Trace.isConstant o = true
  | .param _ => False

/-- A constant under signs, or under signs and a conversion. -/
inductive Operand.IsTrivial : Operand → Prop
  | constant {x : Operand} (hx : x.IsConstant) : IsTrivial x
  | sign {type : TypeRef} {x : Operand} {bodies : List Body} (hx : x.IsTrivial) :
      IsTrivial (.op (.mk (.neg type) [x] bodies))
  | conversion {type : TypeRef} {x : Operand} {bodies : List Body} (hx : x.IsConstant) :
      IsTrivial (.op (.mk (.conv type) [x] bodies))

/-- If an operand is trivial then its type is numeric, or is that of another literal and it is a constant. -/
def Operand.TypedTrivially (t : TypeRef) (x : Operand) : Prop :=
  x.IsTrivial → (∃ p, t = .prim p ∧ p.isNumeric = true) ∨
    x.IsConstant ∧ (t = .string ∨ t = .null ∨ t = .prim .boolean)

lemma Operand.not_isTrivial {head : Head} {xs : List Operand} {bodies : List Body}
    (hconst : ∀ v t, head ≠ .const v t) (hneg : ∀ t, head ≠ .neg t) (hconv : ∀ t, head ≠ .conv t) :
    ¬(Operand.op (.mk head xs bodies)).IsTrivial := by
  intro h
  cases h with
  | constant hx =>
    cases head with
    | const v t => exact hconst v t rfl
    | _ => cases hx
  | sign => exact hneg _ rfl
  | conversion => exact hconv _ rfl

/-- Where a truth value is expected, only a constant is trivial. -/
lemma Operand.TypedTrivially.constant {t : TypeRef} {x : Operand} (h : x.TypedTrivially t)
    (ht : t.isCondition = true) (hx : x.IsTrivial) : x.IsConstant ∧ t = .prim .boolean := by
  rcases h hx with ⟨p, rfl, hp⟩ | ⟨hconst, rfl | rfl | rfl⟩
  · cases p <;> first | exact absurd ht (by decide) | cases hp
  · exact absurd ht (by decide)
  · exact absurd ht (by decide)
  · exact ⟨hconst, rfl⟩

lemma Operand.TypedTrivially.not_isTrivial {t : TypeRef} {x : Operand} (h : x.TypedTrivially t)
    (ht : t.isDynamic = true) : ¬x.IsTrivial := by
  intro hx
  have hcondition : t.isCondition = true := by simp [TypeRef.isCondition, ht]
  obtain ⟨-, rfl⟩ := h.constant hcondition hx
  cases ht

lemma TypeRef.isNumeric_promoted {t : TypeRef} (h : t.isNumeric = true) : t.promoted.isNumeric = true := by
  unfold isNumeric at h
  unfold promoted unaryPromotion
  cases hp : t.unboxed? with
  | none => simp [hp] at h
  | some p =>
    rw [hp] at h
    cases p <;> first | rfl | cases h

namespace Lowering

open Operand (IsTrivial TypedTrivially)
open Typing

lemma results_of_forall (h : ∀ a, P a) : Results P build :=
  fun _ => h _

lemma results_emit_of {t : TypeRef} {head : Head} {xs : List Operand} {bodies : List Body}
    (hconst : ∀ v t, head ≠ .const v t) (hneg : ∀ t, head ≠ .neg t) (hconv : ∀ t, head ≠ .conv t) :
    Results (TypedTrivially t) (emit (.mk head xs bodies)) :=
  results_emit fun hx => absurd hx (Operand.not_isTrivial hconst hneg hconv)

/-- A signed operand that is not typed by what it holds is numeric. -/
lemma typedTrivially_sign {p : Position} {op : UnaryOperator} {note : Typing} {t : TypeRef} {y : Operand}
    (hop : op = .plus ∨ op = .minus) (hnote : unaryType p op t = .ok note) (hy : y.TypedTrivially t) :
    Results (TypedTrivially (note.type.getD .object))
      (convert y t (conversionAt note 0) >>= fun z => unaryOperation (note.type.getD .object) z op) := by
  cases hdynamic : t.isDynamic with
  | true =>
    have hplain : y.IsTrivial → False := hy.not_isTrivial hdynamic
    obtain rfl : converting p .object [none] = note := by
      rcases hop with rfl | rfl <;> simpa [unaryType, hdynamic] using hnote
    have hkept : convert y t (conversionAt (converting p .object [none]) 0) = pure y := rfl
    rw [hkept, pure_bind]
    rcases hop with rfl | rfl
    · exact results_pure fun hx => (hplain hx).elim
    · refine results_emit fun hx => ?_
      cases hx with
      | constant hx => cases hx
      | sign hx => exact (hplain hx).elim
  | false =>
    cases hnumeric : t.isNumeric with
    | false => rcases hop with rfl | rfl <;> simp [unaryType, hdynamic, hnumeric] at hnote
    | true =>
      obtain rfl : converting p (.prim t.promoted) [some t.promoted] = note := by
        rcases hop with rfl | rfl <;> simpa [unaryType, hdynamic, hnumeric] using hnote
      exact results_of_forall fun x _ => Or.inl ⟨t.promoted, rfl, TypeRef.isNumeric_promoted hnumeric⟩

/-- A cast to a truth value keeps a trivial operand or converts one that is not. -/
lemma typedTrivially_castOperation {p : Position} {note : Typing} {source target : TypeRef} {y : Operand}
    (hnote : castType p source target = .ok note) (hy : y.TypedTrivially source) :
    Results (TypedTrivially (note.type.getD .object)) (castOperation source (note.type.getD .object) y) := by
  cases target with
  | prim q =>
    unfold castType at hnote
    dsimp only at hnote
    split at hnote
    · next hcast =>
      obtain rfl := Except.ok.inj hnote
      cases hq : q.isNumeric with
      | true => exact results_of_forall fun x _ => Or.inl ⟨q, rfl, hq⟩
      | false =>
        simp only [hq, Bool.false_and, Bool.false_or, Bool.and_eq_true, decide_eq_true_eq] at hcast
        obtain ⟨rfl, hsource⟩ := hcast
        change Results _ (if source == .object then emit (.of (.conv (.prim .boolean)) [y])
          else if needsConversion source .boolean then emit (.of (.conv (.prim .boolean)) [y]) else pure y)
        -- a constant that is to be a truth value has the type already, and is not converted
        have hconverted (hneeds : source ≠ .prim .boolean) :
            Results (TypedTrivially (.prim .boolean)) (emit (.of (.conv (.prim .boolean)) [y])) := by
          refine results_emit fun hx => ?_
          cases hx with
          | constant hx => cases hx
          | conversion hx => exact absurd (hy.constant hsource (.constant hx)).2 hneeds
        split
        · next hobject => exact hconverted (by rintro rfl; cases hobject)
        · split
          · next hneeds => exact hconverted (by rintro rfl; exact absurd hneeds (by decide))
          · exact results_pure fun hx => Or.inr ⟨(hy.constant hsource hx).1, Or.inr (Or.inr rfl)⟩
    · cases hnote
  | array | named =>
    unfold castType at hnote
    dsimp only at hnote
    split at hnote
    · cases hnote
    · obtain rfl := Except.ok.inj hnote
      exact results_emit_of (by simp) (by simp) (by simp)

/-- A trivial value of an expression is typed as such. -/
theorem typedTrivially_lower {scope : Scope} {heap : Heap} : {te : TypedExpr} → (e : Expr Position) →
    check scope heap e = .ok te → Results (TypedTrivially te.type) (lower scope heap te)
  | te, .literal p v, h => by
    cases accepts_of_check h
    rw [lower]
    cases v with
    | int | long | float | double | char => exact results_emit fun _ => Or.inl ⟨_, rfl, rfl⟩
    | string | units => exact results_emit fun _ => Or.inr ⟨rfl, Or.inl rfl⟩
    | null => exact results_emit fun _ => Or.inr ⟨rfl, Or.inr (Or.inl rfl)⟩
    | boolean => exact results_emit fun _ => Or.inr ⟨rfl, Or.inr (Or.inr rfl)⟩
  | te, .name .., h => by
    cases accepts_of_check h with
    | «local» =>
      rw [lower]
      exact results_behind fun v => results_emit_of (by simp) (by simp) (by simp)
    | thisField =>
      rw [lower]
      exact results_emit_of (by simp) (by simp) (by simp)
  | te, .this _, h => by
    cases accepts_of_check h
    rw [lower]
    exact results_pure fun hx => by cases hx with | constant hx => cases hx
  | te, .field _ target _, h => by
    cases accepts_of_check h with
    | staticField howner =>
      rw [lower]
      exact results_emit_of (by simp) (by simp) (by simp)
    | length _ htarget _ =>
      rw [lower]
      exact results_behind fun _ => results_emit_of (by simp) (by simp) (by simp)
    | field _ htarget _ _ =>
      rw [lower]
      exact results_behind fun _ => results_emit_of (by simp) (by simp) (by simp)
  | te, .call _ target _ args, h => by
    cases accepts_of_check h with
    | staticCall =>
      rw [lower]
      exact results_behind fun _ => results_emit_of (by simp) (by simp) (by simp)
    | call =>
      rw [lower]
      exact results_behind fun _ => results_behind fun _ => results_emit_of (by simp) (by simp) (by simp)
  | te, .thisCall .., h => by
    cases accepts_of_check h
    rw [lower]
    exact results_behind fun _ => results_emit_of (by simp) (by simp) (by simp)
  | te, .index .., h => by
    cases accepts_of_check h
    rw [lower]
    exact results_behind fun _ => results_behind fun _ => results_behind fun _ =>
      results_emit_of (by simp) (by simp) (by simp)
  | te, .newObject .., h => by
    cases accepts_of_check h
    rw [lower]
    exact results_behind fun _ => results_emit_of (by simp) (by simp) (by simp)
  | te, .newArray .., h => by
    cases accepts_of_check h
    rw [lower]
    exact results_behind fun _ => results_emit_of (by simp) (by simp) (by simp)
  | te, .unary _ op operand, h => by
    cases accepts_of_check h with
    | unary hoperand hnote =>
      rw [lower]
      have hsigned (hop : op = .plus ∨ op = .minus) :=
        (typedTrivially_lower operand hoperand).bind fun y hy => typedTrivially_sign hop hnote hy
      cases op with
      | plus => exact hsigned (Or.inl rfl)
      | minus => exact hsigned (Or.inr rfl)
      | not => exact results_behind fun _ => results_behind fun _ => results_emit_of (by simp) (by simp) (by simp)
      | complement =>
        exact results_behind fun _ => results_behind fun _ => results_behind fun _ =>
          results_emit_of (by simp) (by simp) (by simp)
  | te, .binary _ op left right, h => by
    cases accepts_of_check h with
    | binary hleft hright hnote =>
      rw [lower]
      cases op with
      | conjunction | disjunction =>
        exact results_behind fun _ => results_behind fun _ => results_emit_of (by simp) (by simp) (by simp)
      | arith | shift | compare =>
        exact results_behind fun _ => results_behind fun _ => results_behind fun _ => results_behind fun _ =>
          results_emit_of (by simp) (by simp) (by simp)
  | te, .instanceOf .., h => by
    cases accepts_of_check h
    rw [lower]
    exact results_behind fun _ => results_emit_of (by simp) (by simp) (by simp)
  | te, .cast _ _ operand, h => by
    cases accepts_of_check h with
    | cast hoperand hnote =>
      rw [lower]
      exact (typedTrivially_lower operand hoperand).bind fun y hy => typedTrivially_castOperation hnote hy
  | te, .conditional .., h => by
    cases accepts_of_check h
    rw [lower]
    exact results_behind fun _ => results_behind fun _ => results_behind fun _ =>
      results_emit_of (by simp) (by simp) (by simp)
  | te, .assign .., h => by
    cases accepts_of_check h
    rw [lower]
    exact results_behind fun _ => results_behind fun _ => results_emit_of (by simp) (by simp) (by simp)

/-- A predicate returns a value of the form that lowering gives, which is trivial only if it is a constant. -/
theorem returned?_of_accepted {scope : Scope} {heap : Heap} {e : Expr Position} {te : TypedExpr}
    (h : checkPredicate scope heap e = .ok te) : ∃ root, (quote scope heap te).returned? = some root ∧
      root.WellShaped ∧ root.Received ∧ (root.IsTrivial → root.IsConstant) := by
  obtain ⟨_, _, _, _, hshaped⟩ := emits_lower scope heap te ⟨[], []⟩
  obtain ⟨hcheck, -⟩ := checkPredicate_eq_ok.mp h
  have hemitted := emitted_lower (P := fun _ => True) scope heap trivial te
    (te.allNames_of_words fun _ _ => trivial) ⟨[], []⟩
  refine ⟨_, rfl, hshaped, hemitted.received, fun htrivial => ?_⟩
  obtain hcondition | ⟨note, noteOfName, n, tv, rfl⟩ := isCondition_or_assign h
  · exact ((typedTrivially_lower e hcheck ⟨[], []⟩).constant hcondition htrivial).1
  · have hstore : Results (fun x => ¬IsTrivial x) (lower scope heap (.assign note (.name noteOfName n) tv)) := by
      rw [lower]
      exact results_behind fun _ => results_behind fun _ =>
        results_emit (Operand.not_isTrivial (by simp) (by simp) (by simp))
    exact absurd htrivial (hstore ⟨[], []⟩)

end Lowering

end PredicateTrace
