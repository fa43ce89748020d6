import Mathlib.Logic.Relation
import PredicateTrace.Proofs.LoweredForms
import PredicateTrace.Proofs.TracePlaces

/-!
# Expressions inside of an expression

An expression inside of an accepted one is accepted on its own, and what it is lowered to stands inside of what
the whole is lowered to. Only the op of a short-circuit operator may be missing there, since a chain of one
operator becomes a single op.
-/

namespace PredicateTrace

open Host (Heap)

/-- Whether a member is that of a type. -/
def Typing.isStatic (note : Typing) : Bool :=
  match note.role with
  | some (.staticField _) | some (.staticMethod _) => true
  | _ => false

/-- The expressions whose values an expression is made of. The name of a type has no value. -/
def Expr.operands : TypedExpr → List TypedExpr
  | .literal .. | .name .. | .this _ => []
  | .field note target _ => if note.isStatic then [] else [target]
  | .call note target _ args => if note.isStatic then args else target :: args
  | .thisCall _ _ args | .newObject _ _ args => args
  | .index _ array place => [array, place]
  | .newArray _ _ dims _ => dims
  | .unary _ _ x | .instanceOf _ x _ | .cast _ _ x => [x]
  | .binary _ _ left right => [left, right]
  | .conditional _ cond thenArm elseArm => [cond, thenArm, elseArm]
  | .assign _ _ value => [value]

/-- An expression is the other one, or occurs inside of it. -/
def Expr.Within : TypedExpr → TypedExpr → Prop :=
  Relation.ReflTransGen fun x e => x ∈ e.operands

/-! ### Checking -/

namespace Typing

variable {scope : Scope} {heap : Heap} {e : Expr Position} {te u : TypedExpr}

/-- An expression is what the checker makes of one that it accepts. -/
def IsChecked (scope : Scope) (heap : Heap) (te : TypedExpr) : Prop :=
  ∃ e, check scope heap e = .ok te

lemma isChecked_of_checkAll : {es : List (Expr Position)} → {tes : List TypedExpr} →
    checkAll scope heap es = .ok tes → ∀ x ∈ tes, IsChecked scope heap x
  | [], _, h, _, hx => by
    rw [checkAll] at h
    obtain rfl := Except.ok.inj h
    cases hx
  | _ :: _, _, h, x, hx => by
    obtain ⟨te, others, he, hothers, rfl⟩ := checkAll_cons_eq_ok h
    rcases List.mem_cons.mp hx with rfl | hx
    · exact ⟨_, he⟩
    · exact isChecked_of_checkAll hothers x hx

lemma isChecked_of_operand (h : check scope heap e = .ok te) (hu : u ∈ te.operands) : IsChecked scope heap u := by
  cases accepts_of_check h with
  | literal | «local» | thisField | this | staticField => cases hu
  | length _ htarget | field _ htarget =>
    obtain rfl := List.mem_singleton.mp hu
    exact ⟨_, htarget⟩
  | staticCall _ hargs | thisCall _ hargs | newObject hargs => exact isChecked_of_checkAll hargs u hu
  | newArray hdims => exact isChecked_of_checkAll (checkAll_of_checkDimensions hdims) u hu
  | call _ htarget _ hargs =>
    rcases List.mem_cons.mp hu with rfl | hu
    · exact ⟨_, htarget⟩
    · exact isChecked_of_checkAll hargs u hu
  | index hleft hright | binary hleft hright =>
    rcases List.mem_pair.mp hu with rfl | rfl
    · exact ⟨_, hleft⟩
    · exact ⟨_, hright⟩
  | unary hx | instanceOf hx | cast hx | assign _ hx =>
    obtain rfl := List.mem_singleton.mp hu
    exact ⟨_, hx⟩
  | conditional hcond _ hthen helse =>
    obtain rfl | rfl | rfl : u = _ ∨ u = _ ∨ u = _ := by simpa [Expr.operands] using hu
    · exact ⟨_, hcond⟩
    · exact ⟨_, hthen⟩
    · exact ⟨_, helse⟩

/-- What occurs inside of an accepted expression is accepted. -/
theorem IsChecked.within (h : IsChecked scope heap te) (hu : u.Within te) : IsChecked scope heap u := by
  induction hu using Relation.ReflTransGen.head_induction_on with
  | refl => exact h
  | head hx _ ih =>
    obtain ⟨e, he⟩ := ih
    exact isChecked_of_operand he hx

end Typing

/-! ### Lowering -/

/-- Whether an operand is the op of a short-circuit operator. -/
def Operand.isChain : Operand → Bool
  | .op (.mk head _ _) => head.decisive?.isSome
  | .param _ => false

namespace Lowering

variable {scope : Scope} {heap : Heap} {u v e : TypedExpr} {build : Build Operand}

/-- An operand is what an expression is lowered to, whatever was lowered before. -/
def Becomes (scope : Scope) (heap : Heap) (e : TypedExpr) (x : Operand) : Prop :=
  ∃ b : Builder, ((lower scope heap e).run b).1 = x

/-- A part of an operand is what an expression is lowered to. -/
def Contains (scope : Scope) (heap : Heap) (u : TypedExpr) (x : Operand) : Prop :=
  ∃ y, Operand.Part y x ∧ Becomes scope heap u y

/-- What a body yields contains what an expression is lowered to. -/
def YieldsOne (scope : Scope) (heap : Heap) (u : TypedExpr) (body : Body) : Prop :=
  ∃ x, body.yielded? = some x ∧ Contains scope heap u x

lemma results_becomes (scope : Scope) (heap : Heap) (e : TypedExpr) :
    Results (Becomes scope heap e) (lower scope heap e) :=
  fun b => ⟨b, rfl⟩

lemma contains_self {x : Operand} (h : Becomes scope heap u x) : Contains scope heap u x :=
  ⟨x, .refl x, h⟩

lemma Contains.of_operand {x : Operand} (h : Contains scope heap u x) {head : Head} {xs : List Operand}
    {bodies : List Body} (hx : x ∈ xs) : Contains scope heap u (.op (.mk head xs bodies)) := by
  obtain ⟨y, hpart, hy⟩ := h
  exact ⟨y, .operand hx hpart, hy⟩

lemma YieldsOne.of_body {body : Body} (h : YieldsOne scope heap u body) {head : Head} {xs : List Operand}
    {bodies : List Body} (hb : body ∈ bodies) : Contains scope heap u (.op (.mk head xs bodies)) := by
  obtain ⟨x, hyield, y, hpart, hy⟩ := h
  exact ⟨y, .yielded hb hyield hpart, hy⟩

lemma Contains.convert {x : Operand} (h : Contains scope heap u x) (source : TypeRef) (target : Option Primitive) :
    Results (Contains scope heap u) (convert x source target) := by
  unfold Lowering.convert
  split
  · split
    · exact results_emit (h.of_operand List.mem_cons_self)
    · exact results_pure h
  · exact results_pure h

lemma contains_body (h : Results (Contains scope heap u) build) (source : TypeRef) (target : Option Primitive) :
    Results (YieldsOne scope heap u) (body source target build) :=
  (h.bind fun _ hx => hx.convert source target).body

/-- The op of the inner chain goes, so that only what its bodies yield is kept. -/
lemma contains_chainBodies (hu : ∀ y, Becomes scope heap u y → y.isChain = false) {op : BinaryOperator}
    {head : Head} (hop : chainHead? op = some head) (h : Results (Contains scope heap u) (lower scope heap e)) :
    Results (fun bodies => ∃ body ∈ bodies, YieldsOne scope heap u body)
      (chainBodies op e (lower scope heap e)) := by
  unfold chainBodies
  split
  · next hcontinues =>
    have hchain : Results (fun x => Contains scope heap u x ∧ ∃ bodies, x = .op (.mk head [] bodies))
        (lower scope heap e) := fun b => ⟨h b, lower_chain hop hcontinues b⟩
    refine hchain.inBlock.bind ?_
    rintro ⟨x, ops⟩ ⟨⟨y, hpart, hy⟩, bodies, rfl⟩
    refine results_pure ?_
    cases hpart with
    | refl =>
      have hplain := hu _ hy
      cases op <;> cases hop <;> cases hplain
    | operand hx => cases hx
    | yielded hb hyield hpart => exact ⟨_, hb, _, hyield, y, hpart, hy⟩
  · exact (contains_body h e.type none).bind fun b hb => results_pure ⟨b, List.mem_cons_self, hb⟩

lemma Contains.unaryOperation {x : Operand} (h : Contains scope heap u x) (type : TypeRef) (op : UnaryOperator) :
    Results (Contains scope heap u) (unaryOperation type x op) := by
  cases op with
  | plus => exact results_pure h
  | not | minus => exact results_emit (h.of_operand List.mem_cons_self)
  | complement => exact results_behind fun _ => results_emit (h.of_operand List.mem_cons_self)

lemma Contains.castOperation {x : Operand} (h : Contains scope heap u x) (source target : TypeRef) :
    Results (Contains scope heap u) (castOperation source target x) := by
  unfold Lowering.castOperation
  split
  · split
    · exact results_emit (h.of_operand List.mem_cons_self)
    · exact h.convert source _
  · exact results_emit (h.of_operand List.mem_cons_self)

lemma contains_lowerArgs (note : Typing) (place : Nat) {args : List TypedExpr} (hv : v ∈ args)
    (h : Results (Contains scope heap u) (lower scope heap v)) :
    Results (fun xs => ∃ x ∈ xs, Contains scope heap u x) (lowerArgs scope heap note place args) := by
  induction args generalizing place with
  | nil => cases hv
  | cons arg rest ih =>
    rw [lowerArgs]
    rcases List.mem_cons.mp hv with rfl | hv
    · exact h.bind fun x hx => (hx.convert _ _).bind fun y hy => results_behind fun ys =>
        results_pure ⟨y, List.mem_cons_self, hy⟩
    · refine results_behind fun x => results_behind fun y => (ih (place + 1) hv).bind fun ys hys => ?_
      obtain ⟨z, hz, hcontains⟩ := hys
      exact results_pure ⟨z, List.mem_cons_of_mem _ hz, hcontains⟩

lemma contains_emit_one (h : Results (Contains scope heap u) build) (head : Head) :
    Results (Contains scope heap u) (build >>= fun x => emit (.of head [x])) :=
  h.bind fun _ hx => results_emit (hx.of_operand List.mem_cons_self)

/-- An op on some operands and on arguments, in one of which the expression is found. -/
lemma contains_emit_all {note : Typing} {args : List TypedExpr} (hv : v ∈ args)
    (h : Results (Contains scope heap u) (lower scope heap v)) (head : Head) (first : List Operand) :
    Results (Contains scope heap u)
      (lowerArgs scope heap note 0 args >>= fun xs => emit (.of head (first ++ xs))) := by
  refine (contains_lowerArgs note 0 hv h).bind fun xs hxs => ?_
  obtain ⟨x, hx, hcontains⟩ := hxs
  exact results_emit (hcontains.of_operand (List.mem_append_right first hx))

lemma contains_binary (hu : ∀ y, Becomes scope heap u y → y.isChain = false) {note : Typing} {op : BinaryOperator}
    {l r : TypedExpr} (hv : v = l ∨ v = r) (h : Results (Contains scope heap u) (lower scope heap v)) :
    Results (Contains scope heap u) (lower scope heap (.binary note op l r)) := by
  cases hop : chainHead? op with
  | some head =>
    rw [lower_logical note hop]
    rcases hv with rfl | rfl
    · refine (contains_chainBodies hu hop h).bind fun earlier hearlier => results_behind fun last => ?_
      obtain ⟨b, hmem, hb⟩ := hearlier
      exact results_emit (hb.of_body (List.mem_append_left _ hmem))
    · exact results_behind fun earlier => (contains_body h _ _).bind fun b hb =>
        results_emit (hb.of_body (by simp))
  | none =>
    rw [lower_binary note hop]
    obtain ⟨head, -, -, hoperation⟩ := operation_eq note hop
    rw [hoperation]
    rcases hv with rfl | rfl
    · exact (h.bind fun x hx => hx.convert _ _).bind fun x hx => results_behind fun _ =>
        results_emit (hx.of_operand List.mem_cons_self)
    · exact results_behind fun _ => (h.bind fun x hx => hx.convert _ _).bind fun y hy =>
        results_emit (hy.of_operand (by simp))

lemma contains_conditional {note : Typing} {c yes no : TypedExpr} (hv : v = c ∨ v = yes ∨ v = no)
    (h : Results (Contains scope heap u) (lower scope heap v)) :
    Results (Contains scope heap u) (lower scope heap (.conditional note c yes no)) := by
  rw [lower_conditional]
  rcases hv with rfl | rfl | rfl
  · exact (contains_body h _ _).bind fun b hb => results_behind fun _ => results_behind fun _ =>
      results_emit (hb.of_body (by simp))
  · exact results_behind fun _ => (contains_body h _ _).bind fun b hb => results_behind fun _ =>
      results_emit (hb.of_body (by simp))
  · exact results_behind fun _ => results_behind fun _ => (contains_body h _ _).bind fun b hb =>
      results_emit (hb.of_body (by simp))

/-- What the lowered operands of an expression contain, the lowered expression contains. -/
lemma contains_of_operand (hu : ∀ y, Becomes scope heap u y → y.isChain = false) (hv : v ∈ e.operands)
    (h : Results (Contains scope heap u) (lower scope heap v)) :
    Results (Contains scope heap u) (lower scope heap e) := by
  cases e with
  | literal | name | this => cases hv
  | field note target n =>
    rw [lower]
    dsimp only [Expr.operands] at hv
    split at hv
    · cases hv
    · next hrole =>
      obtain rfl := List.mem_singleton.mp hv
      split
      · next hstatic => exact absurd (by rw [Typing.isStatic, hstatic]) hrole
      all_goals exact contains_emit_one h _
  | call note target n args =>
    rw [lower]
    dsimp only [Expr.operands] at hv
    split
    · next hstatic =>
      have hrole : note.isStatic = true := by rw [Typing.isStatic, hstatic]
      rw [if_pos hrole] at hv
      exact contains_emit_all hv h _ []
    · split at hv
      · exact results_behind fun receiver => contains_emit_all hv h _ [receiver]
      · rcases List.mem_cons.mp hv with rfl | hv
        · exact h.bind fun x hx => results_behind fun xs => results_emit (hx.of_operand List.mem_cons_self)
        · exact results_behind fun receiver => contains_emit_all hv h _ [receiver]
  | thisCall note n args =>
    rw [lower]
    exact contains_emit_all hv h _ [.param (thisParameter scope)]
  | newObject note t args =>
    rw [lower]
    exact contains_emit_all hv h _ []
  | newArray note t dims extra =>
    rw [lower]
    exact contains_emit_all hv h _ []
  | index note array place =>
    rw [lower]
    rcases List.mem_pair.mp hv with rfl | rfl
    · exact h.bind fun x hx => results_behind fun _ => results_behind fun _ =>
        results_emit (hx.of_operand List.mem_cons_self)
    · exact results_behind fun _ => h.bind fun x hx => (hx.convert _ _).bind fun y hy =>
        results_emit (hy.of_operand (by simp))
  | unary note op x =>
    obtain rfl := List.mem_singleton.mp hv
    rw [lower_unary]
    exact (h.bind fun x hx => hx.convert _ _).bind fun x hx => hx.unaryOperation _ op
  | instanceOf note x t =>
    obtain rfl := List.mem_singleton.mp hv
    rw [lower]
    exact contains_emit_one h _
  | cast note t x =>
    obtain rfl := List.mem_singleton.mp hv
    rw [lower]
    exact h.bind fun x hx => hx.castOperation _ _
  | assign note target value =>
    obtain rfl := List.mem_singleton.mp hv
    rw [lower.eq_def]
    exact h.bind fun x hx => results_behind fun _ => results_emit (hx.of_operand List.mem_cons_self)
  | conditional note c yes no => exact contains_conditional (by simpa [Expr.operands] using hv) h
  | binary note op l r => exact contains_binary hu (List.mem_pair.mp hv) h

/-- What an expression is lowered to stands inside of what any expression around it is lowered to, unless it is
the op of a short-circuit operator. -/
theorem contains_of_within (hu : ∀ y, Becomes scope heap u y → y.isChain = false) (h : u.Within e) :
    Results (Contains scope heap u) (lower scope heap e) := by
  induction h with
  | refl => exact fun b => contains_self (results_becomes scope heap u b)
  | tail _ hv ih => exact contains_of_operand hu hv ih

end Lowering

end PredicateTrace
