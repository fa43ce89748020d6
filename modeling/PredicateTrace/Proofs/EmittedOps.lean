import PredicateTrace.Op.Source
import PredicateTrace.Proofs.LoweredShape
import PredicateTrace.Proofs.SourceWords

/-!
# Ops that lowering makes

Lowering makes constants of literals, accesses to variables, fields and methods by the names in the expression, and
operations of the language. A call on a receiver has one. All parts of what an expression is lowered to are such ops,
or the parameter that stands for `this`.
-/

namespace PredicateTrace

open Host (Heap)

/-- What lowering makes an op of, where `P` holds of the names in the expression: a constant of a literal, an access by
one of the names, or an operation of the language. -/
def Head.Emitted (P : String → Prop) : Head → Prop
  | .const v _ => ∃ l, v = Lowering.literalValue l
  | .varLoad var | .varStore var => P var.name
  | .fieldLoad field => P field.name
  | .invoke method _ => P method.name
  | .binary op _ | .compare op => op.isKnown = true
  | .ret | .yield | .lambda | .this .. | .bare => False
  | _ => True

/-- What lowering makes: a call on a receiver has one. -/
structure Op.Emitted (P : String → Prop) (op : Op) : Prop where
  head : op.head.Emitted P
  received : op.head.lacksReceiver op.operands = false

variable {P : String → Prop}

/-- An op that lowering makes, or the parameter that stands for `this`. -/
def Operand.IsEmitted (P : String → Prop) : Operand → Prop
  | .op o => o.Emitted P
  | .param p => p.name = "this"

/-- Lowering made all parts of an operand. -/
def Operand.Emitted (P : String → Prop) (x : Operand) : Prop :=
  ∀ y, Operand.Part y x → y.IsEmitted P

/-- Lowering made what a body yields. -/
def Body.Emitted (P : String → Prop) (body : Body) : Prop :=
  ∀ x, body.yielded? = some x → x.Emitted P

lemma emitted_op {op : Op} (hop : op.Emitted P) (hx : ∀ x ∈ op.operands, x.Emitted P)
    (hb : ∀ body ∈ op.bodies, body.Emitted P) : (Operand.op op).Emitted P := by
  intro y hpart
  cases hpart with
  | refl => exact hop
  | operand hmem hpart => exact hx _ hmem y hpart
  | yielded hmem hyield hpart => exact hb _ hmem _ hyield y hpart

lemma emitted_of {head : Head} {xs : List Operand} (h : head.Emitted P) (hreceived : head.lacksReceiver xs = false)
    (hx : ∀ x ∈ xs, x.Emitted P) : (Operand.op (.of head xs)).Emitted P :=
  emitted_op ⟨h, hreceived⟩ hx (by simp [Op.of, Op.bodies])

lemma Operand.Emitted.of_part {x y : Operand} (hx : x.Emitted P) (h : Operand.Part y x) : y.Emitted P :=
  fun z hz => hx z (hz.trans h)

lemma Operand.Emitted.bodies {op : Op} (h : (Operand.op op).Emitted P) : ∀ body ∈ op.bodies, body.Emitted P :=
  fun _ hb _ hyield y hpart => h y (.yielded hb hyield hpart)

namespace Lowering

section Results

variable {α β : Type} {build : Build α} {next : α → Build β} {P : α → Prop} {Q : β → Prop}

/-- What a construction gives has a property, wherever it starts. -/
def Results (P : α → Prop) (build : Build α) : Prop :=
  ∀ b : Builder, P (build.run b).1

lemma results_pure {a : α} (h : P a) : Results P (pure a) :=
  fun _ => h

lemma Results.bind (h : Results P build) (hnext : ∀ a, P a → Results Q (next a)) : Results Q (build >>= next) :=
  fun b => hnext _ (h b) _

lemma results_behind (hnext : ∀ a, Results Q (next a)) : Results Q (build >>= next) :=
  fun _ => hnext _ _

lemma results_emit {op : Op} {P : Operand → Prop} (h : P (.op op)) : Results P (emit op) :=
  fun _ => h

lemma Results.inBlock (h : Results P build) : Results (fun r => P r.1) (inBlock build) :=
  fun b => h ⟨b.vars, []⟩

/-- A body yields what is built and converted in it. -/
lemma Results.body {build : Build Operand} {P : Operand → Prop} {source : TypeRef} {target : Option Primitive}
    (h : Results P (build >>= fun x => convert x source target)) :
    Results (fun b => ∃ x, b.yielded? = some x ∧ P x) (body source target build) :=
  h.inBlock.bind fun r hr => results_pure ⟨r.1, rfl, hr⟩

end Results

open PredicateTrace.Operand (Emitted)

variable {build : Build Operand} {x y : Operand}

lemma emitted_thisParameter (scope : Scope) : (Operand.param (thisParameter scope)).Emitted P := by
  rintro y ⟨⟩
  exact rfl

/-- A variable has the name that it is used by. -/
lemma results_useVariable (scope : Scope) (heap : Heap) (n : String) :
    Results (fun var => var.name = n) (useVariable scope heap n) := by
  intro b
  obtain ⟨v, -, hname, hrun⟩ | ⟨v, rfl, -, hrun⟩ := useVariable_cases scope heap n b <;> rw [hrun]
  exact hname

lemma emitted_convert (hx : x.Emitted P) (source : TypeRef) (target : Option Primitive) :
    Results (Emitted P) (convert x source target) := by
  unfold convert
  split
  · split
    · exact results_emit (emitted_of trivial rfl (by simpa using hx))
    · exact results_pure hx
  · exact results_pure hx

lemma emitted_body (h : Results (Emitted P) build) (source : TypeRef) (target : Option Primitive) :
    Results (Body.Emitted P) (body source target build) :=
  (h.bind fun _ hx => emitted_convert hx source target).inBlock.bind fun r hr => results_pure fun x hx => by
    obtain rfl : r.1 = x := Option.some.inj hx
    exact hr

lemma emitted_chainBodies (h : Results (Emitted P) build) (op : BinaryOperator) (left : TypedExpr) :
    Results (fun bodies => ∀ b ∈ bodies, Body.Emitted P b) (chainBodies op left build) := by
  unfold chainBodies
  split
  · refine h.inBlock.bind fun r hr => ?_
    split
    · exact results_pure hr.bodies
    · exact results_pure (by simp)
  · exact (emitted_body h left.type none).bind fun b hb => results_pure (by simpa using hb)

lemma emitted_unaryOperation (hx : x.Emitted P) (type : TypeRef) (op : UnaryOperator) :
    Results (Emitted P) (unaryOperation type x op) := by
  cases op with
  | plus => exact results_pure hx
  | not | minus => exact results_emit (emitted_of trivial rfl (by simpa using hx))
  | complement =>
    have hones : (Operand.op (allOnes type)).Emitted P := by
      unfold allOnes
      split
      · exact emitted_of ⟨.long (-1), rfl⟩ rfl (by simp)
      · exact emitted_of ⟨.int (-1), rfl⟩ rfl (by simp)
    refine Results.bind (results_emit hones) fun y hy => results_emit (emitted_of rfl rfl ?_)
    simpa using ⟨hx, hy⟩

lemma emitted_castOperation (hx : x.Emitted P) (source target : TypeRef) :
    Results (Emitted P) (castOperation source target x) := by
  unfold castOperation
  split
  · split
    · exact results_emit (emitted_of trivial rfl (by simpa using hx))
    · exact emitted_convert hx source _
  · exact results_emit (emitted_of trivial rfl (by simpa using hx))

lemma emitted_operation (hx : x.Emitted P) (hy : y.Emitted P) (note : Typing) (op : BinaryOperator) :
    Results (Emitted P) (operation note op x y) := by
  cases op with
  | conjunction | disjunction => exact results_pure hx
  | arith | shift | compare => exact results_emit (emitted_of rfl rfl (by simpa using ⟨hx, hy⟩))

mutual

/-- Lowering only makes ops of these forms. An assignment to what is no name is to the variable with the empty one. -/
theorem emitted_lower (scope : Scope) (heap : Heap) (hempty : P "") : (e : TypedExpr) → e.AllNames P →
    Results (Emitted P) (lower scope heap e)
  | .literal note v, _ => by
    rw [lower]
    obtain ⟨type, hconstant⟩ : ∃ type, constant (note.type.getD .object) v = .leaf (.const (literalValue v) type) := by
      cases v <;> exact ⟨_, rfl⟩
    rw [hconstant]
    exact results_emit (emitted_of ⟨v, rfl⟩ rfl (by simp))
  | .name note n, he => by
    rw [lower]
    split
    · exact results_emit (emitted_of he rfl (by simpa using emitted_thisParameter scope))
    · refine (results_useVariable scope heap n).bind fun var hvar => ?_
      have hload : (Head.varLoad var).Emitted P := by
        rw [Head.Emitted, hvar]
        exact he
      exact results_emit (emitted_of hload rfl (by simp))
  | .this _, _ => by
    rw [lower]
    exact results_pure (emitted_thisParameter scope)
  | .field note target n, he => by
    rw [lower]
    have htarget := emitted_lower scope heap hempty target he.1
    split
    · exact results_emit (emitted_of he.2 rfl (by simp))
    · exact htarget.bind fun x hx => results_emit (emitted_of trivial rfl (by simpa using hx))
    all_goals exact htarget.bind fun x hx => results_emit (emitted_of he.2 rfl (by simpa using hx))
  | .call note target n args, he => by
    rw [lower]
    have hargs := emitted_lowerArgs scope heap hempty note 0 args he.2.2
    split
    · exact hargs.bind fun xs hxs => results_emit (emitted_of he.2.1 rfl hxs)
    · exact (emitted_lower scope heap hempty target he.1).bind fun x hx => hargs.bind fun xs hxs =>
        results_emit (emitted_of he.2.1 rfl (List.forall_mem_cons.mpr ⟨hx, hxs⟩))
  | .thisCall note n args, he => by
    rw [lower]
    exact (emitted_lowerArgs scope heap hempty note 0 args he.2).bind fun xs hxs =>
      results_emit (emitted_of he.1 rfl (List.forall_mem_cons.mpr ⟨emitted_thisParameter scope, hxs⟩))
  | .index note array place, he => by
    rw [lower]
    exact (emitted_lower scope heap hempty array he.1).bind fun x hx =>
      (emitted_lower scope heap hempty place he.2).bind fun y hy => (emitted_convert hy _ _).bind fun z hz =>
        results_emit (emitted_of trivial rfl (by simpa using ⟨hx, hz⟩))
  | .newObject note _ args, he => by
    rw [lower]
    exact (emitted_lowerArgs scope heap hempty note 0 args he).bind fun xs hxs =>
      results_emit (emitted_of trivial rfl hxs)
  | .newArray note _ dims _, he => by
    rw [lower]
    exact (emitted_lowerArgs scope heap hempty note 0 dims he).bind fun xs hxs =>
      results_emit (emitted_of trivial rfl hxs)
  | .unary note op operand, he => by
    rw [lower]
    exact (emitted_lower scope heap hempty operand he).bind fun x hx => (emitted_convert hx _ _).bind fun y hy =>
      emitted_unaryOperation hy _ op
  | .binary note op left right, he => by
    rw [lower]
    have hleft := emitted_lower scope heap hempty left he.1
    have hright := emitted_lower scope heap hempty right he.2
    split
    · next head hhead =>
      refine (emitted_chainBodies hleft op left).bind fun earlier he => ?_
      refine (emitted_body hright _ _).bind fun last hlast => ?_
      refine results_emit (emitted_op ?_ (by simp [Op.operands]) ?_)
      · cases op <;> cases hhead <;> exact ⟨trivial, rfl⟩
      · exact List.forall_mem_append.mpr ⟨he, by simpa using hlast⟩
    · exact hleft.bind fun x hx => (emitted_convert hx _ _).bind fun x' hx' => hright.bind fun y hy =>
        (emitted_convert hy _ _).bind fun y' hy' => emitted_operation hx' hy' note op
  | .instanceOf note operand _, he => by
    rw [lower]
    exact (emitted_lower scope heap hempty operand he).bind fun x hx =>
      results_emit (emitted_of trivial rfl (by simpa using hx))
  | .cast note _ operand, he => by
    rw [lower]
    exact (emitted_lower scope heap hempty operand he).bind fun x hx => emitted_castOperation hx _ _
  | .conditional note cond thenArm elseArm, he => by
    rw [lower]
    refine (emitted_body (emitted_lower scope heap hempty cond he.1) _ _).bind fun c hc => ?_
    refine (emitted_body (emitted_lower scope heap hempty thenArm he.2.1) _ _).bind fun yes hyes => ?_
    refine (emitted_body (emitted_lower scope heap hempty elseArm he.2.2) _ _).bind fun no hno => ?_
    exact results_emit (emitted_op ⟨trivial, rfl⟩ (by simp [Op.operands])
      (by simpa [Op.bodies] using ⟨hc, hyes, hno⟩))
  | .assign _ target value, he => by
    rw [lower.eq_def]
    refine (emitted_lower scope heap hempty value he.2).bind fun x hx => ?_
    refine (results_useVariable scope heap _).bind fun var hvar => ?_
    have hstore : (Head.varStore var).Emitted P := by
      rw [Head.Emitted, hvar]
      cases target with
      | name note n => exact he.1
      | _ => exact hempty
    exact results_emit (emitted_of hstore rfl (by simpa using hx))

theorem emitted_lowerArgs (scope : Scope) (heap : Heap) (hempty : P "") (note : Typing) (place : Nat) :
    (args : List TypedExpr) → Expr.AllNamesOf P args →
      Results (fun xs => ∀ x ∈ xs, Emitted P x) (lowerArgs scope heap note place args)
  | [], _ => by
    rw [lowerArgs]
    exact results_pure (by simp)
  | arg :: rest, he => by
    rw [lowerArgs]
    exact (emitted_lower scope heap hempty arg he.1).bind fun x hx => (emitted_convert hx _ _).bind fun y hy =>
      (emitted_lowerArgs scope heap hempty note (place + 1) rest he.2).bind fun ys hys =>
        results_pure (List.forall_mem_cons.mpr ⟨hy, hys⟩)

end

end Lowering

end PredicateTrace
