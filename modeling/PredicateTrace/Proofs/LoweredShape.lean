import PredicateTrace.Lowering
import PredicateTrace.Proofs.EvaluatedParts

/-!
# The shape of lowered trees

Lowering appends to the block under construction the ops of the value that it builds, operands before the
op, and gives every body the form of one block that ends in a `yield`. The proofs go through a rule for
each part of the construction, so that what an expression adds is put together from what its parts add.
-/

namespace PredicateTrace

open Host (Heap)

mutual

/-- The ops that an operand brings into its block, operands before the op. -/
def Operand.ops : Operand → List Op
  | .op op => op.withOperands
  | .param _ => []

/-- An op after the ops of its operands. -/
def Op.withOperands : Op → List Op
  | .mk head operands bodies => Operand.opsOf operands ++ [.mk head operands bodies]

/-- The ops of some operands, from left to right. -/
def Operand.opsOf : List Operand → List Op
  | [] => []
  | x :: rest => x.ops ++ Operand.opsOf rest

end

@[simp]
lemma Operand.opsOf_append (xs ys : List Operand) :
    Operand.opsOf (xs ++ ys) = Operand.opsOf xs ++ Operand.opsOf ys := by
  induction xs with
  | nil => rfl
  | cons x rest ih => simp only [List.cons_append, Operand.opsOf, ih, List.append_assoc]

lemma Operand.opsOf_singleton (x : Operand) : Operand.opsOf [x] = x.ops :=
  List.append_nil x.ops

/-- A body yields a value, and its only block holds the ops of that value and the `yield`. -/
def Body.Yields (body : Body) (x : Operand) : Prop :=
  body = .mk [.ending [] x.ops (.of .yield [x])]

/-- An op has the operands and bodies that its kind takes, and every body yields a value. -/
structure Op.WellShaped (op : Op) : Prop where
  yields : ∀ body ∈ op.bodies, ∃ x, body.Yields x
  noOperands : ∀ var, op.head = .varLoad var → op.operands = []
  threeBodies : ∀ type, op.head = .ternary type → op.bodies.length = 3

/-- All ops inside of an operand are well shaped. -/
def Operand.WellShaped (x : Operand) : Prop :=
  ∀ op, Operand.Part (.op op) x → op.WellShaped

lemma Body.Yields.yielded?_eq {body : Body} {x : Operand} (h : body.Yields x) : body.yielded? = some x := by
  rw [h]
  rfl

lemma wellShaped_param (param : Parameter) : (Operand.param param).WellShaped := by
  rintro op ⟨⟩

lemma wellShaped_op {op : Op} (hop : op.WellShaped) (hx : ∀ x ∈ op.operands, x.WellShaped)
    (hb : ∀ body ∈ op.bodies, ∀ x, body.yielded? = some x → x.WellShaped) :
    (Operand.op op).WellShaped := by
  intro inner hpart
  cases hpart with
  | refl => exact hop
  | operand hmem hpart => exact hx _ hmem inner hpart
  | yielded hmem hyield hpart => exact hb _ hmem _ hyield inner hpart

lemma Operand.WellShaped.of_part {x y : Operand} (hx : x.WellShaped) (h : Operand.Part y x) :
    y.WellShaped :=
  fun op hop => hx op (hop.trans h)

/-- The op of a node is a part of the tree that was evaluated, or it shows a parameter. -/
lemma Evaluation.op_of_node {captures : Captures} {x : Operand} {p p' : Progress} {t n : Trace}
    (hshape : x.WellShaped) (h : Gives (evaluateOperand captures x) p t p') (hn : n ∈ t.nodes) :
    Operand.Part (.op n.op) x ∨ ∃ param v, n.op = .leaf (.this param v) := by
  cases node_origin h hn with
  | part hy hg =>
    rcases evaluateOperand_gives hg with ⟨op, o, ts, rfl, rfl, -⟩ | ⟨param, -, rfl, -⟩
    · exact .inl hy
    · obtain ⟨v, o, hload⟩ := exists_loadParameter_eq captures param
      rw [hload]
      exact .inr ⟨param, v, rfl⟩
  | malformed hop hb hnone =>
    obtain ⟨y, hyields⟩ := (hshape _ hop).yields _ hb
    rw [hyields.yielded?_eq] at hnone
    cases hnone

namespace Lowering

variable {α β : Type}

/-- A construction appends variables and ops, and what it gives fits the ops that it appended. -/
def Appends (build : Build α) (fits : α → List Op → Prop) : Prop :=
  ∀ b : Builder, ∃ vars ops,
    (build.run b).2 = ⟨b.vars ++ vars, b.ops ++ ops⟩ ∧ fits (build.run b).1 ops

lemma Appends.mono {build : Build α} {fits fits' : α → List Op → Prop} (h : Appends build fits)
    (himp : ∀ a ops, fits a ops → fits' a ops) : Appends build fits' := by
  intro b
  obtain ⟨vars, ops, hrun, hfit⟩ := h b
  exact ⟨vars, ops, hrun, himp _ _ hfit⟩

lemma appends_pure (a : α) : Appends (pure a) fun a' ops => a' = a ∧ ops = [] := by
  intro b
  refine ⟨[], [], ?_, rfl, rfl⟩
  change b = _
  simp

lemma Appends.bind {build : Build α} {next : α → Build β} {fits : α → List Op → Prop}
    {fits' : β → List Op → Prop} (hb : Appends build fits)
    (hn : ∀ a ops, fits a ops → Appends (next a) fun c more => fits' c (ops ++ more)) :
    Appends (build >>= next) fits' := by
  intro b
  obtain ⟨vars, ops, hrun, hfit⟩ := hb b
  obtain ⟨vars', ops', hrun', hfit'⟩ := hn _ ops hfit (build.run b).2
  refine ⟨vars ++ vars', ops ++ ops', ?_, hfit'⟩
  change ((next (build.run b).1).run (build.run b).2).2 = _
  rw [hrun', hrun]
  simp

lemma appends_emit (op : Op) : Appends (emit op) fun x ops => x = .op op ∧ ops = [op] := by
  intro b
  refine ⟨[], [op], ?_, rfl, rfl⟩
  change Builder.mk b.vars (b.ops ++ [op]) = _
  simp

lemma Appends.inBlock {build : Build α} {fits : α → List Op → Prop} (h : Appends build fits) :
    Appends (inBlock build) fun r ops => ops = [] ∧ fits r.1 r.2 := by
  intro b
  obtain ⟨vars, ops, hrun, hfit⟩ := h ⟨b.vars, []⟩
  refine ⟨vars, [], ?_, rfl, ?_⟩
  · change Builder.mk (build.run ⟨b.vars, []⟩).2.vars b.ops = _
    rw [hrun]
    simp
  · change fits (build.run ⟨b.vars, []⟩).1 (build.run ⟨b.vars, []⟩).2.ops
    rwa [hrun, List.nil_append] at *

/-- A construction appends the ops of the operand that it gives, which is well shaped. -/
def Emits (build : Build Operand) : Prop :=
  Appends build fun x ops => ops = x.ops ∧ x.WellShaped

lemma emits_pure {x : Operand} (h : x.ops = []) (hx : x.WellShaped) : Emits (pure x) :=
  (appends_pure x).mono fun _ _ ⟨hy, hops⟩ => by
    subst hy hops
    exact ⟨h.symm, hx⟩

/-- A name stands for the variable of the table that has it, or for one that is added to the table. -/
lemma useVariable_cases (scope : Scope) (heap : Heap) (name : String) (b : Builder) :
    (∃ v ∈ b.vars, v.name = name ∧ (useVariable scope heap name).run b = (v, b)) ∨
      ∃ v : Var, v = ⟨name, b.vars.length, ((scope.local? heap name).getD .null).staticType⟩ ∧
        (∀ w ∈ b.vars, w.name ≠ name) ∧ (useVariable scope heap name).run b = (v, ⟨b.vars ++ [v], b.ops⟩) := by
  unfold useVariable
  simp only [StateT.run_bind, StateT.run_get, pure_bind]
  cases hfind : b.vars.find? fun v => v.name == name with
  | some v =>
    have hname : v.name = name := by simpa using List.find?_some hfind
    exact .inl ⟨v, List.mem_of_find?_eq_some hfind, hname, rfl⟩
  | none =>
    have hnone : ∀ w ∈ b.vars, w.name ≠ name := by simpa using List.find?_eq_none.mp hfind
    exact .inr ⟨_, rfl, hnone, rfl⟩

lemma appends_useVariable (scope : Scope) (heap : Heap) (name : String) :
    Appends (useVariable scope heap name) fun _ ops => ops = [] := by
  intro b
  obtain ⟨v, _, _, hrun⟩ | ⟨v, _, _, hrun⟩ := useVariable_cases scope heap name b <;> rw [hrun]
  · exact ⟨[], [], by simp, rfl⟩
  · exact ⟨[v], [], by simp, rfl⟩

lemma wellShaped_of {head : Head} {xs : List Operand} (hload : ∀ var, head ≠ .varLoad var)
    (hternary : ∀ type, head ≠ .ternary type) (hx : ∀ x ∈ xs, x.WellShaped) :
    (Operand.op (.of head xs)).WellShaped := by
  refine wellShaped_op ⟨?_, fun var h => absurd h (hload var), fun type h => absurd h (hternary type)⟩ hx ?_
  all_goals
    intro body hb
    simp [Op.of, Op.bodies] at hb

lemma wellShaped_leaf {head : Head} (hternary : ∀ type, head ≠ .ternary type) :
    (Operand.op (.leaf head)).WellShaped := by
  refine wellShaped_op ⟨?_, fun _ _ => rfl, fun type h => absurd h (hternary type)⟩ ?_ ?_
  all_goals
    intro inner hmem
    simp [Op.leaf, Op.bodies, Op.operands] at hmem

/-- After its operands, an op without bodies completes the ops of its value. -/
lemma appends_emit_of {head : Head} {xs : List Operand} (hload : ∀ var, head ≠ .varLoad var)
    (hternary : ∀ type, head ≠ .ternary type) (hx : ∀ x ∈ xs, x.WellShaped) :
    Appends (emit (.of head xs)) fun y more => Operand.opsOf xs ++ more = y.ops ∧ y.WellShaped :=
  (appends_emit _).mono fun _ _ ⟨hy, hops⟩ => by
    subst hy hops
    exact ⟨rfl, wellShaped_of hload hternary hx⟩

lemma emits_leaf {head : Head} (hternary : ∀ type, head ≠ .ternary type) : Emits (emit (.leaf head)) :=
  (appends_emit _).mono fun _ _ ⟨hy, hops⟩ => by
    subst hy hops
    exact ⟨rfl, wellShaped_leaf hternary⟩

/-- An op on one operand that was just built. -/
lemma Emits.emit_of {build : Build Operand} {head : Head} (h : Emits build)
    (hload : ∀ var, head ≠ .varLoad var) (hternary : ∀ type, head ≠ .ternary type) :
    Emits (build >>= fun x => emit (.of head [x])) := by
  refine h.bind fun x ops ⟨hops, hx⟩ => ?_
  subst hops
  have hemit := @appends_emit_of head [x] hload hternary (by simpa using hx)
  simpa [Operand.opsOf] using hemit

/-- An op on one operand that was built before and on one that is just built. -/
lemma Emits.emit_of_pair {build : Build Operand} {head : Head} {x : Operand} (h : Emits build)
    (hx : x.WellShaped) (hload : ∀ var, head ≠ .varLoad var) (hternary : ∀ type, head ≠ .ternary type) :
    Appends (build >>= fun y => emit (.of head [x, y])) fun z more => x.ops ++ more = z.ops ∧ z.WellShaped := by
  refine h.bind fun y ops ⟨hops, hy⟩ => ?_
  subst hops
  have hemit := @appends_emit_of head [x, y] hload hternary (by simpa using ⟨hx, hy⟩)
  simpa [Operand.opsOf] using hemit

lemma appends_convert {value : Operand} (hv : value.WellShaped) (source : TypeRef)
    (target : Option Primitive) :
    Appends (convert value source target) fun x more => value.ops ++ more = x.ops ∧ x.WellShaped := by
  have hkeep : Appends (pure value) fun x more => value.ops ++ more = x.ops ∧ x.WellShaped :=
    (appends_pure value).mono fun _ _ ⟨hy, hops⟩ => by
      subst hy hops
      exact ⟨List.append_nil _, hv⟩
  cases target with
  | none => exact hkeep
  | some target =>
    rw [convert]
    split
    · have hemit := @appends_emit_of (.conv (.prim target)) [value] (by simp) (by simp) (by simpa using hv)
      simpa only [Operand.opsOf, List.append_nil] using hemit
    · exact hkeep

lemma Emits.convert {build : Build Operand} (h : Emits build) (source : TypeRef)
    (target : Option Primitive) : Emits (build >>= fun x => convert x source target) :=
  h.bind fun _ _ ⟨hops, hx⟩ => by
    subst hops
    exact appends_convert hx source target

/-- Bodies that each yield a well-shaped value. -/
def YieldWellShaped (bodies : List Body) : Prop :=
  ∀ body ∈ bodies, ∃ x, body.Yields x ∧ x.WellShaped

lemma appends_body {build : Build Operand} (h : Emits build) (source : TypeRef)
    (target : Option Primitive) :
    Appends (body source target build) fun b ops => ops = [] ∧ ∃ x, b.Yields x ∧ x.WellShaped := by
  refine (h.convert source target).inBlock.bind fun r ops ⟨hops, hinner, hx⟩ => ?_
  subst hops
  refine (appends_pure _).mono fun b more ⟨hb, hmore⟩ => ?_
  subst hb hmore
  exact ⟨rfl, r.1, by rw [Body.Yields, hinner], hx⟩

/-- An op with bodies and without operands. -/
lemma wellShaped_bodies {head : Head} {bodies : List Body} (hb : YieldWellShaped bodies)
    (hthree : ∀ type, head = .ternary type → bodies.length = 3) :
    (Operand.op (.mk head [] bodies)).WellShaped := by
  refine wellShaped_op ⟨?_, fun _ _ => rfl, hthree⟩ (by simp [Op.operands]) ?_
  · intro body hmem
    obtain ⟨x, hyield, _⟩ := hb body hmem
    exact ⟨x, hyield⟩
  · intro body hmem x hx
    obtain ⟨y, hyield, hy⟩ := hb body hmem
    rw [hyield.yielded?_eq] at hx
    exact Option.some.inj hx ▸ hy

lemma appends_chainBodies {build : Build Operand} (h : Emits build) (op : BinaryOperator)
    (left : TypedExpr) :
    Appends (chainBodies op left build) fun bodies ops => ops = [] ∧ YieldWellShaped bodies := by
  unfold chainBodies
  split
  · refine h.inBlock.bind fun r ops ⟨hops, _, hx⟩ => ?_
    subst hops
    rcases r with ⟨chain | param, inner⟩
    · refine (appends_pure chain.bodies).mono fun bodies more ⟨hb, hmore⟩ => ?_
      subst hb hmore
      refine ⟨rfl, fun body hbody => ?_⟩
      obtain ⟨x, hyield⟩ := (hx chain (.refl _)).yields body hbody
      exact ⟨x, hyield, hx.of_part (.yielded hbody hyield.yielded?_eq (.refl x))⟩
    · refine (appends_pure []).mono fun bodies more ⟨hb, hmore⟩ => ?_
      subst hb hmore
      exact ⟨rfl, by simp [YieldWellShaped]⟩
  · refine (appends_body h left.type none).bind fun b ops ⟨hops, hb⟩ => ?_
    subst hops
    refine (appends_pure [b]).mono fun bodies more ⟨hbodies, hmore⟩ => ?_
    subst hbodies hmore
    exact ⟨rfl, by simpa [YieldWellShaped] using hb⟩

lemma appends_unaryOperation {operand : Operand} (hx : operand.WellShaped) (type : TypeRef)
    (op : UnaryOperator) :
    Appends (unaryOperation type operand op) fun y more => operand.ops ++ more = y.ops ∧ y.WellShaped := by
  have hone {head : Head} (hload : ∀ var, head ≠ .varLoad var) (hternary : ∀ type, head ≠ .ternary type) :
      Appends (emit (.of head [operand])) fun y more => operand.ops ++ more = y.ops ∧ y.WellShaped := by
    simpa [Operand.opsOf] using @appends_emit_of head [operand] hload hternary (by simpa using hx)
  cases op with
  | not => exact hone (by simp) (by simp)
  | minus => exact hone (by simp) (by simp)
  | plus =>
    refine (appends_pure operand).mono fun y more ⟨hy, hmore⟩ => ?_
    subst hy hmore
    exact ⟨List.append_nil _, hx⟩
  | complement =>
    have hones : Emits (emit (allOnes type)) := by
      unfold allOnes
      split <;> exact emits_leaf (by simp)
    exact hones.emit_of_pair hx (by simp) (by simp)

lemma Emits.castOperation {build : Build Operand} (h : Emits build) (source target : TypeRef) :
    Emits (build >>= castOperation source target) := by
  cases target with
  | prim p =>
    by_cases hsource : (source == .object) = true
    · have hop : Lowering.castOperation source (.prim p) = fun x => emit (.of (.conv (.prim p)) [x]) := by
        funext x
        rw [Lowering.castOperation, if_pos hsource]
      rw [hop]
      exact h.emit_of (by simp) (by simp)
    · have hop : Lowering.castOperation source (.prim p) = fun x => Lowering.convert x source (some p) := by
        funext x
        rw [Lowering.castOperation, if_neg hsource]
      rw [hop]
      exact h.convert source (some p)
  | _ => exact h.emit_of (by simp) (by simp)

/-- An operator that does not short-circuit becomes one op on both operands. -/
lemma operation_eq (note : Typing) {op : BinaryOperator} (h : chainHead? op = none) :
    ∃ head : Head, (∀ var, head ≠ .varLoad var) ∧ (∀ type, head ≠ .ternary type) ∧
      operation note op = fun l r => emit (.of head [l, r]) := by
  cases op with
  | arith a => exact ⟨.binary (.arith a) (note.type.getD .object), by simp, by simp, rfl⟩
  | shift s => exact ⟨.binary (.shift s) (note.type.getD .object), by simp, by simp, rfl⟩
  | compare c => exact ⟨.compare (.compare c), by simp, by simp, rfl⟩
  | conjunction | disjunction => simp [chainHead?] at h

/-- An op on some operands and on further ones that are just built. -/
lemma appends_call {args : Build (List Operand)} {head : Head} {first : List Operand}
    (hargs : Appends args fun xs ops => ops = Operand.opsOf xs ∧ ∀ x ∈ xs, x.WellShaped)
    (hfirst : ∀ x ∈ first, x.WellShaped) (hload : ∀ var, head ≠ .varLoad var)
    (hternary : ∀ type, head ≠ .ternary type) :
    Appends (args >>= fun xs => emit (.of head (first ++ xs)))
      fun y more => Operand.opsOf first ++ more = y.ops ∧ y.WellShaped := by
  refine hargs.bind fun xs ops ⟨hops, hxs⟩ => ?_
  subst hops
  have hemit := @appends_emit_of head (first ++ xs) hload hternary (List.forall_mem_append.mpr ⟨hfirst, hxs⟩)
  simpa only [Operand.opsOf_append, List.append_assoc] using hemit

mutual

/-- Lowering appends the ops of the value that it gives, and the value is well shaped. -/
theorem emits_lower (scope : Scope) (heap : Heap) : (e : TypedExpr) → Emits (lower scope heap e)
  | .literal note v => by
    rw [lower]
    cases v <;> exact emits_leaf (by simp)
  | .name note n => by
    rw [lower]
    have hvariable : Emits (do emit (.leaf (.varLoad (← useVariable scope heap n)))) :=
      (appends_useVariable scope heap n).bind fun var ops hops => by
        subst hops
        exact emits_leaf (by simp)
    have hfield (owner : TypeRef) : Emits
        (emit (.of (.fieldLoad ⟨owner, n, note.type.getD .object⟩) [.param (thisParameter scope)])) :=
      (emits_pure rfl (wellShaped_param (thisParameter scope))).emit_of (by simp) (by simp)
    split
    · exact hfield _
    · exact hvariable
  | .this _ => by
    rw [lower]
    exact emits_pure rfl (wellShaped_param _)
  | .field note target n => by
    rw [lower]
    have htarget : Emits (lower scope heap target) := emits_lower scope heap target
    split
    · exact emits_leaf (by simp)
    · exact htarget.emit_of (by simp) (by simp)
    · exact htarget.emit_of (by simp) (by simp)
    · exact htarget.emit_of (by simp) (by simp)
  | .call note target n args => by
    rw [lower]
    have hargs := emits_lowerArgs scope heap note 0 args
    split
    · exact @appends_call _ _ [] hargs (by simp) (by simp) (by simp)
    · refine (emits_lower scope heap target).bind fun receiver ops ⟨hops, hx⟩ => ?_
      subst hops
      rw [← Operand.opsOf_singleton receiver]
      exact @appends_call _ _ [receiver] hargs (by simpa using hx) (by simp) (by simp)
  | .thisCall note n args => by
    rw [lower]
    have hthis : ∀ x ∈ [Operand.param (thisParameter scope)], x.WellShaped := by
      simpa using wellShaped_param (thisParameter scope)
    exact @appends_call _ _ [.param (thisParameter scope)] (emits_lowerArgs scope heap note 0 args) hthis
      (by simp) (by simp)
  | .index note array place => by
    rw [lower]
    refine (emits_lower scope heap array).bind fun x ops ⟨hops, hx⟩ => ?_
    subst hops
    rw [← bind_assoc]
    exact ((emits_lower scope heap place).convert _ _).emit_of_pair hx (by simp) (by simp)
  | .newObject note _ args => by
    rw [lower]
    exact @appends_call _ _ [] (emits_lowerArgs scope heap note 0 args) (by simp) (by simp) (by simp)
  | .newArray note _ dims _ => by
    rw [lower]
    exact @appends_call _ _ [] (emits_lowerArgs scope heap note 0 dims) (by simp) (by simp) (by simp)
  | .unary note op operand => by
    rw [lower, ← bind_assoc]
    refine ((emits_lower scope heap operand).convert operand.type (conversionAt note 0)).bind
      fun x ops ⟨hops, hx⟩ => ?_
    subst hops
    exact appends_unaryOperation hx _ op
  | .binary note op left right => by
    rw [lower]
    split
    · next head hhead =>
      have hload : ∀ type, head ≠ .ternary type := by
        rintro type rfl
        cases op <;> simp [chainHead?] at hhead
      refine (appends_chainBodies (emits_lower scope heap left) op left).bind fun earlier ops ⟨hops, he⟩ => ?_
      subst hops
      refine (appends_body (emits_lower scope heap right) right.type none).bind fun last ops ⟨hops, hl⟩ => ?_
      subst hops
      refine (appends_emit _).mono fun x ops ⟨hx, hops⟩ => ?_
      subst hx hops
      refine ⟨rfl, wellShaped_bodies ?_ fun type h => absurd h (hload type)⟩
      exact List.forall_mem_append.mpr ⟨he, by simpa using hl⟩
    · next hhead =>
      obtain ⟨head, hload, hternary, hop⟩ := operation_eq note hhead
      simp only [hop]
      rw [← bind_assoc]
      refine ((emits_lower scope heap left).convert _ _).bind fun l ops ⟨hops, hl⟩ => ?_
      subst hops
      rw [← bind_assoc]
      exact ((emits_lower scope heap right).convert _ _).emit_of_pair hl hload hternary
  | .instanceOf note operand _ => by
    rw [lower]
    exact (emits_lower scope heap operand).emit_of (by simp) (by simp)
  | .cast note _ operand => by
    rw [lower]
    exact (emits_lower scope heap operand).castOperation _ _
  | .conditional note cond thenArm elseArm => by
    rw [lower]
    refine (appends_body (emits_lower scope heap cond) _ none).bind fun c ops ⟨hops, hc⟩ => ?_
    subst hops
    refine (appends_body (emits_lower scope heap thenArm) _ _).bind fun yes ops ⟨hops, hyes⟩ => ?_
    subst hops
    refine (appends_body (emits_lower scope heap elseArm) _ _).bind fun no ops ⟨hops, hno⟩ => ?_
    subst hops
    refine (appends_emit _).mono fun x ops ⟨hx, hops⟩ => ?_
    subst hx hops
    refine ⟨rfl, wellShaped_bodies ?_ fun _ _ => rfl⟩
    simpa [YieldWellShaped] using ⟨hc, hyes, hno⟩
  | .assign _ target value => by
    rw [lower.eq_def]
    refine (emits_lower scope heap value).bind fun x ops ⟨hops, hx⟩ => ?_
    subst hops
    refine (appends_useVariable scope heap _).bind fun var ops hops => ?_
    subst hops
    simpa [Operand.opsOf] using @appends_emit_of (.varStore var) [x] (by simp) (by simp) (by simpa using hx)

/-- Lowering arguments appends the ops of all of them. -/
theorem emits_lowerArgs (scope : Scope) (heap : Heap) (note : Typing) (place : Nat) :
    (args : List TypedExpr) → Appends (lowerArgs scope heap note place args)
      fun xs ops => ops = Operand.opsOf xs ∧ ∀ x ∈ xs, x.WellShaped
  | [] => by
    rw [lowerArgs]
    exact (appends_pure []).mono fun xs ops ⟨hxs, hops⟩ => by
      subst hxs hops
      exact ⟨rfl, by simp⟩
  | arg :: rest => by
    rw [lowerArgs, ← bind_assoc]
    refine ((emits_lower scope heap arg).convert _ _).bind fun x ops ⟨hops, hx⟩ => ?_
    subst hops
    refine (emits_lowerArgs scope heap note (place + 1) rest).bind fun xs others ⟨hothers, hxs⟩ => ?_
    subst hothers
    exact (appends_pure (x :: xs)).mono fun ys none ⟨hys, hnone⟩ => by
      subst hys hnone
      exact ⟨by simp [Operand.opsOf], List.forall_mem_cons.mpr ⟨hx, hxs⟩⟩

end

/-! ### Lowering by forms -/

section Equations

variable {scope : Scope} {heap : Heap}

lemma lower_local (pos : Position) (type : TypeRef) (n : String) :
    lower scope heap (.name (.named pos type .local) n) =
      useVariable scope heap n >>= fun var => emit (.leaf (.varLoad var)) :=
  rfl

lemma lower_unary (note : Typing) (op : UnaryOperator) (x : TypedExpr) :
    lower scope heap (.unary note op x) =
      (lower scope heap x >>= fun value => convert value x.type (conversionAt note 0)) >>= fun value =>
        unaryOperation (note.type.getD .object) value op :=
  rfl

/-- The two operands of an operation that does not short-circuit. -/
lemma lower_binary (note : Typing) {op : BinaryOperator} (hop : chainHead? op = none) (l r : TypedExpr) :
    lower scope heap (.binary note op l r) =
      (lower scope heap l >>= fun x => convert x l.type (conversionAt note 0)) >>= fun x =>
        (lower scope heap r >>= fun y => convert y r.type (conversionAt note 1)) >>= fun y =>
          operation note op x y := by
  cases op with
  | conjunction | disjunction => cases hop
  | arith | shift | compare => rfl

/-- A short-circuit operator adds one body to those of its left operand. -/
lemma lower_logical (note : Typing) {op : BinaryOperator} {head : Head} (hop : chainHead? op = some head)
    (l r : TypedExpr) :
    lower scope heap (.binary note op l r) =
      chainBodies op l (lower scope heap l) >>= fun earlier =>
        body r.type none (lower scope heap r) >>= fun last => emit (.mk head [] (earlier ++ [last])) := by
  cases op <;> cases hop <;> rfl

lemma lower_conditional (note : Typing) (c yes no : TypedExpr) :
    lower scope heap (.conditional note c yes no) =
      body c.type none (lower scope heap c) >>= fun cond =>
        body yes.type (conversionAt note 1) (lower scope heap yes) >>= fun yes' =>
          body no.type (conversionAt note 2) (lower scope heap no) >>= fun no' =>
            emit (.mk (.ternary (note.type.getD .object)) [] [cond, yes', no']) :=
  rfl

/-- A chain of the same operator is lowered to one op, with a body for each operand. -/
lemma lower_chain {op : BinaryOperator} {head : Head} (hop : chainHead? op = some head) {te : TypedExpr}
    (h : continues op te = true) (b : Builder) :
    ∃ bodies, ((lower scope heap te).run b).1 = .op (.mk head [] bodies) := by
  cases te with
  | binary note other l r =>
    obtain rfl : other = op := by simpa [continues] using h
    rw [lower_logical note hop]
    exact ⟨_, rfl⟩
  | _ => cases h

end Equations

end Lowering

end PredicateTrace
