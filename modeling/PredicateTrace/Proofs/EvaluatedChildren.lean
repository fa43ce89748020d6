import Mathlib
import PredicateTrace.Proofs.AcceptedForms
import PredicateTrace.Proofs.LoweredShape

/-!
# The children of a node

The children of a node are the traces of what was evaluated for it: operands from left to right up to the
first one without a value, bodies of a short-circuit operator up to the first one that decides, the
condition of a conditional and the arm that it selects.
-/

namespace PredicateTrace

open Host (Heap)

/-- Whether an op evaluates bodies. -/
def Head.takesBodies : Head → Bool
  | .condAnd | .condOr | .ternary _ => true
  | _ => false

namespace Evaluation

/-- A trace shows the operand that it is the trace of: the op itself, or the value of a bound parameter. -/
def Labelled (captures : Captures) : Operand → Trace → Prop
  | .op op, t => t.op = op
  | .param param, t => ∀ v, captures.argument? param.name = some v →
      t = .node (.leaf (.this param v.box)) (.value v.box) []

/-- Traces of operands that are evaluated one after the other. -/
def Models (captures : Captures) (xs : List Operand) (p : Progress) (ts : List Trace) (p' : Progress) : Prop :=
  InTurn (evaluateOperand captures) xs p ts p' ∧ List.Forall₂ (Labelled captures) xs ts

/-- The children are the traces of the operands, up to the first one without a value. -/
def OperandsEvaluated (captures : Captures) (n : Trace) (p : Progress) : Prop :=
  ∃ done rest p', n.op.operands = done ++ rest ∧ Models captures done p n.children p' ∧
    (rest = [] ∨ ∃ last, n.children.getLast? = some last ∧ last.hasValue = false)

/-- The children are the traces of what the bodies yield, up to the first one that decides. -/
def BodiesEvaluated (captures : Captures) (decisive : Bool) (n : Trace) (p : Progress) : Prop :=
  ∃ done rest xs p', n.op.bodies = done ++ rest ∧ done.map Body.yielded? = xs.map some ∧
    Models captures xs p n.children p' ∧
    (∀ c ∈ n.children.dropLast, c.value? = some (.bool !decisive)) ∧
    (rest ≠ [] → ∃ last, n.children.getLast? = some last ∧
      (last.hasValue = false ∨ (∃ v, last.value? = some v ∧ ∀ b, v ≠ .bool b) ∨
        last.value? = some (.bool decisive))) ∧
    (n.hasValue = true → (n.value? = some (.bool decisive) ↔
      ∃ last, n.children.getLast? = some last ∧ last.value? = some (.bool decisive)))

/-- The children are the trace of the condition, and that of the arm which the condition selects. -/
def ArmEvaluated (captures : Captures) (n : Trace) (p : Progress) : Prop :=
  ∃ c yes no p', n.op.bodies.map Body.yielded? = [some c, some yes, some no] ∧
    ((∃ test, n.children = [test] ∧ Models captures [c] p [test] p' ∧
        (test.hasValue = false ∨ ∃ v, test.value? = some v ∧ ∀ b, v ≠ .bool b)) ∨
      ∃ test b arm, n.children = [test, arm] ∧ test.value? = some (.bool b) ∧
        Models captures [c, if b then yes else no] p [test, arm] p' ∧ n.outcome = arm.outcome)

/-- The children of a node are the traces of what is evaluated for its op from the state before it. -/
structure ChildrenEvaluated (captures : Captures) (n : Trace) (p : Progress) : Prop where
  operands : n.op.head.takesBodies = false → n.op.head.isInert = false → OperandsEvaluated captures n p
  bodies : ∀ decisive, n.op.head.decisive? = some decisive → BodiesEvaluated captures decisive n p
  arm : ∀ type, n.op.head = .ternary type → ArmEvaluated captures n p

variable {captures : Captures}

lemma labelled_of_gives {x : Operand} {p p' : Progress} {t : Trace}
    (h : Gives (evaluateOperand captures x) p t p') : Labelled captures x t := by
  rcases evaluateOperand_gives h with ⟨op, o, ts, rfl, rfl, _⟩ | ⟨param, rfl, rfl, _⟩
  · rfl
  · intro v hv
    simp [loadParameter, hv]

lemma InTurn.models {xs : List Operand} {p p' : Progress} {ts : List Trace}
    (h : InTurn (evaluateOperand captures) xs p ts p') : Models captures xs p ts p' := by
  refine ⟨h, ?_⟩
  induction h with
  | nil => exact .nil
  | cons hx _ ih => exact .cons (labelled_of_gives hx) ih

/-- Bodies that all yield a value are evaluated like the values that they yield. -/
lemma InTurn.of_bodies {bodies : List Body} {p p' : Progress} {ts : List Trace}
    (h : InTurn (evaluateBody captures) bodies p ts p')
    (hyield : ∀ body ∈ bodies, ∃ x, body.yielded? = some x) :
    ∃ xs, bodies.map Body.yielded? = xs.map some ∧ InTurn (evaluateOperand captures) xs p ts p' := by
  induction h with
  | nil p => exact ⟨[], rfl, .nil p⟩
  | cons hb _ ih =>
    obtain ⟨xs, hxs, hturn⟩ := ih fun body hmem => hyield body (List.mem_cons_of_mem _ hmem)
    obtain ⟨y, hy⟩ := hyield _ List.mem_cons_self
    rcases evaluateBody_gives hb with ⟨x, hx, hg⟩ | ⟨hnone, _⟩
    · exact ⟨x :: xs, by simp [hx, hxs], .cons hg hturn⟩
    · simp [hnone] at hy

lemma OperandsRun.evaluated {head : Head} {xs : List Operand} {bodies : List Body} {p p' : Progress}
    {r : Evaluated} {o : Outcome} (h : OperandsRun captures xs p r p') :
    OperandsEvaluated captures (.node (.mk head xs bodies) o r.nodes) p := by
  obtain ⟨done, rest, rfl, hturn, hall, hlast⟩ := h.inTurn
  refine ⟨done, rest, p', rfl, hturn.models, ?_⟩
  cases hf : r.failed with
  | none => exact Or.inl (hall hf).1
  | some last =>
    obtain ⟨before, hnodes, _⟩ := hlast last hf
    refine Or.inr ⟨last, ?_, ?_⟩
    · simp [Trace.children, hnodes]
    · simp [Trace.hasValue, h.last_fails hf]

lemma ChainRun.evaluated {head : Head} {decisive : Bool} {xs : List Operand} {bodies : List Body}
    {p p' : Progress} {ts : List Trace} {o : Outcome} (h : ChainRun captures decisive bodies p ts o p')
    (hyield : ∀ body ∈ bodies, ∃ x, body.yielded? = some x) :
    BodiesEvaluated captures decisive (.node (.mk head xs bodies) o ts) p := by
  obtain ⟨done, rest, rfl, hturn, hend⟩ := h.inTurn
  obtain ⟨ys, hys, hturn⟩ := hturn.of_bodies fun body hmem => hyield body (List.mem_append_left _ hmem)
  refine ⟨done, rest, ys, p', rfl, hys, hturn.models, ?_⟩
  have hnot {t : Trace} (ht : t.value? = some (.bool !decisive)) : t.value? ≠ some (.bool decisive) := by
    rw [ht]
    cases decisive <;> simp
  rcases hend with ⟨rfl, hall, rfl⟩ | ⟨before, last, rfl, hall, hend⟩
  · refine ⟨fun c hc => hall c (List.dropLast_subset _ hc), by simp, fun _ => ?_⟩
    constructor
    · intro hv
      exact absurd hv (hnot rfl)
    · rintro ⟨last, hlast, hv⟩
      exact absurd hv (hnot (hall last (List.mem_of_getLast? hlast)))
  · have hlast : (before ++ [last]).getLast? = some last := List.getLast?_concat
    refine ⟨?_, fun _ => ⟨last, hlast, ?_⟩, fun hn => ?_⟩
    · rwa [Trace.children, List.dropLast_concat]
    · rcases hend with ⟨hv, _⟩ | ⟨hv, _⟩ | ⟨hv, _⟩
      · exact Or.inl (by simp [Trace.hasValue, hv])
      · exact Or.inr (Or.inr hv)
      · exact Or.inr (Or.inl hv)
    · rcases hend with ⟨hv, rfl⟩ | ⟨hv, rfl⟩ | ⟨_, rfl⟩
      · exact absurd hv (Option.isSome_iff_ne_none.mp hn)
      · exact ⟨fun _ => ⟨last, hlast, hv⟩, fun _ => rfl⟩
      · cases hn

lemma ChoiceRun.evaluated {head : Head} {xs : List Operand} {bodies : List Body} {p p' : Progress}
    {ts : List Trace} {o : Outcome} (h : ChoiceRun captures bodies p ts o p')
    (hyield : ∀ body ∈ bodies, ∃ x, body.yielded? = some x) (hlen : bodies.length = 3) :
    ArmEvaluated captures (.node (.mk head xs bodies) o ts) p := by
  obtain ⟨c, yes, no, rfl⟩ := List.length_eq_three.mp hlen
  obtain ⟨⟨x, hx⟩, ⟨y, hy⟩, ⟨z, hz⟩⟩ : (∃ x, c.yielded? = some x) ∧ (∃ y, yes.yielded? = some y) ∧
      ∃ z, no.yielded? = some z := by simpa using hyield
  refine ⟨x, y, z, p', by simp [Op.bodies, Trace.op, hx, hy, hz], ?_⟩
  cases h with
  | malformed _ hne => exact absurd hlen hne
  | failed hc hv =>
    exact Or.inl ⟨_, rfl, (InTurn.singleton (gives_of_yielded hx hc)).models, Or.inl (by simp [Trace.hasValue, hv])⟩
  | untrue hc hv hbool =>
    exact Or.inl ⟨_, rfl, (InTurn.singleton (gives_of_yielded hx hc)).models, Or.inr ⟨_, hv, hbool⟩⟩
  | @chosen _ _ _ _ test b _ arm _ hc hv harm =>
    have hselected : (if b then yes else no).yielded? = some (if b then y else z) := by
      cases b
      · exact hz
      · exact hy
    exact Or.inr ⟨test, b, arm, rfl, hv, (InTurn.cons (gives_of_yielded hx hc) (.singleton (gives_of_yielded hselected harm))).models, rfl⟩

/-- The node of a well-shaped op has the traces of what was evaluated for it as its children. -/
lemma OpRun.childrenEvaluated {op : Op} {p p' : Progress} {ts : List Trace} {o : Outcome}
    (h : OpRun captures op p ts o p') (hop : op.WellShaped) :
    ChildrenEvaluated captures (.node op o ts) p := by
  have hyield : ∀ body ∈ op.bodies, ∃ x, body.yielded? = some x := by
    intro body hb
    obtain ⟨x, hx⟩ := hop.yields body hb
    exact ⟨x, hx.yielded?_eq⟩
  constructor
  · intro hbodies hinert
    cases h with
    | bound | unbound =>
      obtain rfl := hop.noOperands _ rfl
      exact ⟨[], [], p, rfl, (InTurn.nil p).models, Or.inl rfl⟩
    | inert _ hh => simp [Trace.op, Op.head, hh] at hinert
    | failed _ hr | computed _ hr => exact hr.evaluated
    | @chain head _ _ _ _ _ _ _ hh =>
      cases head <;> simp [Head.decisive?] at hh <;> simp [Trace.op, Op.head, Head.takesBodies] at hbodies
    | choice => simp [Trace.op, Op.head, Head.takesBodies] at hbodies
  · intro decisive hd
    rcases op with ⟨head, xs, bodies⟩
    exact ((opRun_chain hd).mp h).evaluated hyield
  · intro type hhead
    rcases op with ⟨head, xs, bodies⟩
    obtain rfl : head = .ternary type := hhead
    exact (opRun_choice.mp h).evaluated hyield (hop.threeBodies type rfl)

/-- The node of a parameter has no children, and its op no operands. -/
lemma childrenEvaluated_parameter (param : Parameter) (p : Progress) :
    ChildrenEvaluated captures (loadParameter captures param) p := by
  obtain ⟨v, o, hload⟩ := exists_loadParameter_eq captures param
  rw [hload]
  refine ⟨fun _ _ => ⟨[], [], p, rfl, (InTurn.nil p).models, Or.inl rfl⟩, ?_, ?_⟩
  · intro decisive hd
    simp [Trace.op, Op.leaf, Op.head, Head.decisive?] at hd
  · intro type hhead
    simp [Trace.op, Op.leaf, Op.head] at hhead

end Evaluation

namespace Lowering

/-- A predicate returns a well-shaped value. -/
theorem returned?_quote (scope : Scope) (heap : Heap) (e : TypedExpr) :
    ∃ x, (quote scope heap e).returned? = some x ∧ x.WellShaped := by
  obtain ⟨_, _, _, _, hx⟩ := emits_lower scope heap e ⟨[], []⟩
  exact ⟨_, rfl, hx⟩

end Lowering

/-- A quoted predicate is a lowered expression, and returns a well-shaped value. -/
lemma returned?_of_quote {scope : Scope} {heap : Heap} {source : String} {q : Quoted}
    (hq : quote scope heap source = .ok q) : ∃ x, q.returned? = some x ∧ x.WellShaped := by
  obtain ⟨e, te, -, -, rfl⟩ := Typing.quote_eq_ok.mp hq
  exact Lowering.returned?_quote scope heap te

/-- A run of a predicate with a property that is decided by computing it. -/
lemma exists_run {scope : Scope} {heap heap' : Heap} {source : String} {test : Trace → Progress → Bool}
    (h : ((quote scope heap source).toOption.map fun q => q.evaluate heap').any
      (fun r => r.1.toOption.any fun t => test t r.2) = true) :
    ∃ q t p, quote scope heap source = .ok q ∧ q.evaluate heap' = (.ok t, p) ∧ test t p = true := by
  cases hq : quote scope heap source with
  | error e => simp [hq, Except.toOption] at h
  | ok q =>
    rcases ht : q.evaluate heap' with ⟨_ | t, p⟩
    · simp [hq, ht, Except.toOption] at h
    · exact ⟨q, t, p, rfl, ht, by simpa [hq, ht, Except.toOption] using h⟩

/-- In the trace of a quoted predicate every node is the trace of an operand inside of the predicate, and
its children are the traces of exactly what was evaluated for it. -/
theorem children_evaluated {scope : Scope} {heap heap' : Heap} {source : String} {q : Quoted} {t : Trace}
    {p : Progress} (hq : quote scope heap source = .ok q) (ht : q.evaluate heap' = (.ok t, p)) :
    ∃ root, q.returned? = some root ∧ ∀ n ∈ t.nodes, ∃ x before after, Operand.Part x root ∧
      Gives (Evaluation.evaluateOperand q.captures x) before n after ∧
      Evaluation.Labelled q.captures x n ∧ Evaluation.ChildrenEvaluated q.captures n before := by
  obtain ⟨root, hroot, hshape⟩ := returned?_of_quote hq
  refine ⟨root, hroot, fun n hn => ?_⟩
  rcases Quoted.evaluate_eq_ok ht with ⟨x, hx, hg⟩ | ⟨hnone, _⟩
  · obtain rfl := Option.some.inj (hroot.symm.trans hx)
    cases Evaluation.node_origin hg hn with
    | @part y before after hy hgy =>
      refine ⟨y, before, after, hy, hgy, Evaluation.labelled_of_gives hgy, ?_⟩
      rcases Evaluation.evaluateOperand_gives hgy with ⟨op, o, ts, rfl, rfl, hr⟩ | ⟨param, rfl, rfl, _⟩
      · exact hr.childrenEvaluated (hshape op hy)
      · exact Evaluation.childrenEvaluated_parameter param before
    | malformed hop hb hnone =>
      obtain ⟨y, hy⟩ := (hshape _ hop).yields _ hb
      simp [hy.yielded?_eq] at hnone
  · simp [hroot] at hnone

/-- Only the first operand of the disjunction is evaluated. -/
theorem children_evaluated_of_disjunction :
    let scope : Scope := ⟨[], none, .empty⟩
    let one := Op.leaf (.const (.integral .int 1) (.prim .int))
    let zero := Op.leaf (.const (.integral .int 0) (.prim .int))
    let no := Op.leaf (.const (.bool false) (.prim .boolean))
    let test := Op.of (.compare (.compare .gt)) [.op one, .op zero]
    let either := Op.mk .condOr [] [.mk [.ending [] [one, zero, test] (.of .yield [.op test])],
      .mk [.ending [] [no] (.of .yield [.op no])]]
    let q : Quoted := ⟨.mk .lambda [] [.mk [.ending [] [either] (.of .ret [.op either])]], ⟨[], []⟩⟩
    let t := Trace.node either (.value (.bool true)) [.node test (.value (.bool true))
      [.node one (.value (.integral .int 1)) [], .node zero (.value (.integral .int 0)) []]]
    quote scope Heap.empty "1>0||false" = .ok q ∧ q.evaluate Heap.empty = (.ok t, ⟨Heap.empty, []⟩) ∧
      ∃ root, q.returned? = some root ∧ ∀ n ∈ t.nodes, ∃ x before after, Operand.Part x root ∧
        Gives (Evaluation.evaluateOperand q.captures x) before n after ∧
        Evaluation.Labelled q.captures x n ∧ Evaluation.ChildrenEvaluated q.captures n before := by
  intro scope one zero no test either q t
  have hparse : Parser.parse "1>0||false" = .ok (.binary ⟨1, 4⟩ .disjunction
      (.binary ⟨1, 2⟩ (.compare .gt) (.literal ⟨1, 1⟩ (.int 1)) (.literal ⟨1, 3⟩ (.int 0)))
      (.literal ⟨1, 6⟩ (.boolean false))) := by cbv
  have hq : quote scope Heap.empty "1>0||false" = .ok q := by
    rw [quote, hparse]
    rfl
  have ht : q.evaluate Heap.empty = (.ok t, ⟨Heap.empty, []⟩) := rfl
  exact ⟨hq, ht, children_evaluated hq ht⟩

end PredicateTrace
