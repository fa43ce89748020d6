import PredicateTrace.Proofs.FailureContainment

/-!
# Trees of any shape

Trees that are built by hand need not have the form of a predicate. Whatever their shape, evaluation gives a
trace in which the parts of a form that is not supported have unsupported nodes. The only exception is a body
that evaluation comes to and whose first block has no op at its end.
-/

namespace PredicateTrace

open Host (Heap)
open Evaluation (Visits Opens)

/-- A part that evaluation does not go into: an op without an evaluation of its own, a conditional that does not
have three bodies, or a variable or parameter that is bound to nothing. -/
inductive Operand.IsUnsupported (captures : Captures) : Operand → Prop
  | inert {head xs bodies} (hhead : head.isInert = true) : IsUnsupported captures (.op (.mk head xs bodies))
  | conditional {type xs bodies} (hlength : bodies.length ≠ 3) :
      IsUnsupported captures (.op (.mk (.ternary type) xs bodies))
  | unboundVar {var xs bodies} (hunbound : captures.binding? var.name = none) :
      IsUnsupported captures (.op (.mk (.varLoad var) xs bodies))
  | unboundParam {param} (hunbound : captures.argument? param.name = none) : IsUnsupported captures (.param param)

/-- Whether an op asks for an operand that is not there: the receiver of a call, or the first size of an array. -/
def Op.lacksOperand : Op → Bool
  | .mk (.invoke _ true) [] _ | .mk (.new (.array _)) [] _ => true
  | _ => false

namespace Evaluation

variable {captures : Captures} {op : Op} {body : Body} {x : Operand} {p p' : Progress} {n : Trace}

lemma leaf_of_isUnsupported (hx : x.IsUnsupported captures) (h : Gives (evaluateOperand captures x) p n p') :
    n.outcome = .unsupported ∧ n.children = [] := by
  cases hx with
  | inert hhead =>
    rw [evaluateOperand, evaluate_inert hhead, gives_pure] at h
    obtain ⟨rfl, -⟩ := h
    exact ⟨rfl, rfl⟩
  | conditional hlength =>
    rw [evaluateOperand, evaluate_gives] at h
    obtain ⟨ts, o, rfl, hrun⟩ := h
    cases opRun_choice.mp hrun with
    | malformed => exact ⟨rfl, rfl⟩
    | failed | untrue | chosen => exact absurd rfl hlength
  | unboundVar hunbound =>
    rw [evaluateOperand, evaluate, loadVariable, hunbound, gives_pure] at h
    obtain ⟨rfl, -⟩ := h
    exact ⟨rfl, rfl⟩
  | unboundParam hunbound =>
    rw [evaluateOperand, loadParameter, hunbound, gives_pure] at h
    obtain ⟨rfl, -⟩ := h
    exact ⟨rfl, rfl⟩

/-- A body without a value to yield has a node of its own: that of the op at the end of its first block. -/
lemma leaf_of_unyielding (hbody : body.yielded? = none) (h : Gives (evaluateBody captures body) p n p') :
    body.terminator? = some n.op ∧ n.outcome = .unsupported ∧ n.children = [] := by
  rcases evaluateBody_gives h with ⟨x, hx, -⟩ | ⟨-, hleaf⟩
  · cases hbody.symm.trans hx
  refine ⟨?_, hleaf⟩
  rcases body with ⟨_ | ⟨_ | ⟨params, earlier, terminator⟩, rest⟩⟩
  · exact absurd h gives_throw
  · exact absurd h gives_throw
  · rw [evaluateBody, gives_pure] at h
    · obtain ⟨rfl, -⟩ := h
      rfl
    · rintro value bodies rfl rfl
      cases hbody

/-- Without sizes there is no array, whether or not the class of its elements exists. -/
lemma stops_makeArray_nil (component : TypeRef) (heap : Heap) :
    ∃ error, Stops (Head.makeArray component []) heap (.raised error) := by
  have hmade : Stops (Host.newArray component []) heap (.raised (.fault .index)) := by
    rw [Host.newArray]
    rfl
  rw [Head.makeArray, List.mapM_nil]
  dsimp only [pure]
  split
  · next name host _ =>
    cases hclass : Resolver.resolveClass (.named name host) with
    | error error => exact ⟨error, stops_bind.mpr (Or.inl rfl)⟩
    | ok c => exact ⟨_, stops_bind.mpr (Or.inr ⟨c, heap, gives_pure.mpr ⟨rfl, rfl⟩, stops_bind.mpr (Or.inl hmade)⟩)⟩
  · exact ⟨_, stops_bind.mpr (Or.inl hmade)⟩

lemma exists_of_lacksOperand (hop : op.lacksOperand = true) :
    ∃ head bodies, op = .mk head [] bodies ∧ head.isStrict = true ∧
      ∀ heap, ∃ error, Stops (head.apply []) heap (.raised error) := by
  unfold Op.lacksOperand at hop
  split at hop
  · exact ⟨_, _, rfl, rfl, fun heap => ⟨_, rfl⟩⟩
  · next component bodies => exact ⟨_, _, rfl, rfl, stops_makeArray_nil component⟩
  · cases hop

lemma throws_of_lacksOperand (hop : op.lacksOperand = true) (h : Gives (evaluateOperand captures (.op op)) p n p') :
    n.op = op ∧ ∃ error, n.outcome = .threw error := by
  obtain ⟨head, bodies, rfl, hstrict, hraises⟩ := exists_of_lacksOperand hop
  rw [evaluateOperand, evaluate_gives] at h
  obtain ⟨ts, o, rfl, hrun⟩ := h
  obtain ⟨r, q, hr, -, ho⟩ := (opRun_strict hstrict).mp hrun
  cases hr
  obtain ⟨error, hstops⟩ := hraises (noted (.mk head [] bodies) p).heap
  obtain ⟨-, ho⟩ := gives_outcomeOf.mp ho
  rw [hstops] at ho
  exact ⟨rfl, error, ho⟩

end Evaluation

namespace Quoted

/-- The evaluation of a tree comes to a body, its own or that of an op, whose first block has no op at its end. -/
def MeetsOpenEnd (q : Quoted) (heap : Heap) : Prop :=
  (∃ params, q.entry? = some (.empty params)) ∨
    ∃ root, q.returned? = some root ∧ Evaluation.MeetsOpenEnd q.captures root ⟨heap, []⟩

/-- What the trace of a tree makes of its shape. -/
structure RecordsShapes (q : Quoted) (heap : Heap) (t : Trace) : Prop where
  /-- A tree that returns no value is not evaluated. -/
  root : q.returned? = none → t = .node q.op .unsupported []
  /-- A part that evaluation comes to has a node, which is unsupported if the part is. -/
  part : ∀ root x p, q.returned? = some root → Visits q.captures root ⟨heap, []⟩ x p →
    ∃ n ∈ t.nodes, (∃ p', Gives (Evaluation.evaluateOperand q.captures x) p n p') ∧
      (x.IsUnsupported q.captures → n.outcome = .unsupported ∧ n.children = [])
  /-- A body that evaluation comes to and that yields no value has an unsupported node, which shows the op at the
  end of its first block. -/
  body : ∀ root op p body p', q.returned? = some root → Visits q.captures root ⟨heap, []⟩ (.op op) p →
    Opens q.captures op p body p' → body.yielded? = none →
      ∃ n ∈ t.nodes, body.terminator? = some n.op ∧ n.outcome = .unsupported ∧ n.children = []
  /-- An op that lacks an operand is not unsupported: it throws. -/
  lacking : ∀ root op p, q.returned? = some root → Visits q.captures root ⟨heap, []⟩ (.op op) p →
    op.lacksOperand = true → ∃ n ∈ t.nodes, n.op = op ∧ ∃ error, n.outcome = .threw error

variable {q : Quoted} {heap : Heap} {t : Trace} {p : Progress}

lemma recordsShapes_of_ok (h : q.evaluate heap = (.ok t, p)) : q.RecordsShapes heap t := by
  have hgives {root : Operand} (hroot : q.returned? = some root) :
      Gives (Evaluation.evaluateOperand q.captures root) ⟨heap, []⟩ t p := by
    rw [q.evaluate_of_returned? hroot] at h
    exact h
  constructor
  · intro hnone
    rcases evaluate_eq_ok h with ⟨root, hroot, -⟩ | ⟨-, rfl, -⟩
    · cases hnone.symm.trans hroot
    · rfl
  · intro root x p' hroot hvisits
    obtain ⟨n, hn, q', hx⟩ := hvisits.exists_node (hgives hroot)
    exact ⟨n, hn, ⟨q', hx⟩, fun hunsupported => Evaluation.leaf_of_isUnsupported hunsupported hx⟩
  · intro root op p' body q' hroot hvisits hopens hnone
    obtain ⟨n, hn, r, hbody⟩ := hvisits.exists_node_of_opens hopens (hgives hroot)
    exact ⟨n, hn, Evaluation.leaf_of_unyielding hnone hbody⟩
  · intro root op p' hroot hvisits hlacks
    obtain ⟨n, hn, q', hop⟩ := hvisits.exists_node (hgives hroot)
    exact ⟨n, hn, Evaluation.throws_of_lacksOperand hlacks hop⟩

lemma evaluate_of_meetsOpenEnd (h : q.MeetsOpenEnd heap) : (q.evaluate heap).1 = .error .missingTerminator := by
  rcases h with ⟨params, hentry⟩ | ⟨root, hroot, op, p, body, r, hvisits, hopens, hnone⟩
  · rcases q with ⟨op, captures⟩
    unfold entry? at hentry
    split at hentry
    · next operands block hop =>
      obtain rfl := Option.some.inj hentry
      dsimp only at hop
      subst hop
      rfl
    · cases hentry
  · have hbody : Stops (Evaluation.evaluateBody q.captures body) r .missingTerminator :=
      Evaluation.stops_evaluateBody.mpr (Or.inl ⟨hnone, rfl⟩)
    have hop : Stops (Evaluation.evaluateOperand q.captures (.op op)) p .missingTerminator := by
      rw [Evaluation.evaluateOperand]
      exact Evaluation.stops_of_opens hopens hbody
    rw [q.evaluate_of_returned? hroot]
    exact hvisits.stops hop

/-- Without a value to return, a tree is an unsupported node as it stands, or its block is empty. -/
lemma evaluate_of_returned?_eq_none (h : q.returned? = none) (hend : ¬q.MeetsOpenEnd heap) :
    q.evaluate heap = (.ok (.node q.op .unsupported []), ⟨heap, []⟩) := by
  rcases q with ⟨op, captures⟩
  unfold Quoted.evaluate Evaluation.evaluateRoot
  dsimp only
  split
  · exact absurd (Or.inl ⟨_, rfl⟩) hend
  · cases h
  · rfl

lemma not_meetsMissing_of_evaluate (h : ∀ m, (q.evaluate heap).1 ≠ .error (.unresolved m)) (root : Operand)
    (hroot : q.returned? = some root) : ¬Evaluation.MeetsMissing q.captures root ⟨heap, []⟩ := by
  rintro ⟨op, values, p, hcomes, hmissing⟩
  obtain ⟨m, hstop⟩ := Evaluation.stops_of_comesTo hcomes hmissing
  rw [q.evaluate_of_returned? hroot] at h
  exact h m hstop

end Quoted

/-- The evaluation of any tree of ops gives a trace that records its shape, if every member that is accessed
exists and evaluation comes to no body with an open end. Such a body is what ends it otherwise. -/
theorem any_shape_has_trace {q : Quoted} {heap : Heap}
    (hmembers : ∀ root, q.returned? = some root → ¬Evaluation.MeetsMissing q.captures root ⟨heap, []⟩) :
    (q.MeetsOpenEnd heap ∧ (q.evaluate heap).1 = .error .missingTerminator) ∨
      (¬q.MeetsOpenEnd heap ∧ ∃ t p, q.evaluate heap = (.ok t, p) ∧ q.RecordsShapes heap t) := by
  by_cases hend : q.MeetsOpenEnd heap
  · exact Or.inl ⟨hend, Quoted.evaluate_of_meetsOpenEnd hend⟩
  · refine Or.inr ⟨hend, ?_⟩
    obtain ⟨t, p, ht⟩ : ∃ t p, q.evaluate heap = (.ok t, p) := by
      cases hroot : q.returned? with
      | none => exact ⟨_, _, Quoted.evaluate_of_returned?_eq_none hroot hend⟩
      | some root =>
        rw [q.evaluate_of_returned? hroot]
        rcases gives_or_stops (Evaluation.evaluateOperand q.captures root) ⟨heap, []⟩ with ⟨t, p, h⟩ | ⟨e, h⟩
        · exact ⟨t, p, h⟩
        · rcases Evaluation.meets_of_stops h with ⟨-, hmissing⟩ | ⟨-, hopen⟩
          · exact absurd hmissing (hmembers root hroot)
          · exact absurd (Or.inr ⟨root, hroot, hopen⟩) hend
    exact ⟨t, p, ht, Quoted.recordsShapes_of_ok ht⟩

/-- The body that the conditional selects has two blocks; the other one has none, but evaluation does not come
to it. -/
theorem any_shape_has_trace_of_choice :
    let yes : Op := .of .yield [.op (.leaf (.const (.bool true) (.prim .boolean)))]
    let choice : Op := .mk (.ternary (.prim .boolean)) []
      [.mk [.ending [] [] yes], .mk [.ending [] [] yes, .empty []], .mk []]
    let q : Quoted := ⟨.mk .lambda [] [.mk [.ending [] [] (.of .ret [.op choice])]], ⟨[], []⟩⟩
    (∀ root, q.returned? = some root → ¬Evaluation.MeetsMissing q.captures root ⟨.empty, []⟩) ∧
      ¬q.MeetsOpenEnd .empty ∧ ∃ t p, q.evaluate .empty = (.ok t, p) ∧ q.RecordsShapes .empty t ∧
        t.outcome = .unsupported := by
  intro yes choice q
  obtain ⟨t, p, ht, hout⟩ : ∃ t p, q.evaluate .empty = (.ok t, p) ∧ t.outcome = .unsupported := ⟨_, _, rfl, rfl⟩
  have hmembers : ∀ root, q.returned? = some root → ¬Evaluation.MeetsMissing q.captures root ⟨.empty, []⟩ := by
    refine Quoted.not_meetsMissing_of_evaluate fun m h => ?_
    rw [ht] at h
    cases h
  refine ⟨hmembers, ?_⟩
  rcases any_shape_has_trace hmembers with ⟨-, hnone⟩ | ⟨hend, t', p', ht', hshapes⟩
  · rw [ht] at hnone
    cases hnone
  · obtain ⟨rfl, rfl⟩ : t = t' ∧ p = p' := by simpa using ht.symm.trans ht'
    exact ⟨hend, t, p, ht, hshapes, hout⟩

/-- The block of the first tree has no op, and the body of the disjunction in the second one has no block. -/
theorem no_trace_of_open_end :
    let q : Quoted := ⟨.mk .lambda [] [.mk [.empty []]], ⟨[], []⟩⟩
    let disjunction : Op := .mk .condOr [] [.mk []]
    let q' : Quoted := ⟨.mk .lambda [] [.mk [.ending [] [] (.of .ret [.op disjunction])]], ⟨[], []⟩⟩
    (∀ root, q.returned? = some root → ¬Evaluation.MeetsMissing q.captures root ⟨.empty, []⟩) ∧
      (∀ root, q'.returned? = some root → ¬Evaluation.MeetsMissing q'.captures root ⟨.empty, []⟩) ∧
      (q.evaluate .empty).1 = .error .missingTerminator ∧ (q'.evaluate .empty).1 = .error .missingTerminator := by
  intro q disjunction q'
  have hq : (q.evaluate .empty).1 = .error .missingTerminator := rfl
  have hq' : (q'.evaluate .empty).1 = .error .missingTerminator := rfl
  refine ⟨Quoted.not_meetsMissing_of_evaluate ?_, Quoted.not_meetsMissing_of_evaluate ?_, hq, hq'⟩
  · rw [hq]
    nofun
  · rw [hq']
    nofun

end PredicateTrace
