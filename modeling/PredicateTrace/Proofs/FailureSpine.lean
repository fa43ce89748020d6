import PredicateTrace.Proofs.EvaluatedParts

/-!
# The spine of a failure

A node fails with its last child or by itself, after children that all have values. So the nodes of a
trace without a value form a single path from the root along last children, and all of them have one
outcome.
-/

namespace PredicateTrace

open Host (Heap)

namespace Trace

/-- How the children of a node fit its outcome: they have values, but for the last child of a node without
a value, and such a node hands on the failure of its last child. -/
structure FailsWithLast (n : Trace) : Prop where
  children_of_value : n.hasValue = true → ∀ c ∈ n.children, c.hasValue = true
  children_of_failure : n.hasValue = false → ∀ c ∈ n.children.dropLast, c.hasValue = true
  handed_on : ∀ last, n.children.getLast? = some last → last.hasValue = false → n.outcome = last.outcome

/-- A path from a node without a value along last children, down to one whose children have values. -/
inductive FailurePath : Trace → List Trace → Prop
  | origin {n} (hn : n.hasValue = false) (hc : ∀ c ∈ n.children, c.hasValue = true) : FailurePath n [n]
  | step {n before last path} (hn : n.hasValue = false) (hc : n.children = before ++ [last])
      (hb : ∀ c ∈ before, c.hasValue = true) (hp : FailurePath last path) : FailurePath n (n :: path)

lemma hasValue_congr {s t : Trace} (h : s.outcome = t.outcome) : s.hasValue = t.hasValue := by
  simp [hasValue, value?, h]

lemma failsWithLast_of_values {n : Trace} (h : ∀ c ∈ n.children, c.hasValue = true) : FailsWithLast n where
  children_of_value _ := h
  children_of_failure _ c hc := h c (List.dropLast_subset _ hc)
  handed_on last hlast hfail := by
    have hmem : last ∈ n.children := List.mem_of_getLast? hlast
    simp [h last hmem] at hfail

lemma failsWithLast_of_last {n last : Trace} {before : List Trace} (hc : n.children = before ++ [last])
    (hb : ∀ c ∈ before, c.hasValue = true) (ho : n.outcome = last.outcome) : FailsWithLast n where
  children_of_value hn c hmem := by
    rw [hc, List.mem_append, List.mem_singleton] at hmem
    rcases hmem with hmem | rfl
    · exact hb c hmem
    · rwa [hasValue_congr ho] at hn
  children_of_failure _ := by
    rw [hc, List.dropLast_concat]
    exact hb
  handed_on last' hlast' _ := by
    rw [hc, List.getLast?_concat] at hlast'
    rw [ho, Option.some.inj hlast']

lemma filter_failed_eq_nil {t : Trace} (hshape : ∀ n ∈ t.nodes, FailsWithLast n) (ht : t.hasValue = true) :
    t.nodes.filter (fun n => !n.hasValue) = [] := by
  induction t using induction_on_children with
  | step t ih =>
    rw [nodes_eq, List.filter_append, List.append_eq_nil_iff]
    refine ⟨?_, by simp [ht]⟩
    rw [List.filter_eq_nil_iff]
    intro n hn
    obtain ⟨c, hc, hnc⟩ := mem_nodesOf.mp hn
    have hvalue : c.hasValue = true := (hshape t (mem_nodes_self t)).children_of_value ht c hc
    have hnone := ih c hc (fun m hm => hshape m (mem_nodes_of_child hc hm)) hvalue
    exact List.filter_eq_nil_iff.mp hnone n hnc

lemma filter_failed_nodesOf {ts : List Trace} (hshape : ∀ t ∈ ts, ∀ n ∈ t.nodes, FailsWithLast n)
    (hvalue : ∀ t ∈ ts, t.hasValue = true) : (nodesOf ts).filter (fun n => !n.hasValue) = [] := by
  rw [List.filter_eq_nil_iff]
  intro n hn
  obtain ⟨t, ht, hnt⟩ := mem_nodesOf.mp hn
  exact List.filter_eq_nil_iff.mp (filter_failed_eq_nil (hshape t ht) (hvalue t ht)) n hnt

/-- If every node fails with its last child, the nodes without a value are a path from the root. -/
theorem failurePath_of_failsWithLast {t : Trace} (hshape : ∀ n ∈ t.nodes, FailsWithLast n)
    (ht : t.hasValue = false) :
    ∃ path, FailurePath t path ∧ t.nodes.filter (fun n => !n.hasValue) = path.reverse ∧
      ∀ n ∈ path, n.outcome = t.outcome := by
  induction t using induction_on_children with
  | step t ih =>
    have hroot : FailsWithLast t := hshape t (mem_nodes_self t)
    have hbelow : ∀ c ∈ t.children, ∀ n ∈ c.nodes, FailsWithLast n :=
      fun c hc n hn => hshape n (mem_nodes_of_child hc hn)
    have horigin (hall : ∀ c ∈ t.children, c.hasValue = true) :
        ∃ path, FailurePath t path ∧ t.nodes.filter (fun n => !n.hasValue) = path.reverse ∧
          ∀ n ∈ path, n.outcome = t.outcome := by
      refine ⟨[t], .origin ht hall, ?_, by simp⟩
      rw [nodes_eq, List.filter_append, filter_failed_nodesOf hbelow hall]
      simp [ht]
    rcases List.eq_nil_or_concat' t.children with hnil | ⟨before, last, hc⟩
    · exact horigin (by simp [hnil])
    · have hb : ∀ c ∈ before, c.hasValue = true := by
        have hdrop := hroot.children_of_failure ht
        rwa [hc, List.dropLast_concat] at hdrop
      cases hlast : last.hasValue with
      | true =>
        apply horigin
        rw [hc]
        exact List.forall_mem_append.mpr ⟨hb, by simp [hlast]⟩
      | false =>
        have hmem : last ∈ t.children := by simp [hc]
        have ho : t.outcome = last.outcome :=
          hroot.handed_on last (by rw [hc, List.getLast?_concat]) hlast
        obtain ⟨path, hpath, hfilter, hsame⟩ := ih last hmem (hbelow last hmem) hlast
        refine ⟨t :: path, .step ht hc hb hpath, ?_, ?_⟩
        · have hbefore : ∀ c ∈ before, ∀ n ∈ c.nodes, FailsWithLast n :=
            fun c hcb => hbelow c (by simp [hc, hcb])
          rw [nodes_eq, hc, nodesOf_append, List.filter_append, List.filter_append,
            filter_failed_nodesOf hbefore hb, nodesOf_cons, nodesOf_nil, List.append_nil, hfilter]
          simp [ht]
        · intro n hn
          rcases List.mem_cons.mp hn with rfl | hn
          · rfl
          · rw [hsame n hn, ho]

/-- A node hands on the failure of any node below it. -/
lemma outcome_of_failed {t n : Trace} (hshape : ∀ m ∈ t.nodes, FailsWithLast m) (hn : n ∈ t.nodes)
    (hfail : n.hasValue = false) : t.outcome = n.outcome := by
  have hmem : n ∈ t.nodes.filter (fun m => !m.hasValue) := List.mem_filter.mpr ⟨hn, by simp [hfail]⟩
  cases ht : t.hasValue with
  | true =>
    rw [filter_failed_eq_nil hshape ht] at hmem
    cases hmem
  | false =>
    obtain ⟨path, -, hfilter, hsame⟩ := failurePath_of_failsWithLast hshape ht
    rw [hfilter, List.mem_reverse] at hmem
    exact (hsame n hmem).symm

end Trace

namespace Evaluation

variable {captures : Captures}

/-- The node of every op fails with its last child. -/
lemma OpRun.failsWithLast {op : Op} {p p' : Progress} {ts : List Trace} {o : Outcome}
    (h : OpRun captures op p ts o p') : (Trace.node op o ts).FailsWithLast := by
  cases h with
  | bound | unbound | inert => exact Trace.failsWithLast_of_values (by simp [Trace.children])
  | failed _ hr hf =>
    obtain ⟨_, _, _, _, _, hlast⟩ := hr.inTurn
    obtain ⟨before, hnodes, hvalues⟩ := hlast _ hf
    exact Trace.failsWithLast_of_last hnodes hvalues rfl
  | computed _ hr hf =>
    obtain ⟨_, _, _, _, hall, _⟩ := hr.inTurn
    exact Trace.failsWithLast_of_values (hall hf).2
  | @chain _ decisive _ _ _ _ _ _ _ hc =>
    have hvalue {c : Trace} {v : Value} (hv : c.value? = some v) : c.hasValue = true := by
      simp [Trace.hasValue, hv]
    obtain ⟨_, _, _, _, ⟨_, hall, _⟩ | ⟨before, last, rfl, hall, hend⟩⟩ := hc.inTurn
    · exact Trace.failsWithLast_of_values fun c hc => hvalue (hall c hc)
    · rcases hend with ⟨_, rfl⟩ | ⟨hv, rfl⟩ | ⟨⟨v, hv, _⟩, rfl⟩
      · exact Trace.failsWithLast_of_last rfl (fun c hc => hvalue (hall c hc)) rfl
      all_goals
        refine Trace.failsWithLast_of_values (List.forall_mem_append.mpr ⟨fun c hc => hvalue (hall c hc), ?_⟩)
        simp [hvalue hv]
  | choice hc =>
    cases hc with
    | failed => exact @Trace.failsWithLast_of_last _ _ [] rfl (by simp) rfl
    | untrue _ hv => exact Trace.failsWithLast_of_values (by simp [Trace.children, Trace.hasValue, hv])
    | @chosen _ _ _ _ test _ _ _ _ _ hv _ =>
      exact @Trace.failsWithLast_of_last _ _ [test] rfl (by simp [Trace.hasValue, hv]) rfl
    | malformed => exact Trace.failsWithLast_of_values (by simp [Trace.children])

lemma Origin.failsWithLast {x : Operand} {n : Trace} (h : Origin captures x n) : n.FailsWithLast := by
  cases h with
  | part _ hg =>
    rcases evaluateOperand_gives hg with ⟨_, _, _, _, rfl, hr⟩ | ⟨_, _, rfl, _⟩
    · exact hr.failsWithLast
    · exact Trace.failsWithLast_of_values (by simp [loadParameter_children])
  | malformed _ _ hnone hg =>
    rcases evaluateBody_gives hg with ⟨_, hsome, _⟩ | ⟨_, _, hleaf⟩
    · simp [hnone] at hsome
    · exact Trace.failsWithLast_of_values (by simp [hleaf])

end Evaluation

/-- In the trace of a quoted tree of ops every node fails with its last child. The nodes without a value are
none, or are those of one path from the root down to a node whose children have values, and all of them have
the same outcome: the same error, or that evaluation does not support them. -/
theorem failure_spine {q : Quoted} {heap : Heap} {t : Trace} {p : Progress}
    (h : q.evaluate heap = (.ok t, p)) :
    (∀ n ∈ t.nodes, n.FailsWithLast) ∧
      (t.nodes.filter (fun n => !n.hasValue) = [] ∨
        ∃ path, t.FailurePath path ∧ t.nodes.filter (fun n => !n.hasValue) = path.reverse ∧
          ∀ n ∈ path, n.outcome = t.outcome) := by
  have hshape : ∀ n ∈ t.nodes, n.FailsWithLast := by
    intro n hn
    rcases Quoted.evaluate_eq_ok h with ⟨x, _, hx⟩ | ⟨_, rfl, _⟩
    · exact (Evaluation.node_origin hx hn).failsWithLast
    · obtain rfl : n = _ := by simpa [Trace.nodes_eq, Trace.children] using hn
      exact Trace.failsWithLast_of_values (by simp [Trace.children])
  refine ⟨hshape, ?_⟩
  cases ht : t.hasValue with
  | true => exact Or.inl (Trace.filter_failed_eq_nil hshape ht)
  | false => exact Or.inr (Trace.failurePath_of_failsWithLast hshape ht)

/-- The comparison of a quotient by zero fails along the path of two nodes that the quotient begins. -/
theorem failure_spine_of_quotient :
    let one := Op.leaf (.const (.integral .int 1) (.prim .int))
    let zero := Op.leaf (.const (.integral .int 0) (.prim .int))
    let quotient := Op.of (.binary (.arith .div) (.prim .int)) [.op one, .op zero]
    let test := Op.of (.compare (.compare .gt)) [.op quotient, .op one]
    let q : Quoted := ⟨.mk .lambda [] [.mk [.ending [] [] (.of .ret [.op test])]], ⟨[], []⟩⟩
    let t := Trace.node test (.threw .arithmetic) [.node quotient (.threw .arithmetic)
      [.node one (.value (.integral .int 1)) [], .node zero (.value (.integral .int 0)) []]]
    q.evaluate Heap.empty = (.ok t, ⟨Heap.empty, []⟩) ∧
      (∀ n ∈ t.nodes, n.FailsWithLast) ∧
      (t.nodes.filter (fun n => !n.hasValue) = [] ∨
        ∃ path, t.FailurePath path ∧ t.nodes.filter (fun n => !n.hasValue) = path.reverse ∧
          ∀ n ∈ path, n.outcome = t.outcome) := by
  intro one zero quotient test q t
  have h : q.evaluate Heap.empty = (.ok t, ⟨Heap.empty, []⟩) := rfl
  exact ⟨h, failure_spine h⟩

end PredicateTrace
