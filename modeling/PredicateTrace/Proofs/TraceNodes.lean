import Mathlib.Tactic.Lemma
import PredicateTrace.Trace

/-!
# Nodes of a trace

The nodes of a trace in the order in which reports show them, children before parents and from left to
right, with the induction that goes from the children of a node to the node.
-/

namespace PredicateTrace

namespace Trace

mutual

/-- All nodes of a trace, children before parents. -/
def nodes : Trace → List Trace
  | .node op outcome children => nodesOf children ++ [.node op outcome children]

/-- All nodes of some traces, one trace after the other. -/
def nodesOf : List Trace → List Trace
  | [] => []
  | t :: rest => nodes t ++ nodesOf rest

end

lemma nodes_eq (t : Trace) : t.nodes = nodesOf t.children ++ [t] := by
  cases t
  rw [nodes, children]

@[simp]
lemma nodesOf_nil : nodesOf [] = [] := by
  rw [nodesOf]

@[simp]
lemma nodesOf_cons (t : Trace) (rest : List Trace) : nodesOf (t :: rest) = t.nodes ++ nodesOf rest := by
  rw [nodesOf]

lemma nodesOf_append (s t : List Trace) : nodesOf (s ++ t) = nodesOf s ++ nodesOf t := by
  induction s with
  | nil => simp
  | cons first rest ih => simp [ih]

lemma mem_nodesOf {n : Trace} {ts : List Trace} : n ∈ nodesOf ts ↔ ∃ t ∈ ts, n ∈ t.nodes := by
  induction ts with
  | nil => simp
  | cons first rest ih => simp [ih]

lemma mem_nodes {n t : Trace} : n ∈ t.nodes ↔ n = t ∨ ∃ c ∈ t.children, n ∈ c.nodes := by
  rw [nodes_eq, List.mem_append, mem_nodesOf, List.mem_singleton, or_comm]

lemma mem_nodes_self (t : Trace) : t ∈ t.nodes :=
  mem_nodes.mpr (Or.inl rfl)

lemma mem_nodes_of_child {n c t : Trace} (hc : c ∈ t.children) (hn : n ∈ c.nodes) : n ∈ t.nodes :=
  mem_nodes.mpr (Or.inr ⟨c, hc, hn⟩)

/-- What holds of a node as soon as it holds of its children holds of every trace. -/
theorem induction_on_children {P : Trace → Prop} (step : ∀ t, (∀ c ∈ t.children, P c) → P t) (t : Trace) :
    P t := by
  match t with
  | .node op outcome children =>
    apply step
    intro c hc
    change c ∈ children at hc
    exact induction_on_children step c
termination_by sizeOf t

/-- Whether a node has a value. -/
def hasValue (t : Trace) : Bool :=
  t.value?.isSome

lemma value?_eq_some {t : Trace} {v : Value} : t.value? = some v ↔ t.outcome = .value v := by
  rcases t with ⟨op, _ | _ | _, children⟩ <;> simp [value?, Outcome.value?, outcome]

/-- A failure is handed on as it is. -/
lemma derived_eq {t : Trace} (h : t.value? = none) : Outcome.derived t.outcome = t.outcome := by
  rcases t with ⟨op, v | e | _, children⟩
  · simp [value?, Outcome.value?, outcome] at h
  · rfl
  · rfl

lemma failing_eq {op : Op} {children : List Trace} {last : Trace} (h : last.value? = none) :
    failing op children last = .node op last.outcome children := by
  rw [failing, derived_eq h]

end Trace

end PredicateTrace
