import PredicateTrace.Assertion
import PredicateTrace.Proofs.FailureSpine
import PredicateTrace.Proofs.HostEffects
import PredicateTrace.Proofs.SourceTexts

/-!
# Verdicts and diagnostics

An assertion holds exactly if its predicate is true. Otherwise its text has an entry for every node of the
trace that is not trivial, in the order of evaluation. If the root has a value then they all show values, and
the last one is that of the root. After a failure the last ones are those of the path that the failure took,
from its origin to the root.
-/

namespace PredicateTrace

open Host (Heap FaultKind)

namespace Evaluation

variable {captures : Captures} {x : Operand} {p p' : Progress} {t : Trace}

lemma isSome_source?_of_node (hshape : x.WellShaped) (hreceived : x.Received)
    (h : Gives (evaluateOperand captures x) p t p') {n : Trace} (hn : n ∈ t.nodes) (f : Formatter) :
    (n.op.source? f).isSome := by
  rw [Op.source?, Option.isSome_map]
  obtain hpart | ⟨param, v, hop⟩ := op_of_node hshape h hn
  · exact (hshape.of_part hpart).isSome_fragment? (hreceived.of_part hpart)
  · rw [hop]
    rfl

end Evaluation

/-! ### Entries -/

/-- Whether what an entry shows of an outcome has a text. -/
def Outcome.hasText (f : Formatter) : Outcome → Bool
  | .value v => f.canFormatAt 0 v
  | .threw error => f.canFormatAt 0 (.throwable 0 error.kind error.args)
  | .unsupported => true

namespace Trace

/-- The nodes that have an entry, children before parents and from left to right. -/
def shown (t : Trace) : List Trace :=
  t.nodes.filter fun n => !n.isTrivial

/-- The source text of the op of a node. -/
def sourceText (f : Formatter) (n : Trace) : String :=
  (n.op.source? f).getD ""

/-- The entry of a node. -/
def line (f : Formatter) (n : Trace) : String :=
  match n.outcome with
  | .value v => n.sourceText f ++ " -> " ++ f.format v
  | .threw error => n.sourceText f ++ " -> throws " ++ f.format (.throwable 0 error.kind error.args)
  | .unsupported => "Unsupported node: " ++ n.sourceText f ++ " (" ++ n.op.kind ++ ")"

variable {f : Formatter} {t : Trace}

lemma entry_of_trivial {n : Trace} (hsource : (n.op.source? f).isSome) (hn : n.isTrivial = true) :
    n.entry f = .ok "" := by
  obtain ⟨source, hs⟩ := Option.isSome_iff_exists.mp hsource
  rw [entry, hs]
  simp only [hn, if_true]
  rfl

lemma entry_of_shown {n : Trace} (hsource : (n.op.source? f).isSome) (hn : n.isTrivial = false) :
    n.entry f = if n.outcome.hasText f then .ok (n.line f ++ "\n") else .error .type := by
  obtain ⟨source, hs⟩ := Option.isSome_iff_exists.mp hsource
  have htext : n.sourceText f = source := by rw [sourceText, hs, Option.getD_some]
  rw [entry, hs]
  simp only [hn, Bool.false_eq_true, if_false, line, htext]
  rcases n.outcome with v | error | _
  · by_cases hc : f.canFormatAt 0 v = true <;>
      simp only [Outcome.describe, Outcome.hasText, Formatter.formatted, hc, if_true] <;> rfl
  · by_cases hc : f.canFormatAt 0 (.throwable 0 error.kind error.args) = true <;>
      simp only [Outcome.describe, Outcome.hasText, Formatter.formatted, hc, if_true] <;> rfl
  · rfl

/-- The entries of some nodes are those of the nodes that are not trivial, one after the other. -/
lemma entries_eq {ns : List Trace} (hsource : ∀ n ∈ ns, (n.op.source? f).isSome) :
    (ns.mapM (entry f)).map String.join =
      if (ns.filter fun n => !n.isTrivial).all fun n => n.outcome.hasText f then
        .ok (String.join ((ns.filter fun n => !n.isTrivial).map fun n => n.line f ++ "\n"))
      else .error .type := by
  induction ns with
  | nil => rfl
  | cons n rest ih =>
    obtain ⟨hn, hrest⟩ := List.forall_mem_cons.mp hsource
    have ih := ih hrest
    have hjoin (first : String) : ((do
        let others ← rest.mapM (entry f)
        return first :: others : Except FaultKind (List String))).map String.join =
          ((rest.mapM (entry f)).map String.join).map (first ++ ·) := by
      cases rest.mapM (entry f) with
      | error e => rfl
      | ok others => exact congrArg Except.ok String.join_cons
    rw [List.mapM_cons]
    cases htrivial : n.isTrivial with
    | true =>
      rw [entry_of_trivial hn htrivial, List.filter_cons_of_neg (by simp [htrivial])]
      refine (hjoin "").trans ?_
      rw [ih]
      split <;> simp [Except.map]
    | false =>
      rw [entry_of_shown hn htrivial, List.filter_cons_of_pos (by simp [htrivial]), List.all_cons]
      cases n.outcome.hasText f with
      | false => rfl
      | true =>
        refine (hjoin _).trans ?_
        rw [ih, Bool.true_and]
        split <;> simp [Except.map]

/-! ### The order of the entries -/

lemma hasValue_of_mem_nodes (hshape : ∀ n ∈ t.nodes, FailsWithLast n) (ht : t.hasValue = true) {n : Trace}
    (hn : n ∈ t.nodes) : n.hasValue = true := by
  simpa using List.filter_eq_nil_iff.mp (filter_failed_eq_nil hshape ht) n hn

/-- The path of a failure comes last, and before it there are only nodes with values. -/
lemma FailurePath.nodes_eq {path : List Trace} (h : FailurePath t path)
    (hshape : ∀ n ∈ t.nodes, FailsWithLast n) :
    ∃ values, t.nodes = values ++ path.reverse ∧ ∀ n ∈ values, n.hasValue = true := by
  have hchildren {t : Trace} (hshape : ∀ n ∈ t.nodes, FailsWithLast n) {cs : List Trace} (hcs : cs ⊆ t.children)
      (hvalues : ∀ c ∈ cs, c.hasValue = true) : ∀ n ∈ nodesOf cs, n.hasValue = true := by
    intro n hn
    obtain ⟨c, hc, hnc⟩ := mem_nodesOf.mp hn
    exact hasValue_of_mem_nodes (fun m hm => hshape m (mem_nodes_of_child (hcs hc) hm)) (hvalues c hc) hnc
  -- The path goes along last children, so that only nodes below earlier children come before what it adds.
  induction h with
  | @origin n hn hc =>
    exact ⟨nodesOf n.children, n.nodes_eq, hchildren hshape (List.Subset.refl _) hc⟩
  | @step n before last path hn hc hb hp ih =>
    have hlast : last ∈ n.children := by simp [hc]
    obtain ⟨values, hnodes, hvalues⟩ := ih fun m hm => hshape m (mem_nodes_of_child hlast hm)
    refine ⟨nodesOf before ++ values, ?_, ?_⟩
    · rw [Trace.nodes_eq, hc, nodesOf_append, nodesOf_cons, nodesOf_nil, hnodes]
      simp
    · exact List.forall_mem_append.mpr ⟨hchildren hshape (by simp [hc]) hb, hvalues⟩

lemma FailurePath.failed {path : List Trace} (h : FailurePath t path) : ∀ n ∈ path, n.hasValue = false := by
  induction h with
  | origin hn => simpa using hn
  | step hn _ _ _ ih => exact List.forall_mem_cons.mpr ⟨hn, ih⟩

end Trace

/-! ### Assertions -/

namespace Verdict

variable {f : Formatter} {message : Option String} {t : Trace}

end Verdict

namespace Trace

variable {f : Formatter} {t : Trace}

end Trace

/-- The trace of an accepted predicate is that of the value that it returns, which has the form that lowering
gives. -/
lemma Quoted.exists_root {α : Type} [Text.Coded α] {scope : Scope} {heap heap' : Heap} {source : α} {q : Quoted}
    {t : Trace} {p : Progress} (hq : quote scope heap source = .ok q) (ht : q.evaluate heap' = (.ok t, p)) :
    ∃ root, q.returned? = some root ∧ Gives (Evaluation.evaluateOperand q.captures root) ⟨heap', []⟩ t p ∧
      root.WellShaped ∧ root.Received ∧ (root.IsTrivial → root.IsConstant) := by
  obtain ⟨e, te, -, hcheck, rfl⟩ := Typing.quote_eq_ok.mp hq
  obtain ⟨root, hreturned, hform⟩ := Lowering.returned?_of_accepted hcheck
  obtain ⟨x, hx, hg⟩ | ⟨hnone, -⟩ := Quoted.evaluate_eq_ok ht
  · obtain rfl := Option.some.inj (hreturned.symm.trans hx)
    exact ⟨root, hreturned, hg, hform⟩
  · simp [hreturned] at hnone

/-- Every op in the trace of an accepted predicate has a source text. -/
lemma Quoted.isSome_source? {α : Type} [Text.Coded α] {scope : Scope} {heap heap' : Heap} {source : α} {q : Quoted}
    {t : Trace} {p : Progress} (hq : quote scope heap source = .ok q) (ht : q.evaluate heap' = (.ok t, p)) (f : Formatter) :
    ∀ n ∈ t.nodes, (n.op.source? f).isSome := by
  obtain ⟨root, -, hg, hshaped, hreceived, -⟩ := Quoted.exists_root hq ht
  exact fun n hn => Evaluation.isSome_source?_of_node hshaped hreceived hg hn f

end PredicateTrace
