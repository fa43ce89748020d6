import PredicateTrace.Proofs.ConfinedOps
import PredicateTrace.Proofs.EvaluatedParts

/-!
# What evaluation reads of captured variables

Evaluation reads the places of captured variables through the bindings of the predicate and changes none of them:
from two states that differ in other places only it goes in the same way.
-/

namespace PredicateTrace

open Host (Heap Run)

/-- The state of an evaluation with other values in the places of captured variables. -/
def Progress.withSlots (p : Progress) (slots : Array Value) : Progress :=
  { p with heap := p.heap.withSlots slots }

/-- The bindings have the same contents with either values in the places of captured variables. -/
def Captures.SameContents (captures : Captures) (slots slots' : Array Value) : Prop :=
  ∀ n c, captures.binding? n = some c → ∀ heap : Heap,
    c.content (heap.withSlots slots) = c.content (heap.withSlots slots')

namespace Evaluation

variable {captures : Captures} {slots slots' : Array Value} {α β : Type}

/-- A computation goes the same way with either values in the places of captured variables, and leaves them. -/
def Alike (slots slots' : Array Value) (m : Evaluating α) : Prop :=
  ∀ p : Progress, ∃ (r : Except Abort α) (p' : Progress),
    runFrom m (p.withSlots slots) = (r, p'.withSlots slots) ∧
      runFrom m (p.withSlots slots') = (r, p'.withSlots slots')

lemma alike_pure (a : α) : Alike slots slots' (pure a) :=
  fun p => ⟨.ok a, p, rfl, rfl⟩

lemma alike_throw (e : Abort) : Alike slots slots' (throw e : Evaluating α) :=
  fun p => ⟨.error e, p, rfl, rfl⟩

lemma Alike.bind {m : Evaluating α} {f : α → Evaluating β} (hm : Alike slots slots' m)
    (hf : ∀ a, Alike slots slots' (f a)) : Alike slots slots' (m >>= f) := by
  intro p
  obtain ⟨r, p', hslots, hslots'⟩ := hm p
  rw [runFrom_bind, runFrom_bind, hslots, hslots']
  cases r with
  | error e => exact ⟨.error e, p', rfl, rfl⟩
  | ok a => exact hf a p'

lemma alike_outcomeOf {run : Run (Option Value)} (h : run.Blind) :
    Alike slots slots' (outcomeOf run) := by
  intro p
  rw [runFrom_outcomeOf, runFrom_outcomeOf]
  have hrun (s : Array Value) : runFrom run (p.withSlots s).heap =
      ((runFrom run p.heap).1, (runFrom run p.heap).2.withSlots s) := h p.heap s
  rw [hrun, hrun]
  rcases runFrom run p.heap with ⟨(e | message) | (_ | v), heap⟩
  all_goals exact ⟨_, { p with heap }, rfl, rfl⟩

lemma alike_computed (op : Op) (children : List Trace) (values : List Value) :
    Alike slots slots' (computed op children values) := by
  have hout : Alike slots slots' (outcomeOf (op.head.apply values) >>= fun o => pure (Trace.node op o children)) :=
    (alike_outcomeOf (Head.blind_apply op.head values)).bind fun _ => alike_pure _
  unfold computed
  split
  · exact Alike.bind (fun p => ⟨.ok ⟨⟩, { p with journal := p.journal ++ [op] }, rfl, rfl⟩) fun _ => hout
  · exact hout

lemma alike_loadVariable (hsame : captures.SameContents slots slots') (op : Op) (var : Var) :
    Alike slots slots' (loadVariable captures op var) := by
  unfold loadVariable
  split
  · next c hc =>
    intro p
    refine ⟨.ok (.node op (.value (c.content (p.withSlots slots).heap)) []), p, rfl, ?_⟩
    have hcontent : c.content (p.withSlots slots).heap = c.content (p.withSlots slots').heap :=
      hsame var.name c hc p.heap
    rw [hcontent]
    rfl
  · exact alike_pure _

lemma alike_evaluateOperands {xs : List Operand}
    (h : ∀ x ∈ xs, Alike slots slots' (evaluateOperand captures x)) :
    Alike slots slots' (evaluateOperands captures xs) := by
  induction xs with
  | nil =>
    rw [evaluateOperands]
    exact alike_pure _
  | cons x rest ih =>
    obtain ⟨hx, hrest⟩ := List.forall_mem_cons.mp h
    rw [evaluateOperands]
    refine hx.bind fun t => ?_
    split
    · exact (ih hrest).bind fun _ => alike_pure _
    · exact alike_pure _

lemma alike_evaluateChain {op : Op} {decisive : Bool} {before : List Trace} {bodies : List Body}
    (h : ∀ body ∈ bodies, Alike slots slots' (evaluateBody captures body)) :
    Alike slots slots' (evaluateChain captures op decisive before bodies) := by
  induction bodies generalizing before with
  | nil =>
    rw [evaluateChain]
    exact alike_pure _
  | cons body rest ih =>
    obtain ⟨hbody, hrest⟩ := List.forall_mem_cons.mp h
    rw [evaluateChain]
    refine hbody.bind fun t => ?_
    split
    · exact alike_pure _
    · split
      · exact alike_pure _
      · exact ih hrest
    · exact alike_pure _

lemma alike_evaluateChoice {op : Op} {bodies : List Body}
    (h : ∀ body ∈ bodies, Alike slots slots' (evaluateBody captures body)) :
    Alike slots slots' (evaluateChoice captures op bodies) := by
  unfold evaluateChoice
  split
  · next c yes no =>
    refine (h c (by simp)).bind fun test => ?_
    split
    · exact alike_pure _
    · split
      · refine (h yes (by simp)).bind fun arm => ?_
        beta_reduce
        split <;> exact alike_pure _
      · refine (h no (by simp)).bind fun arm => ?_
        beta_reduce
        split <;> exact alike_pure _
    · exact alike_pure _
  · exact alike_pure _

lemma alike_evaluateBody {body : Body}
    (h : ∀ x, body.yielded? = some x → Alike slots slots' (evaluateOperand captures x)) :
    Alike slots slots' (evaluateBody captures body) := by
  unfold evaluateBody
  split
  · exact alike_throw _
  · exact alike_throw _
  · exact h _ rfl
  · exact alike_pure _

/-- Operands are evaluated alike when the bindings have the same contents. -/
theorem alike_evaluateOperand (hsame : captures.SameContents slots slots') (x : Operand) :
    Alike slots slots' (evaluateOperand captures x) := by
  induction x using Operand.induction_on_parts with
  | param p =>
    rw [evaluateOperand]
    exact alike_pure _
  | op op ihoperand ihbody =>
    have hbodies : ∀ body ∈ op.bodies, Alike slots slots' (evaluateBody captures body) :=
      fun body hb => alike_evaluateBody (ihbody body hb)
    rw [evaluateOperand]
    rcases op with ⟨head, xs, bodies⟩
    rcases head_cases head with hh | hh | ⟨decisive, hh⟩ | ⟨type, rfl⟩ | ⟨var, rfl⟩
    · rw [evaluate_inert hh]
      exact alike_pure _
    · rw [evaluate_strict hh]
      refine (alike_evaluateOperands ihoperand).bind fun r => ?_
      unfold finish
      split
      · exact alike_pure _
      · exact alike_computed _ _ _
    · rw [evaluate_chain hh]
      exact alike_evaluateChain hbodies
    · rw [evaluate]
      exact alike_evaluateChoice hbodies
    · rw [evaluate]
      exact alike_loadVariable hsame _ var

end Evaluation

end PredicateTrace
