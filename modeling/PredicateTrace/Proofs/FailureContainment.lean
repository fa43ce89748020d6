import PredicateTrace.Proofs.HostEffects
import PredicateTrace.Proofs.MissingMembers
import PredicateTrace.Proofs.VisitedParts

/-!
# Containment of failures

Evaluation from left to right comes to the computation of an op when every operand that it needs before has a
value. An error that is raised there is recorded in the trace, and handed on up to the root. A member that does
not exist ends the evaluation; nothing else does.
-/

namespace PredicateTrace

open Host (Heap Run)

namespace Evaluation

variable {captures : Captures} {x y : Operand} {p p' : Progress} {e : Abort}

/-- Evaluating an operand comes to the computation of an op on values, in the state that the parts before it
have left: operands before it have values, bodies before it in a short-circuit operator do not decide, and an
arm of a conditional is the one that the condition selects. -/
inductive ComesTo (captures : Captures) : Operand → Progress → Op → List Value → Progress → Prop
  | here {head xs bodies p ts values p'} (hstrict : head.isStrict = true)
      (hturn : InTurn (evaluateOperand captures) xs p ts p')
      (hvalues : ts.map Trace.value? = values.map some) :
      ComesTo captures (.op (.mk head xs bodies)) p (.mk head xs bodies) values p'
  | operand {head before x after bodies p ts p' op values p''} (hstrict : head.isStrict = true)
      (hturn : InTurn (evaluateOperand captures) before p ts p') (hvalues : ∀ t ∈ ts, t.hasValue = true)
      (hx : ComesTo captures x p' op values p'') :
      ComesTo captures (.op (.mk head (before ++ x :: after) bodies)) p op values p''
  | chained {head decisive xs before body after x p ts p' op values p''}
      (hchain : head.decisive? = some decisive) (hturn : InTurn (evaluateBody captures) before p ts p')
      (hvalues : ∀ t ∈ ts, t.value? = some (.bool !decisive)) (hyield : body.yielded? = some x)
      (hx : ComesTo captures x p' op values p'') :
      ComesTo captures (.op (.mk head xs (before ++ body :: after))) p op values p''
  | condition {type xs c yes no x p op values p'} (hyield : c.yielded? = some x)
      (hx : ComesTo captures x p op values p') :
      ComesTo captures (.op (.mk (.ternary type) xs [c, yes, no])) p op values p'
  | arm {type xs c yes no p test p' b x op values p''} (htest : Gives (evaluateBody captures c) p test p')
      (hvalue : test.value? = some (.bool b)) (hyield : (if b then yes else no).yielded? = some x)
      (hx : ComesTo captures x p' op values p'') :
      ComesTo captures (.op (.mk (.ternary type) xs [c, yes, no])) p op values p''

/-! ### Coming to an op -/

lemma OperandsRun.of_inTurn {xs : List Operand} {ts : List Trace} {values : List Value}
    (h : InTurn (evaluateOperand captures) xs p ts p') (hvalues : ts.map Trace.value? = values.map some) :
    OperandsRun captures xs p ⟨ts, values, none⟩ p' := by
  induction h generalizing values with
  | nil p =>
    obtain rfl : values = [] := by simpa using hvalues
    exact .nil p
  | cons hx _ ih =>
    cases values with
    | nil => simp at hvalues
    | cons v values =>
      rw [List.map_cons, List.map_cons, List.cons.injEq] at hvalues
      exact .next hx hvalues.1 (ih hvalues.2)

/-- Evaluation comes to an access of a member that does not exist. -/
def MeetsMissing (captures : Captures) (x : Operand) (p : Progress) : Prop :=
  ∃ op values p', ComesTo captures x p op values p' ∧ MissingMember p'.heap op.head values

lemma ComesTo.of_visits {op : Op} {values : List Value} {q : Progress} (h : Visits captures x p y q)
    (hy : ComesTo captures y q op values p') : ComesTo captures x p op values p' := by
  induction h with
  | here => exact hy
  | operand hstrict hturn hvalues _ ih => exact .operand hstrict hturn hvalues (ih hy)
  | body hopens hyield _ ih =>
    cases hopens with
    | chained hchain hturn hvalues => exact .chained hchain hturn hvalues hyield (ih hy)
    | condition => exact .condition hyield (ih hy)
    | arm htest hvalue => exact .arm htest hvalue hyield (ih hy)

/-- Coming to the computation of an op is coming to the op, and to values of its operands. -/
lemma ComesTo.visits {op : Op} {values : List Value} (h : ComesTo captures x p op values p') :
    ∃ q ts, Visits captures x p (.op op) q ∧ op.head.isStrict = true ∧
      InTurn (evaluateOperand captures) op.operands q ts p' ∧ ts.map Trace.value? = values.map some := by
  induction h with
  | here hstrict hturn hvalues => exact ⟨_, _, .here _ _, hstrict, hturn, hvalues⟩
  | operand hstrict hturn hvalues _ ih =>
    obtain ⟨q, ts, hvisits, hop⟩ := ih
    exact ⟨q, ts, .operand hstrict hturn hvalues hvisits, hop⟩
  | chained hchain hturn hvalues hyield _ ih =>
    obtain ⟨q, ts, hvisits, hop⟩ := ih
    exact ⟨q, ts, .body (.chained hchain hturn hvalues) hyield hvisits, hop⟩
  | condition hyield _ ih =>
    obtain ⟨q, ts, hvisits, hop⟩ := ih
    exact ⟨q, ts, .body .condition hyield hvisits, hop⟩
  | arm htest hvalue hyield _ ih =>
    obtain ⟨q, ts, hvisits, hop⟩ := ih
    exact ⟨q, ts, .body (.arm htest hvalue) hyield hvisits, hop⟩

/-- The evaluation of any operand ends without a trace only at a member that does not exist, or at a body with
an open end. -/
theorem meets_of_stops (h : Stops (evaluateOperand captures x) p e) :
    ((∃ m, e = .unresolved m) ∧ MeetsMissing captures x p) ∨
      (e = .missingTerminator ∧ MeetsOpenEnd captures x p) := by
  -- Evaluation of an op ends at one of its parts, where the induction hypothesis applies, or at its computation.
  induction x using Operand.induction_on_parts generalizing p with
  | param param => simp [evaluateOperand] at h
  | op op ihoperand ihbody =>
    rw [evaluateOperand] at h
    rcases op with ⟨head, xs, bodies⟩
    have hlift {y : Operand} {q : Progress} (hvisits : Visits captures (.op (.mk head xs bodies)) p y q)
        (hy : ((∃ m, e = .unresolved m) ∧ MeetsMissing captures y q) ∨
          (e = .missingTerminator ∧ MeetsOpenEnd captures y q)) :
        ((∃ m, e = .unresolved m) ∧ MeetsMissing captures (.op (.mk head xs bodies)) p) ∨
          (e = .missingTerminator ∧ MeetsOpenEnd captures (.op (.mk head xs bodies)) p) := by
      rcases hy with ⟨he, op, values, r, hcomes, hmissing⟩ | ⟨he, op, q', body, r, hop, hopens, hnone⟩
      · exact Or.inl ⟨he, op, values, r, hcomes.of_visits hvisits, hmissing⟩
      · exact Or.inr ⟨he, op, q', body, r, hvisits.trans hop, hopens, hnone⟩
    rcases stops_evaluate h with ⟨hh, hxs⟩ | ⟨body, q, hopens, hb⟩ | ⟨hh, r, q, hr, hf, m, he, hstop⟩
    · obtain ⟨before, y, after, ts, q, rfl, hturn, hvalues, hy⟩ := stops_evaluateOperands.mp hxs
      exact hlift (.operand hh hturn hvalues (.here y q)) (ihoperand y (by simp [Op.operands]) hy)
    · rcases stops_evaluateBody.mp hb with ⟨hnone, he⟩ | ⟨y, hyield, hy⟩
      · exact Or.inr ⟨he, _, p, body, q, .here _ p, hopens, hnone⟩
      · exact hlift (.body hopens hyield (.here y q)) (ihbody body hopens.mem_bodies y hyield hy)
    · obtain ⟨done, rest, rfl, hturn, hall, -⟩ := hr.inTurn
      obtain ⟨rfl, -⟩ := hall hf
      refine Or.inl ⟨⟨m, he⟩, _, r.values, q, .here hh ?_ (hr.values hf), Head.misses_apply.mp ⟨m, hstop⟩⟩
      simpa [Op.operands] using hturn

lemma stops_of_comesTo {op : Op} {values : List Value} (h : ComesTo captures x p op values p')
    (hmissing : MissingMember p'.heap op.head values) :
    ∃ m, Stops (evaluateOperand captures x) p (.unresolved m) := by
  obtain ⟨m, hstop⟩ := Head.misses_apply.mpr hmissing
  obtain ⟨q, ts, hvisits, hstrict, hturn, hvalues⟩ := h.visits
  refine ⟨m, hvisits.stops ?_⟩
  rcases op with ⟨head, xs, bodies⟩
  rw [evaluateOperand]
  exact (stops_strict hstrict).mpr (Or.inr ⟨_, _, .of_inTurn hturn hvalues, rfl, m, rfl, hstop⟩)

end Evaluation

lemma Quoted.evaluate_of_returned? {q : Quoted} {root : Operand} (h : q.returned? = some root) (heap : Heap) :
    q.evaluate heap = runFrom (Evaluation.evaluateOperand q.captures root) ⟨heap, []⟩ := by
  rcases q with ⟨op, captures⟩
  unfold Quoted.returned? Quoted.entry? at h
  split at h
  · next hentry =>
    split at hentry
    · obtain rfl := Option.some.inj hentry
      obtain rfl := Option.some.inj h
      dsimp only at *
      subst_vars
      rfl
    · simp at hentry
  · simp at h

end PredicateTrace
