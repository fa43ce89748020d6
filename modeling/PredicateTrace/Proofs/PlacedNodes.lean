import PredicateTrace.Proofs.CapturedContents
import PredicateTrace.Proofs.HostEffects
import PredicateTrace.Proofs.Requoting

/-!
# Nodes at their places

A node of a trace is the trace of the operand at its place. The operand was evaluated in a state that holds the same
values of captured variables as the state that the whole evaluation began with.
-/

namespace PredicateTrace

open Host (Heap)

namespace Evaluation

variable {captures : Captures} {before after : Progress} {n : Trace} {v : Value}

/-! ### Places of captured variables -/

/-- What goes the same way whatever the captured variables hold leaves them alone. -/
lemma Alike.slots_eq {α : Type} {m : Evaluating α} {a : α} (h : Alike before.heap.slots before.heap.slots m)
    (hg : Gives m before a after) : after.heap.slots = before.heap.slots := by
  obtain ⟨r, q, hq, -⟩ := h before
  have hbefore : before.withSlots before.heap.slots = before := rfl
  rw [hbefore] at hq
  obtain ⟨-, rfl⟩ : Except.ok a = r ∧ after = q.withSlots before.heap.slots := by
    rw [← Prod.mk.injEq, ← hq]
    exact hg.symm
  rfl

lemma slots_eq_of_gives {z : Operand} (h : Gives (evaluateOperand captures z) before n after) :
    after.heap.slots = before.heap.slots :=
  (alike_evaluateOperand (fun _ _ _ _ => rfl) z).slots_eq h

lemma slots_eq_of_body {body : Body} (h : Gives (evaluateBody captures body) before n after) :
    after.heap.slots = before.heap.slots :=
  (alike_evaluateBody fun z _ => alike_evaluateOperand (fun _ _ _ _ => rfl) z).slots_eq h

lemma InTurn.get_slots {xs : List Operand} {ts : List Trace} (h : InTurn (evaluateOperand captures) xs before ts after)
    {i : Nat} {c : Trace} (hc : ts[i]? = some c) :
    ∃ x q q', xs[i]? = some x ∧ q.heap.slots = before.heap.slots ∧ Gives (evaluateOperand captures x) q c q' := by
  induction h generalizing i with
  | nil => simp at hc
  | cons hx _ ih =>
    cases i with
    | zero =>
      obtain rfl := Option.some.inj hc
      exact ⟨_, _, _, rfl, rfl, hx⟩
    | succ i =>
      obtain ⟨y, q, q', hy, hslots, hg⟩ := ih hc
      exact ⟨y, q, q', hy, hslots.trans (slots_eq_of_gives hx), hg⟩

/-- A node is the trace of what stands at its place, from a state with the same values of captured variables. -/
theorem gives_at_place {x y : Operand} {place : Place} {t : Trace}
    (h : Gives (evaluateOperand captures x) before t after) (hx : x.WellShaped) (hn : (place, n) ∈ t.places)
    (hy : x.inside? place = some y) :
    ∃ p p', p.heap.slots = before.heap.slots ∧ Gives (evaluateOperand captures y) p n p' := by
  induction t using Trace.induction_on_children generalizing x before after place with
  | step t ih =>
    rcases Trace.mem_places.mp hn with hroot | ⟨i, c, ⟨inner, m⟩, hc, hm, heq⟩
    · obtain ⟨rfl, rfl⟩ := Prod.mk.inj hroot
      obtain rfl : x = y := by simpa using hy
      exact ⟨before, after, rfl, h⟩
    · obtain ⟨rfl, rfl⟩ : place = t.stepTo i :: inner ∧ n = m := by simpa using heq
      obtain ⟨xs, q, hturn, hreach, -⟩ := operand_reaches h hx
      obtain ⟨z, r, r', hz, hslots, hg⟩ := hturn.get_slots hc
      have hin := hreach.inside i z hz
      rw [Operand.inside?_cons, hin, Option.bind_some] at hy
      obtain ⟨p, p', hp, hgp⟩ :=
        ih c (List.mem_of_getElem? hc) hg (hx.of_part (Operand.part_of_inside? hin)) hm hy
      exact ⟨p, p', hp.trans hslots, hgp⟩

/-! ### Ops after their operands -/

variable {head : Head} {xs : List Operand}

/-- The node of an op that is evaluated after its operands, which it has as its children. -/
lemma gives_after_operands (hh : head.isStrict = true)
    (h : Gives (evaluateOperand captures (.op (.of head xs))) before n after) :
    ∃ r q, OperandsRun captures xs before r q ∧ n.children = r.nodes ∧
      match r.failed with
      | some last => n.outcome = last.outcome ∧ after = q
      | none => Gives (outcomeOf (head.apply r.values)) (noted (.of head xs) q) n.outcome after := by
  rw [evaluateOperand, evaluate_gives] at h
  obtain ⟨ts, o, rfl, hrun⟩ := h
  obtain ⟨r, q, hoperands, rfl, ho⟩ := (opRun_strict hh).mp hrun
  exact ⟨r, q, hoperands, rfl, ho⟩

/-- Likewise for an op that is not noted. -/
lemma gives_strict (hh : head.isStrict = true) (hhost : head.isHostComputation = false)
    (h : Gives (evaluateOperand captures (.op (.of head xs))) before n after) :
    ∃ r q, OperandsRun captures xs before r q ∧ n.children = r.nodes ∧
      match r.failed with
      | some last => n.outcome = last.outcome ∧ after = q
      | none => Gives (outcomeOf (head.apply r.values)) q n.outcome after := by
  obtain ⟨r, q, hoperands, hnodes, ho⟩ := gives_after_operands hh h
  have hnoted : noted (.of head xs) q = q := if_neg (by simp [Op.of, Op.head, hhost])
  rw [hnoted] at ho
  exact ⟨r, q, hoperands, hnodes, ho⟩

/-- Operands that all have values are all evaluated, to these values. -/
lemma OperandsRun.of_values {r : Evaluated} {values : List Value} (h : OperandsRun captures xs before r after)
    (hvalues : r.nodes.map Trace.value? = values.map some) :
    r.failed = none ∧ r.values = values ∧ values.length = xs.length := by
  induction h generalizing values with
  | nil =>
    obtain rfl : values = [] := by simpa using hvalues.symm
    exact ⟨rfl, rfl, rfl⟩
  | failed _ hv =>
    cases values with
    | nil => cases hvalues
    | cons v values =>
      have hhead := (List.cons.inj hvalues).1
      rw [hv] at hhead
      cases hhead
  | next _ hv _ ih =>
    cases values with
    | nil => cases hvalues
    | cons v values =>
      obtain ⟨hhead, htail⟩ := List.cons.inj hvalues
      obtain ⟨hfailed, hrest, hlength⟩ := ih htail
      obtain rfl := Option.some.inj (hv.symm.trans hhead)
      exact ⟨hfailed, by rw [hrest], by rw [List.length_cons, hlength, List.length_cons]⟩

/-- An op that is evaluated after its operands has a value only if they have, and it is what they give. -/
lemma gives_of_value (hh : head.isStrict = true) (hhost : head.isHostComputation = false)
    (h : Gives (evaluateOperand captures (.op (.of head xs))) before n after) (hv : n.value? = some v) :
    ∃ r q, OperandsRun captures xs before r q ∧ r.failed = none ∧
      Gives (outcomeOf (head.apply r.values)) q (.value v) after := by
  obtain ⟨r, q, hoperands, -, ho⟩ := gives_strict hh hhost h
  cases hf : r.failed with
  | some last =>
    rw [hf] at ho
    have hnone := hoperands.last_fails hf
    rw [Trace.value?, ← ho.1] at hnone
    exact absurd (hnone.symm.trans hv) (Option.some_ne_none v).symm
  | none =>
    rw [hf] at ho
    have houtcome : n.outcome = .value v := Trace.value?_eq_some.mp hv
    rw [houtcome] at ho
    exact ⟨r, q, hoperands, hf, ho⟩

/-- The node of an op with two operands that have values: they are evaluated one after the other, and then the op. -/
lemma gives_of_operands {a b : Operand} {dl dr : Trace} {l r : Value} (hh : head.isStrict = true)
    (hhost : head.isHostComputation = false)
    (h : Gives (evaluateOperand captures (.op (.of head [a, b]))) before n after) (hc : n.children = [dl, dr])
    (hl : dl.value? = some l) (hr : dr.value? = some r) :
    ∃ between q, Gives (evaluateOperand captures a) before dl between ∧
      Gives (evaluateOperand captures b) between dr q ∧ Gives (outcomeOf (head.apply [l, r])) q n.outcome after := by
  obtain ⟨run, q, hoperands, hnodes, ho⟩ := gives_strict hh hhost h
  rw [hc] at hnodes
  cases hoperands with
  | failed => cases hnodes
  | next ha hv hrest =>
    cases hrest with
    | failed hb hw =>
      obtain ⟨rfl, rfl⟩ : dl = _ ∧ dr = _ := by simpa using hnodes
      exact absurd (hw.symm.trans hr) (Option.some_ne_none r).symm
    | next hb hw hrest =>
      cases hrest
      obtain ⟨rfl, rfl⟩ : dl = _ ∧ dr = _ := by simpa using hnodes
      obtain rfl := Option.some.inj (hv.symm.trans hl)
      obtain rfl := Option.some.inj (hw.symm.trans hr)
      exact ⟨_, q, ha, hb, ho⟩

lemma ok_of_gives_value {run : Host.Run (Option Value)} (h : Gives (outcomeOf run) before (.value v) after) :
    (runFrom run before.heap).1 = .ok (some v) := by
  obtain ⟨-, ho⟩ := gives_outcomeOf.mp h
  generalize (runFrom run before.heap).1 = r at ho
  rcases r with (e | m) | (_ | w)
  · cases ho
  · cases ho
  · cases ho
  · rw [Outcome.value.inj ho]

end Evaluation

variable {scope : Scope} {heap later : Heap} {te : TypedExpr} {place : Place} {z : Operand}

/-- A node is the trace of what stands at its place in a predicate, from a state with the captured values that the
evaluation of the predicate began with. -/
lemma Lowering.gives_of_mem_places (hplace : (root scope heap te).inside? place = some z) {t n : Trace} {p : Progress}
    (ht : (quote scope heap te).evaluate later = (.ok t, p)) (hn : (place, n) ∈ t.places) :
    ∃ before after, before.heap.slots = later.slots ∧
      Gives (Evaluation.evaluateOperand (quote scope heap te).captures z) before n after := by
  obtain ⟨_, _, _, _, hshaped⟩ := emits_lower scope heap te ⟨[], []⟩
  rcases Quoted.evaluate_eq_ok ht with ⟨w, hw, hg⟩ | ⟨hnone, -⟩
  · obtain rfl := Option.some.inj (hw.symm.trans (returned?_eq_root scope heap te))
    exact Evaluation.gives_at_place hg hshaped hn hplace
  · rw [returned?_eq_root] at hnone
    cases hnone

end PredicateTrace
