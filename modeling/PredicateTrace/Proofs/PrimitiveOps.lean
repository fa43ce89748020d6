import PredicateTrace.Proofs.DirectEvaluation
import PredicateTrace.Proofs.EvaluatedParts

/-!
# Ops on primitive values

How the ops that the primitive fragment is lowered to are evaluated: what the host answers for values of
fitting kinds, and how the outcome of an op depends on those of its operands and bodies. None of these ops
changes the heap or the journal.
-/

namespace PredicateTrace

open Host (Heap)

/-- What a node of an op may hold: a value of the kind that its result type states, or an error of
primitive operations. -/
def Head.Admits (arrays : Bool) (head : Head) : Outcome → Prop
  | .value v => ∀ p, head.resultType? = some (.prim p) → v.kind? = some p
  | .threw e => e.IsElementary arrays
  | .unsupported => False

/-- All nodes of a trace hold what their ops admit. -/
def Trace.Sound (arrays : Bool) (t : Trace) : Prop :=
  ∀ n ∈ t.nodes, n.op.head.Admits arrays n.outcome

/-- An op that is computed from its operands without a call of the host program. -/
def Head.isPure (head : Head) : Bool :=
  head.isStrict && !head.isHostComputation

lemma Outcome.Fits.admits {arrays : Bool} {o : Outcome} {p : Primitive} {head : Head}
    (h : o.Fits arrays p) (ht : head.resultType? = some (.prim p)) : head.Admits arrays o := by
  cases o with
  | value v =>
    intro q hq
    rw [ht] at hq
    cases hq
    exact h
  | threw e => exact h
  | unsupported => exact h

lemma Trace.sound_node {arrays : Bool} {op : Op} {o : Outcome} {ts : List Trace}
    (ho : op.head.Admits arrays o) (hts : ∀ t ∈ ts, t.Sound arrays) :
    (Trace.node op o ts).Sound arrays := by
  intro n hn
  rcases Trace.mem_nodes.mp hn with rfl | ⟨c, hc, hnc⟩
  · exact ho
  · exact hts c hc n hnc

lemma Trace.Sound.children {arrays : Bool} {t : Trace} (h : t.Sound arrays) :
    ∀ c ∈ t.children, c.Sound arrays :=
  fun _ hc n hn => h n (Trace.mem_nodes_of_child hc hn)

namespace Evaluation

/-! ### What the host answers -/

/-- The host answers with an outcome for an op on some values, and nothing else happens. -/
def Answers (head : Head) (values : List Value) (o : Outcome) : Prop :=
  ∀ p, Gives (outcomeOf (head.apply values)) p o p

lemma answers_of_run {head : Head} {values : List Value} {r : Except Throwable (Option Value)}
    (h : ∀ heap, runFrom (head.apply values) heap = runFrom (Resolver.lift r) heap) :
    Answers head values (.ofResult r) := by
  intro p
  rw [gives_outcomeOf, h]
  rcases r with e | _ | v <;> exact ⟨rfl, rfl⟩

lemma answers_const {v : Value} (type : TypeRef) {p : Primitive} (h : v.kind? = some p) :
    Answers (.const v type) [] (.value v) := by
  have hbox : v.box = v := by
    cases v <;> first | rfl | cases h
  apply answers_of_run (r := .ok (some v))
  intro heap
  rw [Head.apply, hbox]
  rfl

lemma answers_conversion {v : Value} {p : Primitive} (q : Primitive) (h : v.kind? = some p) :
    Answers (.conv (.prim q)) [v] (Direct.convertTo q v) := by
  apply answers_of_run (r := .ok (v.toKind? q))
  intro heap
  have hpresent : Head.apply (.conv (.prim q)) [v] =
      if v.kind? = some q then pure (some v) else pure (v.convert? q) := by
    cases v <;> first | rfl | cases h
  rw [hpresent, Value.toKind?]
  split <;> rfl

lemma answers_not (b : Bool) : Answers .not [.bool b] (.value (.bool !b)) :=
  answers_of_run (r := .ok (some (.bool !b))) fun _ => rfl

lemma answers_negation (type : TypeRef) (v : Value) : Answers (.neg type) [v] (.ofOption v.negate?) :=
  answers_of_run (r := .ok v.negate?) fun _ => rfl

lemma isText_eq_false {v : Value} {p : Primitive} (h : v.kind? = some p) : v.isText = false := by
  cases v <;> first | rfl | cases h

/-- A binary operation on values with kinds is never a sum of texts. -/
lemma answers_binary (op : Operator) (type : TypeRef) {a b : Value} {p q : Primitive}
    (ha : a.kind? = some p) (hb : b.kind? = some q) :
    Answers (.binary op type) [a, b] (.ofResult (Value.binary op a b)) := by
  apply answers_of_run
  intro heap
  rw [Head.apply, Head.applyBinary]
  simp [isText_eq_false ha, isText_eq_false hb]

/-- With a word of ones, exclusive disjunction gives the complement. -/
lemma answers_complement (type : TypeRef) {kind : Host.IntKind} (n : Int)
    (hk : kind = .int ∨ kind = .long) :
    Answers (.binary (.arith .xor) type) [.integral kind n, .integral kind (-1)]
      (.ofOption (Value.complement? (.integral kind n))) := by
  have hanswer := answers_binary (.arith .xor) type (a := .integral kind n) (b := .integral kind (-1)) rfl rfl
  rw [Value.binary, Value.arith_integral _ hk, Value.arith.integral, Value.integerOp,
    Number.wordXor_neg_one] at hanswer
  exact hanswer

/-- An equality test, which may look at the heap only for objects. -/
lemma answers_identity {op : CompareOperator} {a b : Value} {same : Bool}
    (hop : op = .eq ∨ op = .neq) (h : ∀ heap : Heap, Value.equals heap.same a b = same) :
    Answers (.compare (.compare op)) [a, b] (Direct.compare.identity op same) := by
  have hrun (test : (Nat → Nat → Bool) → Bool) (heap : Heap) :
      runFrom (do return some (Value.bool (test (← Host.Run.heap).same))) heap =
        (.ok (some (.bool (test heap.same))), heap) := rfl
  rcases hop with rfl | rfl
  · apply answers_of_run (r := .ok (some (.bool same)))
    intro heap
    rw [← h heap]
    exact hrun (fun same => Value.equals same a b) heap
  · apply answers_of_run (r := .ok (some (.bool !same)))
    intro heap
    rw [← h heap]
    exact hrun (fun same => !Value.equals same a b) heap

/-- Numbers are compared as numbers, with equality like with the other relations. -/
lemma answers_relation (op : CompareOperator) {a b : Value} {m n : Value.Numeric}
    (ha : a.comparand? = some m) (hb : b.comparand? = some n) :
    Answers (.compare (.compare op)) [a, b] (.value (.bool (Value.Numeric.relation op m n))) := by
  have hequals (heap : Heap) : Value.equals heap.same a b = Value.Numeric.relation .eq m n := by
    simp only [Value.equals, ha, hb]
  have hrelate {order : CompareOperator}
      (h : Value.relate (.compare order) a b = .ok (some (Value.Numeric.relation order m n)))
      (happly : Head.apply (.compare (.compare order)) [a, b] = do
        return (← Resolver.lift (Value.relate (.compare order) a b)).map .bool) :
      Answers (.compare (.compare order)) [a, b] (.value (.bool (Value.Numeric.relation order m n))) := by
    apply answers_of_run (r := .ok (some (.bool (Value.Numeric.relation order m n))))
    intro heap
    rw [happly, h]
    rfl
  cases op with
  | eq => exact answers_identity (Or.inl rfl) hequals
  | neq =>
    rw [Value.Numeric.relation_neq]
    exact answers_identity (Or.inr rfl) hequals
  | _ => exact hrelate (by simp [Value.relate, ha, hb]) rfl

lemma equals_bool (same : Nat → Nat → Bool) (a b : Bool) :
    Value.equals same (.bool a) (.bool b) = (a == b) := by
  have hequals : Value.equals same (.bool a) (.bool b) = Value.equalsWith same (.bool a) (.bool b) := by
    simp [Value.equals, Value.comparand?, Value.integer?, Value.kind?]
  rw [hequals, Value.equalsWith]
  · cases a <;> cases b <;> rfl
  all_goals simp

lemma equals_array (same : Nat → Nat → Bool) (i j : Nat) (s t : TypeRef) (xs ys : List Value) :
    Value.equals same (.array i s xs) (.array j t ys) = (i == j) := by
  have hequals : Value.equals same (.array i s xs) (.array j t ys) =
      Value.equalsWith same (.array i s xs) (.array j t ys) := by
    simp [Value.equals, Value.comparand?, Value.integer?, Value.kind?]
  rw [hequals, Value.equalsWith]
  · rfl
  all_goals simp

lemma answers_element (type : TypeRef) (id : Nat) (t : TypeRef) (items : List Value) (n : Int) :
    Answers (.arrayLoad type) [.array id t items, .integral .int n]
      (Direct.element.elementAt (.array id t items) (.integral .int n)) := by
  have hload : Head.apply (.arrayLoad type) [.array id t items, .integral .int n] = do
      return some (← Host.elementAt items n) := rfl
  rw [Direct.element.elementAt]
  cases hplace : Host.checkIndex items n with
  | ok place =>
    apply answers_of_run (r := .ok (some (items.getD place .null)))
    intro heap
    rw [hload, Host.elementAt, hplace]
    rfl
  | error e =>
    apply answers_of_run (r := .error e)
    intro heap
    rw [hload, Host.elementAt, hplace]
    rfl

lemma answers_length (id : Nat) (t : TypeRef) (items : List Value) :
    Answers .arrayLength [.array id t items] (Direct.length (.array id t items)) :=
  answers_of_run (r := .ok (some (.int items.length))) fun _ => rfl

/-! ### Outcomes of ops -/

/-- An operand has an outcome whenever it is evaluated with the given heap. The evaluation changes nothing,
and all nodes of the trace hold what their ops admit. -/
def Runs (arrays : Bool) (captures : Captures) (heap : Heap) (x : Operand) (o : Outcome) : Prop :=
  ∀ p : Progress, p.heap = heap →
    ∃ t, Gives (evaluateOperand captures x) p t p ∧ t.outcome = o ∧ t.Sound arrays

section Runs

variable {arrays : Bool} {captures : Captures} {heap : Heap} {head : Head} {x y : Operand} {o o' : Outcome}

lemma Head.isStrict_of_isPure (h : head.isPure = true) : head.isStrict = true := by
  simp [Head.isPure] at h
  exact h.1

lemma noted_of_isPure (h : head.isPure = true) (xs : List Operand) (p : Progress) :
    noted (.of head xs) p = p := by
  simp [Head.isPure] at h
  simp [noted, Op.of, Op.head, h.2]

lemma OpRun.gives {op : Op} {p p' : Progress} {ts : List Trace} (h : OpRun captures op p ts o p') :
    Gives (evaluateOperand captures (.op op)) p (.node op o ts) p' := by
  rw [evaluateOperand]
  exact evaluate_gives.mpr ⟨ts, o, rfl, h⟩

lemma OperandsRun.computed {xs : List Operand} {p : Progress} {ts : List Trace} {values : List Value}
    (h : OperandsRun captures xs p ⟨ts, values, none⟩ p) (hpure : head.isPure = true)
    (hanswer : Answers head values o) : OpRun captures (.of head xs) p ts o p := by
  refine .computed (Head.isStrict_of_isPure hpure) h rfl ?_
  have hnoted : noted (.mk head xs []) p = p := noted_of_isPure hpure xs p
  rw [hnoted]
  exact hanswer p

lemma OperandsRun.handedOn {xs : List Operand} {p : Progress} {r : Evaluated} {last : Trace}
    (h : OperandsRun captures xs p r p) (hpure : head.isPure = true) (hlast : r.failed = some last) :
    OpRun captures (.of head xs) p r.nodes last.outcome p :=
  .failed (Head.isStrict_of_isPure hpure) h hlast

lemma andThen_of_failed {t : Trace} (h : t.value? = none) (f : Value → Outcome) :
    t.outcome.andThen f = t.outcome := by
  cases ho : t.outcome with
  | value v => simp [Trace.value?_eq_some.mpr ho] at h
  | threw e => rfl
  | unsupported => rfl

lemma andThen_of_value {t : Trace} {v : Value} (h : t.value? = some v) (f : Value → Outcome) :
    t.outcome.andThen f = f v := by
  rw [Trace.value?_eq_some.mp h]
  rfl

lemma runs_leaf (hpure : head.isPure = true) (hanswer : Answers head [] o) (hadmits : head.Admits arrays o) :
    Runs arrays captures heap (.op (.leaf head)) o := by
  intro p _
  have hrun : OpRun captures (.leaf head) p [] o p :=
    OperandsRun.computed (.nil p) hpure hanswer
  exact ⟨_, hrun.gives, rfl, Trace.sound_node hadmits (by simp)⟩

lemma runs_varLoad {var : Var} {c : Capture} (hbound : captures.binding? var.name = some c)
    (hadmits : (Head.varLoad var).Admits arrays (.value (c.content heap))) :
    Runs arrays captures heap (.op (.leaf (.varLoad var))) (.value (c.content heap)) := by
  rintro p rfl
  exact ⟨_, (OpRun.bound p hbound).gives, rfl, Trace.sound_node hadmits (by simp)⟩

/-- An op on one operand hands on its failure, or computes from its value. -/
lemma Runs.unary {f : Value → Outcome} (hx : Runs arrays captures heap x o) (hpure : head.isPure = true)
    (hanswer : ∀ v, o = .value v → Answers head [v] (f v)) (hadmits : head.Admits arrays (o.andThen f)) :
    Runs arrays captures heap (.op (.of head [x])) (o.andThen f) := by
  intro p hp
  obtain ⟨t, hgives, rfl, hsound⟩ := hx p hp
  have hrun : OpRun captures (.of head [x]) p [t] (t.outcome.andThen f) p := by
    cases hv : t.value? with
    | none =>
      rw [andThen_of_failed hv]
      exact (OperandsRun.failed hgives hv).handedOn hpure rfl
    | some v =>
      rw [andThen_of_value hv]
      exact (OperandsRun.next hgives hv (.nil p)).computed hpure (hanswer v (Trace.value?_eq_some.mp hv))
  exact ⟨_, hrun.gives, rfl, Trace.sound_node hadmits (by simpa using hsound)⟩

/-- An op on two operands evaluates the second one only if the first one has a value. -/
lemma Runs.binary {f : Value → Value → Outcome} (hx : Runs arrays captures heap x o)
    (hy : Runs arrays captures heap y o') (hpure : head.isPure = true)
    (hanswer : ∀ a b, o = .value a → o' = .value b → Answers head [a, b] (f a b))
    (hadmits : head.Admits arrays (o.andThen fun a => o'.andThen (f a))) :
    Runs arrays captures heap (.op (.of head [x, y])) (o.andThen fun a => o'.andThen (f a)) := by
  intro p hp
  obtain ⟨t, hgives, rfl, hsound⟩ := hx p hp
  cases hv : t.value? with
  | none =>
    rw [andThen_of_failed hv] at hadmits ⊢
    have hrun : OpRun captures (.of head [x, y]) p [t] t.outcome p :=
      (OperandsRun.failed hgives hv).handedOn hpure rfl
    exact ⟨_, hrun.gives, rfl, Trace.sound_node hadmits (by simpa using hsound)⟩
  | some a =>
    rw [andThen_of_value hv] at hadmits ⊢
    obtain ⟨u, hgives', rfl, hsound'⟩ := hy p hp
    have hrun : OpRun captures (.of head [x, y]) p [t, u] (u.outcome.andThen (f a)) p := by
      cases hw : u.value? with
      | none =>
        rw [andThen_of_failed hw]
        exact (OperandsRun.next hgives hv (.failed hgives' hw)).handedOn hpure rfl
      | some b =>
        rw [andThen_of_value hw]
        exact (OperandsRun.next hgives hv (.next hgives' hw (.nil p))).computed hpure
          (hanswer a b (Trace.value?_eq_some.mp hv) (Trace.value?_eq_some.mp hw))
    exact ⟨_, hrun.gives, rfl, Trace.sound_node hadmits (by simpa using ⟨hsound, hsound'⟩)⟩

/-! ### Outcomes of ops with bodies -/

lemma evaluateBody_of_yielded {body : Body} (h : body.yielded? = some x) :
    evaluateBody captures body = evaluateOperand captures x := by
  unfold Body.yielded? at h
  split at h
  · rw [evaluateBody, Option.some.inj h]
  · simp at h

lemma ChainRun.append_of_going {decisive : Bool} {bodies rest : List Body} {p p' p'' : Progress}
    {ts us : List Trace} (h : ChainRun captures decisive bodies p ts o p')
    (ho : o = .value (.bool !decisive)) (hrest : ChainRun captures decisive rest p' us o' p'') :
    ChainRun captures decisive (bodies ++ rest) p (ts ++ us) o' p'' := by
  induction h with
  | exhausted => exact hrest
  | failed _ hv => simp [Trace.value?_eq_some.mpr ho] at hv
  | decided => cases decisive <;> cases ho
  | untrue => cases ho
  | next hb hv _ ih => exact .next hb hv (ih ho hrest)

lemma ChainRun.append_of_stopped {decisive : Bool} {bodies : List Body} {p p' : Progress}
    {ts : List Trace} (h : ChainRun captures decisive bodies p ts o p')
    (ho : o ≠ .value (.bool !decisive)) (rest : List Body) :
    ChainRun captures decisive (bodies ++ rest) p ts o p' := by
  induction h with
  | exhausted => exact absurd rfl ho
  | failed hb hv => exact .failed hb hv
  | decided hb hv => exact .decided hb hv
  | untrue hb hv hbool => exact .untrue hb hv hbool
  | next hb hv _ ih => exact .next hb hv (ih ho)

lemma ChainRun.singleton (decisive : Bool) {body : Body} {p p' : Progress} {t : Trace}
    (hb : Gives (evaluateBody captures body) p t p') (hfits : t.outcome.Fits arrays .boolean) :
    ChainRun captures decisive [body] p [t] t.outcome p' := by
  cases ho : t.outcome with
  | value v =>
    rw [ho] at hfits
    obtain ⟨b, rfl⟩ := Value.kind_boolean hfits
    have hv : t.value? = some (.bool b) := Trace.value?_eq_some.mpr ho
    by_cases hd : b = decisive
    · subst hd
      exact .decided hb hv
    · obtain rfl : b = !decisive := Bool.eq_not.mpr hd
      exact .next hb hv (.exhausted _)
  | threw e =>
    rw [← ho]
    exact .failed hb (by simp [Trace.value?, Outcome.value?, ho])
  | unsupported =>
    rw [ho] at hfits
    exact hfits.elim

lemma admits_chain {decisive : Bool} (hd : head.decisive? = some decisive) (h : o.Fits arrays .boolean) :
    head.Admits arrays o :=
  h.admits (by cases head <;> first | rfl | cases hd)

lemma Runs.chain_singleton {decisive : Bool} {body : Body} (hd : head.decisive? = some decisive)
    (hy : body.yielded? = some y) (h : Runs arrays captures heap y o) (hfits : o.Fits arrays .boolean) :
    Runs arrays captures heap (.op (.mk head [] [body])) o := by
  intro p hp
  obtain ⟨t, hgives, rfl, hsound⟩ := h p hp
  rw [← evaluateBody_of_yielded hy] at hgives
  have hrun : OpRun captures (.mk head [] [body]) p [t] t.outcome p :=
    .chain hd (.singleton decisive hgives hfits)
  exact ⟨_, hrun.gives, rfl, Trace.sound_node (admits_chain hd hfits) (by simpa using hsound)⟩

/-- One more body is evaluated exactly if the ones before it do not decide. -/
lemma Runs.chain_snoc {decisive : Bool} {bodies : List Body} {body : Body}
    (hd : head.decisive? = some decisive) (hx : Runs arrays captures heap (.op (.mk head [] bodies)) o)
    (hy : body.yielded? = some y) (h : Runs arrays captures heap y o') (hfits : o.Fits arrays .boolean)
    (hfits' : o'.Fits arrays .boolean) :
    Runs arrays captures heap (.op (.mk head [] (bodies ++ [body])))
      (o.andThen (Direct.shortCircuit decisive o')) := by
  intro p hp
  obtain ⟨t, hgives, rfl, hsound⟩ := hx p hp
  rw [evaluateOperand, evaluate_gives] at hgives
  obtain ⟨ts, o, rfl, hrun⟩ := hgives
  have hchain : ChainRun captures decisive bodies p ts o p := (opRun_chain hd).mp hrun
  have hts : ∀ t ∈ ts, t.Sound arrays := hsound.children
  change o.Fits arrays .boolean at hfits
  change ∃ t : Trace, _ ∧ t.outcome = o.andThen _ ∧ _
  have hstopped (ho : o ≠ .value (.bool !decisive)) (hsame : o.andThen (Direct.shortCircuit decisive o') = o) :
      ∃ t, Gives (evaluateOperand captures (.op (.mk head [] (bodies ++ [body])))) p t p ∧
        t.outcome = o.andThen (Direct.shortCircuit decisive o') ∧ t.Sound arrays := by
    have hrun : OpRun captures (.mk head [] (bodies ++ [body])) p ts o p :=
      .chain hd (hchain.append_of_stopped ho _)
    rw [hsame]
    exact ⟨_, hrun.gives, rfl, Trace.sound_node (admits_chain hd hfits) hts⟩
  cases o with
  | value v =>
    obtain ⟨b, rfl⟩ := Value.kind_boolean hfits
    by_cases hb : b = decisive
    · subst hb
      exact hstopped (by cases b <;> simp) (by simp [Outcome.andThen, Direct.shortCircuit])
    · obtain rfl : b = !decisive := Bool.eq_not.mpr hb
      obtain ⟨u, hgives', rfl, hsound'⟩ := h p hp
      rw [← evaluateBody_of_yielded hy] at hgives'
      have hrun : OpRun captures (.mk head [] (bodies ++ [body])) p (ts ++ [u]) u.outcome p :=
        .chain hd (hchain.append_of_going rfl (.singleton decisive hgives' hfits'))
      refine ⟨_, hrun.gives, ?_, Trace.sound_node (admits_chain hd hfits') ?_⟩
      · simp [Trace.outcome, Outcome.andThen, Direct.shortCircuit]
      · exact List.forall_mem_append.mpr ⟨hts, by simpa using hsound'⟩
  | threw e => exact hstopped (by simp) rfl
  | unsupported => exact hstopped (by simp) rfl

/-- A conditional evaluates its condition and the selected arm. -/
lemma Runs.choice {type : TypeRef} {c yes no : Body} {z : Operand} {oc : Outcome}
    (hc : c.yielded? = some x) (hyes : yes.yielded? = some y) (hno : no.yielded? = some z)
    (hx : Runs arrays captures heap x oc) (hy : Runs arrays captures heap y o)
    (hz : Runs arrays captures heap z o') (hfits : oc.Fits arrays .boolean)
    (hadmits : (Head.ternary type).Admits arrays (oc.andThen (Direct.select o o'))) :
    Runs arrays captures heap (.op (.mk (.ternary type) [] [c, yes, no])) (oc.andThen (Direct.select o o')) := by
  intro p hp
  obtain ⟨test, hgives, rfl, hsound⟩ := hx p hp
  rw [← evaluateBody_of_yielded hc] at hgives
  cases hv : test.value? with
  | none =>
    rw [andThen_of_failed hv] at hadmits ⊢
    have hrun : OpRun captures (.mk (.ternary type) [] [c, yes, no]) p [test] test.outcome p :=
      .choice (.failed hgives hv)
    exact ⟨_, hrun.gives, rfl, Trace.sound_node hadmits (by simpa using hsound)⟩
  | some v =>
    rw [Trace.value?_eq_some.mp hv] at hfits
    obtain ⟨b, rfl⟩ := Value.kind_boolean hfits
    rw [andThen_of_value hv] at hadmits ⊢
    obtain ⟨arm, harm, ho, hsound'⟩ : ∃ arm, Gives (evaluateBody captures (if b then yes else no)) p arm p ∧
        arm.outcome = Direct.select o o' (.bool b) ∧ arm.Sound arrays := by
      cases b with
      | true =>
        rw [if_pos rfl, evaluateBody_of_yielded hyes]
        exact hy p hp
      | false =>
        rw [if_neg (by simp), evaluateBody_of_yielded hno]
        exact hz p hp
    rw [← ho] at hadmits ⊢
    have hrun : OpRun captures (.mk (.ternary type) [] [c, yes, no]) p [test, arm] arm.outcome p :=
      .choice (.chosen hgives hv harm)
    exact ⟨_, hrun.gives, rfl, Trace.sound_node hadmits (by simpa using ⟨hsound, hsound'⟩)⟩

end Runs

end Evaluation

end PredicateTrace
