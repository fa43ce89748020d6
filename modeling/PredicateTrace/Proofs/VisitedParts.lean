import PredicateTrace.Proofs.PrimitiveOps

/-!
# Parts that evaluation comes to

Evaluation goes from left to right into the parts of an operand. It comes to an operand of an op when those
before it have values, and to a body when the bodies before it have the truth values that lead to it. What a
part does there is what the whole does: if the evaluation of the part ends without a trace, so does that of the
whole, and otherwise the node of the part is in the trace.
-/

namespace PredicateTrace

lemma Gives.unique {ε σ α : Type} {m : ExceptT ε (StateM σ) α} {s t u : σ} {a b : α} (ha : Gives m s a t)
    (hb : Gives m s b u) : a = b ∧ t = u := by
  simpa using ha.symm.trans hb

lemma Trace.mem_nodes_trans {n m t : Trace} (hm : m ∈ t.nodes) (hn : n ∈ m.nodes) : n ∈ t.nodes := by
  induction t using Trace.induction_on_children with
  | step t ih =>
    rcases Trace.mem_nodes.mp hm with rfl | ⟨c, hc, hmc⟩
    · exact hn
    · exact Trace.mem_nodes_of_child hc (ih c hc hmc)

namespace Evaluation

/-- Evaluating an op comes to one of its bodies, in the state that the parts before it have left: bodies before
it in a short-circuit operator do not decide, and an arm of a conditional is the one that the condition
selects. -/
inductive Opens (captures : Captures) : Op → Progress → Body → Progress → Prop
  | chained {head decisive xs before body after p ts p'} (hchain : head.decisive? = some decisive)
      (hturn : InTurn (evaluateBody captures) before p ts p')
      (hvalues : ∀ t ∈ ts, t.value? = some (.bool !decisive)) :
      Opens captures (.mk head xs (before ++ body :: after)) p body p'
  | condition {type xs c yes no p} : Opens captures (.mk (.ternary type) xs [c, yes, no]) p c p
  | arm {type xs c yes no p test p' b} (htest : Gives (evaluateBody captures c) p test p')
      (hvalue : test.value? = some (.bool b)) :
      Opens captures (.mk (.ternary type) xs [c, yes, no]) p (if b then yes else no) p'

/-- Evaluating an operand comes to another one inside of it, or to itself. -/
inductive Visits (captures : Captures) : Operand → Progress → Operand → Progress → Prop
  | here (x : Operand) (p : Progress) : Visits captures x p x p
  | operand {head before x after bodies p ts p' y q} (hstrict : head.isStrict = true)
      (hturn : InTurn (evaluateOperand captures) before p ts p') (hvalues : ∀ t ∈ ts, t.hasValue = true)
      (hx : Visits captures x p' y q) :
      Visits captures (.op (.mk head (before ++ x :: after) bodies)) p y q
  | body {op p body p' x y q} (hopens : Opens captures op p body p') (hyield : body.yielded? = some x)
      (hx : Visits captures x p' y q) : Visits captures (.op op) p y q

/-- Evaluation comes to a body without an op that could give its value. -/
def MeetsOpenEnd (captures : Captures) (x : Operand) (p : Progress) : Prop :=
  ∃ op q body r, Visits captures x p (.op op) q ∧ Opens captures op q body r ∧ body.terminator? = none

variable {captures : Captures} {op : Op} {body : Body} {x y : Operand} {p p' q : Progress} {e : Abort}

lemma Opens.mem_bodies (h : Opens captures op p body p') : body ∈ op.bodies := by
  cases h with
  | chained => simp [Op.bodies]
  | condition => simp [Op.bodies]
  | @arm _ _ _ _ _ _ _ _ b => cases b <;> simp [Op.bodies]

lemma Visits.part (h : Visits captures x p y q) : Operand.Part y x := by
  induction h with
  | here x => exact .refl x
  | operand _ _ _ _ ih => exact .operand (by simp [Op.operands]) ih
  | body hopens hyield _ ih => exact .yielded hopens.mem_bodies hyield ih

lemma Visits.trans {z : Operand} {r : Progress} (hxy : Visits captures x p y q) (hyz : Visits captures y q z r) :
    Visits captures x p z r := by
  induction hxy with
  | here => exact hyz
  | operand hstrict hturn hvalues _ ih => exact .operand hstrict hturn hvalues (ih hyz)
  | body hopens hyield _ ih => exact .body hopens hyield (ih hyz)

/-! ### What ends the evaluation of an op -/

lemma stops_evaluateOperands {xs : List Operand} :
    Stops (evaluateOperands captures xs) p e ↔
      ∃ before x after ts p', xs = before ++ x :: after ∧
        InTurn (evaluateOperand captures) before p ts p' ∧ (∀ t ∈ ts, t.hasValue = true) ∧
          Stops (evaluateOperand captures x) p' e := by
  induction xs generalizing p with
  | nil => simp [evaluateOperands]
  | cons y rest ih =>
    rw [evaluateOperands, stops_bind]
    constructor
    · rintro (hy | ⟨t, q, hy, h⟩)
      · exact ⟨[], y, rest, [], p, rfl, .nil p, by simp, hy⟩
      · cases hv : t.value? with
        | none => simp [hv] at h
        | some v =>
          simp only [hv, stops_bind, stops_pure, and_false, exists_false, or_false] at h
          obtain ⟨before, x, after, ts, q', rfl, hturn, hvalues, hx⟩ := ih.mp h
          have ht : t.hasValue = true := by simp [Trace.hasValue, hv]
          exact ⟨y :: before, x, after, t :: ts, q', rfl, .cons hy hturn,
            List.forall_mem_cons.mpr ⟨ht, hvalues⟩, hx⟩
    · rintro ⟨_ | ⟨z, before⟩, x, after, ts, q, hxs, hturn, hvalues, hx⟩
      · obtain ⟨rfl, rfl⟩ := List.cons.inj hxs
        cases hturn
        exact Or.inl hx
      · obtain ⟨rfl, rfl⟩ := List.cons.inj hxs
        cases hturn with
        | @cons _ _ _ t q' ts _ hy hturn =>
          obtain ⟨ht, hvalues⟩ := List.forall_mem_cons.mp hvalues
          obtain ⟨v, hv⟩ := Option.isSome_iff_exists.mp ht
          refine Or.inr ⟨t, q', hy, ?_⟩
          simp only [hv, stops_bind]
          exact Or.inl (ih.mpr ⟨before, x, after, ts, q, rfl, hturn, hvalues, hx⟩)

lemma stops_evaluateChain {op : Op} {decisive : Bool} {nodes : List Trace} {bodies : List Body} :
    Stops (evaluateChain captures op decisive nodes bodies) p e ↔
      ∃ before body after ts p', bodies = before ++ body :: after ∧
        InTurn (evaluateBody captures) before p ts p' ∧ (∀ t ∈ ts, t.value? = some (.bool !decisive)) ∧
          Stops (evaluateBody captures body) p' e := by
  induction bodies generalizing p nodes with
  | nil => simp [evaluateChain]
  | cons first rest ih =>
    have hstep : Stops (evaluateChain captures op decisive nodes (first :: rest)) p e ↔
        Stops (evaluateBody captures first) p e ∨ ∃ t q, Gives (evaluateBody captures first) p t q ∧
          t.value? = some (.bool !decisive) ∧
            Stops (evaluateChain captures op decisive (nodes ++ [t]) rest) q e := by
      rw [evaluateChain, stops_bind]
      refine or_congr_right (exists_congr fun t => exists_congr fun q => and_congr_right fun _ => ?_)
      cases hv : t.value? with
      | none => simp
      | some v =>
        cases v with
        | bool b => cases b <;> cases decisive <;> simp
        | _ => simp
    rw [hstep]
    constructor
    · rintro (hfirst | ⟨t, q, hfirst, hv, h⟩)
      · exact ⟨[], first, rest, [], p, rfl, .nil p, by simp, hfirst⟩
      · obtain ⟨before, body, after, ts, q', rfl, hturn, hvalues, hbody⟩ := ih.mp h
        exact ⟨first :: before, body, after, t :: ts, q', rfl, .cons hfirst hturn,
          List.forall_mem_cons.mpr ⟨hv, hvalues⟩, hbody⟩
    · rintro ⟨_ | ⟨other, before⟩, body, after, ts, q, hbodies, hturn, hvalues, hbody⟩
      · obtain ⟨rfl, rfl⟩ := List.cons.inj hbodies
        cases hturn
        exact Or.inl hbody
      · obtain ⟨rfl, rfl⟩ := List.cons.inj hbodies
        cases hturn with
        | @cons _ _ _ t q' ts _ hfirst hturn =>
          obtain ⟨hv, hvalues⟩ := List.forall_mem_cons.mp hvalues
          exact Or.inr ⟨t, q', hfirst, hv, ih.mpr ⟨before, body, after, ts, q, rfl, hturn, hvalues, hbody⟩⟩

lemma stops_evaluateChoice {op : Op} {c yes no : Body} :
    Stops (evaluateChoice captures op [c, yes, no]) p e ↔ Stops (evaluateBody captures c) p e ∨
      ∃ test q b, Gives (evaluateBody captures c) p test q ∧ test.value? = some (.bool b) ∧
        Stops (evaluateBody captures (if b then yes else no)) q e := by
  rw [evaluateChoice, stops_bind]
  refine or_congr_right (exists_congr fun test => exists_congr fun q => ?_)
  cases hv : test.value? with
  | none => simp
  | some v =>
    cases v with
    | bool b =>
      cases b
      all_goals
        simp only [if_true, Bool.false_eq_true, if_false]
        rw [stops_bind_of_total]
        · simp
        · intro arm r
          split <;> exact stops_pure
    | _ => simp

lemma stops_computed {op : Op} {children : List Trace} {values : List Value} :
    Stops (computed op children values) p e ↔
      ∃ m, e = .unresolved m ∧ Stops (op.head.apply values) p.heap (.unresolved m) := by
  unfold computed
  split <;> simp only [stops_bind, stops_modify, gives_modify, stops_pure, stops_outcomeOf, and_false,
    exists_false, false_or, or_false, exists_eq_left, exists_const]

lemma stops_strict {head : Head} (hh : head.isStrict = true) {xs : List Operand} {bodies : List Body} :
    Stops (evaluate captures (.mk head xs bodies)) p e ↔ Stops (evaluateOperands captures xs) p e ∨
      ∃ r q, OperandsRun captures xs p r q ∧ r.failed = none ∧
        ∃ m, e = .unresolved m ∧ Stops (head.apply r.values) q.heap (.unresolved m) := by
  rw [evaluate_strict hh, stops_bind]
  refine or_congr_right (exists_congr fun r => exists_congr fun q => ?_)
  rw [evaluateOperands_gives]
  refine and_congr_right fun _ => ?_
  unfold finish
  cases r.failed with
  | some last => simp
  | none =>
    rw [stops_computed]
    simp [Op.head]

/-! ### What ends the evaluation as a whole -/

/-- A body ends the evaluation if its first block has no op at its end, or at the value that it yields. -/
lemma stops_evaluateBody : Stops (evaluateBody captures body) p e ↔
    (body.terminator? = none ∧ e = .missingTerminator) ∨
      ∃ x, body.yielded? = some x ∧ Stops (evaluateOperand captures x) p e := by
  cases hyield : body.yielded? with
  | some x =>
    have hterminator : body.terminator? ≠ none := by
      unfold Body.yielded? at hyield
      split at hyield
      · simp [Body.terminator?, Body.blocks, Block.terminator?]
      · cases hyield
    simp [evaluateBody_of_yielded hyield, hterminator]
  | none =>
    rcases body with ⟨_ | ⟨_ | ⟨params, earlier, terminator⟩, rest⟩⟩
    · simp [evaluateBody, Body.terminator?, Body.blocks, eq_comm]
    · simp [evaluateBody, Body.terminator?, Body.blocks, Block.terminator?, eq_comm]
    · rw [evaluateBody]
      · simp [Body.terminator?, Body.blocks, Block.terminator?]
      · rintro value bodies rfl rfl
        cases hyield

lemma stops_of_opens (h : Opens captures op p body p') (hbody : Stops (evaluateBody captures body) p' e) :
    Stops (evaluate captures op) p e := by
  cases h with
  | chained hchain hturn hvalues =>
    rw [evaluate_chain hchain]
    exact stops_evaluateChain.mpr ⟨_, _, _, _, _, rfl, hturn, hvalues, hbody⟩
  | condition =>
    rw [evaluate]
    exact stops_evaluateChoice.mpr (Or.inl hbody)
  | arm htest hvalue =>
    rw [evaluate]
    exact stops_evaluateChoice.mpr (Or.inr ⟨_, _, _, htest, hvalue, hbody⟩)

/-- What ends the evaluation of a part that evaluation comes to ends it as a whole. -/
lemma Visits.stops (h : Visits captures x p y q) (hy : Stops (evaluateOperand captures y) q e) :
    Stops (evaluateOperand captures x) p e := by
  induction h with
  | here => exact hy
  | operand hstrict hturn hvalues _ ih =>
    rw [evaluateOperand]
    exact (stops_strict hstrict).mpr
      (Or.inl (stops_evaluateOperands.mpr ⟨_, _, _, _, _, rfl, hturn, hvalues, ih hy⟩))
  | body hopens hyield _ ih =>
    rw [evaluateOperand]
    exact stops_of_opens hopens (stops_evaluateBody.mpr (Or.inr ⟨_, hyield, ih hy⟩))

/-- The evaluation of an op ends at one of its operands, at a body that it comes to, or at its computation. -/
lemma stops_evaluate {head : Head} {xs : List Operand} {bodies : List Body}
    (h : Stops (evaluate captures (.mk head xs bodies)) p e) :
    (head.isStrict = true ∧ Stops (evaluateOperands captures xs) p e) ∨
      (∃ body q, Opens captures (.mk head xs bodies) p body q ∧ Stops (evaluateBody captures body) q e) ∨
      head.isStrict = true ∧ ∃ r q, OperandsRun captures xs p r q ∧ r.failed = none ∧
        ∃ m, e = .unresolved m ∧ Stops (head.apply r.values) q.heap (.unresolved m) := by
  rcases head_cases head with hh | hh | ⟨decisive, hh⟩ | ⟨type, rfl⟩ | ⟨var, rfl⟩
  · rw [evaluate_inert hh] at h
    exact absurd h stops_pure
  · rcases (stops_strict hh).mp h with h | h
    · exact Or.inl ⟨hh, h⟩
    · exact Or.inr (Or.inr ⟨hh, h⟩)
  · rw [evaluate_chain hh] at h
    obtain ⟨before, body, after, ts, q, rfl, hturn, hvalues, hbody⟩ := stops_evaluateChain.mp h
    exact Or.inr (Or.inl ⟨body, q, .chained hh hturn hvalues, hbody⟩)
  · rw [evaluate] at h
    by_cases hlength : bodies.length = 3
    · obtain ⟨c, yes, no, rfl⟩ := List.length_eq_three.mp hlength
      rcases stops_evaluateChoice.mp h with hc | ⟨test, q, b, htest, hv, harm⟩
      · exact Or.inr (Or.inl ⟨c, p, .condition, hc⟩)
      · exact Or.inr (Or.inl ⟨_, q, .arm htest hv, harm⟩)
    · rw [evaluateChoice] at h
      · exact absurd h stops_pure
      · rintro c yes no rfl
        exact hlength rfl
  · rw [evaluate, loadVariable] at h
    split at h
    · exact absurd ((stops_bind_of_total fun _ _ => stops_pure).mp h) stops_get
    · exact absurd h stops_pure

/-! ### The nodes of what evaluation comes to -/

lemma OperandsRun.exists_node {before after : List Operand} {ts : List Trace} {r : Evaluated}
    (h : OperandsRun captures (before ++ x :: after) p r p') (hturn : InTurn (evaluateOperand captures) before p ts q)
    (hvalues : ∀ t ∈ ts, t.hasValue = true) : ∃ n ∈ r.nodes, ∃ q', Gives (evaluateOperand captures x) q n q' := by
  induction hturn generalizing r with
  | nil =>
    cases h with
    | failed hx => exact ⟨_, List.mem_cons_self, _, hx⟩
    | next hx => exact ⟨_, List.mem_cons_self, _, hx⟩
  | cons hy _ ih =>
    obtain ⟨hvalue, hvalues⟩ := List.forall_mem_cons.mp hvalues
    cases h with
    | failed hy' hv =>
      obtain ⟨rfl, -⟩ := hy.unique hy'
      simp [Trace.hasValue, hv] at hvalue
    | next hy' _ hrest =>
      obtain ⟨-, rfl⟩ := hy.unique hy'
      obtain ⟨n, hn, hx⟩ := ih hrest hvalues
      exact ⟨n, List.mem_cons_of_mem _ hn, hx⟩

lemma ChainRun.exists_node {decisive : Bool} {before after : List Body} {ts us : List Trace} {o : Outcome}
    (h : ChainRun captures decisive (before ++ body :: after) p us o p')
    (hturn : InTurn (evaluateBody captures) before p ts q) (hvalues : ∀ t ∈ ts, t.value? = some (.bool !decisive)) :
    ∃ n ∈ us, ∃ q', Gives (evaluateBody captures body) q n q' := by
  induction hturn generalizing us with
  | nil =>
    cases h with
    | failed hb | decided hb | untrue hb | next hb => exact ⟨_, List.mem_cons_self, _, hb⟩
  | cons hfirst _ ih =>
    obtain ⟨hvalue, hvalues⟩ := List.forall_mem_cons.mp hvalues
    cases h with
    | failed hfirst' hv =>
      obtain ⟨rfl, -⟩ := hfirst.unique hfirst'
      simp [hv] at hvalue
    | decided hfirst' hv =>
      obtain ⟨rfl, -⟩ := hfirst.unique hfirst'
      simp [hv] at hvalue
    | untrue hfirst' hv hbool =>
      obtain ⟨rfl, -⟩ := hfirst.unique hfirst'
      exact absurd (Option.some.inj (hv.symm.trans hvalue)) (hbool _)
    | next hfirst' _ hrest =>
      obtain ⟨-, rfl⟩ := hfirst.unique hfirst'
      obtain ⟨n, hn, hbody⟩ := ih hrest hvalues
      exact ⟨n, List.mem_cons_of_mem _ hn, hbody⟩

lemma Opens.exists_node {ts : List Trace} {o : Outcome} (h : Opens captures op p body q)
    (hrun : OpRun captures op p ts o p') : ∃ n ∈ ts, ∃ q', Gives (evaluateBody captures body) q n q' := by
  cases h with
  | chained hchain hturn hvalues => exact ((opRun_chain hchain).mp hrun).exists_node hturn hvalues
  | condition =>
    cases opRun_choice.mp hrun with
    | failed hc | untrue hc | chosen hc => exact ⟨_, List.mem_cons_self, _, hc⟩
    | malformed _ hlength => exact absurd rfl hlength
  | arm htest hvalue =>
    cases opRun_choice.mp hrun with
    | failed hc hv =>
      obtain ⟨rfl, -⟩ := htest.unique hc
      simp [hv] at hvalue
    | untrue hc hv hbool =>
      obtain ⟨rfl, -⟩ := htest.unique hc
      exact absurd (Option.some.inj (hv.symm.trans hvalue)) (hbool _)
    | chosen hc hv harm =>
      obtain ⟨rfl, rfl⟩ := htest.unique hc
      obtain rfl := Value.bool.inj (Option.some.inj (hv.symm.trans hvalue))
      exact ⟨_, by simp, _, harm⟩
    | malformed _ hlength => exact absurd rfl hlength

/-- Whatever evaluation comes to has its node in the trace. -/
lemma Visits.exists_node {t : Trace} (h : Visits captures x p y q) (ht : Gives (evaluateOperand captures x) p t p') :
    ∃ n ∈ t.nodes, ∃ q', Gives (evaluateOperand captures y) q n q' := by
  induction h generalizing t p' with
  | here => exact ⟨t, Trace.mem_nodes_self t, p', ht⟩
  | operand hstrict hturn hvalues _ ih =>
    rw [evaluateOperand, evaluate_gives] at ht
    obtain ⟨ts, o, rfl, hrun⟩ := ht
    obtain ⟨r, r', hr, rfl, -⟩ := (opRun_strict hstrict).mp hrun
    obtain ⟨c, hc, q', hx⟩ := hr.exists_node hturn hvalues
    obtain ⟨n, hn, hy⟩ := ih hx
    exact ⟨n, Trace.mem_nodes_of_child hc hn, hy⟩
  | body hopens hyield _ ih =>
    rw [evaluateOperand, evaluate_gives] at ht
    obtain ⟨ts, o, rfl, hrun⟩ := ht
    obtain ⟨c, hc, q', hbody⟩ := hopens.exists_node hrun
    obtain ⟨n, hn, hy⟩ := ih (gives_of_yielded hyield hbody)
    exact ⟨n, Trace.mem_nodes_of_child hc hn, hy⟩

/-- The node of a body that evaluation comes to is in the trace as well. -/
lemma Visits.exists_node_of_opens {t : Trace} {r : Progress} (h : Visits captures x p (.op op) q)
    (hopens : Opens captures op q body r) (ht : Gives (evaluateOperand captures x) p t p') :
    ∃ n ∈ t.nodes, ∃ r', Gives (evaluateBody captures body) r n r' := by
  obtain ⟨m, hm, q', hop⟩ := h.exists_node ht
  rw [evaluateOperand, evaluate_gives] at hop
  obtain ⟨ts, o, rfl, hrun⟩ := hop
  obtain ⟨n, hn, hbody⟩ := hopens.exists_node hrun
  exact ⟨n, Trace.mem_nodes_trans hm (Trace.mem_nodes_of_child hn (Trace.mem_nodes_self n)), hbody⟩

end Evaluation

end PredicateTrace
