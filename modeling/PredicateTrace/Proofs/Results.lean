import PredicateTrace.Proofs.PrimitiveOps

/-!
# Results without traces

The outcome of an operand, apart from the trace that it is read off. An op that calls nothing in the host has
an outcome that depends on the outcomes of its parts only, whatever these are, and so have the effects of its
evaluation: two trees with the same results at their leaves have the same result.
-/

namespace PredicateTrace.Evaluation

variable {captures : Captures} {head : Head} {x y z : Operand}

def result (captures : Captures) (x : Operand) : Evaluating Outcome :=
  Trace.outcome <$> evaluateOperand captures x

def bodyResult (captures : Captures) (body : Body) : Evaluating Outcome :=
  Trace.outcome <$> evaluateBody captures body

/-- What is done with the value of an outcome. Without a value the outcome is handed on. -/
def onValue (o : Outcome) (next : Value → Evaluating Outcome) : Evaluating Outcome :=
  match o with
  | .value v => next v
  | o => return o

/-- The result of a short-circuit operator by those of its bodies. -/
def chainResult (decisive : Bool) : List (Evaluating Outcome) → Evaluating Outcome
  | [] => return .value (.bool !decisive)
  | first :: rest => do
    onValue (← first) fun
      | .bool b => if b = decisive then return .value (.bool decisive) else chainResult decisive rest
      | _ => return .unsupported

/-- The result of a conditional by those of its arms and the value of its condition. -/
def choiceResult (yes no : Evaluating Outcome) : Value → Evaluating Outcome
  | .bool b => if b then yes else no
  | _ => return .unsupported

lemma onValue_of_failed {t : Trace} (h : t.value? = none) (next : Value → Evaluating Outcome) :
    onValue t.outcome next = pure t.outcome := by
  rcases t with ⟨op, v | _ | _, children⟩
  · simp [Trace.value?, Trace.outcome, Outcome.value?] at h
  · rfl
  · rfl

lemma outcome_failing {op : Op} {children : List Trace} {last : Trace} (h : last.value? = none) :
    (Trace.failing op children last).outcome = last.outcome := by
  rw [Trace.failing_eq h]
  rfl

lemma bodyResult_of_yielded {body : Body} (h : body.yielded? = some x) :
    bodyResult captures body = result captures x := by
  rw [bodyResult, evaluateBody_of_yielded h, result]

/-! ### Ops on operands -/

lemma outcome_computed (hhost : head.isHostComputation = false) (xs : List Operand) (children : List Trace)
    (values : List Value) :
    Trace.outcome <$> computed (.of head xs) children values = outcomeOf (head.apply values) := by
  have hhead : (Op.of head xs).head = head := rfl
  unfold computed
  rw [hhead, hhost]
  simp [Trace.outcome]

lemma result_leaf (hstrict : head.isStrict = true) (hhost : head.isHostComputation = false) :
    result captures (.op (.leaf head)) = outcomeOf (head.apply []) := by
  have hop : evaluate captures (.leaf head) = computed (.of head []) [] [] := by
    rw [Op.leaf, evaluate_strict hstrict, evaluateOperands, pure_bind]
    rfl
  rw [result, evaluateOperand, hop, outcome_computed hhost]

lemma result_one (hstrict : head.isStrict = true) (hhost : head.isHostComputation = false) :
    result captures (.op (.of head [x])) =
      result captures x >>= fun o => onValue o fun a => outcomeOf (head.apply [a]) := by
  unfold result
  rw [evaluateOperand, Op.of, evaluate_strict hstrict]
  simp only [evaluateOperands, bind_assoc, map_bind, bind_map_left]
  refine bind_congr fun t => ?_
  cases hv : t.value? with
  | none => simp [finish, outcome_failing hv, onValue_of_failed hv]
  | some a =>
    rw [Trace.value?_eq_some.mp hv]
    simp only [pure_bind, finish, onValue]
    exact outcome_computed hhost [x] [t] [a]

/-- The second operand is evaluated only if the first one has a value. -/
lemma result_two (hstrict : head.isStrict = true) (hhost : head.isHostComputation = false) :
    result captures (.op (.of head [x, y])) = result captures x >>= fun o => onValue o fun a =>
      result captures y >>= fun o => onValue o fun b => outcomeOf (head.apply [a, b]) := by
  unfold result
  rw [evaluateOperand, Op.of, evaluate_strict hstrict]
  simp only [evaluateOperands, bind_assoc, map_bind, bind_map_left]
  refine bind_congr fun t => ?_
  cases hv : t.value? with
  | none => simp [finish, outcome_failing hv, onValue_of_failed hv]
  | some a =>
    rw [Trace.value?_eq_some.mp hv]
    simp only [onValue, bind_assoc]
    refine bind_congr fun u => ?_
    cases hw : u.value? with
    | none =>
      have hu := onValue_of_failed hw fun b => outcomeOf (head.apply [a, b])
      unfold onValue at hu
      simp [finish, outcome_failing hw, hu]
    | some b =>
      rw [Trace.value?_eq_some.mp hw]
      simp only [pure_bind, finish]
      exact outcome_computed hhost [x, y] [t, u] [a, b]

lemma result_varLoad {var : Var} {c : Capture} (hbound : captures.binding? var.name = some c) :
    result captures (.op (.leaf (.varLoad var))) = (fun p => .value (c.content p.heap)) <$> get := by
  rw [result, evaluateOperand, Op.leaf, evaluate, loadVariable, hbound]
  simp [Trace.outcome]

/-! ### Ops on bodies -/

lemma outcome_evaluateChain (op : Op) (decisive : Bool) (before : List Trace) (bodies : List Body) :
    Trace.outcome <$> evaluateChain captures op decisive before bodies =
      chainResult decisive (bodies.map (bodyResult captures)) := by
  induction bodies generalizing before with
  | nil => simp [evaluateChain, chainResult, Trace.outcome]
  | cons body rest ih =>
    simp only [evaluateChain, List.map_cons, chainResult, bodyResult, map_bind, bind_map_left]
    refine bind_congr fun t => ?_
    cases hv : t.value? with
    | none => simp [outcome_failing hv, onValue_of_failed hv]
    | some v =>
      rw [Trace.value?_eq_some.mp hv]
      cases v with
      | bool b =>
        by_cases hb : b = decisive
        · simp [onValue, hb, Trace.outcome]
        · simpa [onValue, hb] using ih _
      | _ => simp [onValue, Trace.outcome]

lemma result_chain {decisive : Bool} (hd : head.decisive? = some decisive) (bodies : List Body) :
    result captures (.op (.mk head [] bodies)) = chainResult decisive (bodies.map (bodyResult captures)) := by
  rw [result, evaluateOperand, evaluate_chain hd, outcome_evaluateChain]

lemma result_ternary {type : TypeRef} {c yes no : Body} (hc : c.yielded? = some x) (hyes : yes.yielded? = some y)
    (hno : no.yielded? = some z) :
    result captures (.op (.mk (.ternary type) [] [c, yes, no])) =
      result captures x >>= fun o => onValue o (choiceResult (result captures y) (result captures z)) := by
  unfold result
  rw [evaluateOperand, evaluate, evaluateChoice]
  simp only [evaluateBody_of_yielded hc, evaluateBody_of_yielded hyes, evaluateBody_of_yielded hno, map_bind,
    bind_map_left]
  refine bind_congr fun t => ?_
  cases hv : t.value? with
  | none => simp [outcome_failing hv, onValue_of_failed hv]
  | some v =>
    rw [Trace.value?_eq_some.mp hv]
    cases v with
    | bool b =>
      have harm {w : Operand} {next : Trace → Evaluating Trace}
          (hnext : ∀ arm, Trace.outcome <$> next arm = pure arm.outcome) :
          (evaluateOperand captures w >>= fun arm => Trace.outcome <$> next arm) =
            Trace.outcome <$> evaluateOperand captures w := by
        simp only [hnext, map_eq_pure_bind]
      cases b
      all_goals
        simp only [onValue, choiceResult, if_true, Bool.false_eq_true, if_false, map_bind]
        refine harm fun arm => ?_
        cases hw : arm.value? with
        | none => simp [outcome_failing hw]
        | some w =>
          rw [Trace.value?_eq_some.mp hw]
          rfl
    | _ => simp [onValue, choiceResult, Trace.outcome]

/-- A chain that begins with a chain of its kind has the result of both chains in one. -/
lemma chainResult_append (decisive : Bool) (first rest : List (Evaluating Outcome)) :
    chainResult decisive (first ++ rest) = chainResult decisive (chainResult decisive first :: rest) := by
  induction first with
  | nil => simp [chainResult, onValue]
  | cons r first ih =>
    simp only [List.cons_append, chainResult, bind_assoc]
    refine bind_congr fun o => ?_
    cases o with
    | value v =>
      cases v with
      | bool b =>
        by_cases hb : b = decisive
        · simp [onValue, hb]
        · simpa [onValue, hb, chainResult] using ih
      | _ => simp [onValue]
    | _ => simp [onValue]

/-- What comes after some operands of a chain can be replaced by what has the same result. -/
lemma chainResult_congr {decisive : Bool} (before : List (Evaluating Outcome)) {xs ys : List (Evaluating Outcome)}
    (h : chainResult decisive xs = chainResult decisive ys) :
    chainResult decisive (before ++ xs) = chainResult decisive (before ++ ys) := by
  induction before with
  | nil => exact h
  | cons r before ih => rw [List.cons_append, List.cons_append, chainResult, chainResult, ih]

/-! ### Numbers with signs -/

lemma outcomeOf_pure (v : Value) : outcomeOf (pure (some v)) = pure (.value v) :=
  rfl

lemma result_const {v : Value} {type : TypeRef} (hv : v.box = v) :
    result captures (.op (.leaf (.const v type))) = pure (.value v) := by
  rw [result_leaf rfl rfl]
  exact (congrArg (fun w => outcomeOf (pure (some w))) hv).trans (outcomeOf_pure v)

/-- A negative number is the opposite of a positive one. -/
lemma result_neg_const {kind : Host.IntKind} {n : Int} {t type : TypeRef}
    (hn : (Value.integral kind n).negate? = some (.integral kind (-n))) :
    result captures (.op (.of (.neg t) [.op (.leaf (.const (.integral kind n) type))])) =
      result captures (.op (.leaf (.const (.integral kind (-n)) type))) := by
  rw [result_one rfl rfl, result_const rfl, result_const rfl, pure_bind]
  exact (congrArg (fun r => outcomeOf (pure r)) hn).trans (outcomeOf_pure _)

/-! ### Results that are returned -/

/-- A computation with the given heap returns an outcome, whose value, if it has one, is of a kind. Nothing is
changed. -/
def Settles (heap : Host.Heap) (k : Primitive) (r : Evaluating Outcome) : Prop :=
  ∀ p : Progress, p.heap = heap → ∃ o, Gives r p o p ∧ ∀ v, o = .value v → v.kind? = some k

variable {heap : Host.Heap} {k q m : Primitive} {r r' r'' : Evaluating Outcome}

lemma settles_pure {o : Outcome} (ho : ∀ v, o = .value v → v.kind? = some k) : Settles heap k (pure o) :=
  fun _ _ => ⟨o, gives_pure.mpr ⟨rfl, rfl⟩, ho⟩

lemma settles_answer {values : List Value} {o : Outcome} (h : Answers head values o)
    (ho : ∀ v, o = .value v → v.kind? = some k) : Settles heap k (outcomeOf (head.apply values)) :=
  fun p _ => ⟨o, h p, ho⟩

lemma Settles.onValue {next : Value → Evaluating Outcome} (h : Settles heap q r)
    (hnext : ∀ v, v.kind? = some q → Settles heap k (next v)) :
    Settles heap k (r >>= fun o => onValue o next) := by
  intro p hp
  obtain ⟨o, hr, ho⟩ := h p hp
  cases o with
  | value v =>
    obtain ⟨o, hgives, hkind⟩ := hnext v (ho v rfl) p hp
    exact ⟨o, gives_bind.mpr ⟨_, _, hr, hgives⟩, hkind⟩
  | threw e => exact ⟨.threw e, gives_bind.mpr ⟨_, _, hr, gives_pure.mpr ⟨rfl, rfl⟩⟩, by simp⟩
  | unsupported => exact ⟨.unsupported, gives_bind.mpr ⟨_, _, hr, gives_pure.mpr ⟨rfl, rfl⟩⟩, by simp⟩

lemma settles_varLoad {var : Var} {c : Capture} (hbound : captures.binding? var.name = some c)
    (hc : (c.content heap).kind? = some k) : Settles heap k (result captures (.op (.leaf (.varLoad var)))) := by
  rintro p rfl
  refine ⟨.value (c.content p.heap), ?_, fun v hv => Outcome.value.inj hv ▸ hc⟩
  rw [result_varLoad hbound, map_eq_pure_bind]
  exact gives_bind.mpr ⟨p, p, gives_get.mpr ⟨rfl, rfl⟩, gives_pure.mpr ⟨rfl, rfl⟩⟩

lemma settles_chainResult (decisive : Bool) {rs : List (Evaluating Outcome)}
    (h : ∀ r ∈ rs, Settles heap .boolean r) : Settles heap .boolean (chainResult decisive rs) := by
  induction rs with
  | nil => exact settles_pure (by rintro v ⟨⟩; rfl)
  | cons r rs ih =>
    obtain ⟨hr, hrs⟩ := List.forall_mem_cons.mp h
    refine hr.onValue fun v hv => ?_
    obtain ⟨b, rfl⟩ := Value.kind_boolean hv
    dsimp only
    split
    · exact settles_pure (by rintro v ⟨⟩; rfl)
    · exact ih hrs

lemma settles_choiceResult (hyes : Settles heap k r) (hno : Settles heap k r') {v : Value}
    (hv : v.kind? = some .boolean) : Settles heap k (choiceResult r r' v) := by
  obtain ⟨b, rfl⟩ := Value.kind_boolean hv
  cases b
  · exact hno
  · exact hyes

end PredicateTrace.Evaluation
