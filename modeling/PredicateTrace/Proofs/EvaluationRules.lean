import Mathlib.Data.List.Basic
import PredicateTrace.Proofs.Running
import PredicateTrace.Proofs.TraceNodes

/-!
# Evaluation by rules

Evaluation as relations between an op, the state of the host before, the children and the outcome of its
node, and the state afterwards. `evaluate_gives` says that they describe the evaluator exactly; what is
known about evaluation is read off the rules.
-/

namespace PredicateTrace

namespace Head

/-- The truth value at which a short-circuit operator stops. -/
def decisive? : Head → Option Bool
  | .condAnd => some false
  | .condOr => some true
  | _ => none

/-- Whether an op has no evaluation at all. -/
def isInert : Head → Bool
  | .varStore _ | .ret | .yield | .lambda | .bare => true
  | _ => false

/-- Whether an op is evaluated after all its operands. -/
def isStrict : Head → Bool
  | .varLoad _ | .condAnd | .condOr | .ternary _ => false
  | head => !head.isInert

end Head

/-- The value that a body yields, if it has the form of one block that ends in a `yield`. -/
def Body.yielded? : Body → Option Operand
  | .mk [.ending _ _ (.mk .yield [value] _)] => some value
  | _ => none

namespace Evaluation

variable {captures : Captures}

/-- Operands evaluated from left to right, up to the first one without a value. -/
inductive OperandsRun (captures : Captures) : List Operand → Progress → Evaluated → Progress → Prop
  | nil (p : Progress) : OperandsRun captures [] p ⟨[], [], none⟩ p
  | failed {x rest p t p'} (hx : Gives (evaluateOperand captures x) p t p') (hv : t.value? = none) :
      OperandsRun captures (x :: rest) p ⟨[t], [], some t⟩ p'
  | next {x rest p t v p' others p''} (hx : Gives (evaluateOperand captures x) p t p')
      (hv : t.value? = some v) (hrest : OperandsRun captures rest p' others p'') :
      OperandsRun captures (x :: rest) p ⟨t :: others.nodes, v :: others.values, others.failed⟩ p''

/-- Bodies of a short-circuit operator evaluated up to the first one that decides or fails. -/
inductive ChainRun (captures : Captures) (decisive : Bool) :
    List Body → Progress → List Trace → Outcome → Progress → Prop
  | exhausted (p : Progress) : ChainRun captures decisive [] p [] (.value (.bool !decisive)) p
  | failed {body rest p t p'} (hb : Gives (evaluateBody captures body) p t p') (hv : t.value? = none) :
      ChainRun captures decisive (body :: rest) p [t] t.outcome p'
  | decided {body rest p t p'} (hb : Gives (evaluateBody captures body) p t p')
      (hv : t.value? = some (.bool decisive)) :
      ChainRun captures decisive (body :: rest) p [t] (.value (.bool decisive)) p'
  | untrue {body rest p t v p'} (hb : Gives (evaluateBody captures body) p t p')
      (hv : t.value? = some v) (hbool : ∀ b, v ≠ .bool b) :
      ChainRun captures decisive (body :: rest) p [t] .unsupported p'
  | next {body rest p t p' ts o p''} (hb : Gives (evaluateBody captures body) p t p')
      (hv : t.value? = some (.bool !decisive)) (hrest : ChainRun captures decisive rest p' ts o p'') :
      ChainRun captures decisive (body :: rest) p (t :: ts) o p''

/-- The condition of a conditional and the arm that it chooses. -/
inductive ChoiceRun (captures : Captures) : List Body → Progress → List Trace → Outcome → Progress → Prop
  | failed {c yes no p test p'} (hc : Gives (evaluateBody captures c) p test p')
      (hv : test.value? = none) : ChoiceRun captures [c, yes, no] p [test] test.outcome p'
  | untrue {c yes no p test v p'} (hc : Gives (evaluateBody captures c) p test p')
      (hv : test.value? = some v) (hbool : ∀ b, v ≠ .bool b) :
      ChoiceRun captures [c, yes, no] p [test] .unsupported p'
  | chosen {c yes no p test b p' arm p''} (hc : Gives (evaluateBody captures c) p test p')
      (hv : test.value? = some (.bool b))
      (harm : Gives (evaluateBody captures (if b then yes else no)) p' arm p'') :
      ChoiceRun captures [c, yes, no] p [test, arm] arm.outcome p''
  | malformed {bodies} (p : Progress) (hlen : bodies.length ≠ 3) :
      ChoiceRun captures bodies p [] .unsupported p

/-- The state after an op was noted, if it is one that the host computes. -/
def noted (op : Op) (p : Progress) : Progress :=
  if op.head.isHostComputation then { p with journal := p.journal ++ [op] } else p

/-- The evaluation of an op: the children and the outcome of its node. -/
inductive OpRun (captures : Captures) : Op → Progress → List Trace → Outcome → Progress → Prop
  | bound {var xs bodies capture} (p : Progress) (hb : captures.binding? var.name = some capture) :
      OpRun captures (.mk (.varLoad var) xs bodies) p [] (.value (capture.content p.heap)) p
  | unbound {var xs bodies} (p : Progress) (hb : captures.binding? var.name = none) :
      OpRun captures (.mk (.varLoad var) xs bodies) p [] .unsupported p
  | inert {head xs bodies} (p : Progress) (hh : head.isInert = true) :
      OpRun captures (.mk head xs bodies) p [] .unsupported p
  | failed {head xs bodies p r last p'} (hh : head.isStrict = true) (hr : OperandsRun captures xs p r p')
      (hf : r.failed = some last) : OpRun captures (.mk head xs bodies) p r.nodes last.outcome p'
  | computed {head xs bodies p r o p' p''} (hh : head.isStrict = true)
      (hr : OperandsRun captures xs p r p') (hf : r.failed = none)
      (ho : Gives (outcomeOf (head.apply r.values)) (noted (.mk head xs bodies) p') o p'') :
      OpRun captures (.mk head xs bodies) p r.nodes o p''
  | chain {head decisive xs bodies p ts o p'} (hh : head.decisive? = some decisive)
      (hc : ChainRun captures decisive bodies p ts o p') : OpRun captures (.mk head xs bodies) p ts o p'
  | choice {type xs bodies p ts o p'} (hc : ChoiceRun captures bodies p ts o p') :
      OpRun captures (.mk (.ternary type) xs bodies) p ts o p'

/-! ### The rules describe the evaluator -/

lemma OperandsRun.last_fails {xs : List Operand} {p p' : Progress} {r : Evaluated}
    (h : OperandsRun captures xs p r p') {last : Trace} (hf : r.failed = some last) :
    last.value? = none := by
  induction h with
  | nil => simp at hf
  | failed _ hv =>
    obtain rfl := Option.some.inj hf
    exact hv
  | next _ _ _ ih => exact ih hf

lemma computed_gives {op : Op} {children : List Trace} {values : List Value} {p p' : Progress} {t : Trace} :
    Gives (computed op children values) p t p' ↔
      ∃ o, t = .node op o children ∧ Gives (outcomeOf (op.head.apply values)) (noted op p) o p' := by
  unfold computed noted
  split
  · simp only [gives_bind, gives_modify, gives_pure]
    constructor
    · rintro ⟨_, _, rfl, o, _, ho, rfl, rfl⟩
      exact ⟨o, rfl, ho⟩
    · rintro ⟨o, rfl, ho⟩
      exact ⟨⟨⟩, _, rfl, o, _, ho, rfl, rfl⟩
  · simp only [gives_bind, gives_pure]
    constructor
    · rintro ⟨o, _, ho, rfl, rfl⟩
      exact ⟨o, rfl, ho⟩
    · rintro ⟨o, rfl, ho⟩
      exact ⟨o, _, ho, rfl, rfl⟩

lemma evaluateOperands_gives {xs : List Operand} {p p' : Progress} {r : Evaluated} :
    Gives (evaluateOperands captures xs) p r p' ↔ OperandsRun captures xs p r p' := by
  induction xs generalizing p r with
  | nil =>
    rw [evaluateOperands, gives_pure]
    constructor
    · rintro ⟨rfl, rfl⟩
      exact .nil _
    · rintro ⟨⟩
      exact ⟨rfl, rfl⟩
  | cons x rest ih =>
    rw [evaluateOperands, gives_bind]
    constructor
    · rintro ⟨t, q, hx, hr⟩
      cases hv : t.value? with
      | none =>
        simp only [hv, gives_pure] at hr
        obtain ⟨rfl, rfl⟩ := hr
        exact .failed hx hv
      | some v =>
        simp only [hv, gives_bind, gives_pure] at hr
        obtain ⟨others, q', hrest, rfl, rfl⟩ := hr
        exact .next hx hv (ih.mp hrest)
    · intro hr
      cases hr with
      | failed hx hv => exact ⟨_, _, hx, by simp [hv]⟩
      | next hx hv hrest =>
        refine ⟨_, _, hx, ?_⟩
        simp only [hv, gives_bind, gives_pure]
        exact ⟨_, _, ih.mpr hrest, rfl, rfl⟩

lemma evaluateChain_gives {op : Op} {decisive : Bool} {before : List Trace} {bodies : List Body}
    {p p' : Progress} {t : Trace} :
    Gives (evaluateChain captures op decisive before bodies) p t p' ↔
      ∃ ts o, t = .node op o (before ++ ts) ∧ ChainRun captures decisive bodies p ts o p' := by
  induction bodies generalizing p before with
  | nil =>
    rw [evaluateChain, gives_pure]
    constructor
    · rintro ⟨rfl, rfl⟩
      exact ⟨[], _, by simp, .exhausted _⟩
    · rintro ⟨ts, o, rfl, ⟨⟩⟩
      simp
  | cons body rest ih =>
    rw [evaluateChain, gives_bind]
    constructor
    · rintro ⟨first, q, hb, hr⟩
      cases hv : first.value? with
      | none =>
        simp only [hv, gives_pure, Trace.failing_eq hv] at hr
        obtain ⟨rfl, rfl⟩ := hr
        exact ⟨[first], _, rfl, .failed hb hv⟩
      | some v =>
        by_cases hbool : ∃ b, v = .bool b
        · obtain ⟨b, rfl⟩ := hbool
          by_cases hd : b = decisive
          · subst hd
            simp only [hv, if_true, gives_pure] at hr
            obtain ⟨rfl, rfl⟩ := hr
            exact ⟨[first], _, rfl, .decided hb hv⟩
          · simp only [hv, if_neg hd, ih] at hr
            obtain ⟨ts, o, rfl, hrest⟩ := hr
            have hb' : b = !decisive := by cases b <;> cases decisive <;> simp_all
            subst hb'
            exact ⟨first :: ts, o, by simp, .next hb hv hrest⟩
        · have hne : ∀ b, v ≠ .bool b := fun b hb => hbool ⟨b, hb⟩
          have hr' : Gives (pure (Trace.node op .unsupported (before ++ [first])) : Evaluating Trace)
              q t p' := by
            simp only [hv] at hr
            cases v <;> first | exact absurd rfl (hne _) | exact hr
          obtain ⟨rfl, rfl⟩ := gives_pure.mp hr'
          exact ⟨[first], _, rfl, .untrue hb hv hne⟩
    · rintro ⟨ts, o, rfl, hr⟩
      cases hr with
      | failed hb hv => exact ⟨_, _, hb, by simp [hv, Trace.failing_eq hv]⟩
      | decided hb hv => exact ⟨_, _, hb, by simp [hv]⟩
      | @untrue _ _ _ first v _ hb hv hbool =>
        refine ⟨_, _, hb, ?_⟩
        simp only [hv]
        cases v <;> first | exact absurd rfl (hbool _) | simp
      | @next _ _ _ first _ ts o _ hb hv hrest =>
        refine ⟨_, _, hb, ?_⟩
        simp only [hv, Bool.not_eq_eq_eq_not, Bool.eq_not_self, if_false, ih]
        exact ⟨ts, o, by simp, hrest⟩

lemma evaluateChoice_gives {op : Op} {bodies : List Body} {p p' : Progress} {t : Trace} :
    Gives (evaluateChoice captures op bodies) p t p' ↔
      ∃ ts o, t = .node op o ts ∧ ChoiceRun captures bodies p ts o p' := by
  by_cases hlen : bodies.length = 3
  · obtain ⟨c, yes, no, rfl⟩ := List.length_eq_three.mp hlen
    have harms (b : Bool) (f : Trace → Evaluating Trace) :
        (if b = true then evaluateBody captures yes >>= f else evaluateBody captures no >>= f) =
          evaluateBody captures (if b then yes else no) >>= f := by
      cases b <;> rfl
    rw [evaluateChoice, gives_bind]
    constructor
    · rintro ⟨test, q, hc, hr⟩
      cases hv : test.value? with
      | none =>
        simp only [hv, gives_pure, Trace.failing_eq hv] at hr
        obtain ⟨rfl, rfl⟩ := hr
        exact ⟨[test], _, rfl, .failed hc hv⟩
      | some v =>
        by_cases hbool : ∃ b, v = .bool b
        · obtain ⟨b, rfl⟩ := hbool
          simp only [hv, harms, gives_bind] at hr
          obtain ⟨arm, q', harm, hr⟩ := hr
          refine ⟨[test, arm], arm.outcome, ?_⟩
          cases ha : arm.value? with
          | none =>
            simp only [ha, gives_pure, Trace.failing_eq ha] at hr
            obtain ⟨rfl, rfl⟩ := hr
            exact ⟨rfl, .chosen hc hv harm⟩
          | some w =>
            simp only [ha, gives_pure] at hr
            obtain ⟨rfl, rfl⟩ := hr
            rw [Trace.value?_eq_some.mp ha]
            exact ⟨rfl, Trace.value?_eq_some.mp ha ▸ .chosen hc hv harm⟩
        · have hne : ∀ b, v ≠ .bool b := fun b hb => hbool ⟨b, hb⟩
          have hr' : Gives (pure (Trace.node op .unsupported [test]) : Evaluating Trace) q t p' := by
            simp only [hv] at hr
            cases v <;> first | exact absurd rfl (hne _) | exact hr
          obtain ⟨rfl, rfl⟩ := gives_pure.mp hr'
          exact ⟨[test], _, rfl, .untrue hc hv hne⟩
    · rintro ⟨ts, o, rfl, hr⟩
      cases hr with
      | failed hc hv => exact ⟨_, _, hc, by simp [hv, Trace.failing_eq hv]⟩
      | @untrue _ _ _ _ test v _ hc hv hbool =>
        refine ⟨_, _, hc, ?_⟩
        simp only [hv]
        cases v <;> first | exact absurd rfl (hbool _) | simp
      | @chosen _ _ _ _ test b q arm _ hc hv harm =>
        refine ⟨_, _, hc, ?_⟩
        simp only [hv, harms, gives_bind]
        refine ⟨_, _, harm, ?_⟩
        cases ha : arm.value? with
        | none => simp [Trace.failing_eq ha]
        | some w => simp [Trace.value?_eq_some.mp ha]
      | malformed _ hne => exact absurd rfl hne
  · have hnone : evaluateChoice captures op bodies = pure (.node op .unsupported []) := by
      rw [evaluateChoice]
      rintro c yes no rfl
      exact hlen rfl
    rw [hnone, gives_pure]
    constructor
    · rintro ⟨rfl, rfl⟩
      exact ⟨[], _, rfl, .malformed _ hlen⟩
    · rintro ⟨ts, o, rfl, hr⟩
      cases hr with
      | malformed => exact ⟨rfl, rfl⟩
      | failed | untrue | chosen => exact absurd rfl hlen

/-! ### Each op by its own rule -/

section Rules

variable {head : Head} {xs : List Operand} {bodies : List Body} {p p' : Progress} {ts : List Trace}
  {o : Outcome}

lemma opRun_inert (hh : head.isInert = true) :
    OpRun captures (.mk head xs bodies) p ts o p' ↔ ts = [] ∧ o = .unsupported ∧ p' = p := by
  constructor
  · intro hr
    cases hr with
    | bound | unbound | choice => simp [Head.isInert] at hh
    | inert => exact ⟨rfl, rfl, rfl⟩
    | failed hs | computed hs => cases head <;> simp [Head.isStrict, Head.isInert] at hh hs
    | chain hd => cases head <;> simp [Head.decisive?, Head.isInert] at hh hd
  · rintro ⟨rfl, rfl, rfl⟩
    exact .inert _ hh

lemma opRun_strict (hh : head.isStrict = true) :
    OpRun captures (.mk head xs bodies) p ts o p' ↔
      ∃ r q, OperandsRun captures xs p r q ∧ ts = r.nodes ∧
        match r.failed with
        | some last => o = last.outcome ∧ p' = q
        | none => Gives (outcomeOf (head.apply r.values)) (noted (.mk head xs bodies) q) o p' := by
  constructor
  · intro hr
    cases hr with
    | bound | unbound | choice => simp [Head.isStrict] at hh
    | inert _ hi => cases head <;> simp [Head.isStrict, Head.isInert] at hh hi
    | chain hd => cases head <;> simp [Head.isStrict, Head.decisive?] at hh hd
    | failed _ hr hf => exact ⟨_, _, hr, rfl, by simp [hf]⟩
    | computed _ hr hf ho => exact ⟨_, _, hr, rfl, by simpa [hf] using ho⟩
  · rintro ⟨r, q, hr, rfl, ho⟩
    cases hf : r.failed with
    | some last =>
      simp only [hf] at ho
      obtain ⟨rfl, rfl⟩ := ho
      exact .failed hh hr hf
    | none =>
      simp only [hf] at ho
      exact .computed hh hr hf ho

lemma opRun_chain {decisive : Bool} (hh : head.decisive? = some decisive) :
    OpRun captures (.mk head xs bodies) p ts o p' ↔ ChainRun captures decisive bodies p ts o p' := by
  constructor
  · intro hr
    cases hr with
    | bound | unbound | choice => simp [Head.decisive?] at hh
    | inert _ hi => cases head <;> simp [Head.decisive?, Head.isInert] at hh hi
    | failed hs | computed hs => cases head <;> simp [Head.decisive?, Head.isStrict] at hh hs
    | chain hd hc =>
      obtain rfl := Option.some.inj (hh.symm.trans hd)
      exact hc
  · exact .chain hh

lemma opRun_choice {type : TypeRef} :
    OpRun captures (.mk (.ternary type) xs bodies) p ts o p' ↔ ChoiceRun captures bodies p ts o p' := by
  constructor
  · intro hr
    cases hr with
    | inert _ hh | failed hh | computed hh | chain hh =>
      simp [Head.isInert, Head.isStrict, Head.decisive?] at hh
    | choice hc => exact hc
  · exact .choice

lemma opRun_variable {var : Var} :
    OpRun captures (.mk (.varLoad var) xs bodies) p ts o p' ↔
      ts = [] ∧ p' = p ∧
        o = match captures.binding? var.name with
          | some capture => .value (capture.content p.heap)
          | none => .unsupported := by
  constructor
  · intro hr
    cases hr with
    | bound _ hb | unbound _ hb => simp [hb]
    | inert _ hh | failed hh | computed hh | chain hh =>
      simp [Head.isInert, Head.isStrict, Head.decisive?] at hh
  · rintro ⟨rfl, rfl, rfl⟩
    cases hb : captures.binding? var.name with
    | some capture => exact .bound _ hb
    | none => exact .unbound _ hb

end Rules

lemma evaluate_strict {head : Head} (hh : head.isStrict = true) (xs : List Operand) (bodies : List Body) :
    evaluate captures (.mk head xs bodies) =
      evaluateOperands captures xs >>= finish (.mk head xs bodies) := by
  cases head <;> first | (simp [Head.isStrict, Head.isInert] at hh; done) | (rw [evaluate] <;> simp)

lemma evaluate_inert {head : Head} (hh : head.isInert = true) (xs : List Operand) (bodies : List Body) :
    evaluate captures (.mk head xs bodies) = pure (.node (.mk head xs bodies) .unsupported []) := by
  cases head <;> first | (simp [Head.isInert] at hh; done) | rw [evaluate]

lemma evaluate_chain {head : Head} {decisive : Bool} (hh : head.decisive? = some decisive)
    (xs : List Operand) (bodies : List Body) :
    evaluate captures (.mk head xs bodies) =
      evaluateChain captures (.mk head xs bodies) decisive [] bodies := by
  cases head <;> simp [Head.decisive?] at hh <;> subst hh <;> rw [evaluate]

lemma head_cases (head : Head) :
    head.isInert = true ∨ head.isStrict = true ∨ (∃ decisive, head.decisive? = some decisive) ∨
      (∃ type, head = .ternary type) ∨ ∃ var, head = .varLoad var := by
  cases head <;> simp [Head.isInert, Head.isStrict, Head.decisive?]

/-- An op is evaluated by the rules, and its node is labelled with it. -/
theorem evaluate_gives {op : Op} {p p' : Progress} {t : Trace} :
    Gives (evaluate captures op) p t p' ↔ ∃ ts o, t = .node op o ts ∧ OpRun captures op p ts o p' := by
  rcases op with ⟨head, xs, bodies⟩
  rcases head_cases head with hh | hh | ⟨decisive, hh⟩ | ⟨type, rfl⟩ | ⟨var, rfl⟩
  · simp only [evaluate_inert hh, gives_pure, opRun_inert hh]
    constructor
    · rintro ⟨rfl, rfl⟩
      exact ⟨[], _, rfl, rfl, rfl, rfl⟩
    · rintro ⟨ts, o, rfl, rfl, rfl, rfl⟩
      exact ⟨rfl, rfl⟩
  · simp only [evaluate_strict hh, gives_bind, evaluateOperands_gives, opRun_strict hh]
    constructor
    · rintro ⟨r, q, hr, hf⟩
      cases hlast : r.failed with
      | some last =>
        simp only [finish, hlast, gives_pure, Trace.failing_eq (hr.last_fails hlast)] at hf
        exact ⟨_, _, hf.1, r, q, hr, rfl, by simp [hlast, hf.2]⟩
      | none =>
        simp only [finish, hlast, computed_gives] at hf
        obtain ⟨o, rfl, ho⟩ := hf
        exact ⟨_, _, rfl, r, q, hr, rfl, by simpa [hlast, Op.head] using ho⟩
    · rintro ⟨ts, o, rfl, r, q, hr, rfl, ho⟩
      refine ⟨r, q, hr, ?_⟩
      cases hlast : r.failed with
      | some last =>
        simp only [hlast] at ho
        simp [finish, hlast, Trace.failing_eq (hr.last_fails hlast), ho]
      | none =>
        simp only [hlast] at ho
        simpa [finish, hlast, computed_gives, Op.head] using ho
  · simp only [evaluate_chain hh, evaluateChain_gives, opRun_chain hh, List.nil_append]
  · simp only [evaluate, evaluateChoice_gives, opRun_choice]
  · simp only [evaluate, loadVariable, opRun_variable]
    cases captures.binding? var.name with
    | none =>
      simp only [gives_pure]
      constructor
      · rintro ⟨rfl, rfl⟩
        exact ⟨[], _, rfl, rfl, rfl, rfl⟩
      · rintro ⟨ts, o, rfl, rfl, rfl, rfl⟩
        exact ⟨rfl, rfl⟩
    | some capture =>
      simp only [gives_bind, gives_get, gives_pure]
      constructor
      · rintro ⟨_, _, ⟨rfl, rfl⟩, rfl, rfl⟩
        exact ⟨[], _, rfl, rfl, rfl, rfl⟩
      · rintro ⟨ts, o, rfl, rfl, rfl, rfl⟩
        exact ⟨_, _, ⟨rfl, rfl⟩, rfl, rfl⟩

end Evaluation

end PredicateTrace
