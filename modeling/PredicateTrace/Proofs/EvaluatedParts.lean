import PredicateTrace.Proofs.EvaluationRules

/-!
# Evaluated parts

Which operands and bodies the children of a node are the traces of. The parts of an operand are itself, the
operands of its op and the values that its bodies yield, and the parts of these. Every node of a trace is
the trace of a part, or of a body that has no value to yield.
-/

namespace PredicateTrace

open Host (Heap)

/-- An operand is the other one, or occurs inside of it. -/
inductive Operand.Part : Operand → Operand → Prop
  | refl (x : Operand) : Part x x
  | operand {op x y} (hx : x ∈ op.operands) (hy : Part y x) : Part y (.op op)
  | yielded {op body x y} (hb : body ∈ op.bodies) (hx : body.yielded? = some x) (hy : Part y x) :
      Part y (.op op)

lemma Operand.Part.trans {x y z : Operand} (hxy : Part x y) (hyz : Part y z) : Part x z := by
  induction hyz with
  | refl => exact hxy
  | operand hmem _ ih => exact .operand hmem (ih hxy)
  | yielded hb hyield _ ih => exact .yielded hb hyield (ih hxy)

/-- Induction over an operand, through the operands of its op and the values that its bodies yield. -/
theorem Operand.induction_on_parts {P : Operand → Prop} (param : ∀ param, P (.param param))
    (op : ∀ op : Op, (∀ x ∈ op.operands, P x) →
      (∀ body ∈ op.bodies, ∀ x, body.yielded? = some x → P x) → P (.op op)) (x : Operand) : P x := by
  rcases x with ⟨head, operands, bodies⟩ | p
  · refine op _ (fun x hx => ?_) fun body hb x hx => ?_
    · have hsize : sizeOf x < sizeOf operands := List.sizeOf_lt_of_mem hx
      exact induction_on_parts param op x
    · have hsize : sizeOf body < sizeOf bodies := List.sizeOf_lt_of_mem hb
      have hyield : sizeOf x < sizeOf body := by
        unfold Body.yielded? at hx
        split at hx <;> simp_all
        omega
      exact induction_on_parts param op x
  · exact param p
termination_by sizeOf x
decreasing_by all_goals simp; omega

namespace Evaluation

variable {captures : Captures}

/-- Parts evaluated one after the other, each from the state that the one before it left. -/
inductive InTurn {α : Type} (evaluate : α → Evaluating Trace) :
    List α → Progress → List Trace → Progress → Prop
  | nil (p : Progress) : InTurn evaluate [] p [] p
  | cons {x xs p t p' ts p''} (hx : Gives (evaluate x) p t p') (hxs : InTurn evaluate xs p' ts p'') :
      InTurn evaluate (x :: xs) p (t :: ts) p''

lemma InTurn.singleton {α : Type} {evaluate : α → Evaluating Trace} {x : α} {p p' : Progress} {t : Trace}
    (hx : Gives (evaluate x) p t p') : InTurn evaluate [x] p [t] p' :=
  .cons hx (.nil _)

lemma InTurn.exists_of_mem {α : Type} {evaluate : α → Evaluating Trace} {xs : List α}
    {p p' : Progress} {ts : List Trace} (h : InTurn evaluate xs p ts p') {t : Trace} (ht : t ∈ ts) :
    ∃ x ∈ xs, ∃ q q', Gives (evaluate x) q t q' := by
  induction h with
  | nil => simp at ht
  | cons hx _ ih =>
    rcases List.mem_cons.mp ht with rfl | ht
    · exact ⟨_, List.mem_cons_self, _, _, hx⟩
    · obtain ⟨y, hy, hg⟩ := ih ht
      exact ⟨y, List.mem_cons_of_mem _ hy, hg⟩

/-- The operands that were evaluated are a prefix of all; it is a proper one only if the last of them has
no value. -/
lemma OperandsRun.inTurn {xs : List Operand} {p p' : Progress} {r : Evaluated}
    (h : OperandsRun captures xs p r p') :
    ∃ done rest, xs = done ++ rest ∧ InTurn (evaluateOperand captures) done p r.nodes p' ∧
      (r.failed = none → rest = [] ∧ ∀ t ∈ r.nodes, t.hasValue = true) ∧
      ∀ last, r.failed = some last →
        ∃ before, r.nodes = before ++ [last] ∧ ∀ t ∈ before, t.hasValue = true := by
  induction h with
  | nil p => exact ⟨[], [], rfl, .nil p, by simp⟩
  | @failed x rest _ t _ hx hv =>
    refine ⟨[x], rest, rfl, .singleton hx, by simp, ?_⟩
    rintro last hlast
    obtain rfl := Option.some.inj hlast
    exact ⟨[], rfl, by simp⟩
  | @next x _ _ t v _ others _ hx hv _ ih =>
    obtain ⟨done, rest, rfl, hturn, hall, hlast⟩ := ih
    have ht : t.hasValue = true := by simp [Trace.hasValue, hv]
    refine ⟨x :: done, rest, rfl, .cons hx hturn, ?_, ?_⟩
    · intro hf
      obtain ⟨hrest, hvalues⟩ := hall hf
      exact ⟨hrest, List.forall_mem_cons.mpr ⟨ht, hvalues⟩⟩
    · intro last hf
      obtain ⟨before, hnodes, hvalues⟩ := hlast last hf
      exact ⟨t :: before, by simp [hnodes], List.forall_mem_cons.mpr ⟨ht, hvalues⟩⟩

/-- The bodies that were evaluated are a prefix of all. All but the last of them have the truth value that
does not decide. If the last one has it as well then there are no further bodies and this is the outcome,
else the outcome is that of the last one or is unsupported. -/
lemma ChainRun.inTurn {decisive : Bool} {bodies : List Body} {p p' : Progress} {ts : List Trace}
    {o : Outcome} (h : ChainRun captures decisive bodies p ts o p') :
    ∃ done rest, bodies = done ++ rest ∧ InTurn (evaluateBody captures) done p ts p' ∧
      ((rest = [] ∧ (∀ t ∈ ts, t.value? = some (.bool !decisive)) ∧ o = .value (.bool !decisive)) ∨
        ∃ before last, ts = before ++ [last] ∧ (∀ t ∈ before, t.value? = some (.bool !decisive)) ∧
          ((last.value? = none ∧ o = last.outcome) ∨
            (last.value? = some (.bool decisive) ∧ o = .value (.bool decisive)) ∨
            ((∃ v, last.value? = some v ∧ ∀ b, v ≠ .bool b) ∧ o = .unsupported))) := by
  induction h with
  | exhausted p => exact ⟨[], [], rfl, .nil p, Or.inl ⟨rfl, by simp, rfl⟩⟩
  | @failed body rest _ t _ hb hv =>
    exact ⟨[body], rest, rfl, .singleton hb, Or.inr ⟨[], t, rfl, by simp, Or.inl ⟨hv, rfl⟩⟩⟩
  | @decided body rest _ t _ hb hv =>
    exact ⟨[body], rest, rfl, .singleton hb,
      Or.inr ⟨[], t, rfl, by simp, Or.inr (Or.inl ⟨hv, rfl⟩)⟩⟩
  | @untrue body rest _ t v _ hb hv hbool =>
    exact ⟨[body], rest, rfl, .singleton hb,
      Or.inr ⟨[], t, rfl, by simp, Or.inr (Or.inr ⟨⟨v, hv, hbool⟩, rfl⟩)⟩⟩
  | @next body _ _ t _ _ _ _ hb hv _ ih =>
    obtain ⟨done, rest, rfl, hturn, hend⟩ := ih
    refine ⟨body :: done, rest, rfl, .cons hb hturn, ?_⟩
    rcases hend with ⟨hrest, hall, ho⟩ | ⟨before, last, rfl, hall, hlast⟩
    · exact Or.inl ⟨hrest, List.forall_mem_cons.mpr ⟨hv, hall⟩, ho⟩
    · exact Or.inr ⟨t :: before, last, rfl, List.forall_mem_cons.mpr ⟨hv, hall⟩, hlast⟩

/-- The children of the node of an op are traces of its operands or of its bodies. -/
lemma OpRun.child {op : Op} {p p' : Progress} {ts : List Trace} {o : Outcome}
    (h : OpRun captures op p ts o p') {c : Trace} (hc : c ∈ ts) :
    (∃ x ∈ op.operands, ∃ q q', Gives (evaluateOperand captures x) q c q') ∨
      ∃ body ∈ op.bodies, ∃ q q', Gives (evaluateBody captures body) q c q' := by
  cases h with
  | bound | unbound | inert => simp at hc
  | failed _ hr | computed _ hr =>
    obtain ⟨done, rest, rfl, hturn, _⟩ := hr.inTurn
    obtain ⟨x, hx, hg⟩ := hturn.exists_of_mem hc
    exact Or.inl ⟨x, List.mem_append_left _ hx, hg⟩
  | chain _ hr =>
    obtain ⟨done, rest, rfl, hturn, _⟩ := hr.inTurn
    obtain ⟨body, hb, hg⟩ := hturn.exists_of_mem hc
    exact Or.inr ⟨body, List.mem_append_left _ hb, hg⟩
  | choice hr =>
    cases hr with
    | failed ht | untrue ht =>
      obtain rfl := List.mem_singleton.mp hc
      exact Or.inr ⟨_, List.mem_cons_self, _, _, ht⟩
    | @chosen c' yes no _ test b _ arm _ ht _ harm =>
      rcases List.mem_pair.mp hc with rfl | rfl
      · exact Or.inr ⟨_, List.mem_cons_self, _, _, ht⟩
      · refine Or.inr ⟨if b then yes else no, ?_, _, _, harm⟩
        cases b <;> simp [Op.bodies]
    | malformed => simp at hc

lemma evaluateOperand_gives {x : Operand} {p p' : Progress} {t : Trace}
    (h : Gives (evaluateOperand captures x) p t p') :
    (∃ op o ts, x = .op op ∧ t = .node op o ts ∧ OpRun captures op p ts o p') ∨
      ∃ param, x = .param param ∧ t = loadParameter captures param ∧ p' = p := by
  cases x with
  | op op =>
    rw [evaluateOperand, evaluate_gives] at h
    obtain ⟨ts, o, rfl, hr⟩ := h
    exact Or.inl ⟨op, o, ts, rfl, rfl, hr⟩
  | param param =>
    rw [evaluateOperand, gives_pure] at h
    exact Or.inr ⟨param, rfl, h⟩

lemma exists_loadParameter_eq (captures : Captures) (param : Parameter) :
    ∃ v o, loadParameter captures param = .node (.leaf (.this param v)) o [] := by
  unfold loadParameter
  split <;> exact ⟨_, _, rfl⟩

lemma loadParameter_children (captures : Captures) (param : Parameter) :
    (loadParameter captures param).children = [] := by
  obtain ⟨v, o, hload⟩ := exists_loadParameter_eq captures param
  rw [hload]
  rfl

/-- A body gives the trace of the value that it yields, or an unsupported node without children. -/
lemma evaluateBody_gives {body : Body} {p p' : Progress} {t : Trace}
    (h : Gives (evaluateBody captures body) p t p') :
    (∃ x, body.yielded? = some x ∧ Gives (evaluateOperand captures x) p t p') ∨
      body.yielded? = none ∧ t.outcome = .unsupported ∧ t.children = [] := by
  unfold Body.yielded?
  split
  · rw [evaluateBody] at h
    exact Or.inl ⟨_, rfl, h⟩
  · next hshape =>
    right
    rcases body with ⟨_ | ⟨_ | ⟨params, earlier, terminator⟩, rest⟩⟩
    · rw [evaluateBody] at h
      exact absurd h gives_throw
    · rw [evaluateBody] at h
      exact absurd h gives_throw
    · rw [evaluateBody, gives_pure] at h
      · obtain ⟨rfl, -⟩ := h
        exact ⟨rfl, rfl, rfl⟩
      · rintro value bodies rfl rfl
        exact hshape _ _ _ _ rfl

lemma gives_of_yielded {body : Body} {x : Operand} {p p' : Progress} {t : Trace}
    (hx : body.yielded? = some x) (h : Gives (evaluateBody captures body) p t p') :
    Gives (evaluateOperand captures x) p t p' := by
  rcases evaluateBody_gives h with ⟨y, hy, hg⟩ | ⟨hnone, _⟩
  · obtain rfl := Option.some.inj (hx.symm.trans hy)
    exact hg
  · simp [hx] at hnone

/-- Where a node of the trace of an operand comes from. -/
inductive Origin (captures : Captures) (x : Operand) (n : Trace) : Prop
  | part {y p p'} (hy : Operand.Part y x) (hg : Gives (evaluateOperand captures y) p n p')
  | malformed {op body p p'} (hop : Operand.Part (.op op) x) (hb : body ∈ op.bodies)
      (hnone : body.yielded? = none) (hg : Gives (evaluateBody captures body) p n p')

lemma Origin.of_part {x y : Operand} {n : Trace} (h : Origin captures x n)
    (lift : ∀ z, Operand.Part z x → Operand.Part z y) : Origin captures y n := by
  cases h with
  | part hy hg => exact .part (lift _ hy) hg
  | malformed hop hb hnone hg => exact .malformed (lift _ hop) hb hnone hg

/-- Every node of the trace of an operand is the trace of one of its parts, or of a body inside of it that
has no value to yield. -/
theorem node_origin {x : Operand} {p p' : Progress} {t : Trace}
    (h : Gives (evaluateOperand captures x) p t p') {n : Trace} (hn : n ∈ t.nodes) :
    Origin captures x n := by
  induction t using Trace.induction_on_children generalizing x p p' with
  | step t ih =>
    rcases Trace.mem_nodes.mp hn with rfl | ⟨c, hc, hnc⟩
    · exact .part (.refl x) h
    · rcases evaluateOperand_gives h with ⟨op, o, ts, rfl, rfl, hr⟩ | ⟨param, rfl, rfl, -⟩
      · rcases hr.child hc with ⟨y, hy, q, q', hg⟩ | ⟨body, hb, q, q', hg⟩
        · exact (ih c hc hg hnc).of_part fun z hz => .operand hy hz
        · rcases evaluateBody_gives hg with ⟨y, hy, hg⟩ | ⟨hnone, -, hleaf⟩
          · exact (ih c hc hg hnc).of_part fun z hz => .yielded hb hy hz
          · rw [Trace.nodes_eq, hleaf, Trace.nodesOf_nil, List.nil_append,
              List.mem_singleton] at hnc
            subst hnc
            exact .malformed (.refl _) hb hnone hg
      · rw [loadParameter_children] at hc
        simp at hc

end Evaluation

/-- A trace is that of the returned value, or an unsupported node without children. -/
lemma Quoted.evaluate_eq_ok {q : Quoted} {heap : Heap} {t : Trace} {p : Progress}
    (h : q.evaluate heap = (.ok t, p)) :
    (∃ x, q.returned? = some x ∧ Gives (Evaluation.evaluateOperand q.captures x) ⟨heap, []⟩ t p) ∨
      q.returned? = none ∧ t = .node q.op .unsupported [] ∧ p = ⟨heap, []⟩ := by
  have hroot : Gives (Evaluation.evaluateRoot q.captures q.op) ⟨heap, []⟩ t p := h
  unfold Evaluation.evaluateRoot at hroot
  split at hroot
  · exact absurd hroot gives_throw
  · next hop =>
    exact Or.inl ⟨_, by simp [Quoted.returned?, Quoted.entry?, hop], hroot⟩
  · next hempty hret =>
    obtain ⟨rfl, rfl⟩ := gives_pure.mp hroot
    refine Or.inr ⟨?_, rfl, rfl⟩
    unfold Quoted.returned? Quoted.entry?
    split
    · next hentry =>
      split at hentry
      · next hop =>
        obtain rfl := Option.some.inj hentry
        exact absurd hop (hret _ _ _ _ _)
      · simp at hentry
    · rfl

end PredicateTrace
