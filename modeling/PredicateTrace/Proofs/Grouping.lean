import Mathlib.Data.List.Forall2
import Mathlib.Data.List.Induction
import PredicateTrace.Proofs.Positions
import PredicateTrace.Proofs.Requoting

/-!
# Grouped operands

The operands of a short-circuit operator mean the same in every grouping. Operands that are grouped from the left
become the bodies of one op, others are nested; what is evaluated, and in which order, does not depend on it.
-/

namespace PredicateTrace

open Host (Heap)
open Evaluation (result bodyResult chainResult)

variable {scope : Scope} {heap : Heap} {op : BinaryOperator} {head : Head} {decisive : Bool} {e e' : Expr Position}
  {es es' : List (Expr Position)} {te te' : TypedExpr} {tes tes' : List TypedExpr} {p : Position} {note : Typing}

/-! ### Operands of an operator -/

/-- An expression that puts an operator between given operands, in any grouping and at any places. -/
inductive Grouped (op : BinaryOperator) : List (Expr Position) → Expr Position → Prop
  | operand {e e' : Expr Position} (hsame : e.bare = e'.bare) : Grouped op [e] e'
  | binary {p : Position} {es es' : List (Expr Position)} {left right : Expr Position} (hleft : Grouped op es left)
    (hright : Grouped op es' right) : Grouped op (es ++ es') (.binary p op left right)

namespace Expr

variable {α β : Type}

/-- The operands of an operator, as far as they are grouped from the left. -/
def spine (op : BinaryOperator) : Expr α → List (Expr α)
  | .binary note other left right =>
    if other = op then left.spine op ++ [right] else [.binary note other left right]
  | e => [e]

/-- Operands grouped from the left, each further one with the place of the operator before it. -/
def chain (op : BinaryOperator) (first : Expr α) (others : List (α × Expr α)) : Expr α :=
  others.foldl (fun left other => .binary other.1 op left other.2) first

lemma chain_concat (op : BinaryOperator) (first : Expr α) (others : List (α × Expr α)) (last : α × Expr α) :
    first.chain op (others ++ [last]) = .binary last.1 op (first.chain op others) last.2 := by
  simp [chain]

lemma spine_binary (note : α) (op : BinaryOperator) (left right : Expr α) :
    (binary note op left right).spine op = left.spine op ++ [right] :=
  if_pos rfl

lemma spine_chain (op : BinaryOperator) (first : Expr α) (others : List (α × Expr α)) :
    (first.chain op others).spine op = first.spine op ++ others.map Prod.snd := by
  induction others using List.reverseRecOn with
  | nil => simp [chain]
  | append_singleton others last ih => simp [chain_concat, spine_binary, ih]

lemma length_spine_bare (op : BinaryOperator) (e : Expr α) : (e.bare.spine op).length = (e.spine op).length := by
  fun_induction spine op e with
  | case1 note left right ih => simp [bare, spine_binary, ih]
  | case2 note other left right hother => simp [bare, spine, hother]
  | case3 e hbinary => cases e <;> first | rfl | exact absurd rfl (hbinary _ _ _ _)

end Expr

lemma grouped_chain (op : BinaryOperator) (first : Expr Position) (others : List (Position × Expr Position)) :
    Grouped op (first :: others.map Prod.snd) (first.chain op others) := by
  induction others using List.reverseRecOn with
  | nil => exact .operand rfl
  | append_singleton others last ih =>
    rw [Expr.chain_concat, List.map_append, ← List.cons_append]
    exact ih.binary (.operand rfl)

lemma Grouped.exists_binary (h : Grouped op es e) (hes : 2 ≤ es.length) :
    ∃ p left right, e = .binary p op left right := by
  cases h with
  | operand => exact absurd hes (by simp)
  | binary hleft hright => exact ⟨_, _, _, rfl⟩

/-! ### Checking operands -/

namespace Typing

/-- What the checker makes of an expression that can be the operand of a short-circuit operator. -/
def Annotates (scope : Scope) (heap : Heap) (te : TypedExpr) (e : Expr Position) : Prop :=
  check scope heap e = .ok te ∧ te.type.isCondition = true

lemma binaryType_logical (hop : Lowering.chainHead? op = some head) (left right : TypeRef) :
    binaryType p op left right =
      if left.isCondition && right.isCondition then .ok (converting p (.prim .boolean) [none, none])
      else .error ⟨p, .binaryOperands op left right⟩ := by
  cases op <;> cases hop <;> rfl

/-- The value of a short-circuit operator can be an operand again. -/
lemma annotates_binary_iff (hop : Lowering.chainHead? op = some head) {left right : Expr Position} :
    Annotates scope heap te (.binary p op left right) ↔ ∃ tl tr, Annotates scope heap tl left ∧
      Annotates scope heap tr right ∧ te = .binary (converting p (.prim .boolean) [none, none]) op tl tr := by
  unfold Annotates
  constructor
  · rintro ⟨h, -⟩
    cases accepts_of_check h with
    | @binary _ _ _ _ tl tr _ hl hr hnote =>
      rw [binaryType_logical hop] at hnote
      split at hnote
      · next hboth =>
        obtain ⟨hcl, hcr⟩ := Bool.and_eq_true_iff.mp hboth
        obtain rfl := Except.ok.inj hnote
        exact ⟨tl, tr, ⟨hl, hcl⟩, ⟨hr, hcr⟩, rfl⟩
      · cases hnote
  · rintro ⟨tl, tr, ⟨hl, hcl⟩, ⟨hr, hcr⟩, rfl⟩
    rw [check]
    refine ⟨bind_eq_ok.mpr ⟨tl, hl, bind_eq_ok.mpr ⟨tr, hr, bind_eq_ok.mpr ⟨_, ?_, rfl⟩⟩⟩, rfl⟩
    rw [binaryType_logical hop, hcl, hcr]
    rfl

lemma Annotates.of_bare_eq (h : Annotates scope heap te e) (hsame : e.bare = e'.bare) :
    ∃ te', Annotates scope heap te' e' ∧ te'.unplaced = te.unplaced := by
  obtain ⟨te', hte', heq⟩ := check_of_bare_eq hsame h.1
  refine ⟨te', ⟨hte', ?_⟩, heq⟩
  rw [← Expr.type_unplaced, heq, Expr.type_unplaced]
  exact h.2

lemma exists_annotated_operands (hop : Lowering.chainHead? op = some head) (hgrouped : Grouped op es e)
    (h : Annotates scope heap te e) : ∃ tes, List.Forall₂ (Annotates scope heap) tes es := by
  induction hgrouped generalizing te with
  | operand hsame =>
    obtain ⟨te', hte', -⟩ := h.of_bare_eq hsame.symm
    exact ⟨[te'], .cons hte' .nil⟩
  | binary hleft hright ihleft ihright =>
    obtain ⟨tl, tr, hl, hr, -⟩ := (annotates_binary_iff hop).mp h
    obtain ⟨tes, htes⟩ := ihleft hl
    obtain ⟨tes', htes'⟩ := ihright hr
    exact ⟨tes ++ tes', List.rel_append htes htes'⟩

lemma checkPredicate_binary {left right : Expr Position} :
    checkPredicate scope heap (.binary p op left right) = .ok te ↔
      Annotates scope heap te (.binary p op left right) := by
  simp only [checkPredicate_eq_ok, Annotates, Expr.isAssign, Bool.or_false]

end Typing

/-! ### Lowering operands -/

namespace Lowering

/-- The operand that an expression becomes in a block of its own, after the given variables were numbered. -/
def value (scope : Scope) (heap : Heap) (te : TypedExpr) (vars : List Var) : Operand :=
  ((lower scope heap te).run ⟨vars, []⟩).1

/-- The variables that are numbered after an expression was lowered. -/
def table (scope : Scope) (heap : Heap) (te : TypedExpr) (vars : List Var) : List Var :=
  ((lower scope heap te).run ⟨vars, []⟩).2.vars

/-- The operands that some expressions become one after the other. -/
def values (scope : Scope) (heap : Heap) : List TypedExpr → List Var → List Operand
  | [], _ => []
  | te :: rest, vars => value scope heap te vars :: values scope heap rest (table scope heap te vars)

/-- The variables that are numbered after some expressions were lowered one after the other. -/
def tables (scope : Scope) (heap : Heap) (tes : List TypedExpr) (vars : List Var) : List Var :=
  tes.foldl (fun vars te => table scope heap te vars) vars

lemma values_append (tes tes' : List TypedExpr) (vars : List Var) : values scope heap (tes ++ tes') vars =
    values scope heap tes vars ++ values scope heap tes' (tables scope heap tes vars) := by
  induction tes generalizing vars with
  | nil => rfl
  | cons te rest ih => simp [values, tables, ih]

lemma tables_append (tes tes' : List TypedExpr) (vars : List Var) : tables scope heap (tes ++ tes') vars =
    tables scope heap tes' (tables scope heap tes vars) :=
  List.foldl_append

lemma length_values (tes : List TypedExpr) (vars : List Var) : (values scope heap tes vars).length = tes.length := by
  induction tes generalizing vars with
  | nil => rfl
  | cons te rest ih => simp [values, ih]

lemma run_bind_of {α β : Type} {build : Build α} {next : α → Build β} {b b' : Builder} {a : α}
    (h : build.run b = (a, b')) : (build >>= next).run b = (next a).run b' := by
  change (next (build.run b).1).run (build.run b).2 = _
  rw [h]

lemma run_inBlock {α : Type} {build : Build α} {b : Builder} {a : α} {vars : List Var} {ops : List Op}
    (h : build.run ⟨b.vars, []⟩ = (a, ⟨vars, ops⟩)) : (inBlock build).run b = ((a, ops), ⟨vars, b.ops⟩) := by
  change (((build.run ⟨b.vars, []⟩).1, (build.run ⟨b.vars, []⟩).2.ops),
    Builder.mk (build.run ⟨b.vars, []⟩).2.vars b.ops) = _
  rw [h]

/-- An operand becomes a body that yields its value. -/
lemma run_body (scope : Scope) (heap : Heap) (te : TypedExpr) (b : Builder) :
    ∃ last, last.Yields (value scope heap te b.vars) ∧
      (body te.type none (lower scope heap te)).run b = (last, ⟨table scope heap te b.vars, b.ops⟩) := by
  refine ⟨_, ?_, rfl⟩
  obtain ⟨_, _, hrun, hops, -⟩ := emits_lower scope heap te ⟨b.vars, []⟩
  subst hops
  change Body.mk [.ending [] ((lower scope heap te).run ⟨b.vars, []⟩).2.ops _] = _
  rw [hrun]
  rfl

/-- After the bodies of its left operand, a short-circuit operator has one for its right operand. -/
lemma run_lower_logical (hop : chainHead? op = some head) {left : TypedExpr} {earlier : List Body} {vars : List Var}
    {b : Builder} (hearlier : (chainBodies op left (lower scope heap left)).run b = (earlier, ⟨vars, b.ops⟩))
    (note : Typing) (right : TypedExpr) :
    ∃ last, last.Yields (value scope heap right vars) ∧ (lower scope heap (.binary note op left right)).run b =
      (.op (.mk head [] (earlier ++ [last])),
        ⟨table scope heap right vars, b.ops ++ [.mk head [] (earlier ++ [last])]⟩) := by
  obtain ⟨last, hlast, hrun⟩ := run_body scope heap right ⟨vars, b.ops⟩
  refine ⟨last, hlast, ?_⟩
  rw [lower_logical note hop, run_bind_of hearlier, run_bind_of hrun]
  rfl

lemma spine_of_not_continues (h : continues op te = false) : te.spine op = [te] := by
  cases te <;> first | rfl | exact if_neg (of_decide_eq_false h)

lemma exists_of_continues (h : continues op te = true) : ∃ note left right, te = .binary note op left right := by
  cases te with
  | binary note other left right =>
    obtain rfl : other = op := of_decide_eq_true h
    exact ⟨note, left, right, rfl⟩
  | _ => cases h

/-- The left operand of a short-circuit operator gives a body for each operand that it has itself. -/
lemma run_chainBodies (hop : chainHead? op = some head) (te : TypedExpr) (b : Builder) :
    ∃ bodies, List.Forall₂ Body.Yields bodies (values scope heap (te.spine op) b.vars) ∧
      (chainBodies op te (lower scope heap te)).run b =
        (bodies, ⟨tables scope heap (te.spine op) b.vars, b.ops⟩) := by
  have hone {te : TypedExpr} (h : continues op te = false) (b : Builder) :
      ∃ bodies, List.Forall₂ Body.Yields bodies (values scope heap [te] b.vars) ∧
        (chainBodies op te (lower scope heap te)).run b = (bodies, ⟨tables scope heap [te] b.vars, b.ops⟩) := by
    obtain ⟨only, honly, hrun⟩ := run_body scope heap te b
    refine ⟨[only], .cons honly .nil, ?_⟩
    rw [chainBodies, h, if_neg Bool.false_ne_true, run_bind_of hrun]
    rfl
  fun_induction te.spine op generalizing b with
  | case1 note left right ih =>
    obtain ⟨earlier, hearlier, hrun⟩ := ih ⟨b.vars, []⟩
    obtain ⟨last, hlast, hrun⟩ := run_lower_logical hop hrun note right
    refine ⟨earlier ++ [last], ?_, ?_⟩
    · rw [values_append]
      exact List.rel_append hearlier (.cons hlast .nil)
    · have hcontinues : continues op (.binary note op left right) = true := decide_eq_true rfl
      rw [chainBodies, hcontinues, if_pos rfl, run_bind_of (run_inBlock hrun), tables_append]
      rfl
  | case2 note other left right hother =>
    have hcontinues : continues op (.binary note other left right) = false := decide_eq_false hother
    exact hone hcontinues b
  | case3 e hbinary =>
    refine hone ?_ b
    cases e <;> first | rfl | exact absurd rfl (hbinary _ _ _ _)

/-- A short-circuit operator becomes one op with a body for each operand, as far as they are grouped from the left. -/
lemma exists_bodies (hop : chainHead? op = some head) (note : Typing) (left right : TypedExpr) (vars : List Var) :
    ∃ bodies, value scope heap (.binary note op left right) vars = .op (.mk head [] bodies) ∧
      List.Forall₂ Body.Yields bodies
        (values scope heap ((Expr.binary note op left right).spine op) vars) ∧
      table scope heap (.binary note op left right) vars =
        tables scope heap ((Expr.binary note op left right).spine op) vars := by
  obtain ⟨earlier, hearlier, hrun⟩ := run_chainBodies hop left ⟨vars, []⟩
  obtain ⟨last, hlast, hrun⟩ := run_lower_logical hop hrun note right
  refine ⟨earlier ++ [last], by rw [value, hrun], ?_, ?_⟩
  · rw [Expr.spine_binary, values_append]
    exact List.rel_append hearlier (.cons hlast .nil)
  · rw [table, hrun, Expr.spine_binary, tables_append]
    rfl

/-! ### Outcomes of operands -/

variable {captures : Captures}

lemma map_bodyResult {bodies : List Body} {xs : List Operand} (h : List.Forall₂ Body.Yields bodies xs) :
    bodies.map (bodyResult captures) = xs.map (result captures) := by
  induction h with
  | nil => rfl
  | cons hbody _ ih =>
    rw [List.map_cons, List.map_cons, ih, Evaluation.bodyResult_of_yielded hbody.yielded?_eq]

lemma result_logical (hop : chainHead? op = some head) (hd : head.decisive? = some decisive) (note : Typing)
    (left right : TypedExpr) (vars : List Var) :
    result captures (value scope heap (.binary note op left right) vars) = chainResult decisive
      ((values scope heap ((Expr.binary note op left right).spine op) vars).map (result captures)) := by
  obtain ⟨bodies, hvalue, hbodies, -⟩ := exists_bodies hop note left right vars
  rw [hvalue, Evaluation.result_chain hd, map_bodyResult hbodies]

/-- An expression within a chain counts as much as the operands that are grouped in it from the left. -/
lemma chainResult_spine (hop : chainHead? op = some head) (hd : head.decisive? = some decisive) (te : TypedExpr)
    (vars : List Var) (rest : List (Evaluating Outcome)) :
    chainResult decisive ((values scope heap (te.spine op) vars).map (result captures) ++ rest) =
      chainResult decisive (result captures (value scope heap te vars) :: rest) := by
  cases hte : continues op te with
  | false =>
    rw [spine_of_not_continues hte]
    rfl
  | true =>
    obtain ⟨note, left, right, rfl⟩ := exists_of_continues hte
    rw [Evaluation.chainResult_append, result_logical hop hd]

lemma table_spine (hop : chainHead? op = some head) (te : TypedExpr) (vars : List Var) :
    table scope heap te vars = tables scope heap (te.spine op) vars := by
  cases hte : continues op te with
  | false =>
    rw [spine_of_not_continues hte]
    rfl
  | true =>
    obtain ⟨note, left, right, rfl⟩ := exists_of_continues hte
    obtain ⟨_, _, _, htable⟩ := exists_bodies hop note left right vars
    exact htable

/-- Within a chain an expression counts as much as some operands, and it numbers the variables that they number. -/
structure Joins (scope : Scope) (heap : Heap) (decisive : Bool) (tes : List TypedExpr) (te : TypedExpr) : Prop where
  usesThis_eq : Typing.usesThis te = tes.any Typing.usesThis
  table_eq : ∀ vars, table scope heap te vars = tables scope heap tes vars
  result_eq : ∀ captures vars rest, chainResult decisive (result captures (value scope heap te vars) :: rest) =
    chainResult decisive ((values scope heap tes vars).map (result captures) ++ rest)

lemma joins_of_unplaced_eq (h : te'.unplaced = te.unplaced) : Joins scope heap decisive [te] te' := by
  have hlower : lower scope heap te' = lower scope heap te := by rw [← lower_unplaced, h, lower_unplaced]
  constructor
  case usesThis_eq =>
    rw [← Typing.usesThis_unplaced, h, Typing.usesThis_unplaced]
    simp
  case table_eq => exact fun vars => by rw [table, hlower]; rfl
  case result_eq => exact fun captures vars rest => by rw [value, hlower]; rfl

lemma Joins.binary (hop : chainHead? op = some head) (hd : head.decisive? = some decisive)
    (hleft : Joins scope heap decisive tes te) (hright : Joins scope heap decisive tes' te') (note : Typing) :
    Joins scope heap decisive (tes ++ tes') (.binary note op te te') := by
  constructor
  case usesThis_eq => rw [Typing.usesThis, hleft.usesThis_eq, hright.usesThis_eq, List.any_append]
  case table_eq =>
    intro vars
    rw [table_spine hop, Expr.spine_binary, tables_append, ← table_spine hop, hleft.table_eq, tables_append]
    exact hright.table_eq _
  case result_eq =>
    intro captures vars rest
    have hlast : values scope heap [te'] (tables scope heap (te.spine op) vars) =
        [value scope heap te' (tables scope heap tes vars)] := by
      rw [← table_spine hop, hleft.table_eq]
      rfl
    calc chainResult decisive (result captures (value scope heap (.binary note op te te') vars) :: rest)
      _ = chainResult decisive ((values scope heap (te.spine op) vars).map (result captures) ++
            (result captures (value scope heap te' (tables scope heap tes vars)) :: rest)) := by
        rw [← chainResult_spine hop hd, Expr.spine_binary, values_append, hlast, List.map_append, List.append_assoc]
        rfl
      _ = chainResult decisive ((values scope heap tes vars).map (result captures) ++
            (result captures (value scope heap te' (tables scope heap tes vars)) :: rest)) := by
        rw [chainResult_spine hop hd, hleft.result_eq]
      _ = chainResult decisive ((values scope heap tes vars).map (result captures) ++
            ((values scope heap tes' (tables scope heap tes vars)).map (result captures) ++ rest)) :=
        Evaluation.chainResult_congr _ (hright.result_eq captures _ rest)
      _ = chainResult decisive ((values scope heap (tes ++ tes') vars).map (result captures) ++ rest) := by
        rw [values_append, List.map_append, List.append_assoc]

lemma exists_joins (hop : chainHead? op = some head) (hd : head.decisive? = some decisive)
    (hgrouped : Grouped op es e) (htes : List.Forall₂ (Typing.Annotates scope heap) tes es) :
    ∃ te, Typing.Annotates scope heap te e ∧ Joins scope heap decisive tes te := by
  induction hgrouped generalizing tes with
  | operand hsame =>
    obtain _ | ⟨hte, _ | _⟩ := htes
    obtain ⟨te', hte', heq⟩ := hte.of_bare_eq hsame
    exact ⟨te', hte', joins_of_unplaced_eq heq⟩
  | @binary p es es' left right _ _ ihleft ihright =>
    obtain ⟨tl, hl, hjoinsLeft⟩ := ihleft (List.forall₂_take_append _ _ _ htes)
    obtain ⟨tr, hr, hjoinsRight⟩ := ihright (List.forall₂_drop_append _ _ _ htes)
    have hjoins := hjoinsLeft.binary hop hd hjoinsRight (Typing.converting p (.prim .boolean) [none, none])
    rw [List.take_append_drop] at hjoins
    exact ⟨_, (Typing.annotates_binary_iff hop).mpr ⟨tl, tr, hl, hr, rfl⟩, hjoins⟩

/-- A chain has the outcome of its operands. -/
lemma Joins.result_chain (hop : chainHead? op = some head) (hd : head.decisive? = some decisive)
    {left right : TypedExpr} (h : Joins scope heap decisive tes (.binary note op left right)) (captures : Captures)
    (vars : List Var) :
    result captures (value scope heap (.binary note op left right) vars) =
      chainResult decisive ((values scope heap tes vars).map (result captures)) := by
  have hresult := h.result_eq captures vars []
  rw [List.append_nil] at hresult
  rw [← hresult, result_logical hop hd, ← Evaluation.chainResult_append, List.append_nil]

lemma captures_quote_congr (huses : Typing.usesThis te = Typing.usesThis te')
    (htable : table scope heap te [] = table scope heap te' []) :
    (quote scope heap te).captures = (quote scope heap te').captures := by
  have hcaptures (te : TypedExpr) : (quote scope heap te).captures =
      ⟨(table scope heap te []).map fun v => (v, quoteCapture ((scope.locals.lookup v.name).getD (.value .null))),
        (if Typing.usesThis te then scope.this else none).toList.map fun v => (thisParameter scope, v)⟩ := rfl
  rw [hcaptures, hcaptures, huses, htable]

/-- Two chains of the same operands have the same outcome, and the same is done to the host. -/
lemma Joins.rootOutcome_eq (hop : chainHead? op = some head) (hd : head.decisive? = some decisive)
    {note note' : Typing} {left right left' right' : TypedExpr}
    (h : Joins scope heap decisive tes (.binary note op left right))
    (h' : Joins scope heap decisive tes (.binary note' op left' right')) (later : Heap) :
    (quote scope heap (.binary note op left right)).rootOutcome later =
      (quote scope heap (.binary note' op left' right')).rootOutcome later := by
  have hcaptures := captures_quote_congr (h.usesThis_eq.trans h'.usesThis_eq.symm)
    ((h.table_eq []).trans (h'.table_eq []).symm)
  have hresult (captures : Captures) : result captures (root scope heap (.binary note op left right)) =
      result captures (root scope heap (.binary note' op left' right')) :=
    (h.result_chain hop hd captures []).trans (h'.result_chain hop hd captures []).symm
  rw [rootOutcome_quote, rootOutcome_quote, hcaptures, hresult]

end Lowering

open Lowering (chainHead?)

/-- A chain of a short-circuit operator that the checker accepts becomes one op with a body for each of its operands,
those of a first operand that is such a chain itself included. In any other grouping the operands are accepted as
well, with the same outcome whenever both are evaluated, after the same computations of the host. -/
theorem grouping_preserves_outcome {first : Expr Position} {others : List (Position × Expr Position)}
    (hop : chainHead? op = some head) (hothers : others ≠ [])
    (hcheck : Typing.checkPredicate scope heap (first.chain op others) = .ok te)
    (hgrouped : Grouped op (first :: others.map Prod.snd) e) :
    let q := Lowering.quote scope heap te
    (∃ bodies, q.returned? = some (.op (.mk head [] bodies)) ∧
      bodies.length = (first.spine op).length + others.length) ∧
    ∃ te', Typing.checkPredicate scope heap e = .ok te' ∧
      ∀ later, (Lowering.quote scope heap te').rootOutcome later = q.rootOutcome later := by
  intro q
  obtain ⟨decisive, hd⟩ := exists_decisive hop
  have htwo : 2 ≤ (first :: others.map Prod.snd).length := by
    have hpos := List.length_pos_iff.mpr hothers
    rw [List.length_cons, List.length_map]
    omega
  have hflat := grouped_chain op first others
  obtain ⟨p, left, right, hchain⟩ := hflat.exists_binary htwo
  obtain ⟨p', left', right', rfl⟩ := hgrouped.exists_binary htwo
  have hte : Typing.Annotates scope heap te (first.chain op others) := by
    rw [hchain] at hcheck ⊢
    exact Typing.checkPredicate_binary.mp hcheck
  -- Both groupings are compared with the operands as the checker annotates them.
  obtain ⟨tes, htes⟩ := Typing.exists_annotated_operands hop hflat hte
  obtain ⟨te₁, hte₁, hjoins⟩ := Lowering.exists_joins hop hd hflat htes
  obtain rfl : te = te₁ := Except.ok.inj (hte.1.symm.trans hte₁.1)
  obtain ⟨te', hte', hjoins'⟩ := Lowering.exists_joins hop hd hgrouped htes
  have hspine : (te.spine op).length = (first.spine op).length + others.length := by
    rw [← Expr.length_spine_bare, Typing.bare_of_check _ hte.1, Expr.length_spine_bare, Expr.spine_chain,
      List.length_append, List.length_map]
  rw [hchain] at hte
  obtain ⟨tl, tr, -, -, rfl⟩ := (Typing.annotates_binary_iff hop).mp hte
  obtain ⟨tl', tr', -, -, rfl⟩ := (Typing.annotates_binary_iff hop).mp hte'
  refine ⟨?_, _, Typing.checkPredicate_binary.mpr hte', hjoins'.rootOutcome_eq hop hd hjoins⟩
  obtain ⟨bodies, hvalue, hbodies, -⟩ := Lowering.exists_bodies hop _ tl tr []
  refine ⟨bodies, (Lowering.returned?_eq_root scope heap _).trans (congrArg some hvalue), ?_⟩
  rw [hbodies.length_eq, Lowering.length_values, hspine]

/-- The operands of `no() || l[0] || yes()` are grouped as in `no() || (l[0] || yes())`, where `l[0]` is a number. -/
theorem grouping_preserves_outcome_of_calls :
    let heap : Heap := ⟨#[⟨.account, [("balance", .long 0), ("calls", .hostInt 0)]⟩], #[], Value.firstId⟩
    let scope : Scope := ⟨[("l", .value (.list [.hostInt 5]))], some (.object .account 0), .empty⟩
    let first : Expr Position := .thisCall ⟨1, 1⟩ "no" []
    let others : List (Position × Expr Position) :=
      [(⟨1, 6⟩, .index ⟨1, 10⟩ (.name ⟨1, 9⟩ "l") (.literal ⟨1, 11⟩ (.int 0))),
        (⟨1, 14⟩, .thisCall ⟨1, 17⟩ "yes" [])]
    let e : Expr Position := .binary ⟨1, 6⟩ .disjunction (.thisCall ⟨1, 1⟩ "no" [])
      (.binary ⟨1, 15⟩ .disjunction (.index ⟨1, 11⟩ (.name ⟨1, 10⟩ "l") (.literal ⟨1, 12⟩ (.int 0)))
        (.thisCall ⟨1, 18⟩ "yes" []))
    chainHead? .disjunction = some .condOr ∧ others ≠ [] ∧
      Grouped .disjunction (first :: others.map Prod.snd) e ∧
      ∃ te, Typing.checkPredicate scope heap (first.chain .disjunction others) = .ok te ∧
        (∃ bodies, (Lowering.quote scope heap te).returned? = some (.op (.mk .condOr [] bodies)) ∧
          bodies.length = (first.spine .disjunction).length + others.length) ∧
        ∃ te', Typing.checkPredicate scope heap e = .ok te' ∧ ∀ later,
          (Lowering.quote scope heap te').rootOutcome later = (Lowering.quote scope heap te).rootOutcome later := by
  intro heap scope first others e
  have hothers : others ≠ [] := List.cons_ne_nil _ _
  have hlast : Grouped .disjunction (others.map Prod.snd)
      (.binary ⟨1, 15⟩ .disjunction (.index ⟨1, 11⟩ (.name ⟨1, 10⟩ "l") (.literal ⟨1, 12⟩ (.int 0)))
        (.thisCall ⟨1, 18⟩ "yes" [])) :=
    @Grouped.binary _ _ [_] [_] _ _ (.operand rfl) (.operand rfl)
  have hgrouped : Grouped .disjunction (first :: others.map Prod.snd) e :=
    @Grouped.binary _ _ [_] [_, _] _ _ (.operand rfl) hlast
  have hok : (Typing.checkPredicate scope heap (first.chain .disjunction others)).toOption.isSome = true := by
    decide +kernel
  cases hcheck : Typing.checkPredicate scope heap (first.chain .disjunction others) with
  | error error => simp [hcheck, Except.toOption] at hok
  | ok te =>
    exact ⟨rfl, hothers, hgrouped, te, rfl, grouping_preserves_outcome rfl hothers hcheck hgrouped⟩

end PredicateTrace
