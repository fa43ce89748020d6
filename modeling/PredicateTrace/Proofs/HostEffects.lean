import PredicateTrace.Proofs.EvaluatedChildren
import PredicateTrace.Proofs.TracePlaces
import PredicateTrace.Report

/-!
# Effects on the host

Field loads, calls and the construction of objects are computed by the host, and nothing else that evaluation
does changes the host. The nodes of these ops whose operands have values are, in the order of reports, the
computations of the host in the order of time. No op is computed twice, and none that the operands and bodies
before it rule out.
-/

namespace PredicateTrace

open Host (Heap Run)

variable {α β : Type}

/-! ### Computations that keep the heap -/

namespace Host.Run

/-- Whatever comes out of a computation, the heap stays the same. -/
def KeepsHeap (run : Run α) : Prop :=
  ∀ heap, (runFrom run heap).2 = heap

lemma keepsHeap_pure (a : α) : KeepsHeap (pure a : Run α) :=
  fun _ => rfl

lemma keepsHeap_raise (e : Throwable) : KeepsHeap (raise e : Run α) :=
  fun _ => rfl

lemma keepsHeap_heap : KeepsHeap heap :=
  fun _ => rfl

lemma KeepsHeap.bind {run : Run α} {next : α → Run β} (h : KeepsHeap run) (hnext : ∀ a, KeepsHeap (next a)) :
    KeepsHeap (run >>= next) := by
  intro heap
  have hheap := h heap
  rw [runFrom_bind]
  rcases hrun : runFrom run heap with ⟨_ | a, heap'⟩ <;> rw [hrun] at hheap
  · exact hheap
  · obtain rfl : heap' = heap := hheap
    exact hnext a heap'

lemma keepsHeap_lift (r : Except Throwable α) : KeepsHeap (Resolver.lift r) := by
  cases r with
  | ok a => exact keepsHeap_pure a
  | error e => exact keepsHeap_raise e

lemma keepsHeap_sourceCodesOf (v : Value) : KeepsHeap (sourceCodesOf v) := by
  unfold sourceCodesOf
  split
  · exact keepsHeap_pure _
  · have htext : KeepsHeap (sourceTextOf v) := by
      refine keepsHeap_heap.bind fun heap => ?_
      split
      · exact keepsHeap_pure _
      · exact keepsHeap_raise _
    exact htext.bind fun text => keepsHeap_pure _

lemma keepsHeap_elementAt (items : List Value) (i : Int) : KeepsHeap (Host.elementAt items i) := by
  unfold Host.elementAt
  split
  · exact keepsHeap_pure _
  · exact keepsHeap_raise _

end Host.Run

namespace Head

open Host.Run

lemma keepsHeap_present (v : Value) : KeepsHeap (present v) := by
  unfold present
  split
  · exact keepsHeap_raise _
  · exact keepsHeap_pure _

lemma keepsHeap_loadElement (array index : Value) : KeepsHeap (loadElement array index) := by
  unfold loadElement
  split
  · exact keepsHeap_pure _
  · refine (keepsHeap_present array).bind fun v => ?_
    split
    · exact (keepsHeap_elementAt _ _).bind fun w => keepsHeap_pure _
    · exact (keepsHeap_elementAt _ _).bind fun w => keepsHeap_pure _
    · exact (keepsHeap_elementAt _ _).bind fun w => keepsHeap_pure _
    · exact keepsHeap_pure _

lemma keepsHeap_lengthOf (array : Value) : KeepsHeap (lengthOf array) := by
  refine (keepsHeap_present array).bind fun v => ?_
  split <;> exact keepsHeap_pure _

lemma keepsHeap_applyBinary (op : Operator) (left right : Value) : KeepsHeap (applyBinary op left right) := by
  unfold applyBinary
  split
  · exact (keepsHeap_sourceCodesOf left).bind fun a =>
      (keepsHeap_sourceCodesOf right).bind fun b => keepsHeap_pure _
  · exact keepsHeap_lift _

lemma keepsHeap_applyCompare (op : Operator) (left right : Value) : KeepsHeap (applyCompare op left right) := by
  refine keepsHeap_heap.bind fun heap => ?_
  split
  · exact keepsHeap_pure _
  · exact keepsHeap_pure _
  · exact (keepsHeap_lift _).bind fun r => keepsHeap_pure _

lemma keepsHeap_applyConversion (target : TypeRef) (v : Value) : KeepsHeap (applyConversion target v) := by
  unfold applyConversion
  split
  · refine (keepsHeap_present v).bind fun w => ?_
    split <;> exact keepsHeap_pure _
  · exact keepsHeap_pure _

lemma keepsHeap_applyCast (target : TypeRef) (v : Value) : KeepsHeap (applyCast target v) := by
  unfold applyCast
  split
  · exact keepsHeap_applyConversion _ _
  · exact keepsHeap_pure _
  · refine (keepsHeap_lift _).bind fun b => ?_
    split
    · exact keepsHeap_pure _
    · exact keepsHeap_raise _

/-- Only what the host computes can change the heap. -/
theorem keepsHeap_apply {head : Head} (hh : head.isHostComputation = false) (values : List Value) :
    KeepsHeap (head.apply values) := by
  unfold apply
  split
  case h_3 | h_4 | h_5 | h_6 | h_7 => simp [isHostComputation] at hh
  case h_8 => exact keepsHeap_loadElement _ _
  case h_9 => exact keepsHeap_lengthOf _
  case h_10 => exact keepsHeap_applyBinary _ _ _
  case h_11 => exact keepsHeap_applyCompare _ _ _
  case h_14 => exact keepsHeap_applyConversion _ _
  case h_15 => exact keepsHeap_applyCast _ _
  case h_16 => exact (keepsHeap_lift _).bind fun b => keepsHeap_pure _
  all_goals exact keepsHeap_pure _

end Head

/-! ### Reports -/

namespace Trace

lemma reports_eq {f : Formatter} {ts : List Trace}
    (h : ∀ t ∈ ts, t.report f = (t.nodes.mapM (entry f)).map String.join) :
    reports f ts = ((nodesOf ts).mapM (entry f)).map String.join := by
  induction ts with
  | nil => rw [reports, nodesOf_nil]; rfl
  | cons t rest ih =>
    have hrest := ih fun s hs => h s (List.mem_cons_of_mem _ hs)
    rw [reports, h t List.mem_cons_self, hrest, nodesOf_cons, List.mapM_append]
    cases t.nodes.mapM (entry f) with
    | error e => rfl
    | ok first =>
      cases (nodesOf rest).mapM (entry f) with
      | error e => rfl
      | ok others => exact congrArg Except.ok String.join_append.symm

/-- A report shows the entries of the nodes in their order. -/
theorem report_eq (f : Formatter) (t : Trace) : t.report f = (t.nodes.mapM (entry f)).map String.join := by
  induction t using induction_on_children with
  | step t ih =>
    obtain ⟨op, outcome, children⟩ := t
    have hbelow : reports f children = ((nodesOf children).mapM (entry f)).map String.join := reports_eq ih
    rw [report, hbelow, nodes_eq, Trace.children, List.mapM_append]
    cases (nodesOf children).mapM (entry f) with
    | error e => rfl
    | ok below =>
      rw [List.mapM_cons, List.mapM_nil]
      cases entry f (.node op outcome children) with
      | error e => rfl
      | ok last =>
        change Except.ok (String.join below ++ last) = Except.ok (String.join (below ++ [last]))
        simp

end Trace

/-! ### Computations of the host in a trace -/

namespace Trace

/-- Whether the host has computed the outcome of a node: all operands of such an op have values. -/
def isHostRun (t : Trace) : Bool :=
  t.op.head.isHostComputation && t.children.all hasValue

/-- The nodes that the host has computed, in the order of reports. -/
def hostRuns (t : Trace) : List Trace :=
  t.nodes.filter isHostRun

/-- The places of the nodes that the host has computed, with these nodes. -/
def hostRunPlaces (t : Trace) : List (Place × Trace) :=
  t.places.filter fun e => e.2.isHostRun

lemma map_snd_hostRunPlaces (t : Trace) : t.hostRunPlaces.map Prod.snd = t.hostRuns := by
  rw [hostRuns, ← map_snd_places, List.filter_map]
  rfl

lemma nodup_hostRunPlaces (t : Trace) : (t.hostRunPlaces.map Prod.fst).Nodup :=
  t.nodup_places.sublist (List.filter_sublist.map Prod.fst)

end Trace

namespace Evaluation

variable {captures : Captures}

/-- The host computes the outcome of a node from the values of its children, and this is noted. -/
structure Computes (n : Trace) (p p' : Progress) : Prop where
  outcome : ∃ values, n.children.map Trace.value? = values.map some ∧
    Gives (outcomeOf (n.op.head.apply values)) { p with journal := p.journal ++ [n.op] } n.outcome p'

/-- The host computes the outcomes of some nodes one after the other. -/
inductive ComputesAll : List Trace → Progress → Progress → Prop
  | nil (p : Progress) : ComputesAll [] p p
  | cons {n ns p p' p''} (hn : Computes n p p') (hns : ComputesAll ns p' p'') : ComputesAll (n :: ns) p p''

lemma ComputesAll.append {ns ms : List Trace} {p p' p'' : Progress} (hns : ComputesAll ns p p')
    (hms : ComputesAll ms p' p'') : ComputesAll (ns ++ ms) p p'' := by
  induction hns with
  | nil => exact hms
  | cons hn _ ih => exact .cons hn (ih hms)

/-- The journal grows by the ops of the nodes in their order. -/
lemma ComputesAll.journal {ns : List Trace} {p p' : Progress} (h : ComputesAll ns p p') :
    p'.journal = p.journal ++ ns.map Trace.op := by
  induction h with
  | nil => simp
  | cons hn _ ih =>
    obtain ⟨values, _, hg⟩ := hn.outcome
    obtain ⟨rfl, _⟩ := gives_outcomeOf.mp hg
    rw [ih]
    simp

/-! ### One op -/

/-- The children of the node of an operand stand for what the steps to them reach in it, and each step is one
that evaluation could take. -/
structure Reaches (x : Operand) (n : Trace) (xs : List Operand) : Prop where
  inside : ∀ i y, xs[i]? = some y → x.inside? [n.stepTo i] = some y
  enters : ∀ i < n.children.length, n.Enters (n.stepTo i)

/-- After the children of a node the host computes its outcome, or nothing changes. -/
def Concludes (n : Trace) (p p' : Progress) : Prop :=
  if n.isHostRun then Computes n p p' else p' = p

lemma concludes_of_head {head : Head} (hh : head.isHostComputation = false) (xs : List Operand)
    (bodies : List Body) (o : Outcome) (ts : List Trace) (p : Progress) :
    Concludes (.node (.mk head xs bodies) o ts) p p := by
  simp [Concludes, Trace.isHostRun, Trace.op, Op.head, hh]

lemma stepTo_strict {n : Trace} (hn : n.op.head.isStrict = true) (i : Nat) : n.stepTo i = .operand i := by
  unfold Trace.stepTo
  split <;> simp_all [Head.isStrict]

lemma stepTo_chain {n : Trace} {decisive : Bool} (hn : n.op.head.decisive? = some decisive) (i : Nat) :
    n.stepTo i = .body i := by
  unfold Trace.stepTo
  split <;> simp_all [Head.decisive?]

/-- If all children but the last one satisfy a property, those before any child do. -/
lemma child_before {ts : List Trace} {P : Trace → Prop} (h : ∀ c ∈ ts.dropLast, P c) {i : Nat}
    (hi : i < ts.length) : ∀ j < i, ∃ c, ts[j]? = some c ∧ P c := by
  intro j hj
  have hlen : j < ts.dropLast.length := by
    rw [List.length_dropLast]
    omega
  refine ⟨ts.dropLast[j], ?_, h _ (List.getElem_mem hlen)⟩
  rw [List.getElem_dropLast, List.getElem?_eq_getElem]

lemma reaches_nil {n : Trace} (x : Operand) (hn : n.children = []) : Reaches x n [] where
  inside := by simp
  enters := by simp [hn]

lemma reaches_operands {x : Operand} {n : Trace} {done rest : List Operand} (hop : x = .op n.op)
    (hn : n.op.head.isStrict = true) (hxs : n.op.operands = done ++ rest) (hvalues : ∀ c ∈ n.children.dropLast, c.hasValue = true) :
    Reaches x n done := by
  subst hop
  constructor
  · intro i x hx
    have hi : i < done.length := (List.getElem?_eq_some_iff.mp hx).1
    have hmem : n.op.operands[i]? = some x := by rw [hxs, List.getElem?_append_left hi, hx]
    simp [stepTo_strict hn, Operand.inside?, hmem]
  · intro i hi
    rw [stepTo_strict hn]
    exact .operand (child_before hvalues hi)

lemma reaches_bodies {x : Operand} {n : Trace} {decisive : Bool} {done rest : List Body}
    {xs : List Operand} (hop : x = .op n.op) (hn : n.op.head.decisive? = some decisive) (hbodies : n.op.bodies = done ++ rest)
    (hxs : done.map Body.yielded? = xs.map some)
    (hvalues : ∀ c ∈ n.children.dropLast, c.value? = some (.bool !decisive)) : Reaches x n xs := by
  subst hop
  constructor
  · intro i x hx
    have hyield : (done.map Body.yielded?)[i]? = some (some x) := by rw [hxs, List.getElem?_map, hx]; rfl
    rw [List.getElem?_map] at hyield
    obtain ⟨body, hbody, hx⟩ := Option.map_eq_some_iff.mp hyield
    have hi : i < done.length := (List.getElem?_eq_some_iff.mp hbody).1
    have hmem : n.op.bodies[i]? = some body := by rw [hbodies, List.getElem?_append_left hi, hbody]
    simp [stepTo_chain hn, Operand.inside?, hmem, hx]
  · intro i hi
    rw [stepTo_chain hn]
    exact .body hn (child_before hvalues hi)

lemma stepTo_condition {n : Trace} {type : TypeRef} (hn : n.op.head = .ternary type) :
    n.stepTo 0 = .body 0 := by
  simp [Trace.stepTo, hn]

lemma stepTo_arm {n test arm : Trace} {type : TypeRef} {b : Bool} (hn : n.op.head = .ternary type)
    (hc : n.children = [test, arm]) (hv : test.value? = some (.bool b)) :
    n.stepTo 1 = .body (if b then 1 else 2) := by
  cases b <;> simp [Trace.stepTo, hn, hc, truth?, hv]

/-- The condition of a conditional is reached first, and then the arm that it chooses. -/
lemma reaches_condition {x y : Operand} {n test : Trace} {type : TypeRef} {body : Body}
    {bodies : List Body} (hop : x = .op n.op) (hn : n.op.head = .ternary type) (hbodies : n.op.bodies = body :: bodies)
    (hy : body.yielded? = some y) (hc : n.children = [test]) : Reaches x n [y] := by
  subst hop
  constructor
  · intro i z hz
    obtain ⟨rfl, rfl⟩ : i = 0 ∧ y = z := by simpa [List.getElem?_singleton] using hz
    simp [stepTo_condition hn, Operand.inside?, hbodies, hy]
  · intro i hi
    obtain rfl : i = 0 := by simpa [hc] using hi
    rw [stepTo_condition hn]
    exact .condition hn

lemma reaches_arm {x y z : Operand} {n test arm : Trace} {type : TypeRef} {b : Bool} {c yes no : Body}
    (hop : x = .op n.op) (hn : n.op.head = .ternary type) (hbodies : n.op.bodies = [c, yes, no])
    (hy : c.yielded? = some y) (hz : (if b then yes else no).yielded? = some z)
    (hc : n.children = [test, arm]) (hv : test.value? = some (.bool b)) : Reaches x n [y, z] := by
  subst hop
  have hchosen : n.op.bodies[if b then 1 else 2]? = some (if b then yes else no) := by
    rw [hbodies]
    cases b <;> rfl
  constructor
  · intro i w hw
    rcases i with _ | _ | i
    · obtain rfl : y = w := Option.some.inj hw
      simp [stepTo_condition hn, Operand.inside?, hbodies, hy]
    · obtain rfl : z = w := Option.some.inj hw
      simp [stepTo_arm hn hc hv, Operand.inside?, hchosen, hz]
    · simp at hw
  · intro i hi
    rcases i with _ | _ | i
    · rw [stepTo_condition hn]
      exact .condition hn
    · rw [stepTo_arm hn hc hv]
      exact .arm hn (by rw [hc]; rfl) hv
    · simp [hc] at hi

lemma OperandsRun.values {xs : List Operand} {p p' : Progress} {r : Evaluated}
    (h : OperandsRun captures xs p r p') (hf : r.failed = none) :
    r.nodes.map Trace.value? = r.values.map some := by
  induction h with
  | nil => rfl
  | failed => simp at hf
  | next _ hv _ ih => simp [hv, ih hf]

lemma OperandsRun.concludes {head : Head} {xs : List Operand} {bodies : List Body} {p q p' : Progress}
    {r : Evaluated} {o : Outcome} (hr : OperandsRun captures xs p r q) (hf : r.failed = none)
    (ho : Gives (outcomeOf (head.apply r.values)) (noted (.mk head xs bodies) q) o p') :
    Concludes (.node (.mk head xs bodies) o r.nodes) q p' := by
  obtain ⟨_, _, _, _, hall, _⟩ := hr.inTurn
  have hchildren : r.nodes.all Trace.hasValue = true := List.all_eq_true.mpr (hall hf).2
  cases hh : head.isHostComputation with
  | true =>
    have hrun : (Trace.node (.mk head xs bodies) o r.nodes).isHostRun = true := by
      simp [Trace.isHostRun, Trace.op, Op.head, Trace.children, hh, hchildren]
    rw [Concludes, if_pos hrun]
    have hnoted : noted (.mk head xs bodies) q = { q with journal := q.journal ++ [.mk head xs bodies] } := by
      simp [noted, Op.head, hh]
    rw [hnoted] at ho
    exact ⟨r.values, hr.values hf, ho⟩
  | false =>
    have hnoted : noted (.mk head xs bodies) q = q := by simp [noted, Op.head, hh]
    rw [hnoted] at ho
    obtain ⟨rfl, _⟩ := gives_outcomeOf.mp ho
    rw [Head.keepsHeap_apply hh]
    exact concludes_of_head hh _ _ _ _ q

/-- One op: its children are reached in turn, and after them the host computes its outcome or nothing
changes. -/
lemma OpRun.reaches {op : Op} {p p' : Progress} {ts : List Trace} {o : Outcome}
    (h : OpRun captures op p ts o p') (hop : op.WellShaped) :
    ∃ xs q, InTurn (evaluateOperand captures) xs p ts q ∧ Reaches (.op op) (.node op o ts) xs ∧
      Concludes (.node op o ts) q p' := by
  have hyield {body : Body} (hb : body ∈ op.bodies) : ∃ x, body.yielded? = some x := by
    obtain ⟨x, hx⟩ := hop.yields body hb
    exact ⟨x, hx.yielded?_eq⟩
  cases h with
  | bound | unbound => exact ⟨[], p, .nil p, reaches_nil _ rfl, concludes_of_head rfl _ _ _ _ p⟩
  | @inert head _ _ _ hh =>
    refine ⟨[], p, .nil p, reaches_nil _ rfl, concludes_of_head ?_ _ _ _ _ p⟩
    cases head <;> first | rfl | simp [Head.isInert] at hh
  | @failed head _ bodies _ r last _ hh hr hf =>
    obtain ⟨done, rest, rfl, hturn, _, hlast⟩ := hr.inTurn
    obtain ⟨before, hnodes, hbefore⟩ := hlast last hf
    have hdrop : ∀ c ∈ r.nodes.dropLast, c.hasValue = true := by
      rwa [hnodes, List.dropLast_concat]
    have hrun : (Trace.node (.mk head (done ++ rest) bodies) last.outcome r.nodes).isHostRun = false := by
      simp [Trace.isHostRun, Trace.children, hnodes, Trace.hasValue, hr.last_fails hf]
    refine ⟨done, p', hturn, reaches_operands rfl hh rfl hdrop, ?_⟩
    simp [Concludes, hrun]
  | @computed _ _ _ _ r _ _ _ hh hr hf ho =>
    have hend := hr.concludes hf ho
    obtain ⟨done, rest, rfl, hturn, hall, _⟩ := hr.inTurn
    have hdrop : ∀ c ∈ r.nodes.dropLast, c.hasValue = true :=
      fun c hc => (hall hf).2 c (List.dropLast_subset _ hc)
    exact ⟨done, _, hturn, reaches_operands rfl hh rfl hdrop, hend⟩
  | @chain head decisive _ _ _ _ _ _ hh hc =>
    have hhost : head.isHostComputation = false := by
      cases head <;> first | rfl | simp [Head.decisive?] at hh
    obtain ⟨done, rest, rfl, hturn, hend⟩ := hc.inTurn
    obtain ⟨xs, hxs, hturn⟩ := hturn.of_bodies fun body hb => hyield (List.mem_append_left _ hb)
    have hdrop : ∀ c ∈ ts.dropLast, c.value? = some (.bool !decisive) := by
      rcases hend with ⟨_, hall, _⟩ | ⟨before, last, rfl, hall, _⟩
      · exact fun c hc => hall c (List.dropLast_subset _ hc)
      · rwa [List.dropLast_concat]
    exact ⟨xs, p', hturn, reaches_bodies rfl hh rfl hxs hdrop, concludes_of_head hhost _ _ _ _ p'⟩
  | choice hc =>
    cases hc with
    | malformed _ hlen => exact absurd (hop.threeBodies _ rfl) hlen
    | failed ht | untrue ht =>
      obtain ⟨x, hx⟩ := hyield List.mem_cons_self
      exact ⟨[x], p', .singleton (gives_of_yielded hx ht), reaches_condition rfl rfl rfl hx rfl, concludes_of_head rfl _ _ _ _ p'⟩
    | @chosen c yes no _ test b _ arm _ ht hv harm =>
      obtain ⟨x, hx⟩ := @hyield c (by simp [Op.bodies])
      obtain ⟨y, hy⟩ := @hyield (if b then yes else no) (by cases b <;> simp [Op.bodies])
      exact ⟨[x, y], p', .cons (gives_of_yielded hx ht) (.singleton (gives_of_yielded hy harm)),
        reaches_arm rfl rfl rfl hx hy rfl hv, concludes_of_head rfl _ _ _ _ p'⟩

lemma operand_reaches {x : Operand} {p p' : Progress} {t : Trace}
    (h : Gives (evaluateOperand captures x) p t p') (hx : x.WellShaped) :
    ∃ xs q, InTurn (evaluateOperand captures) xs p t.children q ∧ Reaches x t xs ∧ Concludes t q p' := by
  rcases evaluateOperand_gives h with ⟨op, o, ts, rfl, rfl, hr⟩ | ⟨param, rfl, rfl, rfl⟩
  · exact hr.reaches (hx op (.refl _))
  · refine ⟨[], p', ?_, reaches_nil _ (loadParameter_children captures param), ?_⟩
    · rw [loadParameter_children]
      exact .nil p'
    · obtain ⟨v, o, hload⟩ := exists_loadParameter_eq captures param
      rw [hload]
      exact concludes_of_head rfl _ _ _ _ p'

/-! ### Whole traces -/

lemma InTurn.get {α : Type} {evaluate : α → Evaluating Trace} {xs : List α} {p p' : Progress}
    {ts : List Trace} (h : InTurn evaluate xs p ts p') {i : Nat} {c : Trace} (hc : ts[i]? = some c) :
    ∃ x q q', xs[i]? = some x ∧ Gives (evaluate x) q c q' := by
  induction h generalizing i with
  | nil => simp at hc
  | cons hx _ ih =>
    cases i with
    | zero =>
      obtain rfl := Option.some.inj hc
      exact ⟨_, _, _, rfl, hx⟩
    | succ i => exact ih hc

lemma InTurn.computesAll {xs : List Operand} {p p' : Progress} {ts : List Trace}
    (h : InTurn (evaluateOperand captures) xs p ts p') (hxs : ∀ x ∈ xs, x.WellShaped)
    (ih : ∀ c ∈ ts, ∀ x q q', Gives (evaluateOperand captures x) q c q' → x.WellShaped →
      ComputesAll c.hostRuns q q') :
    ComputesAll ((Trace.nodesOf ts).filter Trace.isHostRun) p p' := by
  induction h with
  | nil p => exact .nil p
  | cons hx _ hrest =>
    rw [Trace.nodesOf_cons, List.filter_append]
    exact (ih _ List.mem_cons_self _ _ _ hx (hxs _ List.mem_cons_self)).append
      (hrest (fun x hmem => hxs x (List.mem_cons_of_mem _ hmem)) fun c hc => ih c (List.mem_cons_of_mem _ hc))

/-- The nodes of the trace that the host has computed are, in their order, all that the host did. -/
theorem computesAll_of_gives {x : Operand} {p p' : Progress} {t : Trace}
    (h : Gives (evaluateOperand captures x) p t p') (hx : x.WellShaped) : ComputesAll t.hostRuns p p' := by
  induction t using Trace.induction_on_children generalizing x p p' with
  | step t ih =>
    obtain ⟨xs, q, hturn, hreach, hend⟩ := operand_reaches h hx
    have hxs : ∀ y ∈ xs, y.WellShaped := by
      intro y hy
      obtain ⟨i, hi⟩ := List.mem_iff_getElem?.mp hy
      exact hx.of_part (Operand.part_of_inside? (hreach.inside i y hi))
    have hbelow := hturn.computesAll hxs fun c hc y _ _ hg hy => ih c hc hg hy
    rw [Trace.hostRuns, Trace.nodes_eq, List.filter_append]
    refine hbelow.append ?_
    cases hrun : t.isHostRun with
    | true =>
      rw [Concludes, if_pos hrun] at hend
      rw [List.filter_cons_of_pos hrun]
      exact .cons hend (.nil p')
    | false =>
      obtain rfl : p' = q := by simpa [Concludes, hrun] using hend
      rw [List.filter_cons_of_neg (by simp [hrun])]
      exact .nil p'

/-- A node of the trace of an operand is the trace of what stands at its place, and every step on the way to
it is one that evaluation could take from the node where it starts. -/
structure Located (captures : Captures) (x : Operand) (t : Trace) (e : Place × Trace) : Prop where
  inside : ∃ y before after, x.inside? e.1 = some y ∧ Gives (evaluateOperand captures y) before e.2 after
  enters : ∀ outer step inner, e.1 = outer ++ step :: inner → ∃ n, (outer, n) ∈ t.places ∧ n.Enters step

theorem located_of_gives {x : Operand} {p p' : Progress} {t : Trace}
    (h : Gives (evaluateOperand captures x) p t p') (hx : x.WellShaped) :
    ∀ e ∈ t.places, Located captures x t e := by
  induction t using Trace.induction_on_children generalizing x p p' with
  | step t ih =>
    intro e he
    rcases Trace.mem_places.mp he with rfl | ⟨i, c, inner, hc, hinner, rfl⟩
    · exact ⟨⟨x, p, p', by cases x <;> rfl, h⟩, by simp⟩
    · obtain ⟨xs, q, hturn, hreach, _⟩ := operand_reaches h hx
      obtain ⟨y, r, r', hy, hg⟩ := hturn.get hc
      have hin := hreach.inside i y hy
      have hmem : c ∈ t.children := List.mem_of_getElem? hc
      have hbelow := ih c hmem hg (hx.of_part (Operand.part_of_inside? hin)) inner hinner
      constructor
      · obtain ⟨z, before, after, hz, hgz⟩ := hbelow.inside
        refine ⟨z, before, after, ?_, hgz⟩
        rw [Operand.inside?_cons, hin]
        exact hz
      · intro outer step rest heq
        cases outer with
        | nil =>
          obtain ⟨rfl, -⟩ := List.cons.inj heq
          exact ⟨t, Trace.mem_places.mpr (Or.inl rfl),
            hreach.enters i (List.getElem?_eq_some_iff.mp hc).1⟩
        | cons first outer =>
          obtain ⟨rfl, htail⟩ := List.cons.inj heq
          obtain ⟨n, hn, henters⟩ := hbelow.enters outer step rest htail
          exact ⟨n, Trace.mem_places.mpr (Or.inr ⟨i, c, (outer, n), hc, hn, rfl⟩), henters⟩

end Evaluation

/-- The op of a node that the host has computed stands at its place. -/
lemma Evaluation.Located.inside?_eq {captures : Captures} {x : Operand} {t : Trace} {e : Place × Trace}
    (h : Located captures x t e) (hrun : e.2.isHostRun = true) : x.inside? e.1 = some (.op e.2.op) := by
  obtain ⟨y, before, after, hy, hg⟩ := h.inside
  rcases evaluateOperand_gives hg with ⟨op, o, ts, rfl, hn, _⟩ | ⟨param, _, hn, _⟩
  · rw [hy, hn]
    rfl
  · obtain ⟨v, o, hload⟩ := exists_loadParameter_eq captures param
    rw [hn, hload] at hrun
    cases hrun

/-- What evaluation from a heap does to the host, in terms of the value that a predicate returns and of the
trace and the state that evaluation leaves. -/
structure HostEffects (captures : Captures) (root : Operand) (heap : Heap) (t : Trace) (p : Progress) : Prop where
  /-- The ops that the host computed are those of the nodes whose children have values, in the same order. -/
  journal : p.journal = t.hostRuns.map Trace.op
  /-- These computations are all that changed the host. -/
  computed : Evaluation.ComputesAll t.hostRuns ⟨heap, []⟩ p
  /-- Reports show the nodes in this order. -/
  reported : ∀ f, t.report f = (t.nodes.mapM (Trace.entry f)).map String.join
  /-- Each op was computed for one node at most. -/
  once : t.hostRunPlaces.map Prod.snd = t.hostRuns ∧ (t.hostRunPlaces.map Prod.fst).Nodup
  inside : ∀ e ∈ t.hostRunPlaces, root.inside? e.1 = some (.op e.2.op)
  /-- Nothing was evaluated after an operand without a value, a body that decides, or in another arm. -/
  located : ∀ e ∈ t.places, Evaluation.Located captures root t e

/-- The effects of a quoted predicate happen once and in the order of reports. -/
theorem effects_once_in_order {scope : Scope} {heap heap' : Heap} {source : String} {q : Quoted} {t : Trace}
    {p : Progress} (hq : quote scope heap source = .ok q) (ht : q.evaluate heap' = (.ok t, p)) :
    ∃ root, q.returned? = some root ∧ HostEffects q.captures root heap' t p := by
  obtain ⟨root, hroot, hshape⟩ := returned?_of_quote hq
  refine ⟨root, hroot, ?_⟩
  obtain ⟨x, hx, hg⟩ | ⟨hnone, _⟩ := Quoted.evaluate_eq_ok ht
  · obtain rfl := Option.some.inj (hroot.symm.trans hx)
    have hall := Evaluation.computesAll_of_gives hg hshape
    have hlocated := Evaluation.located_of_gives hg hshape
    refine ⟨by simpa using hall.journal, hall, fun f => t.report_eq f,
      ⟨t.map_snd_hostRunPlaces, t.nodup_hostRunPlaces⟩, ?_, hlocated⟩
    intro e he
    obtain ⟨hmem, hrun⟩ := List.mem_filter.mp he
    exact (hlocated e hmem).inside?_eq hrun
  · simp [hroot] at hnone

/-- The name of the method that an op calls. -/
def Op.callee? : Op → Option String
  | .mk (.invoke method _) _ _ => some method.name
  | _ => none

/-- The first call counts itself and decides nothing, the second one decides, and the third is not made. -/
theorem effects_once_in_order_of_calls :
    let heap : Heap := ⟨#[⟨.account, [("balance", .long 0), ("calls", .hostInt 0)]⟩], #[], Value.firstId⟩
    let scope : Scope := ⟨[], some (.object .account 0), .empty⟩
    ∃ q t p root, quote scope heap "next()>1||yes()||no()" = .ok q ∧ q.evaluate heap = (.ok t, p) ∧
      p.journal.map Op.callee? = [some "next", some "yes"] ∧
      (p.heap.attribute? 0 "calls").bind Value.whole? = some 2 ∧
      q.returned? = some root ∧ HostEffects q.captures root heap t p := by
  intro heap scope
  have hrun : (((quote scope heap "next()>1||yes()||no()").toOption.map fun q => q.evaluate heap).any fun r =>
      r.1.toOption.isSome && decide (r.2.journal.map Op.callee? = [some "next", some "yes"]) &&
        decide ((r.2.heap.attribute? 0 "calls").bind Value.whole? = some 2)) = true := by decide +kernel
  cases hq : quote scope heap "next()>1||yes()||no()" with
  | error e => simp [hq, Except.toOption] at hrun
  | ok q =>
    rcases ht : q.evaluate heap with ⟨_ | t, p⟩
    · simp [hq, ht, Except.toOption] at hrun
    · simp only [hq, ht, Except.toOption, Option.map_some, Option.any_some, Option.isSome_some, Bool.true_and,
        Bool.and_eq_true, decide_eq_true_eq] at hrun
      obtain ⟨root, hroot, heffects⟩ := effects_once_in_order hq ht
      exact ⟨q, t, p, root, rfl, ht, hrun.1, hrun.2, hroot, heffects⟩

end PredicateTrace
