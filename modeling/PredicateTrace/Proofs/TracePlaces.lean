import Mathlib.Data.List.Nodup
import PredicateTrace.Proofs.EvaluatedParts

/-!
# Places

Where in a predicate the nodes of a trace come from. A place is a path of steps into an operand, from an op
to one of its operands or to the value that one of its bodies yields. Every node of a trace has a place of
its own, and the places are listed in the order of the nodes.
-/

namespace PredicateTrace

/-- A step into an op: to an operand, or to the value that a body yields. -/
inductive Step
  | operand (i : Nat)
  | body (i : Nat)

abbrev Place := List Step

/-- What stands at a place inside of an operand. -/
def Operand.inside? : Operand → Place → Option Operand
  | x, [] => some x
  | .op parent, .operand i :: rest => parent.operands[i]?.bind fun y => y.inside? rest
  | .op parent, .body i :: rest => (parent.bodies[i]?.bind Body.yielded?).bind fun y => y.inside? rest
  | .param _, _ :: _ => none

@[simp]
lemma Operand.inside?_nil (x : Operand) : x.inside? [] = some x := by
  cases x <;> rfl

lemma Operand.inside?_operand {op : Op} {i : Nat} {x : Operand} (h : op.operands[i]? = some x) :
    (Operand.op op).inside? [.operand i] = some x := by
  rw [inside?, h, Option.bind_some, inside?_nil]

lemma Operand.inside?_body {op : Op} {i : Nat} {body : Body} {x : Operand} (hb : op.bodies[i]? = some body)
    (hx : body.yielded? = some x) : (Operand.op op).inside? [.body i] = some x := by
  rw [inside?, hb, Option.bind_some, hx, Option.bind_some, inside?_nil]

lemma Operand.inside?_cons (x : Operand) (step : Step) (rest : Place) :
    x.inside? (step :: rest) = (x.inside? [step]).bind fun y => y.inside? rest := by
  rcases x with op | param
  · cases step <;> simp [inside?, Option.bind_assoc]
  · simp [inside?]

lemma Operand.inside?_append (x : Operand) (outer inner : Place) :
    x.inside? (outer ++ inner) = (x.inside? outer).bind fun y => y.inside? inner := by
  induction outer generalizing x with
  | nil => rw [List.nil_append, inside?_nil, Option.bind_some]
  | cons step rest ih =>
    rw [List.cons_append, inside?_cons, inside?_cons x step rest, Option.bind_assoc]
    exact Option.bind_congr fun y _ => ih y

/-- What stands inside of an operand is a part of it. -/
lemma Operand.part_of_inside? {x y : Operand} {place : Place} (h : x.inside? place = some y) : Part y x := by
  induction place generalizing x with
  | nil =>
    obtain rfl : x = y := by simpa [inside?] using h
    exact .refl x
  | cons step rest ih =>
    rcases x with op | param
    · cases step with
      | operand i =>
        rw [inside?] at h
        obtain ⟨z, hz, hy⟩ := Option.bind_eq_some_iff.mp h
        exact .operand (List.mem_of_getElem? hz) (ih hy)
      | body i =>
        rw [inside?] at h
        obtain ⟨z, hz, hy⟩ := Option.bind_eq_some_iff.mp h
        obtain ⟨body, hbody, hz⟩ := Option.bind_eq_some_iff.mp hz
        exact .yielded (List.mem_of_getElem? hbody) hz (ih hy)
    · simp [inside?] at h

/-- A part of an operand stands somewhere inside of it. -/
lemma Operand.Part.exists_inside? {x y : Operand} (h : Part y x) : ∃ place, x.inside? place = some y := by
  induction h with
  | refl x => exact ⟨[], x.inside?_nil⟩
  | operand hx _ ih =>
    obtain ⟨i, hi⟩ := List.mem_iff_getElem?.mp hx
    obtain ⟨place, hplace⟩ := ih
    exact ⟨.operand i :: place, by rw [inside?, hi, Option.bind_some, hplace]⟩
  | yielded hb hx _ ih =>
    obtain ⟨i, hi⟩ := List.mem_iff_getElem?.mp hb
    obtain ⟨place, hplace⟩ := ih
    exact ⟨.body i :: place, by rw [inside?, hi, Option.bind_some, hx, Option.bind_some, hplace]⟩

namespace Trace

/-- The step from a node to its child with a number. The arm that a conditional has chosen is the child
after the condition. -/
def stepTo (t : Trace) (i : Nat) : Step :=
  match t.op.head with
  | .condAnd | .condOr => .body i
  | .ternary _ =>
    if i = 0 ∨ t.children.head?.bind Evaluation.truth? = some true then .body i else .body (i + 1)
  | _ => .operand i

mutual

/-- The nodes of a trace with their places, children before parents. -/
def places : Trace → List (Place × Trace)
  | .node op outcome children =>
    placesOf (stepTo (.node op outcome children)) 0 children ++ [([], .node op outcome children)]

/-- The nodes below a node with their places, given the steps to its children from the `i`-th on. -/
def placesOf (steps : Nat → Step) (i : Nat) : List Trace → List (Place × Trace)
  | [] => []
  | t :: rest => (places t).map (fun e => (steps i :: e.1, e.2)) ++ placesOf steps (i + 1) rest

end

lemma places_eq (t : Trace) : t.places = placesOf t.stepTo 0 t.children ++ [([], t)] := by
  cases t
  rw [places, children]

lemma map_snd_placesOf {ts : List Trace} (h : ∀ t ∈ ts, t.places.map Prod.snd = t.nodes)
    (steps : Nat → Step) (i : Nat) : (placesOf steps i ts).map Prod.snd = nodesOf ts := by
  induction ts generalizing i with
  | nil => simp [placesOf]
  | cons t rest ih =>
    have hrest := ih (fun s hs => h s (List.mem_cons_of_mem _ hs)) (i + 1)
    have ht := h t List.mem_cons_self
    rw [placesOf, List.map_append, List.map_map, hrest, nodesOf_cons, ← ht]
    rfl

/-- The places are those of the nodes, in the same order. -/
theorem map_snd_places (t : Trace) : t.places.map Prod.snd = t.nodes := by
  induction t using induction_on_children with
  | step t ih =>
    rw [places_eq, nodes_eq, List.map_append, map_snd_placesOf ih]
    rfl

lemma mem_placesOf {e : Place × Trace} {steps : Nat → Step} {i : Nat} {ts : List Trace} :
    e ∈ placesOf steps i ts ↔
      ∃ j c inner, ts[j]? = some c ∧ inner ∈ c.places ∧ e = (steps (i + j) :: inner.1, inner.2) := by
  induction ts generalizing i with
  | nil => simp [placesOf]
  | cons t rest ih =>
    rw [placesOf, List.mem_append, ih, List.mem_map]
    constructor
    · rintro (⟨inner, hinner, rfl⟩ | ⟨j, c, inner, hc, hinner, rfl⟩)
      · exact ⟨0, t, inner, rfl, hinner, rfl⟩
      · exact ⟨j + 1, c, inner, hc, hinner, by rw [Nat.add_assoc, Nat.add_comm 1 j]⟩
    · rintro ⟨j, c, inner, hc, hinner, rfl⟩
      cases j with
      | zero =>
        obtain rfl : t = c := Option.some.inj hc
        exact Or.inl ⟨inner, hinner, rfl⟩
      | succ j =>
        exact Or.inr ⟨j, c, inner, hc, hinner, by rw [Nat.add_assoc, Nat.add_comm 1 j]⟩

/-- A node inside of a trace is the root, or is inside of one of its children. -/
lemma mem_places {e : Place × Trace} {t : Trace} :
    e ∈ t.places ↔ e = ([], t) ∨
      ∃ i c inner, t.children[i]? = some c ∧ inner ∈ c.places ∧ e = (t.stepTo i :: inner.1, inner.2) := by
  rw [places_eq, List.mem_append, mem_placesOf, List.mem_singleton, or_comm]
  simp only [Nat.zero_add]

/-- What stands below a place is found through the node at that place. -/
lemma exists_of_mem_places_append {t d : Trace} {outer inner : Place} (h : (outer ++ inner, d) ∈ t.places) :
    ∃ n, (outer, n) ∈ t.places ∧ (inner, d) ∈ n.places := by
  induction outer generalizing t with
  | nil => exact ⟨t, mem_places.mpr (Or.inl rfl), h⟩
  | cons step rest ih =>
    rcases mem_places.mp h with hroot | ⟨i, c, ⟨place, m⟩, hc, hm, heq⟩
    · cases hroot
    · obtain ⟨⟨rfl, rfl⟩, rfl⟩ : (step = t.stepTo i ∧ rest ++ inner = place) ∧ d = m := by simpa using heq
      obtain ⟨n, hn, hd⟩ := ih hm
      exact ⟨n, mem_places.mpr (Or.inr ⟨i, c, (rest, n), hc, hn, rfl⟩), hd⟩

lemma child_of_mem_places {t d : Trace} {step : Step} (h : ([step], d) ∈ t.places) :
    ∃ i, t.children[i]? = some d ∧ t.stepTo i = step := by
  rcases mem_places.mp h with hroot | ⟨i, c, ⟨place, m⟩, hc, hm, heq⟩
  · cases hroot
  · obtain ⟨⟨rfl, rfl⟩, rfl⟩ : (step = t.stepTo i ∧ [] = place) ∧ d = m := by simpa using heq
    rcases mem_places.mp hm with hself | ⟨_, _, _, _, _, habsurd⟩
    · obtain rfl : d = c := by simpa using hself
      exact ⟨i, hc, rfl⟩
    · cases habsurd

lemma stepTo_injective (t : Trace) : Function.Injective t.stepTo := by
  intro i j h
  unfold stepTo at h
  split at h
  · exact Step.body.inj h
  · exact Step.body.inj h
  · by_cases hchosen : t.children.head?.bind Evaluation.truth? = some true
    · simpa only [hchosen, or_true, if_true, Step.body.injEq] using h
    · simp only [hchosen, or_false] at h
      split at h <;> split at h <;> have hij := Step.body.inj h <;> omega
  · exact Step.operand.inj h

lemma nodup_placesOf {ts : List Trace} (h : ∀ t ∈ ts, (t.places.map Prod.fst).Nodup) {steps : Nat → Step}
    (hsteps : Function.Injective steps) (i : Nat) : ((placesOf steps i ts).map Prod.fst).Nodup := by
  induction ts generalizing i with
  | nil => simp [placesOf]
  | cons t rest ih =>
    have hrest := ih (fun s hs => h s (List.mem_cons_of_mem _ hs)) (i + 1)
    have ht : ((t.places.map Prod.fst).map (steps i :: ·)).Nodup :=
      List.Nodup.map List.cons_injective (h t List.mem_cons_self)
    rw [placesOf, List.map_append, List.map_map, List.nodup_append]
    refine ⟨by simpa [List.map_map, Function.comp_def] using ht, hrest, ?_⟩
    intro place hplace other hother heq
    obtain ⟨e, _, rfl⟩ := List.mem_map.mp hplace
    obtain ⟨e', he', rfl⟩ := List.mem_map.mp hother
    obtain ⟨j, _, _, _, _, rfl⟩ := mem_placesOf.mp he'
    have hstep : steps i = steps (i + 1 + j) := (List.cons.inj heq).1
    have hij := hsteps hstep
    omega

/-- No two nodes of a trace have the same place. -/
theorem nodup_places (t : Trace) : (t.places.map Prod.fst).Nodup := by
  induction t using induction_on_children with
  | step t ih =>
    rw [places_eq, List.map_append, List.nodup_append]
    refine ⟨nodup_placesOf ih t.stepTo_injective 0, by simp, ?_⟩
    intro place hplace other hother heq
    obtain ⟨e, he, rfl⟩ := List.mem_map.mp hplace
    obtain ⟨_, _, _, _, _, rfl⟩ := mem_placesOf.mp he
    simp at hother
    simp [hother] at heq

/-- What evaluation has found before it takes a step from a node: values of all operands before the operand,
truth values that do not decide of all bodies before the body of a short-circuit operator, and the truth
value of the condition that chooses the arm. -/
inductive Enters (t : Trace) : Step → Prop
  | operand {i} (h : ∀ j < i, ∃ c, t.children[j]? = some c ∧ c.hasValue = true) : Enters t (.operand i)
  | body {i decisive} (hd : t.op.head.decisive? = some decisive)
      (h : ∀ j < i, ∃ c, t.children[j]? = some c ∧ c.value? = some (.bool !decisive)) : Enters t (.body i)
  | condition {type} (hh : t.op.head = .ternary type) : Enters t (.body 0)
  | arm {type test b} (hh : t.op.head = .ternary type) (hc : t.children[0]? = some test)
      (hv : test.value? = some (.bool b)) : Enters t (.body (if b then 1 else 2))

end Trace

end PredicateTrace
