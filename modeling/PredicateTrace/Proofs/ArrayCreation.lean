import PredicateTrace.Proofs.Concatenation

/-!
# Creation of arrays

A new array is a tree of arrays with the sizes that its operands give. A negative size is an error only if it is
reached: inner arrays are made one by one, and none is made for an outer size of zero.
-/

namespace PredicateTrace

open Host (Heap Run)
open Typing (IsChecked accepts_of_check)

/-- What the elements of a new array are made of: a primitive type, or a class that exists. -/
def TypeRef.IsElement (t : TypeRef) : Prop :=
  (∃ p, t = .prim p) ∨ ∃ name host c, t = .named name host ∧ Resolver.resolveClass t = .ok c

/-- Arrays in arrays with the given sizes, the outermost one first. Each of them has the component type of its level,
and the innermost ones hold defaults, or `null` where further arrays could stand. -/
def Value.IsArrayTree (base : TypeRef) (extra : Nat) : List Int → Value → Prop
  | [], v => v = if extra = 0 then .default base else .null
  | size :: sizes, v => ∃ id items, v = .array id (base.arrays (sizes.length + extra)) items ∧
      (items.length : Int) = size ∧ ∀ item ∈ items, item.IsArrayTree base extra sizes

/-- The size that is refused: the first one that is not positive, if it is negative. -/
def negativeSize? (sizes : List Int) : Option Int :=
  (sizes.find? (· ≤ 0)).filter (· < 0)

lemma negativeSize?_cons (size : Int) (sizes : List Int) :
    negativeSize? (size :: sizes) =
      if size < 0 then some size else if size = 0 then none else negativeSize? sizes := by
  unfold negativeSize?
  by_cases hneg : size < 0
  · simp [hneg, Int.le_of_lt hneg]
  by_cases hzero : size = 0
  · simp [hzero]
  · have hpos : ¬size ≤ 0 := by omega
    simp [hneg, hzero, hpos]

namespace TypeRef

variable {base : TypeRef}

lemma arrays_succ (base : TypeRef) (n : Nat) : base.arrays (n + 1) = .array (base.arrays n) := by
  induction n generalizing base with
  | zero => rfl
  | succ n ih => exact ih (.array base)

lemma deepComponent_arrays (base : TypeRef) (n : Nat) : (base.arrays n).deepComponent = base.deepComponent := by
  induction n generalizing base with
  | zero => rfl
  | succ n ih => exact ih (.array base)

lemma default_arrays (base : TypeRef) (extra : Nat) :
    Value.default (base.arrays extra) = if extra = 0 then .default base else .null := by
  cases extra with
  | zero => rfl
  | succ n =>
    rw [arrays_succ]
    rfl

end TypeRef

/-! ### Making arrays -/

lemma Number.toSingle_zero : toSingle 0 = 0 := by
  have hparts : parts 0 = .finite false 0 (-1074) := by decide
  have hnearest : Format.single.nearest? 0 (-1074) = some (0, -149) := by decide +kernel
  have hzero : ofParts false 0 (-149) = 0 := by decide
  rw [toSingle, hparts]
  simp only [hnearest, hzero]

/-- If all of some computations always have results of a kind, there are as many of these as computations. -/
lemma gives_mapM_of_forall {ε σ α β : Type} {f : α → ExceptT ε (StateM σ) β} {P : β → Prop} {xs : List α}
    (hf : ∀ x ∈ xs, ∀ s, ∃ y s', Gives (f x) s y s' ∧ P y) (s : σ) :
    ∃ ys s', Gives (xs.mapM f) s ys s' ∧ ys.length = xs.length ∧ ∀ y ∈ ys, P y := by
  induction xs generalizing s with
  | nil => exact ⟨[], s, rfl, rfl, by simp⟩
  | cons x xs ih =>
    obtain ⟨hx, hxs⟩ := List.forall_mem_cons.mp hf
    obtain ⟨y, s', hy, hP⟩ := hx s
    obtain ⟨ys, s'', hys, hlength, hall⟩ := ih hxs s'
    refine ⟨y :: ys, s'', ?_, by simp [hlength], List.forall_mem_cons.mpr ⟨hP, hall⟩⟩
    rw [List.mapM_cons]
    exact gives_bind.mpr ⟨y, s', hy, gives_bind.mpr ⟨ys, s'', hys, gives_pure.mpr ⟨rfl, rfl⟩⟩⟩

namespace Host

variable {component base : TypeRef} {extra : Nat} {sizes : List Int} {heap : Heap}

/-- A default is stored as it is. -/
lemma gives_stored_default (component : TypeRef) (heap : Heap) :
    Gives (stored component (.default component)) heap (.default component) heap := by
  have hsingle : Value.coerce (.prim .float) (.single 0) = .ok (.single 0) := by
    have hmade : Value.coerce (.prim .float) (.single 0) = .ok (.single (Number.toSingle 0)) := rfl
    rw [hmade, Number.toSingle_zero]
  have hidentify (kind : FloatKind) : Run.identify (.floating kind 0 0) = pure (.floating kind 0 0) := by
    have hnumber : (0 : Float).isNaN = false := by decide
    simp only [Run.identify, hnumber, Bool.false_eq_true, if_false]
  cases component with
  | array t => rfl
  | named name host => rfl
  | prim p =>
    cases p with
    | float =>
      rw [stored, Value.default, hsingle]
      exact gives_bind.mpr ⟨_, _, rfl, by rw [Value.single, hidentify]; rfl⟩
    | double => exact gives_bind.mpr ⟨.double 0, _, rfl, by rw [Value.double, hidentify]; rfl⟩
    | _ => rfl

/-- An array is stored as it is. -/
lemma gives_stored_array (t : TypeRef) (id : Nat) (c : TypeRef) (items : List Value) (heap : Heap) :
    Gives (stored (.array t) (.array id c items)) heap (.array id c items) heap :=
  rfl

/-- Items that are stored as they are become the items of a new array. -/
lemma gives_arrayOf {items : List Value} (hitems : ∀ item ∈ items, ∀ heap, Gives (stored component item) heap item heap)
    (heap : Heap) : ∃ id heap', Gives (arrayOf component items) heap (.array id component items) heap' := by
  have hmapped : ∀ heap, Gives (items.mapM (stored component)) heap items heap := by
    induction items with
    | nil => exact fun heap => rfl
    | cons item items ih =>
      obtain ⟨hitem, hrest⟩ := List.forall_mem_cons.mp hitems
      intro heap
      rw [List.mapM_cons]
      exact gives_bind.mpr ⟨_, _, hitem heap, gives_bind.mpr ⟨_, _, ih hrest heap, gives_pure.mpr ⟨rfl, rfl⟩⟩⟩
  refine ⟨heap.nextId, { heap with nextId := heap.nextId + 1 }, ?_⟩
  rw [arrayOf]
  exact gives_bind.mpr ⟨_, _, rfl, gives_bind.mpr ⟨_, _, hmapped _, gives_pure.mpr ⟨rfl, rfl⟩⟩⟩

lemma stops_newArray_of_negative {size : Int} (hneg : size < 0) (component : TypeRef) (sizes : List Int) (heap : Heap) :
    Stops (newArray component (size :: sizes)) heap (.raised (.failure .negativeArraySize (toString size))) := by
  unfold newArray
  cases sizes <;> dsimp only <;> rw [if_pos hneg] <;> rfl

lemma newArray_of_size {size : Int} (hsize : ¬size < 0) (component : TypeRef) :
    newArray component [size] = arrayOf component (List.replicate size.toNat (.default component)) := by
  rw [newArray, if_neg hsize]

lemma newArray_of_sizes {size : Int} (hsize : ¬size < 0) (t : TypeRef) (inner : Int) (sizes : List Int) :
    newArray (.array t) (size :: inner :: sizes) =
      (List.replicate size.toNat ()).mapM (fun _ => newArray t (inner :: sizes)) >>= arrayOf (.array t) := by
  rw [newArray, if_neg hsize]

lemma not_negative_of_none {size : Int} (h : negativeSize? (size :: sizes) = none) : ¬size < 0 := fun hneg => by
  rw [negativeSize?_cons, if_pos hneg] at h
  cases h

/-- If no negative size is reached, a tree of arrays is made. -/
theorem gives_newArray (base : TypeRef) (extra : Nat) {size : Int} {sizes : List Int}
    (h : negativeSize? (size :: sizes) = none) (heap : Heap) :
    ∃ v heap', Gives (newArray (base.arrays (sizes.length + extra)) (size :: sizes)) heap v heap' ∧
      v.IsArrayTree base extra (size :: sizes) := by
  have hsize := not_negative_of_none h
  induction sizes generalizing size heap with
  | nil =>
    rw [List.length_nil, Nat.zero_add, newArray_of_size hsize]
    have hstored : ∀ item ∈ List.replicate size.toNat (Value.default (base.arrays extra)), ∀ heap,
        Gives (stored (base.arrays extra) item) heap item heap := by
      intro item hitem heap
      obtain rfl := List.eq_of_mem_replicate hitem
      exact gives_stored_default _ heap
    obtain ⟨id, heap', hmade⟩ := gives_arrayOf hstored heap
    refine ⟨_, heap', hmade, id, _, by rw [List.length_nil, Nat.zero_add], ?_, fun item hitem => ?_⟩
    · rw [List.length_replicate]
      omega
    · rw [List.eq_of_mem_replicate hitem, Value.IsArrayTree, TypeRef.default_arrays]
  | cons inner sizes ih =>
    obtain ⟨component, hcomponent⟩ : ∃ t, t = base.arrays (sizes.length + extra) := ⟨_, rfl⟩
    have harray : base.arrays ((inner :: sizes).length + extra) = .array component := by
      rw [hcomponent, ← TypeRef.arrays_succ, List.length_cons, Nat.add_right_comm]
    -- An inner array is only made if the outer one has elements, and then the inner sizes are reached.
    have hinner : ∀ u ∈ List.replicate size.toNat (), ∀ heap, ∃ v heap',
        Gives (newArray component (inner :: sizes)) heap v heap' ∧ v.IsArrayTree base extra (inner :: sizes) := by
      intro u hu heap
      have hpos : size ≠ 0 := by
        rintro rfl
        cases hu
      rw [negativeSize?_cons, if_neg hsize, if_neg hpos] at h
      rw [hcomponent]
      exact ih h heap (not_negative_of_none h)
    obtain ⟨items, heap', hitems, hlength, htrees⟩ := gives_mapM_of_forall hinner heap
    have hstored : ∀ item ∈ items, ∀ heap, Gives (stored (.array component) item) heap item heap := by
      intro item hitem heap
      obtain ⟨id, others, rfl, -⟩ := htrees item hitem
      exact gives_stored_array component id _ others heap
    obtain ⟨id, heap'', hmade⟩ := gives_arrayOf hstored heap'
    rw [harray, newArray_of_sizes hsize]
    refine ⟨_, heap'', gives_bind.mpr ⟨items, heap', hitems, hmade⟩, id, items, by rw [harray], ?_, htrees⟩
    rw [hlength, List.length_replicate]
    omega

/-- A negative size that is reached is refused. -/
theorem stops_newArray (base : TypeRef) (extra : Nat) {size refused : Int} {sizes : List Int}
    (h : negativeSize? (size :: sizes) = some refused) (heap : Heap) :
    Stops (newArray (base.arrays (sizes.length + extra)) (size :: sizes)) heap
      (.raised (.failure .negativeArraySize (toString refused))) := by
  induction sizes generalizing size heap with
  | nil =>
    rw [negativeSize?_cons] at h
    split at h
    · next hneg =>
      obtain rfl := Option.some.inj h
      exact stops_newArray_of_negative hneg _ _ heap
    · split at h <;> cases h
  | cons inner sizes ih =>
    rw [negativeSize?_cons] at h
    split at h
    · next hneg =>
      obtain rfl := Option.some.inj h
      exact stops_newArray_of_negative hneg _ _ heap
    · next hsize =>
      split at h
      · cases h
      · next hzero =>
        obtain ⟨count, hcount⟩ : ∃ count, size.toNat = count + 1 := ⟨size.toNat - 1, by omega⟩
        have harray : base.arrays ((inner :: sizes).length + extra) = .array (base.arrays (sizes.length + extra)) := by
          rw [← TypeRef.arrays_succ, List.length_cons, Nat.add_right_comm]
        rw [harray, newArray_of_sizes hsize, hcount, List.replicate_succ, List.mapM_cons]
        exact stops_bind.mpr (Or.inl (stops_bind.mpr (Or.inl (ih h heap))))

end Host

/-! ### The node of a creation -/

variable {base : TypeRef} {extra : Nat} {sizes : List Int}

/-- What the creation of arrays with some sizes comes to. -/
def Outcome.CreatesArrays (base : TypeRef) (extra : Nat) (sizes : List Int) (o : Outcome) : Prop :=
  match negativeSize? sizes with
  | some size => o = .threw (.failure .negativeArraySize (toString size))
  | none => ∃ v, o = .value v ∧ v.IsArrayTree base extra sizes

lemma Head.makeArray_of_isElement (h : base.IsElement) (count : Nat) (sizes : List Int) :
    makeArray (base.arrays count) (sizes.map (.integral .int)) =
      Host.newArray (base.arrays count) sizes >>= fun v => pure (some v) := by
  have hindices : (sizes.map (Value.integral .int)).mapM index? = some sizes := by
    induction sizes with
    | nil => rfl
    | cons size sizes ih =>
      rw [List.map_cons, List.mapM_cons, ih]
      rfl
  rw [makeArray, hindices, TypeRef.deepComponent_arrays]
  obtain ⟨p, rfl⟩ | ⟨name, host, c, rfl, hc⟩ := h
  · rfl
  · simp only [TypeRef.deepComponent, hc]
    rfl

namespace Evaluation

variable {captures : Captures} {before after : Progress} {n : Trace} {xs : List Operand}

lemma createsArrays_of_apply {p p' : Progress} {o : Outcome} {size : Int} (hbase : base.IsElement)
    (h : Gives (outcomeOf (Head.apply (.new (base.arrays ((size :: sizes).length + extra)))
      ((size :: sizes).map (.integral .int)))) p o p') : o.CreatesArrays base extra (size :: sizes) := by
  have harray : base.arrays ((size :: sizes).length + extra) = .array (base.arrays (sizes.length + extra)) := by
    rw [← TypeRef.arrays_succ, List.length_cons, Nat.add_right_comm]
  have happly (t : TypeRef) (vs : List Value) : Head.apply (.new (.array t)) vs = Head.makeArray t vs := rfl
  rw [harray, happly, Head.makeArray_of_isElement hbase] at h
  obtain ⟨-, ho⟩ := gives_outcomeOf.mp h
  rw [runFrom_bind] at ho
  unfold Outcome.CreatesArrays
  cases hsizes : negativeSize? (size :: sizes) with
  | some refused =>
    have hstops := Host.stops_newArray base extra hsizes p.heap
    unfold Stops at hstops
    generalize runFrom (Host.newArray _ _) p.heap = made at ho hstops
    obtain ⟨r, heap'⟩ := made
    obtain rfl : r = .error _ := hstops
    exact ho
  | none =>
    obtain ⟨v, heap', hgives, hv⟩ := Host.gives_newArray base extra hsizes p.heap
    unfold Gives at hgives
    rw [hgives] at ho
    exact ⟨v, ho, hv⟩

/-- The node of a creation whose operands have values of type `int`. -/
lemma createsArrays_of_gives (hbase : base.IsElement) (hxs : xs ≠ [])
    (h : Gives (evaluateOperand captures (.op (.of (.new (base.arrays (xs.length + extra))) xs))) before n after)
    (hsizes : n.children.map Trace.value? = sizes.map fun size => some (.integral .int size)) :
    sizes.length = xs.length ∧ n.outcome.CreatesArrays base extra sizes := by
  obtain ⟨r, q, hoperands, hnodes, ho⟩ := gives_after_operands rfl h
  have hvalues : r.nodes.map Trace.value? = (sizes.map (Value.integral .int)).map some := by
    rw [← hnodes, hsizes, List.map_map]
    rfl
  obtain ⟨hfailed, hall, hlength⟩ := hoperands.of_values hvalues
  rw [List.length_map] at hlength
  rw [hfailed, hall] at ho
  cases sizes with
  | nil => exact absurd (List.eq_nil_of_length_eq_zero hlength.symm) hxs
  | cons size sizes =>
    rw [← hlength] at ho
    exact ⟨hlength, createsArrays_of_apply hbase ho⟩

end Evaluation

/-- Whenever a predicate is evaluated, the node at a place whose operands have values of type `int` creates arrays of
these sizes. -/
def Quoted.CreatesArrays (q : Quoted) (place : Place) (base : TypeRef) (count extra : Nat) : Prop :=
  ∀ later t p, q.evaluate later = (.ok t, p) → ∀ n sizes, (place, n) ∈ t.places →
    (n.children.map Trace.value? = sizes.map fun size => some (.integral .int size)) →
      sizes.length = count ∧ n.outcome.CreatesArrays base extra sizes

namespace Lowering

variable {scope : Scope} {heap : Heap} {note : Typing}

/-- An operand is what an expression is lowered to, converted to `int` if it has another type. -/
def BecomesSize (scope : Scope) (heap : Heap) (e : TypedExpr) (x : Operand) : Prop :=
  ∃ y, Becomes scope heap e y ∧ x = if needsConversion e.type .int then .op (.of (.conv (.prim .int)) [y]) else y

lemma results_size (e : TypedExpr) :
    Results (BecomesSize scope heap e) (lower scope heap e >>= fun x => convert x e.type (some .int)) := by
  refine (results_becomes scope heap e).bind fun y hy => ?_
  unfold convert
  dsimp only
  split
  · next hneeds => exact results_emit ⟨y, hy, by rw [if_pos hneeds]⟩
  · next hneeds => exact results_pure ⟨y, hy, by rw [if_neg hneeds]⟩

lemma results_sizes (place : Nat) {dims : List TypedExpr}
    (hnote : ∀ i < dims.length, conversionAt note (place + i) = some .int) :
    Results (List.Forall₂ (BecomesSize scope heap) dims) (lowerArgs scope heap note place dims) := by
  induction dims generalizing place with
  | nil =>
    rw [lowerArgs]
    exact results_pure .nil
  | cons dim dims ih =>
    have hfirst : conversionAt note place = some .int := by simpa using hnote 0 (by simp)
    rw [lowerArgs, hfirst, ← bind_assoc]
    have hrest : ∀ i < dims.length, conversionAt note (place + 1 + i) = some .int := fun i hi => by
      rw [Nat.add_right_comm, Nat.add_assoc]
      exact hnote (i + 1) (by simpa using hi)
    exact (results_size dim).bind fun x hx => (ih (place + 1) hrest).bind fun xs hxs => results_pure (.cons hx hxs)

/-- The creation of arrays is lowered to an op on the lowered sizes. -/
lemma results_newArray {t : TypeName} {dims : List TypedExpr} {extra : Nat}
    (h : IsChecked scope heap (.newArray note t dims extra)) :
    Results (fun z => ∃ xs,
      z = .op (.of (.new ((Typing.writtenType scope.resolver t).arrays (dims.length + extra))) xs) ∧
        List.Forall₂ (BecomesSize scope heap) dims xs) (lower scope heap (.newArray note t dims extra)) := by
  obtain ⟨_, h⟩ := h
  cases accepts_of_check h with
  | newArray =>
    rw [lower]
    refine (results_sizes 0 fun i hi => ?_).bind fun xs hxs => results_emit ⟨xs, rfl, hxs⟩
    rw [Nat.zero_add, conversionAt, Typing.converting, Option.getD_some, List.getElem?_map,
      List.getElem?_eq_getElem hi]
    rfl

lemma createsArrays_at {te : TypedExpr} {place : Place} {base : TypeRef} {extra : Nat} {xs : List Operand}
    (hbase : base.IsElement) (hxs : xs ≠ []) (hplace : (root scope heap te).inside? place =
      some (.op (.of (.new (base.arrays (xs.length + extra))) xs))) :
    (quote scope heap te).CreatesArrays place base xs.length extra := by
  intro later t p ht n sizes hn hsizes
  obtain ⟨before, after, -, hg⟩ := gives_of_mem_places hplace ht hn
  exact Evaluation.createsArrays_of_gives hbase hxs hg hsizes

end Lowering

/-- In an accepted predicate, the creation of arrays from sizes of type `int` gives a tree of arrays of these sizes,
with the component type of each level and with defaults or `null` in the innermost ones. A negative size is an error
if no size before it is zero, and is not looked at otherwise. -/
theorem array_creation {scope : Scope} {heap : Heap} {e : Expr Position} {te : TypedExpr} {note : Typing}
    {t : TypeName} {dims : List TypedExpr} {extra : Nat} (h : Typing.checkPredicate scope heap e = .ok te)
    (hu : (Expr.newArray note t dims extra).Within te) (hdims : dims ≠ [])
    (hbase : (Typing.writtenType scope.resolver t).IsElement) :
    (∃ place z, (Lowering.root scope heap te).inside? place = some z ∧
      Lowering.Becomes scope heap (.newArray note t dims extra) z) ∧
      ∀ place z, (Lowering.root scope heap te).inside? place = some z →
        Lowering.Becomes scope heap (.newArray note t dims extra) z →
          ∃ xs, z = .op (.of (.new ((Typing.writtenType scope.resolver t).arrays (dims.length + extra))) xs) ∧
            List.Forall₂ (Lowering.BecomesSize scope heap) dims xs ∧
            (Lowering.quote scope heap te).CreatesArrays place (Typing.writtenType scope.resolver t) dims.length
              extra := by
  have hchecked := IsChecked.within ⟨e, (Typing.checkPredicate_eq_ok.mp h).1⟩ hu
  have hresults := Lowering.results_newArray hchecked
  constructor
  · have hplain (z : Operand) (hz : Lowering.Becomes scope heap (.newArray note t dims extra) z) :
        z.isChain = false := by
      obtain ⟨builder, rfl⟩ := hz
      obtain ⟨xs, heq, -⟩ := hresults builder
      rw [heq]
      rfl
    obtain ⟨z, hpart, hz⟩ := Lowering.contains_of_within hplain hu ⟨[], []⟩
    obtain ⟨place, hplace⟩ := hpart.exists_inside?
    exact ⟨place, z, hplace, hz⟩
  · rintro place z hplace ⟨builder, hz⟩
    obtain ⟨xs, rfl, hxs⟩ := hz ▸ hresults builder
    have hlength := hxs.length_eq
    have hne : xs ≠ [] := by
      rintro rfl
      exact hdims (List.eq_nil_of_length_eq_zero hlength)
    refine ⟨xs, rfl, hxs, ?_⟩
    rw [hlength] at hplace ⊢
    exact Lowering.createsArrays_at hbase hne hplace

/-- Two arrays of three zeros in an array, which is not `null`. -/
theorem array_creation_of_zeros :
    let scope : Scope := ⟨[], none, .empty⟩
    let t : TypeName := ⟨.primitive .int, 0, ⟨1, 5⟩⟩
    let e : Expr Position := .binary ⟨1, 15⟩ (.compare .eq)
      (.newArray ⟨1, 1⟩ t [.literal ⟨1, 9⟩ (.int 2), .literal ⟨1, 12⟩ (.int 3)] 0) (.literal ⟨1, 18⟩ .null)
    let dims : List TypedExpr :=
      [.literal (.plain ⟨1, 9⟩ (.prim .int)) (.int 2), .literal (.plain ⟨1, 12⟩ (.prim .int)) (.int 3)]
    let note : Typing := .converting ⟨1, 1⟩ (.array (.array (.prim .int))) [some .int, some .int]
    let te : TypedExpr := .binary (.converting ⟨1, 15⟩ (.prim .boolean) [none, none]) (.compare .eq)
      (.newArray note t dims 0) (.literal (.plain ⟨1, 18⟩ .null) .null)
    Typing.checkPredicate scope Heap.empty e = .ok te ∧ (Expr.newArray note t dims 0).Within te ∧ dims ≠ [] ∧
      (Typing.writtenType scope.resolver t).IsElement ∧
      ((Lowering.quote scope Heap.empty te).rootOutcome Heap.empty).1 = .ok (.value (.bool false)) ∧
      (∃ place z, (Lowering.root scope Heap.empty te).inside? place = some z ∧
        Lowering.Becomes scope Heap.empty (.newArray note t dims 0) z) ∧
      ∀ place z, (Lowering.root scope Heap.empty te).inside? place = some z →
        Lowering.Becomes scope Heap.empty (.newArray note t dims 0) z →
          ∃ xs, z = .op (.of (.new (.array (.array (.prim .int)))) xs) ∧
            List.Forall₂ (Lowering.BecomesSize scope Heap.empty) dims xs ∧
            (Lowering.quote scope Heap.empty te).CreatesArrays place (.prim .int) 2 0 := by
  intro scope t e dims note te
  have h : Typing.checkPredicate scope Heap.empty e = .ok te := by rfl
  have hu : (Expr.newArray note t dims 0).Within te := .single List.mem_cons_self
  have hdims : dims ≠ [] := List.cons_ne_nil _ _
  have hbase : (Typing.writtenType scope.resolver t).IsElement := .inl ⟨.int, rfl⟩
  exact ⟨h, hu, hdims, hbase, rfl, array_creation h hu hdims hbase⟩

/-- The negative size of the inner arrays is not refused where there are none. -/
theorem negative_size_unreached :
    let scope : Scope := ⟨[], none, .empty⟩
    let t : TypeName := ⟨.primitive .int, 0, ⟨1, 5⟩⟩
    let e : Expr Position := .binary ⟨1, 16⟩ (.compare .eq)
      (.newArray ⟨1, 1⟩ t [.literal ⟨1, 9⟩ (.int 0), .unary ⟨1, 12⟩ .minus (.literal ⟨1, 13⟩ (.int 1))] 0)
      (.literal ⟨1, 19⟩ .null)
    ∃ te note dims trace p n id, Typing.checkPredicate scope Heap.empty e = .ok te ∧
      (Expr.newArray note t dims 0).Within te ∧
      (Lowering.quote scope Heap.empty te).evaluate Heap.empty = (.ok trace, p) ∧ n ∈ trace.children ∧
      Lowering.Becomes scope Heap.empty (.newArray note t dims 0) (.op n.op) ∧
      n.children.map Trace.value? = [some (.integral .int 0), some (.integral .int (-1))] ∧
      n.outcome = .value (.array id (.array (.prim .int)) []) := by
  intro scope t e
  exact ⟨_, _, _, _, _, _, _, rfl, .single List.mem_cons_self, rfl, List.mem_cons_self, ⟨⟨[], []⟩, rfl⟩, rfl, rfl⟩

end PredicateTrace
