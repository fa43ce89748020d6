import Mathlib.Data.List.Forall2
import PredicateTrace.Proofs.ConfinedOps

/-!
# Missing members

An op misses a member when it accesses one that its receiver or its owner does not have: attributes that are
stored, computed or answered on demand, methods of the library and methods of the built-in values are members.
That is the only failure of an op that is not an error of the evaluated program.
-/

namespace PredicateTrace

open Host (Heap HostClass Run)

variable {α β : Type} {heap heap' : Heap}

namespace Host.Run

/-- A computation ends at a member that does not exist. -/
def Misses (m : Run α) (heap : Heap) : Prop :=
  ∃ message, Stops m heap (.unresolved message)

lemma Confined.not_misses {m : Run α} (hm : m.Confined) : ¬m.Misses heap :=
  fun ⟨message, h⟩ => hm.resolved heap message h

lemma misses_bind_of_gives {m : Run α} {f : α → Run β} {a : α} (hm : Gives m heap a heap') :
    (m >>= f).Misses heap ↔ (f a).Misses heap' := by
  unfold Misses Stops
  rw [runFrom_bind, hm]

lemma Confined.misses_bind {m : Run α} {f : α → Run β} (hm : m.Confined) :
    (m >>= f).Misses heap ↔ ∃ a heap', Gives m heap a heap' ∧ (f a).Misses heap' := by
  constructor
  · rintro ⟨message, h⟩
    rcases stops_bind.mp h with h | ⟨a, heap', ha, h⟩
    · exact absurd h (hm.resolved heap message)
    · exact ⟨a, heap', ha, message, h⟩
  · rintro ⟨a, heap', ha, h⟩
    exact (misses_bind_of_gives ha).mpr h

lemma misses_bind_of_confined {m : Run α} {f : α → Run β} (hf : ∀ a, (f a).Confined) :
    (m >>= f).Misses heap ↔ m.Misses heap := by
  constructor
  · rintro ⟨message, h⟩
    rcases stops_bind.mp h with h | ⟨a, heap', -, h⟩
    · exact ⟨message, h⟩
    · exact absurd h ((hf a).resolved heap' message)
  · rintro ⟨message, h⟩
    exact ⟨message, stops_bind.mpr (Or.inl h)⟩

lemma gives_read {f : Heap → Run α} {a : α} : Gives (Run.heap >>= f) heap a heap' ↔ Gives (f heap) heap a heap' :=
  Iff.rfl

lemma misses_read {f : Heap → Run α} : (Run.heap >>= f).Misses heap ↔ (f heap).Misses heap := by
  have hread : Gives Run.heap heap heap heap := rfl
  exact misses_bind_of_gives hread

end Host.Run

open Host Host.Run

lemma misses_unresolved (message : String) : (Resolver.unresolved message : Run α).Misses heap :=
  ⟨message, rfl⟩

/-! ### Attributes -/

lemma not_gives_none {m : Run α} : ¬Gives (some <$> m) heap none heap' := by
  rw [← bind_pure_comp, gives_bind]
  rintro ⟨a, t, -, h⟩
  simp at h

/-- The lookup of an attribute finds none exactly if there is none. -/
lemma gives_getAttribute?_none {v : Value} {name : String} :
    Gives (getAttribute? v name) heap none heap' ↔ hasAttribute heap v name = false ∧ heap' = heap := by
  unfold getAttribute? hasAttribute
  rw [gives_read]
  cases hstored : storedMember? heap v name with
  | some member => cases member <;> simp [not_gives_none]
  | none =>
    cases hcomputed : computedAttribute? heap v name with
    | some w => simp
    | none =>
      by_cases hv : ∃ ref, v = .object .dyn ref
      · obtain ⟨ref, rfl⟩ := hv
        cases dynamicAttribute? name <;> simp [not_gives_none]
      · cases v with
        | object kind ref => cases kind <;> simp at hv ⊢
        | _ => simp

lemma hasAttribute_of_objects (h : heap'.objects = heap.objects) (v : Value) (name : String) :
    hasAttribute heap' v name = hasAttribute heap v name := by
  have hattribute : heap'.attribute? = heap.attribute? := by
    funext ref key
    simp only [Heap.attribute?, h]
  simp only [hasAttribute, storedMember?, computedAttribute?, hattribute, h]

/-- Two values have the same members. -/
structure SameMembers (v w : Value) : Prop where
  null : w = .null ↔ v = .null
  classOf : w.classOf = v.classOf
  attributes : ∀ heap name, hasAttribute heap w name = hasAttribute heap v name

lemma SameMembers.refl (v : Value) : SameMembers v v :=
  ⟨Iff.rfl, rfl, fun _ _ => rfl⟩

lemma sameMembers_floating (kind : Host.FloatKind) (x : Float) (i j : Nat) :
    SameMembers (.floating kind x i) (.floating kind x j) := by
  refine ⟨by simp, rfl, fun heap name => ?_⟩
  by_cases hname : name = "__class__"
  · subst hname
    rfl
  · simp [hasAttribute, storedMember?, computedAttribute?]

lemma sameMembers_hostFloat (x : Float) (i j : Nat) : SameMembers (.hostFloat x i) (.hostFloat x j) := by
  refine ⟨by simp, rfl, fun heap name => ?_⟩
  by_cases hname : name = "__class__"
  · subst hname
    rfl
  · simp [hasAttribute, storedMember?, computedAttribute?]

lemma gives_freshId : Gives freshId heap heap.nextId { heap with nextId := heap.nextId + 1 } :=
  rfl

/-- A number that gets an identity keeps its members, and no object changes. -/
lemma gives_identify (v : Value) (heap : Heap) :
    ∃ w heap', Gives (identify v) heap w heap' ∧ heap'.objects = heap.objects ∧ SameMembers v w := by
  have hsame {v : Value} : ∃ w heap', Gives (pure v : Run Value) heap w heap' ∧
      heap'.objects = heap.objects ∧ SameMembers v w :=
    ⟨v, heap, gives_pure.mpr ⟨rfl, rfl⟩, rfl, .refl v⟩
  unfold identify
  split
  · split
    · exact ⟨_, _, gives_bind.mpr ⟨_, _, gives_freshId, gives_pure.mpr ⟨rfl, rfl⟩⟩, rfl,
        sameMembers_floating _ _ _ _⟩
    · exact hsame
  · split
    · exact ⟨_, _, gives_bind.mpr ⟨_, _, gives_freshId, gives_pure.mpr ⟨rfl, rfl⟩⟩, rfl,
        sameMembers_hostFloat _ _ _⟩
    · exact hsame
  · exact hsame

lemma gives_identify_all (values : List Value) (heap : Heap) :
    ∃ ws heap', Gives (values.mapM identify) heap ws heap' ∧ heap'.objects = heap.objects ∧
      List.Forall₂ SameMembers values ws := by
  induction values generalizing heap with
  | nil => exact ⟨[], heap, gives_pure.mpr ⟨rfl, rfl⟩, rfl, .nil⟩
  | cons v values ih =>
    obtain ⟨w, heap₁, hw, hobjects, hsame⟩ := gives_identify v heap
    obtain ⟨ws, heap₂, hws, hobjects', hall⟩ := ih heap₁
    refine ⟨w :: ws, heap₂, ?_, hobjects'.trans hobjects, .cons hsame hall⟩
    rw [List.mapM_cons]
    exact gives_bind.mpr ⟨w, heap₁, hw, gives_bind.mpr ⟨ws, heap₂, hws, gives_pure.mpr ⟨rfl, rfl⟩⟩⟩

/-! ### Ops -/

/-- An op on the given values accesses a member that does not exist: its receiver is there but has no such
attribute or method, or no table defines the static member and its owner is no known class that has it. -/
inductive MissingMember (heap : Heap) : Head → List Value → Prop
  | field {field receiver} (hpresent : receiver ≠ .null)
      (hattribute : hasAttribute heap receiver field.name = false) :
      MissingMember heap (.fieldLoad field) [receiver]
  | staticField {field} (htable : Library.constant? field.owner.text field.name = none)
      (howner : ∀ c, Resolver.resolveClass field.owner = .ok c →
        hasAttribute heap (.classObject c) field.name = false) :
      MissingMember heap (.fieldLoad field) []
  | method {method receiver args} (hpresent : receiver ≠ .null)
      (htable : Library.instanceMethod? [receiver.classOf] method.name = none)
      (hnative : nativeMethod? receiver.classOf method.name = none)
      (hattribute : hasAttribute heap receiver method.name = false) :
      MissingMember heap (.invoke method true) (receiver :: args)
  | staticMethod {method values}
      (htable : Library.staticMethod? method.owner.text method.name = none)
      (howner : ∀ c, Resolver.resolveClass method.owner = .ok c →
        nativeMethod? c method.name = none ∧ hasAttribute heap (.classObject c) method.name = false) :
      MissingMember heap (.invoke method false) values

namespace Resolver

lemma misses_memberOwner {owner : TypeRef} {name : String} :
    (memberOwner owner name).Misses heap ↔
      ∀ c, resolveClass owner = .ok c → hasAttribute heap (.classObject c) name = false := by
  unfold memberOwner
  cases hc : resolveClass owner with
  | error e => simpa using misses_unresolved _
  | ok c =>
    rw [misses_read]
    cases ha : hasAttribute heap (.classObject c) name with
    | true => simpa [ha] using (confined_pure c).not_misses
    | false => simpa [ha] using misses_unresolved _

lemma misses_staticMember {owner : TypeRef} {name : String} :
    (staticMember owner name).Misses heap ↔
      ∀ c, resolveClass owner = .ok c → hasAttribute heap (.classObject c) name = false := by
  unfold staticMember
  rw [misses_bind_of_confined fun c => by grind, misses_memberOwner]

lemma misses_loadStaticField {owner : TypeRef} {name : String} :
    (loadStaticField owner name).Misses heap ↔ Library.constant? owner.text name = none ∧
      ∀ c, resolveClass owner = .ok c → hasAttribute heap (.classObject c) name = false := by
  unfold loadStaticField
  cases Library.constant? owner.text name with
  | some v => simpa using (confined_pure v).not_misses
  | none => simp only [misses_bind_of_confined fun v => confined_pure _, misses_staticMember, true_and]

lemma misses_loadField {receiver : Value} {name : String} :
    (loadField receiver name).Misses heap ↔ hasAttribute heap receiver name = false := by
  unfold loadField
  rw [(confined_getAttribute? receiver name).misses_bind]
  constructor
  · rintro ⟨_ | v, heap', ha, hmiss⟩
    · exact (gives_getAttribute?_none.mp ha).1
    · exact absurd hmiss (confined_pure _).not_misses
  · intro ha
    exact ⟨none, heap, gives_getAttribute?_none.mpr ⟨ha, rfl⟩, misses_unresolved _⟩

lemma misses_callMethod {receiver : Value} {name : String} {args : List Value} :
    (callMethod receiver name args).Misses heap ↔
      Library.instanceMethod? [receiver.classOf] name = none ∧
        nativeMethod? receiver.classOf name = none ∧ hasAttribute heap receiver name = false := by
  unfold callMethod
  cases Library.instanceMethod? [receiver.classOf] name with
  | some method =>
    simp only [Option.map_some, reduceCtorEq, false_and, iff_false]
    exact Confined.not_misses (by grind)
  | none =>
    simp only [Option.map_none, true_and]
    rw [(confined_getAttribute? receiver name).misses_bind]
    constructor
    · rintro ⟨_ | f, heap', ha, hmiss⟩
      · cases hnative : nativeMethod? receiver.classOf name with
        | none => exact ⟨rfl, (gives_getAttribute?_none.mp ha).1⟩
        | some method =>
          simp only [hnative] at hmiss
          exact absurd hmiss (Confined.not_misses (by grind))
      · exact absurd hmiss (Confined.not_misses (by grind))
    · rintro ⟨hnative, ha⟩
      refine ⟨none, heap, gives_getAttribute?_none.mpr ⟨ha, rfl⟩, ?_⟩
      simp only [hnative]
      exact misses_unresolved _

lemma nativeStatic?_eq_none {owner : TypeRef} {name : String} :
    nativeStatic? owner name = none ↔ ∀ c, resolveClass owner = .ok c → nativeMethod? c name = none := by
  unfold nativeStatic?
  cases resolveClass owner with
  | error e => simp [Except.toOption]
  | ok c => cases hnative : nativeMethod? c name <;> simp [Except.toOption, hnative]

lemma misses_callStatic {owner : TypeRef} {name : String} {args : List Value} :
    (callStatic owner name args).Misses heap ↔ Library.staticMethod? owner.text name = none ∧
      ∀ c, resolveClass owner = .ok c →
        nativeMethod? c name = none ∧ hasAttribute heap (.classObject c) name = false := by
  unfold callStatic
  cases Library.staticMethod? owner.text name with
  | some method =>
    simp only [reduceCtorEq, false_and, iff_false]
    exact Confined.not_misses (by grind)
  | none =>
    cases hn : nativeStatic? owner name with
    | none =>
      have hnone := nativeStatic?_eq_none.mp hn
      rw [misses_bind_of_confined fun c => by grind, misses_staticMember]
      simp only [true_and, forall_and]
      exact ⟨fun h => ⟨hnone, h⟩, fun h => h.2⟩
    | some native =>
      have hsome : ¬∀ c, resolveClass owner = .ok c → nativeMethod? c name = none := fun h => by
        simp [nativeStatic?_eq_none.mpr h] at hn
      simp only [true_and, forall_and, hsome, false_and, iff_false]
      refine Confined.not_misses ?_
      cases args <;> grind

end Resolver

namespace Head

lemma misses_present {receiver : Value} {f : Value → Run α} :
    (present receiver >>= f).Misses heap ↔ receiver ≠ .null ∧ (f receiver).Misses heap := by
  by_cases hnull : receiver = .null
  · subst hnull
    simp only [ne_eq, not_true_eq_false, false_and, iff_false]
    rintro ⟨message, h⟩
    cases h
  · have hpresent : present receiver = pure receiver := by
      cases receiver <;> first | exact absurd rfl hnull | rfl
    rw [hpresent, pure_bind]
    exact (and_iff_right hnull).symm

lemma misses_applyCall {method : MethodRef} {hasReceiver : Bool} {values : List Value} :
    (applyCall method hasReceiver values).Misses heap ↔
      MissingMember heap (.invoke method hasReceiver) values := by
  -- The values get identities before the call; that changes neither objects nor what members they have.
  obtain ⟨ws, heap', hws, hobjects, hsame⟩ := gives_identify_all values heap
  unfold applyCall
  rw [misses_bind_of_gives hws]
  cases hasReceiver with
  | true =>
    cases hsame with
    | nil =>
      constructor
      · intro h
        exact absurd h (confined_fault _).not_misses
      · rintro ⟨⟩
    | @cons receiver w args ws h =>
      simp only [if_true, misses_present, Resolver.misses_callMethod, ne_eq, h.null, h.classOf, h.attributes,
        hasAttribute_of_objects hobjects]
      constructor
      · rintro ⟨hpresent, htable, hnative, ha⟩
        exact .method hpresent htable hnative ha
      · rintro ⟨⟩
        exact ⟨‹_›, ‹_›, ‹_›, ‹_›⟩
  | false =>
    simp only [Bool.false_eq_true, if_false, Resolver.misses_callStatic, hasAttribute_of_objects hobjects]
    constructor
    · rintro ⟨htable, howner⟩
      exact .staticMethod htable howner
    · rintro ⟨⟩
      exact ⟨‹_›, ‹_›⟩

/-- An op fails to have an outcome exactly if it accesses a member that does not exist. -/
theorem misses_apply {head : Head} {values : List Value} :
    (head.apply values).Misses heap ↔ MissingMember heap head values := by
  unfold apply
  split
  case h_3 field =>
    rw [misses_bind_of_confined fun v => confined_pure _, Resolver.misses_loadStaticField]
    constructor
    · rintro ⟨htable, howner⟩
      exact .staticField htable howner
    · rintro ⟨⟩
      exact ⟨‹_›, ‹_›⟩
  case h_4 field receiver =>
    rw [misses_present, misses_bind_of_confined fun v => confined_pure _, Resolver.misses_loadField]
    constructor
    · rintro ⟨hpresent, ha⟩
      exact .field hpresent ha
    · rintro ⟨⟩
      exact ⟨‹_›, ‹_›⟩
  case h_5 => rw [misses_bind_of_confined fun v => confined_pure _, misses_applyCall]
  case h_17 =>
    constructor
    · intro h
      exact absurd h (confined_pure _).not_misses
    · rintro ⟨⟩ <;> simp_all
  all_goals
    constructor
    · intro h
      exact absurd h (Confined.not_misses (by grind))
    · rintro ⟨⟩

end Head

end PredicateTrace
