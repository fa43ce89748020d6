import PredicateTrace.Host.Native
import PredicateTrace.Proofs.Running

/-!
# Confined computations

Captured variables share the heap with the objects, but nothing that the host computes is about them: it gives
the same whatever they hold, and leaves them as they are. Nor does it look for a member that may be missing;
only the resolver does. Both are kept by every way of putting computations together, so that one lemma for each
function of the host says so.
-/

namespace PredicateTrace

open Host (Heap Run)

variable {α β : Type}

/-- The heap with other values in the places of captured variables. -/
def Host.Heap.withSlots (heap : Heap) (slots : Array Value) : Heap :=
  { heap with slots }

namespace Host.Run

/-- A computation neither reads nor changes what captured variables hold. -/
def Blind (m : Run α) : Prop :=
  ∀ heap slots, runFrom m (heap.withSlots slots) =
    ((runFrom m heap).1, (runFrom m heap).2.withSlots slots)

/-- A computation of which captured variables are no part, and which misses no member. -/
structure Confined (m : Run α) : Prop where
  blind : m.Blind
  resolved : ∀ heap message, ¬Stops m heap (.unresolved message)

attribute [grind ←] Confined.blind

@[grind ←]
lemma confined_pure (a : α) : Confined (pure a : Run α) :=
  ⟨fun _ _ => rfl, fun _ _ h => nomatch h⟩

@[grind ←]
lemma confined_raise (e : Throwable) : Confined (raise e : Run α) :=
  ⟨fun _ _ => rfl, fun _ _ h => nomatch h⟩

@[grind ←]
lemma confined_fault (kind : FaultKind) : Confined (fault kind : Run α) :=
  confined_raise _

@[grind ←]
lemma Blind.bind {m : Run α} {f : α → Run β} (hm : m.Blind) (hf : ∀ a, (f a).Blind) :
    (m >>= f).Blind := by
  intro heap slots
  rw [runFrom_bind, runFrom_bind, hm]
  rcases runFrom m heap with ⟨_ | a, heap'⟩
  · rfl
  · exact hf a heap' slots

@[grind ←]
lemma Confined.bind {m : Run α} {f : α → Run β} (hm : m.Confined) (hf : ∀ a, (f a).Confined) :
    (m >>= f).Confined := by
  refine ⟨hm.blind.bind fun a => (hf a).blind, fun heap message h => ?_⟩
  rcases stops_bind.mp h with h | ⟨a, heap', -, h⟩
  · exact hm.resolved heap message h
  · exact (hf a).resolved heap' message h

/-- What is read from the heap must not be about captured variables. -/
@[grind ←]
lemma Blind.read {f : Heap → Run α} (hf : ∀ heap, (f heap).Blind)
    (hslots : ∀ heap slots, f (heap.withSlots slots) = f heap) : (Run.heap >>= f).Blind := by
  intro heap slots
  have hread : ∀ t, runFrom (Run.heap >>= f) t = runFrom (f t) t := fun _ => rfl
  rw [hread, hread, hslots, hf heap]

@[grind ←]
lemma Confined.read {f : Heap → Run α} (hf : ∀ heap, (f heap).Confined)
    (hslots : ∀ heap slots, f (heap.withSlots slots) = f heap) : (Run.heap >>= f).Confined :=
  ⟨.read (fun heap => (hf heap).blind) hslots, fun heap message => (hf heap).resolved heap message⟩

@[grind ←]
lemma Confined.mapM {f : α → Run β} (hf : ∀ a, (f a).Confined) (xs : List α) :
    (xs.mapM f).Confined := by
  induction xs with
  | nil => exact confined_pure _
  | cons x xs ih =>
    rw [List.mapM_cons]
    exact (hf x).bind fun y => ih.bind fun ys => confined_pure _

@[grind ←]
lemma Confined.foldlM {f : β → α → Run β} (hf : ∀ b a, (f b a).Confined) (xs : List α) (b : β) :
    (xs.foldlM f b).Confined := by
  induction xs generalizing b with
  | nil => exact confined_pure _
  | cons x xs ih =>
    rw [List.foldlM_cons]
    exact (hf b x).bind ih

lemma runFrom_tryCatch (m : Run α) (handle : Failure → Run α) (heap : Heap) :
    runFrom (tryCatch m handle) heap = match runFrom m heap with
      | (.ok a, heap') => (.ok a, heap')
      | (.error e, heap') => runFrom (handle e) heap' := by
  have hrun : StateT.run m heap = runFrom m heap := rfl
  change StateT.run (ExceptT.tryCatch m handle) heap = _
  simp only [ExceptT.tryCatch, ExceptT.mk, StateT.run_bind, hrun]
  rcases runFrom m heap with ⟨_ | a, heap'⟩ <;> rfl

@[grind ←]
lemma Confined.tryCatch {m : Run α} {handle : Failure → Run α} (hm : m.Confined)
    (hraised : ∀ e, (handle (.raised e)).Confined) : (MonadExcept.tryCatch m handle).Confined := by
  refine ⟨fun heap slots => ?_, fun heap message h => ?_⟩
  · rw [runFrom_tryCatch, runFrom_tryCatch, hm.blind]
    have hres := hm.resolved heap
    unfold Stops at hres
    rcases hrun : runFrom m heap with ⟨(e | message) | a, heap'⟩ <;> rw [hrun] at hres
    · exact (hraised e).blind heap' slots
    · exact absurd rfl (hres message)
  · have hres := hm.resolved heap
    unfold Stops at h hres
    rw [runFrom_tryCatch] at h
    rcases hrun : runFrom m heap with ⟨(e | missing) | a, heap'⟩ <;> rw [hrun] at h hres
    · exact (hraised e).resolved heap' message h
    · exact hres missing rfl
    · cases h

end Host.Run

namespace Host

open Run

/-! ### What is read about objects -/

namespace Heap

@[simp, grind =]
lemma attribute?_withSlots (heap : Heap) (slots : Array Value) :
    (heap.withSlots slots).attribute? = heap.attribute? := rfl

@[simp, grind =]
lemma objects_withSlots (heap : Heap) (slots : Array Value) :
    (heap.withSlots slots).objects = heap.objects := rfl

lemma sameAt_withSlots (heap : Heap) (slots : Array Value) (depth : Nat) :
    (heap.withSlots slots).sameAt depth = heap.sameAt depth := by
  induction depth with
  | zero => rfl
  | succ depth ih =>
    funext a b
    simp only [sameAt, ih, attribute?_withSlots, objects_withSlots]

@[simp, grind =]
lemma same_withSlots (heap : Heap) (slots : Array Value) :
    (heap.withSlots slots).same = heap.same := by
  funext a b
  simp only [same, sameAt_withSlots, objects_withSlots]

lemma objectText_withSlots (heap : Heap) (slots : Array Value) (depth : Nat) :
    (heap.withSlots slots).objectText depth = heap.objectText depth := by
  induction depth with
  | zero => rfl
  | succ depth ih =>
    funext ref
    simp only [objectText, ih, attribute?_withSlots, objects_withSlots]

@[simp, grind =]
lemma describe_withSlots (heap : Heap) (slots : Array Value) :
    (heap.withSlots slots).describe = heap.describe := by
  funext ref
  simp only [describe, objectText_withSlots, objects_withSlots]

lemma canDescribeAt_withSlots (heap : Heap) (slots : Array Value) (depth : Nat) :
    (heap.withSlots slots).canDescribeAt depth = heap.canDescribeAt depth := by
  induction depth with
  | zero => rfl
  | succ depth ih =>
    funext ref
    simp only [canDescribeAt, ih, attribute?_withSlots, objects_withSlots]

@[simp, grind =]
lemma canDescribe_withSlots (heap : Heap) (slots : Array Value) :
    (heap.withSlots slots).canDescribe = heap.canDescribe := by
  funext ref
  simp only [canDescribe, canDescribeAt_withSlots, objects_withSlots]

end Heap

@[simp, grind =]
lemma storedMember?_withSlots (heap : Heap) (slots : Array Value) (v : Value) (name : String) :
    storedMember? (heap.withSlots slots) v name = storedMember? heap v name := by
  unfold storedMember?
  simp only [Heap.attribute?_withSlots]

@[simp, grind =]
lemma computedAttribute?_withSlots (heap : Heap) (slots : Array Value) (v : Value) (name : String) :
    computedAttribute? (heap.withSlots slots) v name = computedAttribute? heap v name := by
  unfold computedAttribute?
  simp only [Heap.objects_withSlots]

@[simp, grind =]
lemma hasAttribute_withSlots (heap : Heap) (slots : Array Value) (v : Value) (name : String) :
    hasAttribute (heap.withSlots slots) v name = hasAttribute heap v name := by
  simp only [hasAttribute, storedMember?_withSlots, computedAttribute?_withSlots]

/-! ### Values and the heap -/

namespace Run

@[grind ←]
lemma confined_ofExcept (r : Except FaultKind α) : (ofExcept r).Confined := by
  unfold ofExcept
  grind

@[grind ←]
lemma confined_orFault (kind : FaultKind) (o : Option α) : (orFault kind o).Confined := by
  unfold orFault
  grind

@[grind ←]
lemma confined_freshId : freshId.Confined :=
  ⟨fun _ _ => rfl, fun _ _ h => nomatch h⟩

@[grind ←]
lemma confined_allocate (kind : SampleClass) (attributes : List (String × Value)) :
    (allocate kind attributes).Confined :=
  ⟨fun _ _ => rfl, fun _ _ h => nomatch h⟩

@[grind ←]
lemma confined_setAttribute (ref : Nat) (name : String) (v : Value) :
    (setAttribute ref name v).Confined :=
  ⟨fun _ _ => rfl, fun _ _ h => nomatch h⟩

@[grind ←]
lemma confined_identify (v : Value) : (identify v).Confined := by
  unfold identify
  grind

@[grind ←]
lemma confined_textOf (v : Value) : (textOf v).Confined := by
  unfold textOf
  grind

@[grind ←]
lemma confined_codesOf (v : Value) : (codesOf v).Confined := by
  unfold codesOf
  grind

@[grind ←]
lemma confined_sourceTextOf (v : Value) : (sourceTextOf v).Confined := by
  unfold sourceTextOf
  grind

@[grind ←]
lemma confined_sourceCodesOf (v : Value) : (sourceCodesOf v).Confined := by
  unfold sourceCodesOf
  grind

end Run

/-! ### Operators and arrays -/

@[grind ←]
lemma confined_add (a b : Value) : (add a b).Confined := by
  unfold add
  grind

@[grind ←]
lemma confined_subtract (a b : Value) : (subtract a b).Confined := by
  unfold subtract
  grind

@[grind ←]
lemma confined_repeated (n : Int) (items : List α) : (repeated n items).Confined := by
  unfold repeated
  grind

@[grind ←]
lemma confined_multiply (a b : Value) : (multiply a b).Confined := by
  unfold multiply
  grind

@[grind ←]
lemma confined_magnitude (a : Value) : (magnitude a).Confined := by
  unfold magnitude
  grind

@[grind ←]
lemma confined_less (a b : Value) : (less a b).Confined := by
  unfold less
  grind

@[grind ←]
lemma confined_atMost (a b : Value) : (atMost a b).Confined := by
  unfold atMost
  grind

@[grind ←]
lemma confined_equal (a b : Value) : (equal a b).Confined := by
  unfold equal
  grind

@[grind ←]
lemma confined_elements (v : Value) : (elements v).Confined := by
  unfold elements
  grind

@[grind ←]
lemma confined_distinct (items : List Value) : (distinct items).Confined := by
  unfold distinct
  grind

@[grind ←]
lemma confined_mapOf (entries : List (Value × Value)) : (mapOf entries).Confined := by
  unfold mapOf
  grind

@[grind ←]
lemma confined_pairOf (v : Value) : (pairOf v).Confined := by
  unfold pairOf
  grind

@[grind ←]
lemma confined_mapOfPairs (items : List Value) : (mapOfPairs items).Confined := by
  unfold mapOfPairs
  grind

@[grind ←]
lemma confined_stored (component : TypeRef) (v : Value) : (stored component v).Confined := by
  unfold stored
  grind

@[grind ←]
lemma confined_arrayOf (component : TypeRef) (items : List Value) : (arrayOf component items).Confined := by
  unfold arrayOf
  grind

@[grind ←]
lemma confined_newArray (component : TypeRef) (sizes : List Int) : (newArray component sizes).Confined := by
  induction sizes generalizing component with
  | nil =>
    unfold newArray
    grind
  | cons size rest ih =>
    cases rest with
    | nil =>
      unfold newArray
      grind
    | cons inner others =>
      cases component with
      | array t =>
        -- The rows come from recursive calls, for which there is no rule yet.
        have hitems : (do
            let items ← (List.replicate size.toNat ()).mapM fun _ => newArray t (inner :: others)
            arrayOf (.array t) items).Confined :=
          (Confined.mapM (fun _ => ih t) _).bind fun items => confined_arrayOf _ items
        unfold newArray
        grind
      | _ =>
        unfold newArray
        grind

@[grind ←]
lemma confined_elementAt (items : List Value) (index : Int) : (elementAt items index).Confined := by
  unfold elementAt
  grind

/-! ### The sample classes -/

@[grind ←]
lemma confined_fieldOf (v : Value) (name : String) : (fieldOf v name).Confined := by
  unfold fieldOf
  grind

@[grind ←]
lemma confined_setField (v : Value) (name : String) (w : Value) : (setField v name w).Confined := by
  unfold setField
  grind

@[grind ←]
lemma confined_newShape (name area owner : Value) : (newShape name area owner).Confined := by
  unfold newShape
  grind

@[grind ←]
lemma confined_countCall (self : Value) : (countCall self).Confined := by
  unfold countCall
  grind

@[grind ←]
lemma confined_toLong (v : Value) : (toLong v).Confined := by
  unfold toLong
  grind

@[grind ←]
lemma confined_upperOf (v : Value) : (upperOf v).Confined := by
  unfold upperOf
  grind

@[grind ←]
lemma confined_firstOf (v : Value) : (firstOf v).Confined := by
  unfold firstOf
  grind

@[grind ←]
lemma Method.confined_run (method : Method) (self : Value) (args : List Value) :
    (method.run self args).Confined := by
  unfold Method.run
  split
  case h_2 =>
    have hrest : (do
        let flat ← add (← magnitude (← fieldOf self "x")) (← magnitude (← fieldOf self "y"))
        add flat (← magnitude (← fieldOf self "z"))).Confined :=
      (confined_fieldOf self "x").bind fun x => (confined_magnitude x).bind fun m => by grind
    dsimp only
    split
    · exact (confined_fault _).bind fun _ => hrest
    · exact hrest
  all_goals grind

@[grind ←]
lemma Definition.confined_bind (d : Definition) (owner : SampleClass) (receiver : Value) (name : String) :
    (d.bind owner receiver name).Confined := by
  unfold Definition.bind
  grind

@[grind →]
lemma confined_dynamicAttribute {name : String} {run : Run Value} (h : dynamicAttribute? name = some run) :
    run.Confined := by
  unfold dynamicAttribute? at h
  grind

@[grind ←]
lemma confined_getAttribute? (v : Value) (name : String) : (getAttribute? v name).Confined := by
  unfold getAttribute?
  refine .read (fun heap => ?_) (fun heap slots => by grind)
  split
  case h_4 =>
    cases hd : dynamicAttribute? name with
    | none => exact confined_pure _
    | some run => exact (confined_dynamicAttribute hd).bind fun a => confined_pure _
  all_goals grind

@[grind ←]
lemma confined_atMostOne (args : List Value) : (atMostOne args).Confined := by
  unfold atMostOne
  grind

@[grind ←]
lemma SampleClass.confined_construct (kind : SampleClass) (args : List Value) :
    (kind.construct args).Confined := by
  unfold SampleClass.construct
  grind

@[grind ←]
lemma confined_constructError (kind : ErrorClass) (args : List Value) :
    (constructError kind args).Confined := by
  unfold constructError
  grind

@[grind ←]
lemma HostClass.confined_construct (c : HostClass) (args : List Value) : (c.construct args).Confined := by
  unfold HostClass.construct
  grind

@[grind ←]
lemma confined_callDefinition (d : Definition) (self : Value) (args : List Value) :
    (callDefinition d self args).Confined := by
  unfold callDefinition
  grind

@[grind ←]
lemma confined_callFunction (owner : SampleClass) (name : String) (args : List Value) :
    (callFunction owner name args).Confined := by
  unfold callFunction
  grind

@[grind ←]
lemma confined_callValue (f : Value) (args : List Value) : (callValue f args).Confined := by
  unfold callValue
  grind

/-! ### Methods of the built-in values -/

@[grind ←]
lemma confined_textArgument (v : Value) : (textArgument v).Confined := by
  unfold textArgument
  grind

@[grind ←]
lemma confined_position (v : Value) : (position v).Confined := by
  unfold position
  grind

@[grind ←]
lemma confined_matchesAny (test : List Nat → List Nat → Bool) (pattern : Value) (text : List Nat) :
    (matchesAny test pattern text).Confined := by
  unfold matchesAny
  grind

@[grind ←]
lemma confined_window (items : List α) (bounds : List Value) : (window items bounds).Confined := by
  unfold window
  grind

@[grind ←]
lemma confined_limitOf (v : Value) : (limitOf v).Confined := by
  unfold limitOf
  grind

@[grind ←]
lemma confined_stripTest (args : List Value) : (stripTest args).Confined := by
  unfold stripTest
  grind

@[grind ←]
lemma confined_searchText (search : List Nat → List Nat → Option Nat) (codes : List Nat) (part : Value)
    (bounds : List Value) :
    (searchText search codes part bounds).Confined := by
  unfold searchText
  grind

@[grind ←]
lemma confined_fieldArgument (numbering : Numbering) (name : List Nat) (args : List Value) :
    (fieldArgument numbering name args).Confined := by
  unfold fieldArgument
  grind

@[grind ←]
lemma confined_fillPattern (args : List Value) (numbering : Numbering) (field : Option (List Nat))
    (pattern : List Nat) :
    (fillPattern args numbering field pattern).Confined := by
  induction numbering, field, pattern using fillPattern.induct <;> unfold fillPattern <;> grind

@[grind ←]
lemma NativeMethod.confined_runOnText (method : NativeMethod) (codes : List Nat) (args : List Value) :
    (method.runOnText codes args).Confined := by
  unfold NativeMethod.runOnText
  grind

@[grind ←]
lemma NativeMethod.confined_runOnContainer (method : NativeMethod) (receiver : Value) (args : List Value) :
    (method.runOnContainer receiver args).Confined := by
  unfold NativeMethod.runOnContainer
  refine .read (fun heap => ?_) (fun heap slots => by simp only [Heap.same_withSlots])
  split <;> grind

@[grind ←]
lemma NativeMethod.confined_run (method : NativeMethod) (receiver : Value) (args : List Value) :
    (method.run receiver args).Confined := by
  unfold NativeMethod.run
  grind

end Host

end PredicateTrace
