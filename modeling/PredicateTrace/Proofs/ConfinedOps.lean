import PredicateTrace.Evaluation
import PredicateTrace.Proofs.ConfinedRuns

/-!
# Confined ops

The methods of the library and the ops that use no member are confined: the lookup of members is the only part of
what ops compute that is not.
-/

namespace PredicateTrace

open Host Host.Run

namespace Library

@[grind ←]
lemma confined_present (v : Value) : (present v).Confined := by
  unfold present
  grind

@[grind ←]
lemma confined_numberAsFloat (v : Value) : (numberAsFloat v).Confined := by
  unfold numberAsFloat
  grind

@[grind ←]
lemma confined_isUndefined (v : Value) : (isUndefined v).Confined := by
  unfold isUndefined
  grind

@[grind ←]
lemma confined_extremum {better : Value → Value → Run Bool} (hb : ∀ a b, (better a b).Confined)
    (a b : Value) :
    (extremum better a b).Confined := by
  unfold extremum
  grind

@[grind ←]
lemma confined_likewise (model : Value) (n : Int) : (likewise model n).Confined := by
  unfold likewise
  grind

@[grind ←]
lemma confined_floorQuotient (a b : Value) : (floorQuotient a b).Confined := by
  unfold floorQuotient
  grind

@[grind ←]
lemma confined_squareRoot (v : Value) : (squareRoot v).Confined := by
  unfold squareRoot
  grind

@[grind ←]
lemma confined_readInt (v : Value) : (readInt v).Confined := by
  unfold readInt
  grind

@[grind ←]
lemma confined_compareSign (a b : Value) : (compareSign a b).Confined := by
  unfold compareSign
  grind

@[grind ←]
lemma confined_allChars (test : Char → Bool) (v : Value) : (allChars test v).Confined := by
  unfold allChars
  grind

@[grind ←]
lemma StaticMethod.confined_run (method : StaticMethod) (args : List Value) : (method.run args).Confined := by
  unfold StaticMethod.run
  split
  case h_8 a b =>
    refine (Confined.tryCatch ?_ fun e => ?_).bind fun result => ?_
    · exact (confined_numberAsFloat a).bind fun x => (confined_numberAsFloat b).bind fun y => confined_pure _
    · split
      · exact confined_pure _
      · exact (confined_raise e).bind fun v => confined_pure _
    · cases result <;> exact confined_pure _
  all_goals grind

@[grind ←]
lemma confined_elementAt (items : List Value) (index : Value) : (elementAt items index).Confined := by
  unfold elementAt
  grind

@[grind ←]
lemma confined_charAt (text : List Nat) (index : Value) : (charAt text index).Confined := by
  unfold charAt
  grind

@[grind ←]
lemma confined_substring (text : List Nat) (first last : Value) : (substring text first last).Confined := by
  unfold substring
  grind

@[grind ←]
lemma confined_containsElement (items : List Value) (v : Value) : (containsElement items v).Confined := by
  unfold containsElement
  grind

@[grind ←]
lemma confined_indexOfElement (items : List Value) (v : Value) : (indexOfElement items v).Confined := by
  unfold indexOfElement
  grind

@[grind ←]
lemma confined_key (v : Value) : (key v).Confined := by
  unfold key
  grind

@[grind ←]
lemma confined_hashOf (v : Value) : (hashOf v).Confined := by
  unfold hashOf
  grind

@[grind ←]
lemma confined_unboxTo (target : Primitive) (v : Value) : (unboxTo target v).Confined := by
  unfold unboxTo
  grind

@[grind ←]
lemma confined_runOnText (method : InstanceMethod) (codes : List Nat) (args : List Value) :
    (runOnText method codes args).Confined := by
  unfold runOnText
  grind

@[grind ←]
lemma confined_runOnContainer (method : InstanceMethod) (receiver : Value) (items args : List Value) :
    (runOnContainer method receiver items args).Confined := by
  unfold runOnContainer
  grind

@[grind ←]
lemma InstanceMethod.confined_run (method : InstanceMethod) (receiver : Value) (args : List Value) :
    (method.run receiver args).Confined := by
  unfold InstanceMethod.run
  grind

end Library

namespace Resolver

@[grind ←]
lemma confined_lift {α : Type} (r : Except Throwable α) : (lift r).Confined := by
  unfold lift
  grind

@[grind →]
lemma confined_constructRegistered? {name : String} {args : List Value} {run : Run Value}
    (h : constructRegistered? name args = some run) :
    run.Confined := by
  unfold constructRegistered? at h
  grind

@[grind ←]
lemma confined_instantiate (t : TypeRef) (args : List Value) : (instantiate t args).Confined := by
  unfold instantiate
  grind

/-! ### The lookup of members -/

@[grind ←]
lemma blind_unresolved {α : Type} (message : String) : (unresolved message : Run α).Blind :=
  fun _ _ => rfl

@[grind ←]
lemma blind_memberOwner (owner : TypeRef) (name : String) : (memberOwner owner name).Blind := by
  unfold memberOwner
  grind

@[grind ←]
lemma blind_staticMember (owner : TypeRef) (name : String) : (staticMember owner name).Blind := by
  unfold staticMember
  grind

@[grind ←]
lemma blind_loadStaticField (owner : TypeRef) (name : String) : (loadStaticField owner name).Blind := by
  unfold loadStaticField
  grind

@[grind ←]
lemma blind_loadField (receiver : Value) (name : String) : (loadField receiver name).Blind := by
  unfold loadField
  grind

@[grind ←]
lemma blind_callMethod (receiver : Value) (name : String) (args : List Value) :
    (callMethod receiver name args).Blind := by
  unfold callMethod
  grind

@[grind ←]
lemma blind_callStatic (owner : TypeRef) (name : String) (args : List Value) :
    (callStatic owner name args).Blind := by
  unfold callStatic
  grind

end Resolver

namespace Head

@[grind ←]
lemma confined_present (v : Value) : (present v).Confined := by
  unfold present
  grind

@[grind ←]
lemma confined_makeArray (component : TypeRef) (sizes : List Value) : (makeArray component sizes).Confined := by
  unfold makeArray
  grind

@[grind ←]
lemma confined_loadElement (array index : Value) : (loadElement array index).Confined := by
  unfold loadElement
  grind

@[grind ←]
lemma confined_lengthOf (array : Value) : (lengthOf array).Confined := by
  unfold lengthOf
  grind

@[grind ←]
lemma confined_applyBinary (op : Operator) (left right : Value) : (applyBinary op left right).Confined := by
  unfold applyBinary
  grind

@[grind ←]
lemma confined_applyCompare (op : Operator) (left right : Value) : (applyCompare op left right).Confined := by
  unfold applyCompare
  grind

@[grind ←]
lemma confined_applyConversion (target : TypeRef) (v : Value) : (applyConversion target v).Confined := by
  unfold applyConversion
  grind

@[grind ←]
lemma confined_applyCast (target : TypeRef) (v : Value) : (applyCast target v).Confined := by
  unfold applyCast
  grind

@[grind ←]
lemma blind_applyCall (method : MethodRef) (hasReceiver : Bool) (values : List Value) :
    (applyCall method hasReceiver values).Blind := by
  unfold applyCall
  grind

/-- No op reads or changes what captured variables hold. -/
theorem blind_apply (head : Head) (values : List Value) : (head.apply values).Blind := by
  unfold apply
  split <;> grind

end Head

end PredicateTrace
