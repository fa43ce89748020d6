import Mathlib.Tactic.Lemma
import Mathlib.Tactic.SplitIfs
import PredicateTrace.Resolver

/-!
# Instances and assignability

The test of a value against a type and the test of a type against another are two functions. They agree on
all types that can be resolved, apart from what the test of a value sets apart: a character is no text although
its host class is a kind of text, and an array is an object but no instance of the host's own root class.
-/

namespace PredicateTrace

open Host (HostClass)
open Library (hostClasses?)

variable {v : Value} {s t u : TypeRef} {name name' : String} {host host' : Option HostClass}

/-! ### Host classes -/

namespace Host.HostClass

/-- The host classes, those outside of all modules first. -/
def all : List HostClass :=
  [.object, .nothing, .bool, .int, .float, .str, .list, .tuple, .set, .frozenset, .dict, .mapping, .view .keys,
    .view .values, .view .items, .metaclass, .function, .method, .property, .error .base, .error .exception,
    .error (.fault .type), .error (.fault .value), .error (.fault .key), .error (.fault .index),
    .error (.fault .overflow), .error (.fault .attribute), .error (.fault .memory)] ++ inModules

lemma forall_of_all {P : HostClass → Prop} (h : ∀ c ∈ all, P c) (c : HostClass) : P c := by
  refine h c ?_
  cases c with
  | error kind =>
    cases kind with
    | fault kind => cases kind <;> decide
    | complaint kind => cases kind <;> decide
    | failure kind => cases kind <;> decide
    | _ => decide
  | view kind => cases kind <;> decide
  | integral kind => cases kind <;> decide
  | floating kind => cases kind <;> decide
  | sample kind => cases kind <;> decide
  | _ => decide

lemma isSubclass_iff {c d : HostClass} : c.isSubclass d = true ↔ d ∈ c.ancestors := by
  rw [isSubclass, List.contains_iff_mem]

lemma isSubclass_trans {c d e : HostClass} (h : c.isSubclass d = true) (h' : d.isSubclass e = true) :
    c.isSubclass e = true := by
  have hchain : ∀ c ∈ all, ∀ d ∈ c.ancestors, ∀ e ∈ d.ancestors, e ∈ c.ancestors := by decide +kernel
  rw [isSubclass_iff] at *
  exact forall_of_all hchain c d h e h'

lemma isSubclass_object (c : HostClass) : c.isSubclass .object = true :=
  forall_of_all (P := fun c => c.isSubclass .object = true) (by decide) c

lemma isSubclass_self (c : HostClass) : c.isSubclass c = true :=
  forall_of_all (P := fun c => c.isSubclass c = true) (by decide) c

lemma eq_object_of_isSubclass {c : HostClass} (h : HostClass.object.isSubclass c = true) : c = .object :=
  List.mem_singleton.mp (isSubclass_iff.mp h)

/-- The classes that a name stands for, with or without a host class beside it. -/
def named (name : String) : List HostClass :=
  match hostClasses? name with
  | some classes => classes
  | none =>
    match all.find? fun c => c.typeName = name with
    | some c => [c]
    | none => (all.find? fun c => c.qualifiedName = name).toList

lemma named_typeName (c : HostClass) : named c.typeName = [c] :=
  forall_of_all (P := fun c => named c.typeName = [c]) (by decide +kernel) c

lemma named_qualifiedName (c : HostClass) : named c.qualifiedName = [c] := by
  have htwo : ∀ c ∈ all, c.languageName? ≠ none → named c.qualifiedName = [c] := by decide +kernel
  by_cases h : c.languageName? = none
  · have htype : c.typeName = c.qualifiedName := by rw [typeName, h, Option.getD_none]
    rw [← htype, named_typeName]
  · exact forall_of_all htwo c h

end Host.HostClass

/-! ### Types that can be resolved -/

namespace TypeRef

/-- Reference types with classes behind them: registered ones, those of a class that is found by its name, that
was imported or that a member declares, and the arrays. -/
inductive Resolvable : TypeRef → Prop
  | registered {name : String} {classes : List HostClass} (h : hostClasses? name = some classes) :
      Resolvable (.ofName name)
  | loaded {name : String} {c : HostClass} (h : HostClass.named? name = some c) : Resolvable (.ofName name)
  | imported (c : HostClass) : Resolvable (.ofClass c)
  | declared (c : HostClass) : Resolvable (.named c.qualifiedName (some c))
  | array {component : TypeRef} (h : Resolvable component) : Resolvable (.array component)
  | primitives (p : Primitive) : Resolvable (.array (.prim p))

/-- What an array can hold. -/
def IsComponent (t : TypeRef) : Prop :=
  t.Resolvable ∨ ∃ p, t = .prim p

lemma Resolvable.isComponent (h : Resolvable (.array t)) : t.IsComponent := by
  cases h with
  | array h => exact .inl h
  | primitives p => exact .inr ⟨p, rfl⟩

lemma IsComponent.of_array (h : IsComponent (.array t)) : t.IsComponent := by
  obtain h | ⟨p, h⟩ := h
  · exact h.isComponent
  · cases h

lemma IsComponent.resolvable (h : IsComponent (.named name host)) : Resolvable (.named name host) := by
  obtain h | ⟨p, h⟩ := h
  · exact h
  · cases h

lemma Resolvable.isPrimitive_eq_false (h : t.Resolvable) : t.isPrimitive = false := by
  cases h <;> rfl

/-- A type by its names only. -/
def bare : TypeRef → TypeRef
  | .prim p => .prim p
  | .array t => .array t.bare
  | .named name _ => .ofName name

lemma beq_iff_bare_eq : (s == t) = true ↔ s.bare = t.bare := by
  change beq s t = true ↔ _
  induction s generalizing t with
  | array s ih => cases t <;> simp [beq, bare, ofName, ih]
  | _ => cases t <;> simp [beq, bare, ofName]

lemma isPrimitive_bare (t : TypeRef) : t.bare.isPrimitive = t.isPrimitive := by
  cases t <;> rfl

lemma bare_eq_array {t c : TypeRef} (h : t.bare = .array c) : ∃ d, t = .array d ∧ d.bare = c := by
  cases t <;> simp_all [bare, ofName]

lemma bare_eq_ofName (h : t.bare = .ofName name) : ∃ host, t = .named name host := by
  cases t <;> simp_all [bare, ofName]

end TypeRef

namespace Resolver

open TypeRef (Resolvable IsComponent)

/-- A class type stands for the classes that its name tells. -/
lemma hostTypes_named (h : Resolvable (.named name host)) :
    hostTypes (.named name host) = .ok (HostClass.named name) := by
  cases h with
  | registered h => rw [hostTypes, h, HostClass.named, h]
  | @loaded _ c h =>
    have hname : c.qualifiedName = name := by simpa using List.find?_some h
    have hnamed := HostClass.named_qualifiedName c
    rw [hname] at hnamed
    rw [hnamed, hostTypes, resolveClass, loadClass, h]
    cases hregistered : hostClasses? name with
    | none => rfl
    | some classes => rw [← hnamed, HostClass.named, hregistered]
  | imported c => exact congrArg Except.ok (HostClass.named_typeName c).symm
  | declared c => exact congrArg Except.ok (HostClass.named_qualifiedName c).symm

/-! ### Assignability as a relation -/

/-- A type is assignable to another: by its name, as an object, by what arrays hold or by the classes of both. -/
inductive Assignable : TypeRef → TypeRef → Prop
  | same {s t : TypeRef} (h : s.bare = t.bare) : Assignable s t
  | object {s t : TypeRef} (hs : s.isPrimitive = false) (ht : t.bare = .object) : Assignable s t
  | arrays {s t : TypeRef} (h : Assignable s t) : Assignable (.array s) (.array t)
  | classes {m n : String} {hm hn : Option HostClass}
      (h : ∀ c ∈ HostClass.named m, ∃ d ∈ HostClass.named n, c.isSubclass d = true) :
      Assignable (.named m hm) (.named n hn)

lemma isAssignable_arrays (s t : TypeRef) : isAssignable (.array s) (.array t) = isAssignable s t := by
  have hsame : (TypeRef.array s == .array t) = (s == t) := rfl
  have hobject : (TypeRef.array t == .object) = false := rfl
  by_cases h : (s == t) = true
  · rw [isAssignable.eq_def, isAssignable.eq_def, hsame, if_pos h, if_pos h]
  · simp only [isAssignable, hsame, if_neg h, hobject, TypeRef.isPrimitive, Bool.or_self, Bool.false_eq_true,
      if_false]

lemma assignable_arrays_iff : Assignable (.array s) (.array t) ↔ Assignable s t := by
  refine ⟨fun h => ?_, .arrays⟩
  cases h with
  | same h => exact .same (TypeRef.array.inj h)
  | object _ h => cases h
  | arrays h => exact h

lemma isAssignable_prim (p : Primitive) (t : TypeRef) : isAssignable (.prim p) t = .ok (TypeRef.prim p == t) := by
  rw [isAssignable.eq_def]
  by_cases h : (TypeRef.prim p == t) = true <;> simp [h, TypeRef.isPrimitive]

lemma assignable_prim_iff {p : Primitive} : Assignable (.prim p) t ↔ (TypeRef.prim p).bare = t.bare := by
  refine ⟨fun h => ?_, .same⟩
  cases h with
  | same h => exact h
  | object h => cases h

lemma isAssignable_to_prim (hs : s.isPrimitive = false) (p : Primitive) :
    isAssignable s (.prim p) = .ok false := by
  cases s with
  | prim => cases hs
  | array s => rfl
  | named m hm => rfl

lemma not_assignable_to_prim (hs : s.isPrimitive = false) {p : Primitive} : ¬Assignable s (.prim p) := by
  intro h
  cases h with
  | same h => rw [← TypeRef.isPrimitive_bare, h] at hs; cases hs
  | object _ h => cases h

lemma isAssignable_array_named (s : TypeRef) (name : String) (host : Option HostClass) :
    isAssignable (.array s) (.named name host) = .ok (name == "java.lang.Object") := by
  have hsame : (TypeRef.array s == .named name host) = false := rfl
  have hobject : (TypeRef.named name host == .object) = (name == "java.lang.Object") := rfl
  rw [isAssignable.eq_def]
  cases h : name == "java.lang.Object" <;> simp [hsame, hobject, h, TypeRef.isPrimitive]

lemma assignable_array_named_iff : Assignable (.array s) (.named name host) ↔ name = "java.lang.Object" := by
  refine ⟨fun h => ?_, fun h => .object rfl (by rw [h]; rfl)⟩
  cases h with
  | same h => cases h
  | object _ h => exact (TypeRef.named.inj h).1

lemma isAssignable_named_array (name : String) (host : Option HostClass) (t : TypeRef) :
    isAssignable (.named name host) (.array t) = .ok false := by
  have hsame : (TypeRef.named name host == .array t) = false := rfl
  have hobject : (TypeRef.array t == .object) = false := rfl
  rw [isAssignable.eq_def]
  simp [hsame, hobject, TypeRef.isPrimitive]

lemma not_assignable_named_array : ¬Assignable (.named name host) (.array t) := by
  intro h
  cases h with
  | same h => cases h
  | object _ h => cases h

lemma isAssignable_classes (hs : Resolvable (.named name host)) (ht : Resolvable (.named name' host')) :
    isAssignable (.named name host) (.named name' host') =
      .ok (name == name' || name' == "java.lang.Object" ||
        (HostClass.named name).all fun c => (HostClass.named name').any c.isSubclass) := by
  have hsame : (TypeRef.named name host == .named name' host') = (name == name') := rfl
  have hobject : (TypeRef.named name' host' == .object) = (name' == "java.lang.Object") := rfl
  rw [isAssignable.eq_def, hsame, hobject]
  cases name == name'
  · cases name' == "java.lang.Object"
    · simp [TypeRef.isPrimitive, hostTypes_named hs, hostTypes_named ht, bind, Except.bind, pure, Except.pure]
    · simp [TypeRef.isPrimitive]
  · simp

lemma assignable_classes_iff : Assignable (.named name host) (.named name' host') ↔
    name = name' ∨ name' = "java.lang.Object" ∨
      ∀ c ∈ HostClass.named name, ∃ d ∈ HostClass.named name', c.isSubclass d = true := by
  constructor
  · intro h
    cases h with
    | same h => exact .inl (TypeRef.named.inj h).1
    | object _ h => exact .inr (.inl (TypeRef.named.inj h).1)
    | classes h => exact .inr (.inr h)
  · rintro (rfl | rfl | h)
    · exact .same rfl
    · exact .object rfl rfl
    · exact .classes h

/-- On types that can be resolved, the test decides the relation. -/
lemma isAssignable_iff (hs : s.IsComponent) (ht : t.IsComponent) :
    isAssignable s t = .ok true ↔ Assignable s t := by
  induction s generalizing t with
  | prim p => rw [isAssignable_prim, assignable_prim_iff, Except.ok.injEq, TypeRef.beq_iff_bare_eq]
  | array s ih =>
    cases t with
    | prim p => exact iff_of_false (by rw [isAssignable_to_prim rfl]; nofun) (not_assignable_to_prim rfl)
    | array t =>
      rw [isAssignable_arrays, assignable_arrays_iff, ih hs.of_array ht.of_array]
    | named n hn => rw [isAssignable_array_named, assignable_array_named_iff, Except.ok.injEq, beq_iff_eq]
  | named m hm =>
    cases t with
    | prim p => exact iff_of_false (by rw [isAssignable_to_prim rfl]; nofun) (not_assignable_to_prim rfl)
    | array t =>
      rw [isAssignable_named_array]
      exact iff_of_false nofun not_assignable_named_array
    | named n hn =>
      rw [isAssignable_classes hs.resolvable ht.resolvable, assignable_classes_iff]
      simp [or_assoc]

lemma Assignable.congr_left (h : Assignable s t) (hu : u.bare = s.bare) : Assignable u t := by
  induction h generalizing u with
  | same h => exact .same (hu.trans h)
  | object hs ht => exact .object (by rw [← TypeRef.isPrimitive_bare, hu, TypeRef.isPrimitive_bare, hs]) ht
  | arrays h ih =>
    obtain ⟨c, rfl, hc⟩ := TypeRef.bare_eq_array hu
    exact .arrays (ih hc)
  | classes h =>
    obtain ⟨host, rfl⟩ := TypeRef.bare_eq_ofName hu
    exact .classes h

lemma Assignable.congr_right (h : Assignable s t) (hu : u.bare = t.bare) : Assignable s u := by
  induction h generalizing u with
  | same h => exact .same (h.trans hu.symm)
  | object hs ht => exact .object hs (hu.trans ht)
  | arrays h ih =>
    obtain ⟨c, rfl, hc⟩ := TypeRef.bare_eq_array hu
    exact .arrays (ih hc)
  | classes h =>
    obtain ⟨host, rfl⟩ := TypeRef.bare_eq_ofName hu
    exact .classes h

lemma eq_of_object_mem_named (h : HostClass.object ∈ HostClass.named name) :
    name = "java.lang.Object" ∨ name = HostClass.object.typeName := by
  unfold HostClass.named at h
  split at h
  · next classes hclasses =>
    have hregistry : ∀ entry ∈ Library.registry, .object ∈ entry.2 → entry.1 = "java.lang.Object" := by decide
    obtain ⟨before, after, hsplit, -⟩ := List.lookup_eq_some_iff.mp hclasses
    exact .inl (hregistry (name, classes) (by simp [hsplit]) h)
  · split at h
    · next c hc =>
      obtain rfl := List.mem_singleton.mp h
      have hfound := List.find?_some hc
      exact .inr (of_decide_eq_true hfound).symm
    · have hfound := List.find?_some (Option.mem_toList.mp h)
      exact .inr (of_decide_eq_true hfound).symm

/-- An array is assignable to an object, but not to the host's own root class, to which an object is. -/
lemma Assignable.trans (h : Assignable s t) (h' : Assignable t u)
    (hroot : (∃ c, s = .array c) → u.deepComponent.bare ≠ .ofName HostClass.object.typeName) :
    Assignable s u := by
  induction h generalizing u with
  | same h => exact h'.congr_left h
  | @object s t hs ht =>
    obtain ⟨host, rfl⟩ := TypeRef.bare_eq_ofName ht
    cases h' with
    | same h => exact .object hs (h.symm.trans ht)
    | object _ hu => exact .object hs hu
    | @classes _ n _ hn h =>
      obtain ⟨d, hd, hsub⟩ := h .object (List.mem_singleton.mpr rfl)
      obtain rfl := HostClass.eq_object_of_isSubclass hsub
      obtain rfl | rfl := eq_of_object_mem_named hd
      · exact .object hs rfl
      · cases s with
        | prim => cases hs
        | array c => exact absurd rfl (hroot ⟨c, rfl⟩)
        | named m hm => exact .classes fun c _ => ⟨_, hd, HostClass.isSubclass_object c⟩
  | arrays h ih =>
    cases h' with
    | same hu =>
      obtain ⟨c, rfl, hc⟩ := TypeRef.bare_eq_array hu.symm
      exact .arrays (h.congr_right hc)
    | object _ hu => exact .object rfl hu
    | arrays h' => exact .arrays (ih h' fun _ => hroot ⟨_, rfl⟩)
  | classes h =>
    cases h' with
    | same hu => exact (Assignable.classes h).congr_right hu.symm
    | object _ hu => exact .object rfl hu
    | classes h' =>
      refine .classes fun c hc => ?_
      obtain ⟨d, hd, hcd⟩ := h c hc
      obtain ⟨e, he, hde⟩ := h' d hd
      exact ⟨e, he, HostClass.isSubclass_trans hcd hde⟩

end Resolver

/-! ### Instances -/

/-- The type that a value has at run time. -/
def Value.dynamicType : Value → TypeRef
  | .array _ component _ => .array component
  | v => .ofClass v.classOf

lemma Value.dynamicType_eq_ofClass (hv : ∀ id component items, v ≠ .array id component items) :
    v.dynamicType = .ofClass v.classOf := by
  cases v with
  | array id component items => exact absurd rfl (hv id component items)
  | _ => rfl

/-- The types of texts, of which no character is an instance. -/
def TypeRef.IsText (t : TypeRef) : Prop :=
  t.bare = .string ∨ t.bare = .ofName "java.lang.CharSequence"

/-- The test of a value sets texts apart from characters, and the host's own root class, with all arrays of it,
from arrays. -/
def TypeRef.IsSetApart (t : TypeRef) : Value → Prop
  | .char _ => t.IsText
  | .array .. => t.deepComponent.bare = .ofName HostClass.object.typeName
  | _ => False

namespace Resolver

open TypeRef (Resolvable)

lemma isInstance_array (ht : t.isPrimitive = false) (id : Nat) (component : TypeRef) (items : List Value) :
    isInstance (.array id component items) t = isAssignable (.array component) t := by
  cases t with
  | prim => cases ht
  | array t => rw [isAssignable_arrays, isInstance]
  | named name host =>
    rw [isAssignable_array_named]
    rfl

/-- The test against a class type asks for the classes behind it. -/
lemma isInstance_named (ht : Resolvable (.named name host)) (hnull : v ≠ .null)
    (hv : ∀ id component items, v ≠ .array id component items)
    (htext : ∀ code, v = .char code → ¬(TypeRef.named name host).IsText) :
    isInstance v (.named name host) = .ok ((HostClass.named name).any v.classOf.isSubclass) := by
  cases v with
  | null => exact absurd rfl hnull
  | array id component items => exact absurd rfl (hv id component items)
  | char code =>
    have hname : ¬(name = "java.lang.String" ∨ name = "java.lang.CharSequence") := by
      simpa [TypeRef.IsText, TypeRef.bare, TypeRef.string, TypeRef.ofName] using htext code rfl
    simp only [isInstance, if_neg hname, hostTypes_named ht]
    rfl
  | _ =>
    simp only [isInstance, hostTypes_named ht]
    rfl

lemma any_isSubclass_iff (c : HostClass) :
    (HostClass.named name).any c.isSubclass = true ↔ Assignable (.ofClass c) (.named name host) := by
  rw [TypeRef.ofClass, assignable_classes_iff, HostClass.named_typeName, List.any_eq_true]
  constructor
  · exact fun h => .inr (.inr (by simpa using h))
  · rintro (rfl | rfl | h)
    · exact ⟨c, by rw [HostClass.named_typeName, List.mem_singleton], HostClass.isSubclass_self c⟩
    · exact ⟨.object, List.mem_singleton.mpr rfl, HostClass.isSubclass_object c⟩
    · simpa using h

lemma isInstance_text (ht : t.IsText) (code : Nat) : isInstance (.char code) t = .ok false := by
  obtain h | h := ht
  · obtain ⟨host, rfl⟩ := TypeRef.bare_eq_ofName h
    rfl
  · obtain ⟨host, rfl⟩ := TypeRef.bare_eq_ofName h
    rfl

/-- A value is an instance of what its type at run time is assignable to, apart from texts. -/
lemma isInstance_iff (ht : t.Resolvable) (hv : v.dynamicType.Resolvable) (hnull : v ≠ .null)
    (htext : ∀ code, v = .char code → ¬t.IsText) : isInstance v t = .ok true ↔ Assignable v.dynamicType t := by
  by_cases harray : ∃ id component items, v = .array id component items
  · obtain ⟨id, component, items, rfl⟩ := harray
    rw [isInstance_array ht.isPrimitive_eq_false]
    exact isAssignable_iff (.inl hv) (.inl ht)
  · have hother : ∀ id component items, v ≠ .array id component items := fun id component items h =>
      harray ⟨id, component, items, h⟩
    rw [Value.dynamicType_eq_ofClass hother]
    cases t with
    | prim => cases ht
    | array t =>
      refine iff_of_false (fun h => ?_) not_assignable_named_array
      cases v <;> simp [isInstance] at h
      exact absurd rfl (hother _ _ _)
    | named name host =>
      rw [isInstance_named ht hnull hother htext, Except.ok.injEq, any_isSubclass_iff]

lemma ne_of_isInstance (h : isInstance v t = .ok true) : v ≠ .null ∧ ∀ code, v = .char code → ¬t.IsText := by
  constructor
  · rintro rfl
    cases h
  · rintro code rfl ht
    cases (isInstance_text ht code).symm.trans h

/-- What is an instance of a type is an instance of whatever this type is assignable to, unless the test of
the value sets that apart. -/
theorem instance_of_assignable (hs : s.Resolvable) (ht : t.Resolvable) (hv : v.dynamicType.Resolvable)
    (hset : ¬t.IsSetApart v) (hinstance : isInstance v s = .ok true) (hassign : isAssignable s t = .ok true) :
    isInstance v t = .ok true := by
  obtain ⟨hnull, htext⟩ := ne_of_isInstance hinstance
  have hsource : Assignable v.dynamicType s := (isInstance_iff hs hv hnull htext).mp hinstance
  have htarget : Assignable s t := (isAssignable_iff (.inl hs) (.inl ht)).mp hassign
  have hroot : (∃ c, v.dynamicType = .array c) → t.deepComponent.bare ≠ .ofName HostClass.object.typeName := by
    rintro ⟨c, hc⟩
    cases v <;> first | exact hset | cases hc
  have htext' : ∀ code, v = .char code → ¬t.IsText := by
    rintro code rfl
    exact hset
  exact (isInstance_iff ht hv hnull htext').mpr (hsource.trans htarget hroot)

/-- The elements of an array count by the type of the array, here by that of the wrapper of `int`. -/
theorem instance_of_assignable_of_numbers :
    let v : Value := .array 3 (.ofName "java.lang.Integer") []
    let s : TypeRef := .array (.ofName "java.lang.Comparable")
    let t : TypeRef := .array .object
    s.Resolvable ∧ t.Resolvable ∧ v.dynamicType.Resolvable ∧ ¬t.IsSetApart v ∧
      isInstance v s = .ok true ∧ isAssignable s t = .ok true ∧ isInstance v t = .ok true := by
  intro v s t
  have hs : s.Resolvable := .array (.registered rfl)
  have ht : t.Resolvable := .array (.registered rfl)
  have hv : v.dynamicType.Resolvable := .array (.registered rfl)
  have hset : ¬t.IsSetApart v := by
    intro h
    have hname := (TypeRef.named.inj h).1
    revert hname
    decide
  have hinstance : isInstance v s = .ok true := rfl
  have hassign : isAssignable s t = .ok true := rfl
  exact ⟨hs, ht, hv, hset, hinstance, hassign, instance_of_assignable hs ht hv hset hinstance hassign⟩

/-- The wrapper of `char` is assignable to the class of texts, of which no character is an instance. -/
theorem character_assignable_to_string :
    let v : Value := .char 97
    let s : TypeRef := .ofName "java.lang.Character"
    s.Resolvable ∧ TypeRef.string.Resolvable ∧ isInstance v s = .ok true ∧
      isAssignable s .string = .ok true ∧ isInstance v .string = .ok false :=
  ⟨.registered rfl, .registered rfl, rfl, rfl, rfl⟩

end Resolver

end PredicateTrace
