import PredicateTrace.Proofs.Assignability
import PredicateTrace.Proofs.LoweredParts
import PredicateTrace.Proofs.PlacedNodes
import PredicateTrace.Proofs.Restoring
import PredicateTrace.Proofs.SubExpressions

/-!
# Expressions of type `String`

The value of an expression of type `String` that is made of literals, captured locals, casts, conditionals and sums
is a text or `null`, as long as the locals that it reads still hold texts.
-/

namespace PredicateTrace

open Host (Heap HostClass)
open Typing (IsChecked accepts_of_check)

/-! ### Static types -/

namespace TypeRef

/-- The type of texts, or that of `null`, which fits it. -/
def IsTextual (t : TypeRef) : Prop :=
  (t == .string) = true ∨ (t == .null) = true

variable {s t : TypeRef} {name : String}

lemma exists_of_beq_ofName (h : (t == .ofName name) = true) : ∃ host, t = .named name host :=
  bare_eq_ofName (beq_iff_bare_eq.mp h)

lemma IsTextual.unboxed?_eq (h : t.IsTextual) : t.unboxed? = none := by
  rcases h with h | h
  all_goals
    obtain ⟨host, rfl⟩ := exists_of_beq_ofName h
    rfl

lemma IsTextual.isNumeric_eq (h : t.IsTextual) : t.isNumeric = false := by
  rw [isNumeric, h.unboxed?_eq, Option.any_none]

lemma IsTextual.isBoolean_eq (h : t.IsTextual) : t.isBoolean = false := by
  rw [isBoolean, h.unboxed?_eq]
  rfl

lemma arrays_succ_ne (n : Nat) (t : TypeRef) (host : Option HostClass) :
    t.arrays (n + 1) ≠ .named name host := by
  induction n generalizing t with
  | zero => exact nofun
  | succ n ih => exact ih (.array t)

end TypeRef

/-- The name of `String` stands for the texts of the host, but no host class goes by it. -/
lemma Host.HostClass.typeName_ne_string (c : HostClass) : c.typeName ≠ "java.lang.String" := by
  intro h
  have hnamed := named_typeName c
  rw [h] at hnamed
  obtain rfl : HostClass.str = c := (List.cons.inj hnamed).1
  exact absurd h (by decide)

namespace Typing

variable {resolver : Resolver} {t : TypeName} {name bare : String} {u : TypeRef}

/-- A type that is looked up with its host class goes by the name of that class. -/
lemma name_of_lookupType? {c : HostClass} (h : resolver.lookupType? name = some (.named bare (some c))) :
    bare = c.typeName := by
  unfold Resolver.lookupType? at h
  split at h
  · obtain ⟨rfl, hc⟩ := TypeRef.named.inj (Option.some.inj h)
    rw [Option.some.inj hc]
  · cases h
  · split at h
    · cases h
    · split at h <;> cases h

lemma name_of_importable? {c : HostClass} (h : importable? name = some (.named bare (some c))) :
    bare = c.typeName := by
  unfold importable? at h
  split at h
  · split at h
    · next d hload =>
      obtain ⟨rfl, hd⟩ := TypeRef.named.inj (Option.some.inj h)
      obtain rfl := Option.some.inj hd
      unfold Resolver.loadClass at hload
      split at hload
      · next loaded hnamed =>
        have hqualified : loaded.qualifiedName = name := by simpa using List.find?_some hnamed
        rw [← Except.ok.inj hload, HostClass.typeName, hqualified]
      · cases hload
    · cases h
  · cases h

lemma eq_string_of_namedType? (h : namedType? resolver name = some u) (hu : (u == .string) = true) :
    u = .string := by
  obtain ⟨host, rfl⟩ := TypeRef.exists_of_beq_ofName hu
  cases host with
  | none => rfl
  | some c =>
    have hname : "java.lang.String" = c.typeName := by
      unfold namedType? at h
      split at h
      · next hlookup => exact name_of_lookupType? (hlookup.trans h)
      · exact name_of_importable? h
    exact absurd hname.symm c.typeName_ne_string

/-- No host class goes by the name of `String`, so that a written type which reads like it is the registered one. -/
lemma eq_string_of_writtenType (h : (writtenType resolver t == .string) = true) :
    writtenType resolver t = .string := by
  unfold writtenType at h ⊢
  cases hd : t.dims with
  | succ n =>
    rw [hd] at h
    obtain ⟨host, heq⟩ := TypeRef.exists_of_beq_ofName h
    exact absurd heq (TypeRef.arrays_succ_ne n _ host)
  | zero =>
    rw [hd] at h
    change (_ == TypeRef.string) = true at h
    cases hb : t.base with
    | primitive p =>
      rw [hb] at h
      cases h
    | named parts =>
      rw [hb] at h
      dsimp only [TypeRef.arrays] at h ⊢
      cases hnamed : namedType? resolver t.name with
      | some u =>
        rw [hnamed, Option.getD_some] at h
        exact eq_string_of_namedType? hnamed h
      | none =>
        rw [hnamed] at h
        obtain ⟨host, heq⟩ := TypeRef.exists_of_beq_ofName h
        exact congrArg TypeRef.ofName (TypeRef.named.inj heq).1

variable {pos : Position} {note : Typing} {c s t : TypeRef}

/-- A sum is of type `String` if one of its operands is, and then neither of them is converted. -/
lemma binaryType_string (h : binaryType pos (.arith .add) s t = .ok note)
    (htype : (note.type.getD .object == .string) = true) :
    ((s == .string) = true ∨ (t == .string) = true) ∧ note = converting pos .string [none, none] := by
  have hnumeric {accepts : TypeRef → Bool} {promote : Primitive × Primitive × Primitive}
      (h : numericType pos (.arith .add) s t accepts promote = .ok note) : False := by
    unfold numericType at h
    split at h
    · obtain rfl := Except.ok.inj h
      cases htype
    · split at h
      · obtain rfl := Except.ok.inj h
        cases htype
      · cases h
  unfold binaryType at h
  dsimp only at h
  split at h
  · next hstring =>
    exact ⟨by simpa using hstring, (Except.ok.inj h).symm⟩
  · split at h
    · next hbitwise => cases hbitwise
    · exact (hnumeric h).elim

/-- A conditional of textual arms takes them as they are, and has the type of one of them. -/
lemma conditionalType_textual (hs : s.IsTextual) (ht : t.IsTextual) (h : conditionalType pos c s t = .ok note) :
    note.conversions = some [none, none, none] ∧ (note.type.getD .object).IsTextual := by
  unfold conditionalType at h
  simp only [hs.isNumeric_eq, hs.isBoolean_eq, Bool.false_and, Bool.false_eq_true, if_false] at h
  split at h
  · cases h
  · split at h
    · obtain rfl := Except.ok.inj h
      exact ⟨rfl, hs⟩
    · next hdiffer =>
      split at h
      · obtain rfl := Except.ok.inj h
        exact ⟨rfl, ht⟩
      · next hnull =>
        -- Two types that read like `String` are the same.
        exfalso
        obtain ⟨hst, htn⟩ : (s == t) = false ∧ (t == .null) = false := by simpa using hdiffer
        have hs' : (s == .string) = true := hs.resolve_right hnull
        have ht' : (t == .string) = true := ht.resolve_right (by simp [htn])
        obtain ⟨_, rfl⟩ := TypeRef.exists_of_beq_ofName hs'
        obtain ⟨_, rfl⟩ := TypeRef.exists_of_beq_ofName ht'
        cases hst

lemma type_of_castType {t : TypeName} (h : castType pos s (writtenType resolver t) = .ok note)
    (htype : (note.type.getD .object == .string) = true) : note.type = some .string := by
  have hnote : note.type = some (writtenType resolver t) := by
    unfold castType at h
    split at h
    · split at h
      · rw [← Except.ok.inj h]
        rfl
      · cases h
    · split at h
      · cases h
      · rw [← Except.ok.inj h]
        rfl
  rw [hnote] at htype
  rw [hnote, eq_string_of_writtenType htype]

end Typing

/-! ### Textual forms -/

/-- The static type of an expression is `String`. -/
def Expr.IsString (e : TypedExpr) : Prop :=
  (e.type == .string) = true

/-- Expressions made of literals, captured locals, casts, conditionals and sums that are texts or `null` by their
types. -/
inductive Expr.IsTextual : TypedExpr → Prop
  | string {note text} : IsTextual (.literal note (.string text))
  | units {note codes} : IsTextual (.literal note (.units codes))
  | null {note} : IsTextual (.literal note .null)
  | local {note n} (hrole : note.role = some .local) (htype : (Expr.name note n).IsString) :
      IsTextual (.name note n)
  | cast {note t x} (htype : (Expr.cast note t x).IsString) : IsTextual (.cast note t x)
  | conditional {note c yes no} (hyes : IsTextual yes) (hno : IsTextual no) : IsTextual (.conditional note c yes no)
  | sum {note x y} (htype : (Expr.binary note (.arith .add) x y).IsString) (hx : x.IsString → IsTextual x)
      (hy : y.IsString → IsTextual y) : IsTextual (.binary note (.arith .add) x y)

variable {scope : Scope} {heap later : Heap} {x : TypedExpr}

lemma Expr.IsTextual.type_isTextual (h : x.IsTextual) (hx : IsChecked scope heap x) : x.type.IsTextual := by
  induction h with
  | string | units =>
    obtain ⟨_, hx⟩ := hx
    cases accepts_of_check hx
    exact .inl rfl
  | null =>
    obtain ⟨_, hx⟩ := hx
    cases accepts_of_check hx
    exact .inr rfl
  | «local» _ htype | cast htype | sum htype => exact .inl htype
  | conditional _ _ ihyes ihno =>
    obtain ⟨_, hx⟩ := hx
    cases accepts_of_check hx with
    | conditional _ _ hyes hno hnote =>
      exact (Typing.conditionalType_textual (ihyes ⟨_, hyes⟩) (ihno ⟨_, hno⟩) hnote).2

/-! ### Values -/

/-- A text, or `null`. -/
def Value.IsTextOrNull (v : Value) : Prop :=
  v.isText = true ∨ v = .null

/-- The captured locals that hold texts hold texts or `null` at a later time. -/
def Scope.KeepsTexts (scope : Scope) (heap later : Heap) : Prop :=
  ∀ n v w, scope.local? heap n = some v → v.isText = true → scope.local? later n = some w → w.IsTextOrNull

namespace Value

variable {v : Value}

lemma isText_of_staticType (h : (v.staticType == .string) = true) : v.isText = true := by
  have hclass (c : HostClass) (h : (TypeRef.ofClass c == .string) = true) : False := by
    obtain ⟨_, heq⟩ := TypeRef.exists_of_beq_ofName h
    exact c.typeName_ne_string (TypeRef.named.inj heq).1
  cases v with
  | str | units => rfl
  | null | bool | char | integral | floating | array | list | tuple | set | frozenset | map => cases h
  | _ => exact (hclass _ h).elim

lemma isTextOrNull_box : v.box.IsTextOrNull ↔ v.IsTextOrNull := by
  unfold box
  split
  · split
    · simp [IsTextOrNull, isText]
    · split <;> simp [IsTextOrNull, isText]
  · simp [IsTextOrNull, isText, double]
  · rfl

lemma isTextOrNull_boxOnce : v.boxOnce.IsTextOrNull ↔ v.IsTextOrNull := by
  unfold boxOnce
  split
  · simp [IsTextOrNull, isText]
  · exact isTextOrNull_box

lemma isText_ofCodes (codes : List Nat) : (ofCodes codes).isText = true := by
  unfold ofCodes
  split <;> rfl

/-- The instances of `String` are the texts. -/
lemma isText_of_isInstance (h : Resolver.isInstance v .string = .ok true) : v.isText = true := by
  have hclasses (c : HostClass) : c.isSubclass .str = true → c = .str ∨ c = .char :=
    HostClass.forall_of_all (P := fun c => c.isSubclass .str = true → c = .str ∨ c = .char) (by decide +kernel) c
  have hinstance (h : (Except.ok ([HostClass.str].any v.isInstance) : Except Throwable Bool) = .ok true) :
      v.classOf = .str ∨ v.classOf = .char :=
    hclasses _ (by simpa [isInstance] using h)
  cases v with
  | str | units => rfl
  | null | char | array => cases h
  | _ => simpa [classOf] using hinstance h

lemma add_null {l r : Value} (h : l = .null ∨ r = .null) : Value.binary (.arith .add) l r = .ok none := by
  rcases h with rfl | rfl
  · rfl
  · cases l with
    | integral kind => cases kind <;> rfl
    | _ => rfl

end Value

/-- Quoting keeps texts and `null`. -/
lemma Capture.isTextOrNull_quoteCapture (c : Capture) (heap : Heap) :
    ((Lowering.quoteCapture c).content heap).IsTextOrNull ↔ (c.content heap).IsTextOrNull := by
  have hboxed (v : Value) : v.boxOnce.box.IsTextOrNull ↔ v.box.IsTextOrNull :=
    Value.isTextOrNull_box.trans (Value.isTextOrNull_boxOnce.trans Value.isTextOrNull_box.symm)
  cases c with
  | slot => rfl
  | value v =>
    cases v with
    | hostInt n => exact hboxed (.hostInt n)
    | hostFloat x id => exact hboxed (.hostFloat x id)
    | _ => rfl

lemma Value.isTextOrNull_of_cast {v w : Value} {heap : Heap}
    (h : (runFrom (Head.applyCast .string v) heap).1 = .ok (some w)) : w.IsTextOrNull := by
  unfold Head.applyCast at h
  split at h
  · next _ heq => exact nomatch heq
  · obtain rfl : Value.null = w := Option.some.inj (Except.ok.inj h)
    exact .inr rfl
  · next v _ _ _ _ =>
    rw [runFrom_bind] at h
    cases hinstance : Resolver.isInstance v .string with
    | error e =>
      rw [hinstance] at h
      cases h
    | ok b =>
      rw [hinstance] at h
      cases b with
      | false => cases h
      | true =>
        obtain rfl : v = w := Option.some.inj (Except.ok.inj h)
        exact .inl (isText_of_isInstance hinstance)

lemma Capture.content_congr {c : Capture} {heap heap' : Heap} (h : heap.slots = heap'.slots) :
    c.content heap = c.content heap' := by
  unfold content Heap.slot
  rw [h]

/-! ### Sums -/

namespace Host.Heap

/-- The codes of the text that a value has in the expression language, if it has one. -/
def sourceCodes? (heap : Heap) (v : Value) : Option (List Nat) :=
  match v.codes? with
  | some codes => some codes
  | none => if v.hasSourceText heap.canDescribe then some (Text.codes (v.sourceText heap.describe)) else none

/-- The outcome of putting the texts of two values together. It is an error if one of them has no text. -/
def concatenation (heap : Heap) (left right : Value) : Outcome :=
  match heap.sourceCodes? left, heap.sourceCodes? right with
  | some a, some b => .value (.ofCodes (a ++ b))
  | _, _ => .threw (.fault .type)

lemma runFrom_sourceTextOf (heap : Heap) (v : Value) :
    runFrom (Run.sourceTextOf v) heap =
      (if v.hasSourceText heap.canDescribe then .ok (v.sourceText heap.describe) else .error (.raised (.fault .type)),
        heap) := by
  have hheap : runFrom Run.heap heap = (.ok heap, heap) := rfl
  rw [Run.sourceTextOf, runFrom_bind, hheap]
  dsimp only
  by_cases hv : v.hasSourceText heap.canDescribe = true
  · rw [if_pos hv, if_pos hv]
    rfl
  · rw [if_neg hv, if_neg hv]
    rfl

lemma runFrom_sourceCodesOf (heap : Heap) (v : Value) :
    runFrom (Run.sourceCodesOf v) heap = ((heap.sourceCodes? v).elim (.error (.raised (.fault .type))) .ok, heap) := by
  unfold Run.sourceCodesOf sourceCodes?
  cases v.codes? with
  | some codes => rfl
  | none =>
    rw [runFrom_bind, runFrom_sourceTextOf]
    by_cases hv : v.hasSourceText heap.canDescribe = true
    · rw [if_pos hv, if_pos hv]
      rfl
    · rw [if_neg hv, if_neg hv]
      rfl

lemma isText_of_concatenation {heap : Heap} {l r v : Value} (h : heap.concatenation l r = .value v) :
    v.isText = true := by
  unfold concatenation at h
  split at h
  · rw [← Outcome.value.inj h]
    exact Value.isText_ofCodes _
  · cases h

end Host.Heap

section Sums

variable {l r : Value} {p p' : Progress} {o : Outcome}

/-- A sum with a text puts texts together. -/
lemma Evaluation.gives_sum_of_text (h : l.isText = true ∨ r.isText = true) :
    Gives (outcomeOf (Head.applyBinary (.arith .add) l r)) p o p' ↔ o = p.heap.concatenation l r ∧ p' = p := by
  have happly : Head.applyBinary (.arith .add) l r = (do
      return some (.ofCodes ((← Host.Run.sourceCodesOf l) ++ (← Host.Run.sourceCodesOf r)))) := by
    unfold Head.applyBinary
    rw [if_pos (by simpa using h)]
  rw [gives_outcomeOf, happly, runFrom_bind, Heap.runFrom_sourceCodesOf]
  unfold Heap.concatenation
  cases p.heap.sourceCodes? l with
  | none => exact and_comm
  | some a =>
    dsimp only [Option.elim]
    rw [runFrom_bind, Heap.runFrom_sourceCodesOf]
    cases p.heap.sourceCodes? r with
    | none => exact and_comm
    | some b => exact and_comm

/-- A sum with `null` but without a text is outside of what is supported. -/
lemma Evaluation.gives_sum_of_null (hl : l.isText = false) (hr : r.isText = false) (h : l = .null ∨ r = .null) :
    Gives (outcomeOf (Head.applyBinary (.arith .add) l r)) p o p' ↔ o = .unsupported ∧ p' = p := by
  have happly : Head.applyBinary (.arith .add) l r = pure none := by
    unfold Head.applyBinary
    rw [if_neg (by simp [hl, hr]), Value.add_null h]
    rfl
  rw [gives_outcomeOf, happly]
  exact and_comm

lemma Evaluation.isText_of_sum {v : Value} (h : l.IsTextOrNull ∨ r.IsTextOrNull)
    (hg : Gives (outcomeOf (Head.applyBinary (.arith .add) l r)) p (.value v) p') : v.isText = true := by
  by_cases htext : l.isText = true ∨ r.isText = true
  · exact Heap.isText_of_concatenation ((gives_sum_of_text htext).mp hg).1.symm
  · obtain ⟨hl, hr⟩ : l.isText = false ∧ r.isText = false := by simpa using htext
    have hnull : l = .null ∨ r = .null :=
      h.imp (fun h => h.resolve_left (by simp [hl])) fun h => h.resolve_left (by simp [hr])
    exact nomatch ((gives_sum_of_null hl hr hnull).mp hg).1

end Sums

/-! ### Values of textual expressions -/

/-- Whenever an operand is evaluated with the captured variables of a scope as they are at some time, its value is a
text or `null`. -/
def Operand.YieldsText (scope : Scope) (later : Heap) (z : Operand) : Prop :=
  ∀ captures before n after v, Captures.Faithful scope captures → before.heap.slots = later.slots →
    Gives (Evaluation.evaluateOperand captures z) before n after → n.value? = some v → v.IsTextOrNull

namespace Lowering

open Evaluation

variable {x y z : Operand}

lemma yieldsText_const {v : Value} (hv : v.IsTextOrNull) (type : TypeRef) :
    Operand.YieldsText scope later (.op (.leaf (.const v type))) := by
  intro captures before n after w _ _ hg hw
  obtain ⟨r, q, hoperands, -, ho⟩ := gives_of_value rfl rfl hg hw
  cases hoperands
  have hbox : Except.ok (some v.box) = Except.ok (some w) := ok_of_gives_value ho
  rw [← Option.some.inj (Except.ok.inj hbox)]
  exact Value.isTextOrNull_box.mpr hv

/-- A local that held a text holds a text or `null` when it is read. -/
lemma yieldsText_local {var : Var} {v : Value} (hkeeps : scope.KeepsTexts heap later)
    (hlocal : scope.local? heap var.name = some v) (hv : v.isText = true) :
    Operand.YieldsText scope later (.op (.leaf (.varLoad var))) := by
  intro captures before n after w hfaithful hslots hg hw
  obtain ⟨c, hc, rfl⟩ := Option.map_eq_some_iff.mp hlocal
  rw [evaluateOperand, Op.leaf, evaluate_gives] at hg
  obtain ⟨ts, o, rfl, hrun⟩ := hg
  obtain ⟨-, -, rfl⟩ := opRun_variable.mp hrun
  cases hbound : captures.binding? var.name with
  | none =>
    rw [hbound] at hw
    cases hw
  | some c' =>
    rw [hbound] at hw
    obtain rfl := Option.some.inj hw
    rw [hfaithful _ _ hbound, hc, Option.getD_some, Capture.isTextOrNull_quoteCapture, Capture.content_congr hslots]
    exact hkeeps var.name _ _ hlocal hv (by rw [Scope.local?, hc, Option.map_some])

lemma yieldsText_cast (z : Operand) : Operand.YieldsText scope later (.op (.of (.cast .string) [z])) := by
  intro captures before n after w _ _ hg hw
  obtain ⟨r, q, hoperands, hf, ho⟩ := gives_of_value rfl rfl hg hw
  cases hoperands with
  | failed => cases hf
  | next _ _ hrest =>
    cases hrest
    exact Value.isTextOrNull_of_cast (ok_of_gives_value ho)

/-- A sum with an operand that is a text or `null` has no value but a text. -/
lemma yieldsText_sum {type : TypeRef} {y z : Operand}
    (h : Operand.YieldsText scope later y ∨ Operand.YieldsText scope later z) :
    Operand.YieldsText scope later (.op (.of (.binary (.arith .add) type) [y, z])) := by
  intro captures before n after w hfaithful hslots hg hw
  obtain ⟨r, q, hoperands, hf, ho⟩ := gives_of_value rfl rfl hg hw
  cases hoperands with
  | failed => cases hf
  | @next _ _ _ _ a _ _ _ hy ha hrest =>
    cases hrest with
    | failed => cases hf
    | @next _ _ _ _ b _ _ _ hz hb hrest =>
      cases hrest
      have hvalues : a.IsTextOrNull ∨ b.IsTextOrNull :=
        h.imp (fun h => h _ _ _ _ _ hfaithful hslots hy ha)
          fun h => h _ _ _ _ _ hfaithful ((slots_eq_of_gives hy).trans hslots) hz hb
      exact .inl (isText_of_sum hvalues ho)

/-- A conditional has the value of one of its arms. -/
lemma yieldsText_choice {type : TypeRef} {c yes no : Body} {y z : Operand} (hyes : yes.yielded? = some y)
    (hno : no.yielded? = some z) (hy : Operand.YieldsText scope later y) (hz : Operand.YieldsText scope later z) :
    Operand.YieldsText scope later (.op (.mk (.ternary type) [] [c, yes, no])) := by
  intro captures before n after w hfaithful hslots hg hw
  rw [evaluateOperand, evaluate_gives] at hg
  obtain ⟨ts, o, rfl, hrun⟩ := hg
  cases opRun_choice.mp hrun with
  | malformed _ hlen => exact absurd rfl hlen
  | failed _ hv =>
    rw [Trace.value?] at hv
    exact absurd (hv.symm.trans hw) (Option.some_ne_none w).symm
  | untrue => cases hw
  | @chosen _ _ _ _ _ b q arm _ hc _ harm =>
    have hq : q.heap.slots = later.slots := (slots_eq_of_body hc).trans hslots
    cases b with
    | true => exact hy _ _ _ _ _ hfaithful hq (gives_of_yielded hyes harm) hw
    | false => exact hz _ _ _ _ _ hfaithful hq (gives_of_yielded hno harm) hw

/-- An expression that is taken as it is. -/
lemma Results.unconverted {P : Operand → Prop} {build : Build Operand} (h : Results P build) (source : TypeRef) :
    Results P (build >>= fun z => convert z source none) :=
  h.bind fun _ hz => results_pure hz

end Lowering

open Lowering in
/-- A textual expression is lowered to an operand that yields a text or `null`. -/
theorem Expr.IsTextual.yieldsText (h : x.IsTextual) (hx : IsChecked scope heap x)
    (hkeeps : scope.KeepsTexts heap later) : Results (Operand.YieldsText scope later) (lower scope heap x) := by
  induction h with
  | string =>
    rw [lower]
    exact results_emit (yieldsText_const (.inl rfl) _)
  | units =>
    rw [lower]
    exact results_emit (yieldsText_const (.inl rfl) _)
  | null =>
    rw [lower]
    exact results_emit (yieldsText_const (.inr rfl) _)
  | @«local» note n hrole htype =>
    obtain ⟨_, hx⟩ := hx
    cases accepts_of_check hx with
    | thisField => cases hrole
    | «local» hlocal =>
      rw [lower]
      exact (results_useVariable scope heap n).bind fun var hname => results_emit
        (yieldsText_local hkeeps (by rw [hname, hlocal]) (Value.isText_of_staticType htype))
  | @cast note t y htype =>
    obtain ⟨_, hx⟩ := hx
    cases accepts_of_check hx with
    | cast hy hnote =>
      have hstring : note.type = some .string := Typing.type_of_castType hnote htype
      rw [lower, hstring]
      exact results_behind fun z => results_emit (yieldsText_cast z)
  | @conditional note c yes no hyes hno ihyes ihno =>
    obtain ⟨_, hx⟩ := hx
    cases accepts_of_check hx with
    | conditional _ _ hcyes hcno hnote =>
      have hasis := (Typing.conditionalType_textual (hyes.type_isTextual ⟨_, hcyes⟩)
        (hno.type_isTextual ⟨_, hcno⟩) hnote).1
      have hyesAsIs : conversionAt note 1 = none := by rw [conversionAt, hasis]; rfl
      have hnoAsIs : conversionAt note 2 = none := by rw [conversionAt, hasis]; rfl
      rw [lower_conditional, hyesAsIs, hnoAsIs]
      refine results_behind fun c => (Results.unconverted (ihyes ⟨_, hcyes⟩) _).body.bind fun yes hy =>
        (Results.unconverted (ihno ⟨_, hcno⟩) _).body.bind fun no hz => ?_
      obtain ⟨y, hyield, hy⟩ := hy
      obtain ⟨z, hyield', hz⟩ := hz
      exact results_emit (yieldsText_choice hyield hyield' hy hz)
  | @sum note y z htype hy hz ihy ihz =>
    obtain ⟨_, hx⟩ := hx
    cases accepts_of_check hx with
    | binary hcy hcz hnote =>
      obtain ⟨hstring, rfl⟩ := Typing.binaryType_string hnote htype
      rw [lower_binary _ rfl]
      rcases hstring with hstring | hstring
      · exact (ihy hstring ⟨_, hcy⟩).bind fun a ha => results_behind fun b => results_emit (yieldsText_sum (.inl ha))
      · exact results_behind fun a => (ihz hstring ⟨_, hcz⟩).bind fun b hb => results_emit (yieldsText_sum (.inr hb))

end PredicateTrace
