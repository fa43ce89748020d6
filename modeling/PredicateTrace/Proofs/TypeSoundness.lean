import Mathlib
import PredicateTrace.Predicate
import PredicateTrace.Proofs.PrimitiveLowering

/-!
# Soundness of types

In the trace of a predicate of the primitive fragment every node has a value of the kind that its op states,
or an error of a division by zero or of an index out of bounds. The variables must still hold values of their
types, which for arrays means that their elements are of the kind of the array; all arrays that the host makes
are such.
-/

namespace PredicateTrace

open Host (Heap)

/-! ### Arrays hold values of their kind -/

lemma Value.kind?_makePrimitive {p : Primitive} (hp : p ≠ .void) {v w : Value}
    (h : makePrimitive p v = .ok w) : w.kind? = some p := by
  have hintegral {kind : Host.IntKind} (h : makeIntegral kind v = .ok w) : w.kind? = some kind.primitive := by
    unfold makeIntegral at h
    cases hn : toWhole v with
    | error e => simp [hn, Except.map] at h
    | ok n =>
      rw [hn] at h
      obtain rfl := Except.ok.inj h
      rfl
  have hfloating {kind : Host.FloatKind} (h : makeFloating kind v = .ok w) :
      w.kind? = some kind.primitive := by
    unfold makeFloating at h
    cases hx : toFractional v with
    | error e => simp [hx, Except.map] at h
    | ok x =>
      rw [hx] at h
      obtain rfl := Except.ok.inj h
      exact kind?_ofFloat kind x
  cases p with
  | void => exact absurd rfl hp
  | boolean =>
    obtain rfl := Except.ok.inj h
    rfl
  | byte | short | int | long => exact hintegral h
  | float | double => exact hfloating h
  | char =>
    change toChar v = .ok w at h
    unfold toChar at h
    split at h
    · obtain rfl := Except.ok.inj h
      rfl
    · obtain rfl := Except.ok.inj h
      rfl
    · split at h <;> first | cases h; done | (obtain rfl := Except.ok.inj h; rfl)

namespace Host

lemma kind?_identify {v w : Value} {heap heap' : Heap} (h : Gives (Run.identify v) heap w heap') :
    w.kind? = v.kind? := by
  unfold Run.identify at h
  split at h
  · split at h
    · obtain ⟨id, _, _, h⟩ := gives_bind.mp h
      obtain ⟨rfl, -⟩ := gives_pure.mp h
      rfl
    · obtain ⟨rfl, -⟩ := gives_pure.mp h
      rfl
  · split at h
    · obtain ⟨id, _, _, h⟩ := gives_bind.mp h
      obtain ⟨rfl, -⟩ := gives_pure.mp h
      rfl
    · obtain ⟨rfl, -⟩ := gives_pure.mp h
      rfl
  · obtain ⟨rfl, -⟩ := gives_pure.mp h
    rfl

lemma kind?_stored {p : Primitive} (hp : p ≠ .void) {v w : Value} {heap heap' : Heap}
    (h : Gives (stored (.prim p) v) heap w heap') : w.kind? = some p := by
  obtain ⟨u, _, hcoerce, hidentify⟩ := gives_bind.mp h
  rw [kind?_identify hidentify]
  have hmake : Gives (Run.ofExcept (Value.makePrimitive p v)) heap u _ := hcoerce
  cases hu : Value.makePrimitive p v with
  | error e =>
    rw [hu] at hmake
    exact absurd hmake gives_throw
  | ok made =>
    rw [hu] at hmake
    obtain ⟨rfl, -⟩ := gives_pure.mp hmake
    exact Value.kind?_makePrimitive hp hu

/-- Every array of a primitive type that the host makes holds values of that kind. -/
theorem arrayOf_keeps {p : Primitive} {items : List Value} {v : Value} {heap heap' : Heap}
    (h : Gives (arrayOf (.prim p) items) heap v heap') : v.Keeps true (.array (.prim p)) := by
  obtain ⟨id, _, _, h⟩ := gives_bind.mp h
  obtain ⟨made, _, hmade, h⟩ := gives_bind.mp h
  obtain ⟨rfl, -⟩ := gives_pure.mp h
  refine ⟨rfl, fun _ q id' items' heq hq item hitem => ?_⟩
  obtain ⟨-, rfl, rfl⟩ := by simpa using heq
  obtain ⟨x, _, _, _, hx⟩ := gives_mapM hmade item hitem
  exact kind?_stored hq hx

end Host

/-! ### Soundness -/

/-- A predicate of the primitive fragment that is accepted is evaluated to a trace without unsupported nodes.
Every value of an op with a primitive result type is of that kind, and every error is a division by zero or
an index out of bounds. Each captured variable must hold a value of the type that it had when the predicate
was quoted. -/
theorem primitive_fragment_sound {scope : Scope} {heap heap' : Heap} {source : String} {e : Expr Position}
    {te : TypedExpr} (hparse : Parser.parse source = .ok e)
    (hcheck : Typing.checkPredicate scope heap e = .ok te) (he : te.Elementary true)
    (hkept : ∀ entry ∈ (Lowering.quote scope heap te).captures.vars,
      (entry.2.content heap').Keeps true entry.1.type) :
    ∃ q t, quote scope heap source = .ok q ∧ q.evaluate heap' = (.ok t, ⟨heap', []⟩) ∧
      ∀ n ∈ t.nodes, n.outcome ≠ .unsupported ∧
        (∀ v p, n.outcome = .value v → n.op.head.resultType? = some (.prim p) → v.kind? = some p) ∧
        ∀ error, n.outcome = .threw error →
          error = .arithmetic ∨ ∃ index length, error = Host.outOfBounds index length := by
  have helaborates : Elaborates true scope heap e te .boolean := elaborates_of_checkPredicate hcheck he
  have hq : quote scope heap source = .ok (Lowering.quote scope heap te) := by
    simp only [quote, hparse, hcheck]
  have hbound : ∀ entry ∈ (Lowering.quote scope heap te).captures.vars,
      scope.captured? heap' entry.1.name = some (entry.2.content heap') ∧
        (entry.2.content heap').Keeps true entry.1.type := by
    intro entry hentry
    obtain ⟨c, hlookup, hc, _⟩ := Lowering.quote_captures helaborates entry hentry
    exact ⟨by rw [Scope.captured?, hlookup, Option.map_some, hc], hkept entry hentry⟩
  obtain ⟨t, hrun, -, -, hsound⟩ := Lowering.quote_evaluates helaborates hbound
  refine ⟨_, t, hq, hrun, fun n hn => ?_⟩
  have hadmits : n.op.head.Admits true n.outcome := hsound n hn
  cases ho : n.outcome with
  | value v =>
    rw [ho] at hadmits
    exact ⟨by simp, fun w p hw ht => Outcome.value.inj hw ▸ hadmits p ht, by simp⟩
  | threw error =>
    rw [ho] at hadmits
    refine ⟨by simp, by simp, fun error' herror => ?_⟩
    obtain rfl := Outcome.threw.inj herror
    exact hadmits.imp id fun h => h.2
  | unsupported =>
    rw [ho] at hadmits
    exact hadmits.elim

/-- The first element of an array is compared with a number. -/
theorem primitive_fragment_sound_of_element :
    let items : List Value := [.integral .int 5]
    let scope : Scope := ⟨[("a", .value (.array 3 (.prim .int) items))], none, .empty⟩
    let e : Expr Position := .binary ⟨1, 5⟩ (.compare .gt)
      (.index ⟨1, 2⟩ (.name ⟨1, 1⟩ "a") (.literal ⟨1, 3⟩ (.int 0))) (.literal ⟨1, 6⟩ (.int 0))
    let te : TypedExpr := .binary (.converting ⟨1, 5⟩ (.prim .boolean) [some .int, some .int]) (.compare .gt)
      (.index (.converting ⟨1, 2⟩ (.prim .int) [none, some .int])
        (.name (.named ⟨1, 1⟩ (.array (.prim .int)) .local) "a") (.literal (.plain ⟨1, 3⟩ (.prim .int)) (.int 0)))
      (.literal (.plain ⟨1, 6⟩ (.prim .int)) (.int 0))
    Parser.parse "a[0]>0" = .ok e ∧ Typing.checkPredicate scope Heap.empty e = .ok te ∧ te.Elementary true ∧
      (∀ entry ∈ (Lowering.quote scope Heap.empty te).captures.vars,
        (entry.2.content Heap.empty).Keeps true entry.1.type) ∧
      ∃ q t, quote scope Heap.empty "a[0]>0" = .ok q ∧ q.evaluate Heap.empty = (.ok t, ⟨Heap.empty, []⟩) ∧
        ∀ n ∈ t.nodes, n.outcome ≠ .unsupported ∧
          (∀ v p, n.outcome = .value v → n.op.head.resultType? = some (.prim p) → v.kind? = some p) ∧
          ∀ error, n.outcome = .threw error →
            error = .arithmetic ∨ ∃ index length, error = Host.outOfBounds index length := by
  intro items scope e te
  have hparse : Parser.parse "a[0]>0" = .ok e := by cbv
  have hcheck : Typing.checkPredicate scope Heap.empty e = .ok te := rfl
  have he : te.Elementary true := by
    refine ⟨⟨_, rfl⟩, ⟨rfl, ⟨_, rfl⟩, ⟨rfl, Or.inr ⟨rfl, _, rfl⟩⟩, ⟨_, rfl⟩⟩, ⟨_, rfl⟩, ?_⟩
    rintro ⟨a, ha, -⟩
    cases ha
  have hkept : ∀ entry ∈ (Lowering.quote scope Heap.empty te).captures.vars,
      (entry.2.content Heap.empty).Keeps true entry.1.type := by
    have hvars : (Lowering.quote scope Heap.empty te).captures.vars =
        [(⟨"a", 0, .array (.prim .int)⟩, .value (.cell 0 (.array 3 (.prim .int) items)))] := rfl
    rw [hvars]
    intro entry hentry
    obtain rfl := List.mem_singleton.mp hentry
    refine ⟨rfl, fun _ p id kept hkept _ item hitem => ?_⟩
    obtain ⟨-, rfl, rfl⟩ := by simpa [Capture.content, Value.box] using hkept
    obtain rfl := List.mem_singleton.mp hitem
    rfl
  exact ⟨hparse, hcheck, he, hkept, primitive_fragment_sound hparse hcheck he hkept⟩

end PredicateTrace
