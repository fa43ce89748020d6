import PredicateTrace.Proofs.PrimitiveLowering

/-!
# Lowering preserves meaning

An expression of the primitive fragment is quoted to a tree of ops whose evaluation has the outcome of the
direct evaluation of the expression, if the captured variables hold what they held when it was quoted.
-/

namespace PredicateTrace

open Host (Heap)

lemma Value.box_box (v : Value) : v.box.box = v.box := by
  cases v with
  | hostInt n =>
    by_cases hint : -2 ^ 31 ≤ n ∧ n < 2 ^ 31
    · simp only [box, if_pos hint]
    · by_cases hlong : -2 ^ 63 ≤ n ∧ n < 2 ^ 63
      · simp only [box, if_neg hint, if_pos hlong]
      · simp only [box, if_neg hint, if_neg hlong]
  | _ => rfl

/-- Boxing once gives a value of the type that boxing anew gives. -/
lemma Value.staticType_boxOnce (v : Value) : v.boxOnce.box.staticType = v.box.staticType := by
  cases v with
  | hostInt n => exact congrArg staticType (box_box (.hostInt n))
  | _ => rfl

/-- Quoting keeps the types of captured variables. -/
lemma Capture.staticType_quoteCapture (c : Capture) (heap : Heap) :
    ((Lowering.quoteCapture c).content heap).staticType = (c.content heap).staticType := by
  cases c with
  | slot place shared => rfl
  | value v =>
    cases v with
    | hostInt n => exact Value.staticType_boxOnce (.hostInt n)
    | _ => rfl

/-- An expression of the primitive fragment that is accepted by the checker is lowered to a tree of ops whose
evaluation has the outcome of the direct evaluation of the expression, and changes nothing. This is a value of
the kind that the checker found, or a division by zero. -/
theorem lowering_preserves_meaning {scope : Scope} {heap heap' : Heap} {e : Expr Position} {te : TypedExpr}
    (hcheck : Typing.check scope heap e = .ok te) (he : te.Elementary false)
    (hkept : ∀ entry ∈ (Lowering.quote scope heap te).captures.vars,
      entry.2.content heap' = entry.2.content heap) :
    ∃ t k, (Lowering.quote scope heap te).evaluate heap' = (.ok t, ⟨heap', []⟩) ∧
      t.outcome = Direct.evaluate (scope.captured? heap) e ∧ te.type = .prim k ∧
      ((∃ v, t.outcome = .value v ∧ v.kind? = some k) ∨ t.outcome = .threw .arithmetic) := by
  obtain ⟨k, helaborates⟩ : ∃ k, Elaborates false scope heap e te k := by
    cases checked_of_check e hcheck he with
    | kind h => exact ⟨_, h⟩
    | array hfalse => cases hfalse
    | void hfalse => cases hfalse
  have hbound : ∀ entry ∈ (Lowering.quote scope heap te).captures.vars,
      scope.captured? heap entry.1.name = some (entry.2.content heap') ∧
        (entry.2.content heap').Keeps false entry.1.type := by
    intro entry hentry
    obtain ⟨c, hlookup, hc, htype⟩ := Lowering.quote_captures helaborates entry hentry
    rw [hkept entry hentry, hc]
    refine ⟨?_, ?_, fun hfalse => by cases hfalse⟩
    · rw [Scope.captured?, hlookup, Option.map_some]
    · rw [Capture.staticType_quoteCapture, htype]
  obtain ⟨t, hrun, ho, hfits, -⟩ := Lowering.quote_evaluates helaborates hbound
  refine ⟨t, k, hrun, ho, helaborates.type_eq, ?_⟩
  cases hout : t.outcome with
  | value v =>
    rw [hout] at hfits
    exact Or.inl ⟨v, rfl, hfits⟩
  | threw error =>
    rw [hout] at hfits
    rcases hfits with rfl | ⟨hfalse, _⟩
    · exact Or.inr rfl
    · cases hfalse
  | unsupported =>
    rw [hout] at hfits
    exact hfits.elim

/-- The complement of an `int` is converted to a `long` before the sum. -/
theorem lowering_preserves_meaning_of_sum :
    let scope : Scope := ⟨[("x", .value (.hostInt 5))], none, .empty⟩
    let e : Expr Position := .binary ⟨1, 4⟩ (.arith .add)
      (.unary ⟨1, 1⟩ .complement (.name ⟨1, 2⟩ "x")) (.literal ⟨1, 6⟩ (.long 1))
    let te : TypedExpr := .binary (.converting ⟨1, 4⟩ (.prim .long) [some .long, some .long]) (.arith .add)
      (.unary (.converting ⟨1, 1⟩ (.prim .int) [some .int]) .complement
        (.name (.named ⟨1, 2⟩ (.prim .int) .local) "x"))
      (.literal (.plain ⟨1, 6⟩ (.prim .long)) (.long 1))
    Direct.evaluate (scope.captured? Heap.empty) e = .value (.integral .long (-5)) ∧
      Typing.check scope Heap.empty e = .ok te ∧ te.Elementary false ∧
      (∀ entry ∈ (Lowering.quote scope Heap.empty te).captures.vars,
        entry.2.content Heap.empty = entry.2.content Heap.empty) ∧
      ∃ t k, (Lowering.quote scope Heap.empty te).evaluate Heap.empty = (.ok t, ⟨Heap.empty, []⟩) ∧
        t.outcome = Direct.evaluate (scope.captured? Heap.empty) e ∧ te.type = .prim k ∧
        ((∃ v, t.outcome = .value v ∧ v.kind? = some k) ∨ t.outcome = .threw .arithmetic) := by
  intro scope e te
  have hcheck : Typing.check scope Heap.empty e = .ok te := rfl
  have he : te.Elementary false := by
    refine ⟨⟨_, rfl⟩, ⟨⟨_, rfl⟩, rfl, Or.inl ⟨_, rfl⟩⟩, ⟨_, rfl⟩, ?_⟩
    rintro ⟨a, ha, hbits, -⟩
    cases ha
    cases hbits
  have hkept : ∀ entry ∈ (Lowering.quote scope Heap.empty te).captures.vars,
      entry.2.content Heap.empty = entry.2.content Heap.empty := fun _ _ => rfl
  exact ⟨rfl, hcheck, he, hkept, lowering_preserves_meaning hcheck he hkept⟩

end PredicateTrace
