import PredicateTrace.Proofs.PlacedNodes
import PredicateTrace.Proofs.TextualExpressions

/-!
# Sums of type `String`

A sum of type `String` puts the texts of its operands together whenever one of them is a text. This is decided by
the values, as the checker converts nothing: where the only operand of type `String` is `null` and the other one is
no text either, the sum is unsupported.
-/

namespace PredicateTrace

open Host (Heap)
open Typing (IsChecked accepts_of_check)

/-- Whenever a predicate is evaluated, the node at a place puts together the texts of the values of two operands, if
one of them is a text. The texts are those after the evaluation of both operands. -/
def Quoted.Concatenates (q : Quoted) (place : Place) (a b : Operand) : Prop :=
  ∀ later t p, q.evaluate later = (.ok t, p) → ∀ n dl dr l r, (place, n) ∈ t.places → n.children = [dl, dr] →
    dl.value? = some l → dr.value? = some r → l.isText = true ∨ r.isText = true →
      ∃ before between after, Gives (Evaluation.evaluateOperand q.captures a) before dl between ∧
        Gives (Evaluation.evaluateOperand q.captures b) between dr after ∧
          n.outcome = after.heap.concatenation l r

/-- Whenever a predicate is evaluated and the captured locals still hold texts, the node at a place finds `null` for
an expression of type `String` if neither value is a text, and is unsupported. -/
def Quoted.FailsOnNull (q : Quoted) (scope : Scope) (heap : Heap) (place : Place) (x y : TypedExpr) : Prop :=
  ∀ later, scope.KeepsTexts heap later → ∀ t p, q.evaluate later = (.ok t, p) → ∀ n dl dr l r,
    (place, n) ∈ t.places → n.children = [dl, dr] → dl.value? = some l → dr.value? = some r →
      l.isText = false → r.isText = false →
        (x.IsString ∧ l = .null ∨ y.IsString ∧ r = .null) ∧ n.outcome = .unsupported

namespace Lowering

variable {scope : Scope} {heap later : Heap} {te x y : TypedExpr} {note : Typing} {place : Place} {a b z : Operand}

/-- A sum of type `String` is lowered to a sum of what its operands are lowered to. -/
lemma results_sum (h : IsChecked scope heap (.binary note (.arith .add) x y))
    (htype : (Expr.binary note (.arith .add) x y).IsString) :
    Results (fun z => ∃ a b, z = .op (.of (.binary (.arith .add) .string) [a, b]) ∧ Becomes scope heap x a ∧
      Becomes scope heap y b) (lower scope heap (.binary note (.arith .add) x y)) := by
  obtain ⟨_, h⟩ := h
  cases accepts_of_check h with
  | binary _ _ hnote =>
    obtain ⟨-, rfl⟩ := Typing.binaryType_string hnote htype
    rw [lower_binary _ rfl]
    exact (results_becomes scope heap x).bind fun a ha => (results_becomes scope heap y).bind fun b hb =>
      results_emit ⟨a, b, rfl, ha, hb⟩

lemma concatenates_of_sum
    (hplace : (root scope heap te).inside? place = some (.op (.of (.binary (.arith .add) .string) [a, b]))) :
    (quote scope heap te).Concatenates place a b := by
  intro later t p ht n dl dr l r hn hc hl hr htext
  obtain ⟨before, after, -, hg⟩ := gives_of_mem_places hplace ht hn
  obtain ⟨between, q, ha, hb, ho⟩ := Evaluation.gives_of_operands rfl rfl hg hc hl hr
  exact ⟨before, between, q, ha, hb, ((Evaluation.gives_sum_of_text htext).mp ho).1⟩

/-- One of the operands has the type `String`, and its value is a text or `null` if it is textual. -/
lemma failsOnNull_of_sum (h : IsChecked scope heap (.binary note (.arith .add) x y))
    (hsum : (Expr.binary note (.arith .add) x y).IsTextual) (ha : Becomes scope heap x a) (hb : Becomes scope heap y b)
    (hplace : (root scope heap te).inside? place = some (.op (.of (.binary (.arith .add) .string) [a, b]))) :
    (quote scope heap te).FailsOnNull scope heap place x y := by
  intro later hkeeps t p ht n dl dr l r hn hc hl hr hltext hrtext
  obtain ⟨before, after, hslots, hg⟩ := gives_of_mem_places hplace ht hn
  obtain ⟨between, q, hga, hgb, ho⟩ := Evaluation.gives_of_operands rfl rfl hg hc hl hr
  have hfaithful := faithful_quote scope heap te
  have hnull : x.IsString ∧ l = .null ∨ y.IsString ∧ r = .null := by
    cases hsum with
    | sum htype hx hy =>
      obtain ⟨_, h⟩ := h
      cases accepts_of_check h with
      | binary hcx hcy hnote =>
        rcases (Typing.binaryType_string hnote htype).1 with hstring | hstring
        · obtain ⟨builder, rfl⟩ := ha
          have hvalue := (hx hstring).yieldsText ⟨_, hcx⟩ hkeeps builder _ _ _ _ _ hfaithful hslots hga hl
          exact .inl ⟨hstring, hvalue.resolve_left (by simp [hltext])⟩
        · obtain ⟨builder, rfl⟩ := hb
          have hbetween := (Evaluation.slots_eq_of_gives hga).trans hslots
          have hvalue := (hy hstring).yieldsText ⟨_, hcy⟩ hkeeps builder _ _ _ _ _ hfaithful hbetween hgb hr
          exact .inr ⟨hstring, hvalue.resolve_left (by simp [hrtext])⟩
  exact ⟨hnull, ((Evaluation.gives_sum_of_null hltext hrtext (hnull.imp And.right And.right)).mp ho).1⟩

end Lowering

/-- In an accepted predicate, a sum of type `String` of literals, captured locals, casts, conditionals and further
sums puts the texts of the values of its operands together as soon as one of these is a text. Otherwise an operand
of type `String` is `null`, and the sum is unsupported. -/
theorem string_sum_concatenates {scope : Scope} {heap : Heap} {e : Expr Position} {te x y : TypedExpr} {note : Typing}
    (h : Typing.checkPredicate scope heap e = .ok te) (hu : (Expr.binary note (.arith .add) x y).Within te)
    (hsum : (Expr.binary note (.arith .add) x y).IsTextual) :
    (∃ place z, (Lowering.root scope heap te).inside? place = some z ∧
      Lowering.Becomes scope heap (.binary note (.arith .add) x y) z) ∧
      ∀ place z, (Lowering.root scope heap te).inside? place = some z →
        Lowering.Becomes scope heap (.binary note (.arith .add) x y) z →
          ∃ a b, z = .op (.of (.binary (.arith .add) .string) [a, b]) ∧ Lowering.Becomes scope heap x a ∧
            Lowering.Becomes scope heap y b ∧ (Lowering.quote scope heap te).Concatenates place a b ∧
            (Lowering.quote scope heap te).FailsOnNull scope heap place x y := by
  have hchecked := IsChecked.within ⟨e, (Typing.checkPredicate_eq_ok.mp h).1⟩ hu
  have htype : (Expr.binary note (.arith .add) x y).IsString := by
    cases hsum with
    | sum htype => exact htype
  have hresults := Lowering.results_sum hchecked htype
  constructor
  · have hplain (z : Operand) (hz : Lowering.Becomes scope heap (.binary note (.arith .add) x y) z) :
        z.isChain = false := by
      obtain ⟨builder, rfl⟩ := hz
      obtain ⟨a, b, heq, -⟩ := hresults builder
      rw [heq]
      rfl
    obtain ⟨z, hpart, hz⟩ := Lowering.contains_of_within hplain hu ⟨[], []⟩
    obtain ⟨place, hplace⟩ := hpart.exists_inside?
    exact ⟨place, z, hplace, hz⟩
  · rintro place z hplace ⟨builder, hz⟩
    obtain ⟨a, b, rfl, ha, hb⟩ := hz ▸ hresults builder
    exact ⟨a, b, rfl, ha, hb, Lowering.concatenates_of_sum hplace,
      Lowering.failsOnNull_of_sum hchecked hsum ha hb hplace⟩

/-- A text is put together with a `null` that is cast to `String`. -/
theorem string_sum_concatenates_of_null_text :
    let scope : Scope := ⟨[], none, ⟨[("String", .name "java.lang.String")]⟩⟩
    let target : TypeName := ⟨.named ["String"], 0, ⟨1, 7⟩⟩
    let e : Expr Position := .binary ⟨1, 20⟩ (.compare .eq) (.binary ⟨1, 5⟩ (.arith .add)
      (.literal ⟨1, 1⟩ (.string "a")) (.cast ⟨1, 6⟩ target (.literal ⟨1, 15⟩ .null)))
      (.literal ⟨1, 23⟩ (.string "anull"))
    let x : TypedExpr := .literal (.plain ⟨1, 1⟩ .string) (.string "a")
    let y : TypedExpr := .cast (.plain ⟨1, 6⟩ .string) target (.literal (.plain ⟨1, 15⟩ .null) .null)
    let u : TypedExpr := .binary (.converting ⟨1, 5⟩ .string [none, none]) (.arith .add) x y
    let te : TypedExpr := .binary (.converting ⟨1, 20⟩ (.prim .boolean) [none, none]) (.compare .eq) u
      (.literal (.plain ⟨1, 23⟩ .string) (.string "anull"))
    Typing.checkPredicate scope Heap.empty e = .ok te ∧ u.Within te ∧ u.IsTextual ∧
      (Lowering.quote scope Heap.empty te).rootOutcome Heap.empty =
        (.ok (.value (.bool true)), ⟨Heap.empty, []⟩) ∧
      (∃ place z, (Lowering.root scope Heap.empty te).inside? place = some z ∧
        Lowering.Becomes scope Heap.empty u z) ∧
      ∀ place z, (Lowering.root scope Heap.empty te).inside? place = some z →
        Lowering.Becomes scope Heap.empty u z →
          ∃ a b, z = .op (.of (.binary (.arith .add) .string) [a, b]) ∧ Lowering.Becomes scope Heap.empty x a ∧
            Lowering.Becomes scope Heap.empty y b ∧ (Lowering.quote scope Heap.empty te).Concatenates place a b ∧
            (Lowering.quote scope Heap.empty te).FailsOnNull scope Heap.empty place x y := by
  intro scope target e x y u te
  have h : Typing.checkPredicate scope Heap.empty e = .ok te := by rfl
  have hu : u.Within te := .single List.mem_cons_self
  have hsum : u.IsTextual := .sum rfl (fun _ => .string) fun _ => .cast rfl
  have ho : (Lowering.quote scope Heap.empty te).rootOutcome Heap.empty =
      (.ok (.value (.bool true)), ⟨Heap.empty, []⟩) := by cbv
  exact ⟨h, hu, hsum, ho, string_sum_concatenates h hu hsum⟩

/-- The sum of a `null` that is cast to `String` and a number is of type `String`, but has no value. -/
theorem null_sum_unsupported :
    let scope : Scope := ⟨[], none, ⟨[("String", .name "java.lang.String")]⟩⟩
    let e : Expr Position := .binary ⟨1, 19⟩ (.compare .eq) (.binary ⟨1, 15⟩ (.arith .add)
      (.cast ⟨1, 1⟩ ⟨.named ["String"], 0, ⟨1, 2⟩⟩ (.literal ⟨1, 10⟩ .null)) (.literal ⟨1, 17⟩ (.int 1)))
      (.literal ⟨1, 22⟩ (.string "null1"))
    ∃ te note x y t p n dl dr, Typing.checkPredicate scope Heap.empty e = .ok te ∧
      (Expr.binary note (.arith .add) x y).Within te ∧ (Expr.binary note (.arith .add) x y).IsTextual ∧
      (Lowering.quote scope Heap.empty te).evaluate Heap.empty = (.ok t, p) ∧ t.children = [n] ∧
      Lowering.Becomes scope Heap.empty (.binary note (.arith .add) x y) (.op n.op) ∧ n.children = [dl, dr] ∧
      dl.value? = some .null ∧ dr.value? = some (.int 1) ∧
      Heap.empty.concatenation .null (.int 1) = .value (.str "null1") ∧ n.outcome = .unsupported := by
  intro scope e
  let x : TypedExpr := .cast (.plain ⟨1, 1⟩ .string) ⟨.named ["String"], 0, ⟨1, 2⟩⟩
    (.literal (.plain ⟨1, 10⟩ .null) .null)
  let y : TypedExpr := .literal (.plain ⟨1, 17⟩ (.prim .int)) (.int 1)
  have hsum : (Expr.binary (.converting ⟨1, 15⟩ .string [none, none]) (.arith .add) x y).IsTextual :=
    .sum rfl (fun _ => .cast rfl) fun h => nomatch h
  exact ⟨_, _, x, y, _, _, _, _, _, rfl, .single List.mem_cons_self, hsum, rfl, rfl, ⟨⟨[], []⟩, rfl⟩, rfl, rfl, rfl,
    by cbv, rfl⟩

end PredicateTrace
