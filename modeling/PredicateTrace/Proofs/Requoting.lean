import PredicateTrace.Predicate
import PredicateTrace.Proofs.MeaningPreservation
import PredicateTrace.Proofs.SourceOfOps
import PredicateTrace.Report

/-!
# Quoting what was shown

The source text of what a quoted predicate returns is again a source. Quoting it in the same scope gives a
predicate with the same outcome, although not always the same tree of ops.
-/

namespace PredicateTrace

open Host (Heap)
open Evaluation (result)
open PredicateTrace.Parser (Written)

variable {scope : Scope} {heap later : Heap} {te : TypedExpr} {x : Operand} {k : Primitive}

/-- The outcome of the root of a predicate, and what its evaluation leaves behind. -/
def Quoted.rootOutcome (q : Quoted) (later : Heap) : Except Abort Outcome × Progress :=
  ((q.evaluate later).1.map Trace.outcome, (q.evaluate later).2)

/-- No sign in what a predicate returns is applied directly to a constant below zero. -/
def Quoted.SignsOnce (q : Quoted) : Prop :=
  ∀ x, q.returned? = some x → x.SignsOnce

/-- The captured variables hold values of the types that they had when the predicate was quoted. -/
def Captures.KeepTypes (captures : Captures) (later : Heap) : Prop :=
  ∀ entry ∈ captures.vars, (entry.2.content later).staticType = entry.1.type

lemma Captures.exists_of_binding? {captures : Captures} {name : String} {c : Capture}
    (h : captures.binding? name = some c) : ∃ entry ∈ captures.vars, entry.1.name = name ∧ entry.2 = c := by
  obtain ⟨entry, hfind, rfl⟩ := Option.map_eq_some_iff.mp h
  exact ⟨entry, List.mem_of_find?_eq_some hfind, by simpa using List.find?_some hfind, rfl⟩

namespace Lowering

lemma faithful_quote (scope : Scope) (heap : Heap) (te : TypedExpr) :
    (quote scope heap te).captures.Faithful scope := by
  intro name c hbound
  obtain ⟨entry, hentry, rfl, rfl⟩ := Captures.exists_of_binding? hbound
  obtain ⟨v, hv, rfl⟩ := List.mem_map.mp hentry
  rfl

/-- The operand that a predicate returns. -/
def root (scope : Scope) (heap : Heap) (te : TypedExpr) : Operand :=
  ((lower scope heap te).run ⟨[], []⟩).1

lemma returned?_eq_root (scope : Scope) (heap : Heap) (te : TypedExpr) :
    (quote scope heap te).returned? = some (root scope heap te) :=
  rfl

lemma rootOutcome_quote (scope : Scope) (heap later : Heap) (te : TypedExpr) :
    (quote scope heap te).rootOutcome later =
      (result (quote scope heap te).captures (root scope heap te)).run.run ⟨later, []⟩ := by
  have hevaluate : (quote scope heap te).evaluate later =
      (Evaluation.evaluateOperand (quote scope heap te).captures (root scope heap te)).run.run ⟨later, []⟩ := rfl
  rw [Quoted.rootOutcome, hevaluate, result, ExceptT.run_map]
  rfl

section Building

variable {post : Captures → Operand → Prop}

lemma types_quote (h : Builds false scope heap (scope.captured? heap) heap (lower scope heap te) post) :
    ∀ entry ∈ (quote scope heap te).captures.vars, ∃ v, scope.local? heap entry.1.name = some v ∧
      entry.1.type = v.staticType ∧ (entry.2.content heap).staticType = v.staticType := by
  obtain ⟨-, htyped, -⟩ := h ⟨[], []⟩ (by simp [TypedVars])
  intro entry hentry
  obtain ⟨var, hvar, rfl⟩ := List.mem_map.mp hentry
  obtain ⟨v, hv, htype⟩ := htyped var hvar
  obtain ⟨c, hc, rfl⟩ := Option.map_eq_some_iff.mp hv
  refine ⟨_, hv, htype, ?_⟩
  rw [hc, Option.getD_some, Capture.staticType_quoteCapture]

/-- What holds for all captures that bind the variables holds for those that a predicate is quoted with. -/
lemma of_builds_quote (h : Builds false scope heap (scope.captured? heap) heap (lower scope heap te) post) :
    post (quote scope heap te).captures (root scope heap te) := by
  have htypes := types_quote h
  obtain ⟨-, htyped, hpost⟩ := h ⟨[], []⟩ (by simp [TypedVars])
  refine hpost _ fun var hvar => ?_
  have hbound := binding?_map hvar (fun name => quoteCapture ((scope.locals.lookup name).getD (.value .null)))
    (quote scope heap te).captures.params
  obtain ⟨v, hv, htype, hkept⟩ := htypes _ (List.mem_map_of_mem hvar)
  obtain ⟨c, hc, rfl⟩ := Option.map_eq_some_iff.mp hv
  refine ⟨_, hbound, ?_, hkept.trans htype.symm, fun hfalse => by cases hfalse⟩
  rw [Scope.captured?, hc, Option.map_some, Option.getD_some]

lemma keepTypes_quote (h : Builds false scope heap (scope.captured? heap) heap (lower scope heap te) post) :
    (quote scope heap te).captures.KeepTypes heap := by
  intro entry hentry
  obtain ⟨v, -, htype, hkept⟩ := types_quote h entry hentry
  exact hkept.trans htype.symm

end Building

/-- A predicate of plain ops returns an outcome as long as its variables keep their types. -/
lemma exists_rootOutcome (h : Lowers scope heap te k)
    (hkept : (quote scope heap te).captures.KeepTypes later) :
    ∃ o, (quote scope heap te).rootOutcome later = (.ok o, ⟨later, []⟩) := by
  have hplain := of_builds_quote h.builds
  have hsettles : Evaluation.Settles later k (result (quote scope heap te).captures (root scope heap te)) := by
    refine hplain.settles fun name c v hbound hlocal => ?_
    obtain ⟨entry, hentry, rfl, rfl⟩ := Captures.exists_of_binding? hbound
    obtain ⟨v', hv', htype, -⟩ := types_quote h.builds entry hentry
    obtain rfl : v' = v := Option.some.inj (hv'.symm.trans hlocal)
    exact (hkept entry hentry).trans htype
  obtain ⟨o, hgives, -⟩ := hsettles ⟨later, []⟩ rfl
  exact ⟨o, (rootOutcome_quote scope heap later te).trans hgives⟩

end Lowering

lemma checkPredicate_of_check {e : Expr Position} (h : Typing.check scope heap e = .ok te)
    (hte : te.type = .prim .boolean) : Typing.checkPredicate scope heap e = .ok te := by
  rw [Typing.checkPredicate, h]
  simp only [bind, Except.bind, hte]
  rfl

/-- An accepted plain predicate is lowered to plain ops with a truth value. -/
lemma lowers_of_checkPredicate {e : Expr Position} (hwords : e.IsScanned)
    (h : Typing.checkPredicate scope heap e = .ok te) (hte : te.Plain) : Lowers scope heap te .boolean := by
  obtain ⟨hcheck, -⟩ := Typing.checkPredicate_eq_ok.mp h
  obtain hcondition | ⟨_, _, _, _, rfl⟩ := Typing.isCondition_or_assign h
  · obtain ⟨k, hlowers⟩ := lowers_of_check e hwords hcheck hte
    obtain rfl : k = .boolean := by simpa [hlowers.type_eq, TypeRef.isCondition] using hcondition
    exact hlowers
  · exact hte.elim

/-- What a plain predicate returns is shown by a text that can be quoted in the same scope, to a predicate with
the same outcome whenever both are evaluated, and the same effects. There is an outcome as long as the captured
variables keep their types, and at first they do. No sign may be applied directly to a constant below zero, as
two signs next to each other are read as another symbol. -/
theorem requoting_preserves_outcome {α : Type} [Text.Coded α] {source : α} {e : Expr Position} (f : Formatter)
    (hparse : Parser.parse source = .ok e) (hcheck : Typing.checkPredicate scope heap e = .ok te) (hte : te.Plain)
    (hsigns : (Lowering.quote scope heap te).SignsOnce) :
    let q := Lowering.quote scope heap te
    quote scope heap source = .ok q ∧
      (∃ x text q', q.returned? = some x ∧ x.sourceCodes? f = some text ∧ quote scope heap text = .ok q' ∧
        ∀ later, q'.rootOutcome later = q.rootOutcome later) ∧
      q.captures.KeepTypes heap ∧
      ∀ later, q.captures.KeepTypes later → ∃ o, q.rootOutcome later = (.ok o, ⟨later, []⟩) := by
  intro q
  have hquote : quote scope heap source = .ok q := by
    rw [quote, hparse]
    simp only [hcheck]
    rfl
  have hlowers := lowers_of_checkPredicate (isScanned_of_parse hparse) hcheck hte
  have hfaithful := Lowering.faithful_quote scope heap te
  have hroot := Lowering.of_builds_quote hlowers.builds
  have hrootSigns := hsigns _ (Lowering.returned?_eq_root scope heap te)
  obtain ⟨text, inner, hsourced⟩ := hroot.sourced (f := f) hfaithful hrootSigns
  obtain ⟨w, finish, ⟨e', hwritten, te', hcheck', htype', hbuilds'⟩, htokens⟩ :=
    hsourced.loose.tokenize fun c hc => by cases hc
  have hparse' : Parser.parse (Fragment.loose ⟨text, some inner⟩) = .ok e' :=
    bind_eq_ok.mpr ⟨_, htokens, Parser.parseTokens_eq_ok.mpr hwritten⟩
  have hquote' : quote scope heap (Fragment.loose ⟨text, some inner⟩) = .ok (Lowering.quote scope heap te') := by
    rw [quote, hparse']
    simp only [checkPredicate_of_check hcheck' htype']
  have hsame := Lowering.of_builds_quote hbuilds' (Lowering.faithful_quote scope heap te')
  refine ⟨hquote, ⟨Lowering.root scope heap te, _, _, rfl, ?_, hquote', fun later => ?_⟩,
    Lowering.keepTypes_quote hlowers.builds, fun later hkept => Lowering.exists_rootOutcome hlowers hkept⟩
  · rw [Operand.sourceCodes?, hsourced.fragment_eq, Option.map_some]
  · rw [Lowering.rootOutcome_quote, Lowering.rootOutcome_quote, hsame]

lemma Operand.signsOnce_of_operands {head : Head} {xs : List Operand}
    (hhead : ∀ type y, head = .neg type → xs = [y] → ¬y.IsNegative) (hxs : ∀ x ∈ xs, x.SignsOnce) :
    (Operand.op (.of head xs)).SignsOnce := by
  intro type y hy
  cases hy with
  | refl => exact hhead type y rfl rfl
  | operand hx hy => exact hxs _ hx type y hy
  | yielded hb => cases hb

/-- What is shown is `(long)-x < 2L`, with the conversion that the source leaves out. -/
theorem requoting_preserves_outcome_of_comparison :
    let f := Heap.empty.formatter Formatter.defaultBudget
    let scope : Scope := ⟨[("x", .value (.hostInt 5))], none, .empty⟩
    let e : Expr Position := .binary ⟨1, 3⟩ (.compare .lt) (.unary ⟨1, 1⟩ .minus (.name ⟨1, 2⟩ "x"))
      (.literal ⟨1, 4⟩ (.long 2))
    let te : TypedExpr := .binary (.converting ⟨1, 3⟩ (.prim .boolean) [some .long, some .long]) (.compare .lt)
      (.unary (.converting ⟨1, 1⟩ (.prim .int) [some .int]) .minus (.name (.named ⟨1, 2⟩ (.prim .int) .local) "x"))
      (.literal (.plain ⟨1, 4⟩ (.prim .long)) (.long 2))
    let q := Lowering.quote scope Heap.empty te
    Parser.parse "-x<2L" = .ok e ∧ Typing.checkPredicate scope Heap.empty e = .ok te ∧ te.Plain ∧ q.SignsOnce ∧
      quote scope Heap.empty "-x<2L" = .ok q ∧
      (∃ x text q', q.returned? = some x ∧ x.sourceCodes? f = some text ∧ quote scope Heap.empty text = .ok q' ∧
        ∀ later, q'.rootOutcome later = q.rootOutcome later) ∧
      q.captures.KeepTypes Heap.empty ∧
      ∀ later, q.captures.KeepTypes later → ∃ o, q.rootOutcome later = (.ok o, ⟨later, []⟩) := by
  intro f scope e te q
  have hparse : Parser.parse "-x<2L" = .ok e := by
    have htokens : Token.tokenize "-x<2L" = .ok ⟨[⟨.symbol .minus, ⟨1, 1⟩, "-"⟩, ⟨.ident "x", ⟨1, 2⟩, "x"⟩,
      ⟨.symbol .lt, ⟨1, 3⟩, "<"⟩, ⟨.long 2, ⟨1, 4⟩, "2L"⟩], ⟨1, 6⟩⟩ := by rfl
    have hx : Written (phraseAt 14 (.name ⟨1, 2⟩ "x")) [⟨.ident "x", ⟨1, 2⟩, "x"⟩] :=
      @Written.name ⟨.ident "x", ⟨1, 2⟩, "x"⟩ "x" rfl
    have hopposite := @written_unary _ .minus ⟨.symbol .minus, ⟨1, 1⟩, "-"⟩ _ rfl
      (written_mono hx (by decide) (by decide))
    have hdenotes : Token.Denotes ⟨.long 2, ⟨1, 4⟩, "2L"⟩ (.long 2) := ⟨2, rfl, Nat.le_of_ble_eq_true (by decide), rfl⟩
    have htwo : Written (phraseAt 14 (.literal ⟨1, 4⟩ (.long 2))) [⟨.long 2, ⟨1, 4⟩, "2L"⟩] :=
      @Written.literal ⟨.long 2, ⟨1, 4⟩, "2L"⟩ _ (Parser.literal?_eq_some_ok.mpr hdenotes)
    have hless := @written_binary _ (.compare .lt) ⟨.symbol .lt, ⟨1, 3⟩, "<"⟩ _ _ _ rfl
      (written_mono hopposite (by decide) (by decide)) (written_mono htwo (by decide) (by decide))
    have hwritten : Written (.expression e) _ := @written_mono _ 0 8 e hless (by decide) (by decide)
    exact bind_eq_ok.mpr ⟨_, htokens, Parser.parseTokens_eq_ok.mpr hwritten⟩
  have hcheck : Typing.checkPredicate scope Heap.empty e = .ok te := rfl
  have hte : te.Plain := ⟨⟨_, rfl⟩, ⟨⟨_, rfl⟩, rfl, _, rfl⟩, trivial⟩
  have hsigns : q.SignsOnce := by
    intro x hx
    obtain rfl := Option.some.inj hx
    have hleaf (head : Head) : (Operand.op (.leaf head)).SignsOnce :=
      Operand.signsOnce_of_operands (fun _ _ _ h => by cases h) fun _ h => by cases h
    refine Operand.signsOnce_of_operands (fun _ _ h => by cases h)
      (List.forall_mem_cons.mpr ⟨?_, List.forall_mem_singleton.mpr (hleaf _)⟩)
    refine Operand.signsOnce_of_operands (fun _ _ h => by cases h) (List.forall_mem_singleton.mpr ?_)
    refine Operand.signsOnce_of_operands (fun _ _ _ h => ?_) (List.forall_mem_singleton.mpr (hleaf _))
    cases h
    exact id
  exact ⟨hparse, hcheck, hte, hsigns, requoting_preserves_outcome f hparse hcheck hte hsigns⟩

end PredicateTrace
