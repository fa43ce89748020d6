import PredicateTrace.Proofs.MeaningPreservation
import PredicateTrace.Proofs.PlainOps

/-!
# Expressions that restore ops

An expression restores an operand if it is accepted with the kind of the operand, and is lowered to a tree with
the same result. What restores the parts of an op is put together to what restores the op. The trees need not be
equal: a negative constant becomes the opposite of a positive one, and a chain takes in a chain at its
beginning.
-/

namespace PredicateTrace

open Host (Heap)
open Typing (converting)
open Lowering (Builds lower convert emit chainHead?)
open Evaluation (result bodyResult chainResult onValue)

variable {scope : Scope} {heap : Heap} {captures captures' : Captures} {x y z x' y' : Operand} {p q k : Primitive}
  {pos : Position} {e l r c yes no : Expr Position} {te : TypedExpr}

/-- Variables are bound to what quoting binds them to in a scope. -/
def Captures.Faithful (scope : Scope) (captures : Captures) : Prop :=
  ∀ name c, captures.binding? name = some c →
    c = Lowering.quoteCapture ((scope.locals.lookup name).getD (.value .null))

/-- An operand has the result that another one has under other captures, if these are faithful. -/
def SameResult (scope : Scope) (captures : Captures) (x : Operand) (captures' : Captures) (x' : Operand) : Prop :=
  captures'.Faithful scope → result captures' x' = result captures x

/-- An expression is accepted with a kind and lowered to an operand with the given result. -/
def Restores (scope : Scope) (heap : Heap) (captures : Captures) (x : Operand) (k : Primitive)
    (e : Expr Position) : Prop :=
  ∃ te, Typing.check scope heap e = .ok te ∧ te.type = .prim k ∧
    Builds false scope heap (scope.captured? heap) heap (lower scope heap te) (SameResult scope captures x)

/-! ### Conversions -/

/-- An operand that has the wanted kind is not converted. -/
lemma Adapts.convert_eq {c : Option Primitive} (h : Adapts p c p) (x : Operand) :
    convert x (.prim p) c = pure x := by
  cases h with
  | asItIs => rfl
  | converted => simp [convert, Lowering.needsConversion_prim]

lemma adapts_self (c : Option Primitive) (hc : c = none ∨ c = some p) : Adapts p c p := by
  rcases hc with rfl | rfl
  · exact .asItIs
  · exact .converted (.inr rfl)

lemma Adapts.builds {c : Option Primitive} {post : Captures → Operand → Prop} (h : Adapts p c p)
    (hte : te.type = .prim p)
    (hbuilds : Builds false scope heap (scope.captured? heap) heap (lower scope heap te) post) :
    Builds false scope heap (scope.captured? heap) heap
      (lower scope heap te >>= fun x => convert x te.type c) post := by
  have hconvert : (fun x => convert x te.type c) = pure := by
    funext x
    rw [hte, h.convert_eq]
  rwa [hconvert, bind_pure]

/-! ### Constants and variables -/

lemma restores_literal {v : Literal} (hv : v.IsDiscrete) (hp : Typing.literalType v = .prim p) :
    Restores scope heap captures (.op (.leaf (.const (Lowering.literalValue v) (.prim p)))) p (.literal pos v) := by
  have hconstant : Lowering.constant (.prim p) v = .leaf (.const (Lowering.literalValue v) (.prim p)) := by
    cases v <;> first | rfl | exact hv.elim
  have hlower : lower scope heap (.literal (.plain pos (.prim p)) v) = emit (Lowering.constant (.prim p) v) := rfl
  refine ⟨.literal (.plain pos (.prim p)) v, ?_, rfl, ?_⟩
  · rw [Typing.check, hp]
  · rw [hlower, hconstant]
    refine (Lowering.builds_emit _).mono fun captures' x hx _ => ?_
    have hbox : (Lowering.literalValue v).box = Lowering.literalValue v := by
      cases v <;> rfl
    rw [hx, Evaluation.result_const hbox, Evaluation.result_const hbox]

lemma restores_name {var : Var} {v : Value} {c : Capture} (hfaithful : captures.Faithful scope)
    (hlocal : scope.local? heap var.name = some v) (hv : v.kind? = some k)
    (hbound : captures.binding? var.name = some c) :
    Restores scope heap captures (.op (.leaf (.varLoad var))) k (.name pos var.name) := by
  refine ⟨.name (.named pos (.prim k) .local) var.name, ?_, rfl, ?_⟩
  · simp only [Typing.check, hlocal, Value.staticType_eq_prim.mpr hv]
  · have huse : Builds false scope heap (scope.captured? heap) heap (Lowering.useVariable scope heap var.name)
        fun captures' var' => var'.name = var.name ∧ ∃ c', captures'.binding? var'.name = some c' := by
      intro b hb
      obtain ⟨hmore, htyped, hpost⟩ := Lowering.builds_useVariable hlocal b hb
      refine ⟨hmore, htyped, fun captures' hbinds => ⟨Lowering.results_useVariable scope heap var.name b, ?_⟩⟩
      obtain ⟨-, c', hbound', -, -⟩ := hpost captures' hbinds
      exact ⟨c', hbound'⟩
    rw [Lowering.lower_local]
    refine huse.bind fun var' => (Lowering.builds_emit _).mono fun captures' x' hx' hvar' hfaithful' => ?_
    obtain ⟨hname, c', hbound'⟩ := hvar'
    rw [hx', Evaluation.result_varLoad hbound, Evaluation.result_varLoad hbound', hfaithful _ _ hbound,
      hfaithful' _ _ hbound', hname]

/-! ### Ops on operands -/

lemma Restores.of_result (h : Restores scope heap captures x k e) (hz : result captures z = result captures x) :
    Restores scope heap captures z k e := by
  obtain ⟨te, hcheck, htype, hbuilds⟩ := h
  exact ⟨te, hcheck, htype, hbuilds.mono fun captures' x' hx' hfaithful => (hx' hfaithful).trans hz.symm⟩

lemma SameResult.one {head : Head} (hstrict : head.isStrict = true) (hhost : head.isHostComputation = false)
    (h : SameResult scope captures x captures' x') :
    SameResult scope captures (.op (.of head [x])) captures' (.op (.of head [x'])) := by
  intro hfaithful
  rw [Evaluation.result_one hstrict hhost, Evaluation.result_one hstrict hhost, h hfaithful]

lemma SameResult.two {head : Head} (hstrict : head.isStrict = true) (hhost : head.isHostComputation = false)
    (h : SameResult scope captures x captures' x') (h' : SameResult scope captures y captures' y') :
    SameResult scope captures (.op (.of head [x, y])) captures' (.op (.of head [x', y'])) := by
  intro hfaithful
  rw [Evaluation.result_two hstrict hhost, Evaluation.result_two hstrict hhost, h hfaithful, h' hfaithful]

lemma Restores.not (h : Restores scope heap captures x .boolean e) :
    Restores scope heap captures (.op (.of .not [x])) .boolean (.unary pos .not e) := by
  obtain ⟨te, hcheck, htype, hbuilds⟩ := h
  refine ⟨.unary (converting pos (.prim .boolean) [none]) .not te, ?_, rfl, ?_⟩
  · rw [Typing.check, hcheck]
    simp only [bind, Except.bind, htype]
    rfl
  · rw [Lowering.lower_unary]
    refine ((Adapts.asItIs.builds htype hbuilds).emit_one .not).mono fun captures' y ⟨x', hx', hy⟩ => ?_
    rw [hy]
    exact hx'.one rfl rfl

/-- An operand of a kind that signs give is not converted under a sign. -/
lemma Restores.minus (hk : k.IsPromoted) (h : Restores scope heap captures x k e) :
    Restores scope heap captures (.op (.of (.neg (.prim k)) [x])) k (.unary pos .minus e) := by
  obtain ⟨te, hcheck, htype, hbuilds⟩ := h
  refine ⟨.unary (converting pos (.prim k) [some k]) .minus te, ?_, rfl, ?_⟩
  · rw [Typing.check, hcheck]
    simp only [bind, Except.bind, htype]
    rcases hk with rfl | rfl | rfl | rfl <;> rfl
  · rw [Lowering.lower_unary]
    have hoperand := (adapts_self (some k) (.inr rfl)).builds htype hbuilds
    refine (hoperand.emit_one _).mono fun captures' y ⟨x', hx', hy⟩ => ?_
    rw [hy]
    exact hx'.one rfl rfl

lemma Restores.cast {t : TypeName} (ht : Typing.writtenType scope.resolver t = .prim q) (hp : p.isNumeric = true)
    (hq : q.isNumeric = true) (hpq : p ≠ q) (h : Restores scope heap captures x p e) :
    Restores scope heap captures (.op (.of (.conv (.prim q)) [x])) q (.cast pos t e) := by
  obtain ⟨te, hcheck, htype, hbuilds⟩ := h
  refine ⟨.cast (converting pos (.prim q) [some q]) t te, ?_, rfl, ?_⟩
  · rw [Typing.check, hcheck]
    simp [bind, Except.bind, pure, Except.pure, htype, ht, Typing.castType, TypeRef.isNumericOrDynamic, hp, hq]
  · have hlower : lower scope heap (.cast (converting pos (.prim q) [some q]) t te) =
        lower scope heap te >>= fun x => emit (.of (.conv (.prim q)) [x]) := by
      have hcast : lower scope heap (.cast (converting pos (.prim q) [some q]) t te) =
        lower scope heap te >>= Lowering.castOperation te.type (.prim q) := rfl
      have hconvert : Lowering.castOperation (.prim p) (.prim q) = fun x => emit (.of (.conv (.prim q)) [x]) := by
        funext x
        have hneeds : Lowering.needsConversion (.prim p) q = true := by
          simpa [Lowering.needsConversion_prim] using hpq
        simp [Lowering.castOperation, convert, hneeds]
      rw [hcast, htype, hconvert]
    rw [hlower]
    refine (hbuilds.emit_one _).mono fun captures' y hmade => ?_
    obtain ⟨x', hx', hy⟩ := hmade
    rw [hy]
    exact hx'.one rfl rfl

/-- The checker takes the operands of an operation as they are if they have fitting kinds. -/
lemma Operates.binaryType_eq (pos : Position) {op : BinaryOperator} (h : Operates op p q k) :
    ∃ c d, Typing.binaryType pos op (.prim p) (.prim q) = .ok (converting pos (.prim k) [c, d]) ∧
      Adapts p c p ∧ Adapts q d q := by
  have hself {p : Primitive} : Adapts p (some p) p := .converted (.inr rfl)
  cases h with
  | @arith op _ hk hbits =>
    refine ⟨some p, some p, ?_, hself, hself⟩
    by_cases hop : Typing.isBitwise op = true
    · rcases hbits hop with rfl | rfl <;> cases op <;> rfl
    · rcases hk with rfl | rfl | rfl | rfl <;> cases op <;> first | rfl | exact absurd rfl hop
  | @bits op hop =>
    refine ⟨some .boolean, some .boolean, ?_, hself, hself⟩
    cases op <;> first | rfl | cases hop
  | shift hp hq =>
    refine ⟨some p, some q, ?_, hself, hself⟩
    rcases hp with rfl | rfl <;> rcases hq with rfl | rfl <;> rfl
  | @compare op _ hk =>
    refine ⟨some p, some p, ?_, hself, hself⟩
    rcases hk with rfl | rfl | rfl | rfl <;> cases op <;> rfl
  | sameTruth hop =>
    refine ⟨none, none, ?_, .asItIs, .asItIs⟩
    rcases hop with rfl | rfl <;> rfl

lemma Restores.binary {op : BinaryOperator} (hop : Operates op p q k) (hl : Restores scope heap captures x p l)
    (hr : Restores scope heap captures y q r) :
    Restores scope heap captures (.op (.of (op.head k) [x, y])) k (.binary pos op l r) := by
  obtain ⟨tl, hcheckl, htypel, hbuildsl⟩ := hl
  obtain ⟨tr, hcheckr, htyper, hbuildsr⟩ := hr
  obtain ⟨c, d, hnote, hc, hd⟩ := hop.binaryType_eq pos
  refine ⟨.binary (converting pos (.prim k) [c, d]) op tl tr, ?_, rfl, ?_⟩
  · rw [Typing.check, hcheckl, hcheckr]
    simp [bind, Except.bind, pure, Except.pure, htypel, htyper, hnote]
  · obtain ⟨hstrict, hhost⟩ := BinaryOperator.head_isPure hop
    have hchain : chainHead? op = none := by cases hop <;> rfl
    have hoperation (x y : Operand) :
        Lowering.operation (converting pos (.prim k) [c, d]) op x y = emit (.of (op.head k) [x, y]) := by
      cases hop <;> rfl
    rw [Lowering.lower_binary _ hchain]
    simp only [hoperation]
    refine ((hc.builds htypel hbuildsl).emit_two _ (hd.builds htyper hbuildsr)).mono
      fun captures' z ⟨x', y', hx', hy', hz⟩ => ?_
    rw [hz]
    exact hx'.two hstrict hhost hy'

/-! ### Ops on bodies -/

section Bodies

variable {op : BinaryOperator} {head : Head} {decisive : Bool} {b b' b'' : Body} {bodies : List Body}

lemma result_chainPair (hd : head.decisive? = some decisive) (hb : b.yielded? = some x) (hb' : b'.yielded? = some y) :
    result captures (.op (.mk head [] [b, b'])) = chainResult decisive [result captures x, result captures y] := by
  rw [Evaluation.result_chain hd]
  simp only [List.map_cons, List.map_nil, Evaluation.bodyResult_of_yielded hb, Evaluation.bodyResult_of_yielded hb']

lemma result_chainSnoc (hd : head.decisive? = some decisive) (hb : b.yielded? = some y) :
    result captures (.op (.mk head [] (bodies ++ [b]))) =
      chainResult decisive [result captures (.op (.mk head [] bodies)), result captures y] := by
  rw [Evaluation.result_chain hd, Evaluation.result_chain hd, List.map_append, Evaluation.chainResult_append]
  simp only [List.map_cons, List.map_nil, Evaluation.bodyResult_of_yielded hb]

/-- Whether the bodies of a chain at the beginning are taken in or not does not matter to the result. -/
lemma builds_chainBodies (hop : chainHead? op = some head) (hd : head.decisive? = some decisive)
    (hbuilds : Builds false scope heap (scope.captured? heap) heap (lower scope heap te)
      (SameResult scope captures x)) :
    Builds false scope heap (scope.captured? heap) heap (Lowering.chainBodies op te (lower scope heap te))
      fun captures' bodies => captures'.Faithful scope → ∀ last,
        chainResult decisive (bodies.map (bodyResult captures') ++ [last]) =
          chainResult decisive [result captures x, last] := by
  refine (hbuilds.chainBodies hop).mono fun captures' bodies hbodies hfaithful last => ?_
  obtain hx | ⟨b, x', rfl, hyield, hx'⟩ := hbodies
  · rw [Evaluation.chainResult_append, ← hx hfaithful, Evaluation.result_chain hd]
  · rw [← hx' hfaithful, ← Evaluation.bodyResult_of_yielded hyield]
    rfl

lemma Restores.logical (hop : chainHead? op = some head) (hd : head.decisive? = some decisive)
    (hl : Restores scope heap captures x .boolean l) (hr : Restores scope heap captures y .boolean r)
    (hz : result captures z = chainResult decisive [result captures x, result captures y]) :
    Restores scope heap captures z .boolean (.binary pos op l r) := by
  obtain ⟨tl, hcheckl, htypel, hbuildsl⟩ := hl
  obtain ⟨tr, hcheckr, htyper, hbuildsr⟩ := hr
  refine ⟨.binary (converting pos (.prim .boolean) [none, none]) op tl tr, ?_, rfl, ?_⟩
  · rw [Typing.check, hcheckl, hcheckr]
    simp only [bind, Except.bind, htypel, htyper]
    cases op <;> first | rfl | cases hop
  · rw [Lowering.lower_logical _ hop]
    refine (builds_chainBodies hop hd hbuildsl).bind fun earlier => hbuildsr.plainBody.bind fun last =>
      (Lowering.builds_emit _).mono fun captures' z' hz' ⟨y', hyield, hy'⟩ hearlier hfaithful => ?_
    rw [hz', hz, Evaluation.result_chain hd, List.map_append, ← hearlier hfaithful, ← hy' hfaithful,
      ← Evaluation.bodyResult_of_yielded hyield]
    rfl

lemma Restores.choice (hk : k.IsPromoted ∨ k = .boolean) (hb : b.yielded? = some x) (hb' : b'.yielded? = some y)
    (hb'' : b''.yielded? = some z) (hc : Restores scope heap captures x .boolean c)
    (hyes : Restores scope heap captures y k yes) (hno : Restores scope heap captures z k no) :
    Restores scope heap captures (.op (.mk (.ternary (.prim k)) [] [b, b', b''])) k (.conditional pos c yes no) := by
  obtain ⟨tc, hcheckc, htypec, hbuildsc⟩ := hc
  obtain ⟨tyes, hchecky, htypey, hbuildsy⟩ := hyes
  obtain ⟨tno, hcheckn, htypen, hbuildsn⟩ := hno
  obtain ⟨d, hnote, hd⟩ : ∃ d, Typing.conditionalType pos (.prim .boolean) (.prim k) (.prim k) =
      .ok (converting pos (.prim k) [none, d, d]) ∧ Adapts k d k := by
    rcases hk with (rfl | rfl | rfl | rfl) | rfl
    case inr => exact ⟨none, rfl, .asItIs⟩
    all_goals exact ⟨some _, rfl, .converted (.inr rfl)⟩
  refine ⟨.conditional (converting pos (.prim k) [none, d, d]) tc tyes tno, ?_, rfl, ?_⟩
  · rw [Typing.check, hcheckc, hchecky, hcheckn]
    simp [bind, Except.bind, pure, Except.pure, htypec, htypey, htypen, hnote, TypeRef.isCondition]
  · rw [Lowering.lower_conditional]
    refine hbuildsc.plainBody.bind fun cond => Builds.bind (hd.builds htypey hbuildsy).body fun yes' =>
      Builds.bind (hd.builds htypen hbuildsn).body fun no' => (Lowering.builds_emit _).mono
        fun captures' w hw hmadez hmadey hmadex hfaithful => ?_
    obtain ⟨x', hyieldx, hx'⟩ := hmadex
    obtain ⟨y', hyieldy, hy'⟩ := hmadey
    obtain ⟨z', hyieldz, hz'⟩ := hmadez
    rw [hw, Evaluation.result_ternary hb hb' hb'']
    have hternary : result captures' (.op (.mk (.ternary (.prim k)) [] [cond, yes', no'])) = _ :=
      Evaluation.result_ternary hyieldx hyieldy hyieldz
    rw [hx' hfaithful, hy' hfaithful, hz' hfaithful] at hternary
    exact hternary

end Bodies

end PredicateTrace
