import PredicateTrace.Proofs.KindedOps
import PredicateTrace.Proofs.LoweredShape
import PredicateTrace.Proofs.PrimitiveTyping

/-!
# Lowering of the primitive fragment

The ops that an expression of the fragment is lowered to have the outcome that direct evaluation of the
expression gives. The proof follows the rules of checking. What is said about a part of the construction
holds for all captures that bind the variables in use once the whole tree is built.
-/

namespace PredicateTrace

open Host (Heap)
open Evaluation (Runs Answers)

/-- What a captured local variable holds for a predicate that is quoted: a number of the host is boxed once
and for all. -/
def Scope.captured? (scope : Scope) (heap : Heap) (name : String) : Option Value :=
  (scope.locals.lookup name).map fun c => (Lowering.quoteCapture c).content heap

/-- A value has the type that a variable was given. Where arrays are allowed, an array of a primitive type
holds values of that kind. -/
structure Value.Keeps (arrays : Bool) (type : TypeRef) (v : Value) : Prop where
  staticType_eq : v.staticType = type
  items_kind : arrays = true → ∀ p id items, v = .array id (.prim p) items → p ≠ .void →
    ∀ item ∈ items, item.kind? = some p

namespace Lowering

/-- The variables are locals, and have the types that these had when they were quoted. -/
def TypedVars (scope : Scope) (heap : Heap) (vars : List Var) : Prop :=
  ∀ v ∈ vars, ∃ value, scope.local? heap v.name = some value ∧ v.type = value.staticType

/-- The captures bind the variables to values of their types, and `env` says what these are. -/
def Binds (arrays : Bool) (env : String → Option Value) (later : Heap) (captures : Captures)
    (vars : List Var) : Prop :=
  ∀ v ∈ vars, ∃ c, captures.binding? v.name = some c ∧ env v.name = some (c.content later) ∧
    (c.content later).Keeps arrays v.type

/-- A construction only adds variables, and what it gives has a property under all captures that bind the
variables. -/
def Builds (arrays : Bool) (scope : Scope) (heap : Heap) (env : String → Option Value) (later : Heap)
    {α : Type} (build : Build α) (post : Captures → α → Prop) : Prop :=
  ∀ b : Builder, TypedVars scope heap b.vars →
    (∃ more, (build.run b).2.vars = b.vars ++ more) ∧ TypedVars scope heap (build.run b).2.vars ∧
      ∀ captures, Binds arrays env later captures (build.run b).2.vars → post captures (build.run b).1

section Rules

variable {arrays : Bool} {scope : Scope} {heap later : Heap} {env : String → Option Value} {α β : Type}
  {build : Build α} {next : α → Build β} {post post' : Captures → α → Prop} {post'' : Captures → β → Prop}

lemma Builds.mono (h : Builds arrays scope heap env later build post)
    (himp : ∀ captures a, post captures a → post' captures a) :
    Builds arrays scope heap env later build post' := by
  intro b hb
  obtain ⟨hmore, htyped, hpost⟩ := h b hb
  exact ⟨hmore, htyped, fun captures hbinds => himp _ _ (hpost captures hbinds)⟩

lemma builds_pure (a : α) : Builds arrays scope heap env later (pure a) fun _ a' => a' = a :=
  fun b hb => ⟨⟨[], (List.append_nil b.vars).symm⟩, hb, fun _ _ => rfl⟩

lemma Builds.bind (h : Builds arrays scope heap env later build post)
    (hnext : ∀ a, Builds arrays scope heap env later (next a) fun captures c => post captures a → post'' captures c) :
    Builds arrays scope heap env later (build >>= next) post'' := by
  intro b hb
  obtain ⟨⟨more, hmore⟩, htyped, hpost⟩ := h b hb
  obtain ⟨⟨more', hmore'⟩, htyped', hpost'⟩ := hnext _ (build.run b).2 htyped
  refine ⟨⟨more ++ more', ?_⟩, htyped', fun captures hbinds => hpost' captures hbinds (hpost captures ?_)⟩
  · exact hmore'.trans (by rw [hmore, List.append_assoc])
  · intro v hv
    refine hbinds v ?_
    have hmem : v ∈ (build.run b).2.vars ++ more' := List.mem_append_left _ hv
    rwa [← hmore'] at hmem

lemma builds_emit (op : Op) : Builds arrays scope heap env later (emit op) fun _ x => x = .op op :=
  fun b hb => ⟨⟨[], (List.append_nil b.vars).symm⟩, hb, fun _ _ => rfl⟩

lemma Builds.inBlock (h : Builds arrays scope heap env later build post) :
    Builds arrays scope heap env later (inBlock build) fun captures r => post captures r.1 :=
  fun b hb => h ⟨b.vars, []⟩ hb

lemma builds_useVariable {name : String} {value : Value} (hv : scope.local? heap name = some value) :
    Builds arrays scope heap env later (useVariable scope heap name) fun captures v =>
      v.type = value.staticType ∧ ∃ c, captures.binding? v.name = some c ∧
        env name = some (c.content later) ∧ (c.content later).Keeps arrays v.type := by
  intro b hb
  obtain ⟨v, hmem, rfl, hrun⟩ | ⟨v, hfresh, -, hrun⟩ := useVariable_cases scope heap name b <;> rw [hrun]
  · refine ⟨⟨[], (List.append_nil b.vars).symm⟩, hb, fun captures hbinds => ?_⟩
    obtain ⟨value', hv', htype⟩ := hb v hmem
    rw [Option.some.inj (hv.symm.trans hv')]
    exact ⟨htype, hbinds v hmem⟩
  · obtain ⟨hname, htype⟩ : v.name = name ∧ v.type = value.staticType := by
      rw [hfresh, hv]
      exact ⟨rfl, rfl⟩
    subst hname
    refine ⟨⟨[v], rfl⟩, ?_, fun captures hbinds => ?_⟩
    · exact List.forall_mem_append.mpr ⟨hb, by simpa using ⟨value, hv, htype⟩⟩
    · exact ⟨htype, hbinds v (List.mem_append_right _ (List.mem_singleton_self _))⟩

/-- An op on one operand that is just built. -/
lemma Builds.emit_one {build : Build Operand} {post : Captures → Operand → Prop} (head : Head)
    (h : Builds arrays scope heap env later build post) :
    Builds arrays scope heap env later (build >>= fun x => emit (.of head [x])) fun captures y =>
      ∃ x, post captures x ∧ y = .op (.of head [x]) :=
  h.bind fun x => (builds_emit _).mono fun _ _ hy hx => ⟨x, hx, hy⟩

/-- An op on two operands that are just built. -/
lemma Builds.emit_two {build build' : Build Operand} {post post' : Captures → Operand → Prop} (head : Head)
    (h : Builds arrays scope heap env later build post) (h' : Builds arrays scope heap env later build' post') :
    Builds arrays scope heap env later (build >>= fun x => build' >>= fun y => emit (.of head [x, y]))
      fun captures z => ∃ x y, post captures x ∧ post' captures y ∧ z = .op (.of head [x, y]) :=
  h.bind fun x => h'.bind fun y => (builds_emit _).mono fun _ _ hz hy hx => ⟨x, y, hx, hy, hz⟩

end Rules

/-! ### Parts of the construction -/

section Parts

variable {arrays : Bool} {scope : Scope} {heap later : Heap} {env : String → Option Value}
  {build : Build Operand} {o : Outcome} {p q : Primitive} {post : Captures → Operand → Prop}

lemma needsConversion_prim : needsConversion (.prim p) q = (p != q) := by
  simp [needsConversion, bne, TypeRef.unboxed?]

/-- What is converted to a kind has the outcome of the conversion, whether this takes an op or not. -/
lemma Builds.converted {fact : Prop}
    (h : Builds arrays scope heap env later build fun captures x => fact ∧ Computes arrays captures later x p o)
    (hpq : p.isNumeric = true ∧ q.isNumeric = true ∨ p = q) :
    Builds arrays scope heap env later (build >>= fun x => convert x (.prim p) (some q)) fun captures x =>
      fact ∧ Computes arrays captures later x q (o.andThen (Direct.convertTo q)) := by
  refine h.bind fun x => ?_
  rw [convert, needsConversion_prim]
  by_cases hsame : p = q
  · subst hsame
    rw [if_neg (by simp)]
    refine (builds_pure x).mono fun captures y hy h => ⟨h.1, ?_⟩
    obtain ⟨-, hx⟩ := h
    subst hy
    have ho : o.andThen (Direct.convertTo p) = o := by
      rw [hx.fits.andThen_congr fun v hv => Direct.convertTo_same hv, hx.fits.andThen_value]
    rwa [ho]
  · rw [if_pos (by simpa using hsame)]
    obtain ⟨hp, hq⟩ := hpq.resolve_right hsame
    refine (builds_emit _).mono fun captures y hy h => ⟨h.1, ?_⟩
    rw [hy]
    exact h.2.conversion hp hq

lemma Builds.body {source : TypeRef} {target : Option Primitive}
    (h : Builds arrays scope heap env later (build >>= fun x => convert x source target) post) :
    Builds arrays scope heap env later (body source target build) fun captures b =>
      ∃ x, b.yielded? = some x ∧ post captures x :=
  h.inBlock.bind fun r => (builds_pure _).mono fun _ _ hb hr => ⟨r.1, by rw [hb]; rfl, hr⟩

lemma Builds.plainBody {source : TypeRef} (h : Builds arrays scope heap env later build post) :
    Builds arrays scope heap env later (Lowering.body source none build) fun captures b =>
      ∃ x, b.yielded? = some x ∧ post captures x := by
  refine Builds.body ?_
  have hconvert : (build >>= fun x => convert x source none) = build := bind_pure build
  rwa [hconvert]

/-- The bodies of the left operand of a logical operator: those of a chain, or a single one. -/
lemma Builds.chainBodies {op : BinaryOperator} {head : Head} (hop : chainHead? op = some head) {te : TypedExpr}
    (h : Builds arrays scope heap env later (lower scope heap te) post) :
    Builds arrays scope heap env later (chainBodies op te (lower scope heap te)) fun captures bodies =>
      post captures (.op (.mk head [] bodies)) ∨ ∃ b x, bodies = [b] ∧ b.yielded? = some x ∧ post captures x := by
  unfold Lowering.chainBodies
  split
  · next hcontinues =>
    have hshape : Builds arrays scope heap env later (lower scope heap te) fun captures x =>
        (∃ bodies, x = .op (.mk head [] bodies)) ∧ post captures x := by
      intro b hb
      obtain ⟨hmore, htyped, hpost⟩ := h b hb
      exact ⟨hmore, htyped, fun captures hbinds => ⟨lower_chain hop hcontinues b, hpost captures hbinds⟩⟩
    refine hshape.inBlock.bind fun ⟨x, ops⟩ => ?_
    cases x with
    | op chain =>
      refine (builds_pure _).mono fun captures bodies hbodies ⟨⟨earlier, hchain⟩, hx⟩ => .inl ?_
      obtain rfl : chain = .mk head [] earlier := by simpa using hchain
      rw [hbodies]
      exact hx
    | param param =>
      exact (builds_pure _).mono fun _ _ _ ⟨⟨_, hchain⟩, _⟩ => by cases hchain
  · refine (Builds.plainBody h).bind fun b => (builds_pure _).mono fun captures bodies hbodies hb => .inr ?_
    obtain ⟨x, hyield, hx⟩ := hb
    exact ⟨b, x, hbodies, hyield, hx⟩

end Parts

/-! ### The construction by the rules of checking -/

section Meaning

variable {arrays : Bool} {scope : Scope} {heap later : Heap} {env : String → Option Value}
  {e : Expr Position} {te : TypedExpr} {k p : Primitive}

/-- An expression is lowered to an operand with the kind and the outcome of direct evaluation. -/
def Means (arrays : Bool) (scope : Scope) (heap later : Heap) (env : String → Option Value)
    (e : Expr Position) (te : TypedExpr) (k : Primitive) : Prop :=
  Builds arrays scope heap env later (lower scope heap te) fun captures x =>
    Direct.kindOf env e = some k ∧ Computes arrays captures later x k (Direct.evaluate env e)

lemma Means.computes (h : Means arrays scope heap later env e te k) :
    Builds arrays scope heap env later (lower scope heap te) fun captures x =>
      Computes arrays captures later x k (Direct.evaluate env e) :=
  h.mono fun _ _ hx => hx.2

/-- An operand after its conversion, with what is known about the expression. -/
lemma Means.converted (h : Means arrays scope heap later env e te p) (hte : te.type = .prim p)
    (hpk : p.isNumeric = true ∧ k.isNumeric = true ∨ p = k) :
    Builds arrays scope heap env later (lower scope heap te >>= fun x => convert x te.type (some k)) fun captures x =>
      (Direct.kindOf env e = some p ∧ (Direct.evaluate env e).Fits arrays p) ∧
        Computes arrays captures later x k ((Direct.evaluate env e).andThen (Direct.convertTo k)) := by
  rw [hte]
  exact Builds.converted (h.mono fun _ _ ⟨hkind, hx⟩ => ⟨⟨hkind, hx.fits⟩, hx⟩) hpk

/-- A local variable that holds an array. -/
lemma builds_arrayLocal (arrays : Bool) (h : ArrayLocal scope heap e te p) :
    Builds arrays scope heap env later (lower scope heap te) fun captures x =>
      ∃ id items, Direct.evaluate env e = .value (.array id (.prim p) items) ∧
        (arrays = true → p ≠ .void → ∀ item ∈ items, item.kind? = some p) ∧
        Runs arrays captures later x (.value (.array id (.prim p) items)) := by
  obtain ⟨hv, hp⟩ := h
  rw [lower_local]
  refine (builds_useVariable hv).bind fun var => (builds_emit _).mono fun captures x hx hvar => ?_
  obtain ⟨htype, c, hbound, henv, hkeeps⟩ := hvar
  rw [hp] at htype
  have hstatic := hkeeps.staticType_eq
  rw [htype] at hstatic
  obtain ⟨id, items, hcontent⟩ := Value.staticType_eq_array.mp hstatic
  refine ⟨id, items, ?_, fun harrays => hkeeps.items_kind harrays p id items hcontent, ?_⟩
  · rw [Direct.evaluate_name, henv, hcontent, Outcome.ofOption]
  · rw [hx, ← hcontent]
    refine Evaluation.runs_varLoad hbound ?_
    intro q hq
    rw [Head.resultType?, htype] at hq
    cases hq

lemma means_literal {pos : Position} {v : Literal} (hp : Typing.literalType v = .prim p) :
    Means arrays scope heap later env (.literal pos v) (.literal (.plain pos (.prim p)) v) p := by
  have hkind : (literalValue v).kind? = some p := by
    cases v <;> cases hp <;> rfl
  have hconstant : constant (.prim p) v = .leaf (.const (literalValue v) (.prim p)) := by
    cases v <;> first | rfl | cases hp
  have hlower : lower scope heap (.literal (.plain pos (.prim p)) v) = emit (constant (.prim p) v) := rfl
  unfold Means
  rw [hlower, hconstant]
  refine (builds_emit _).mono fun captures x hx => ⟨hkind, ?_⟩
  rw [hx, Direct.evaluate_literal]
  exact Computes.constant hkind

lemma means_name {pos : Position} {n : String} {v : Value} (hv : scope.local? heap n = some v)
    (hp : v.kind? = some p) :
    Means arrays scope heap later env (.name pos n) (.name (.named pos (.prim p) .local) n) p := by
  unfold Means
  rw [lower_local]
  refine (builds_useVariable hv).bind fun var => (builds_emit _).mono fun captures x hx hvar => ?_
  obtain ⟨htype, c, hbound, henv, hkeeps⟩ := hvar
  rw [Value.staticType_eq_prim.mpr hp] at htype
  have hstatic := hkeeps.staticType_eq
  rw [htype, Value.staticType_eq_prim] at hstatic
  refine ⟨by rw [Direct.kindOf_name, henv, Option.bind_some, hstatic], ?_⟩
  rw [Direct.evaluate_name, henv, hx]
  have hfits : (Outcome.value (c.content later)).Fits arrays p := hstatic
  exact ⟨hfits, Evaluation.runs_varLoad hbound (hfits.admits (congrArg some htype))⟩

section Operators

variable {pos : Position} {x l r : Expr Position} {tx tl tr : TypedExpr} {q : Primitive}

lemma means_not (hx : Means arrays scope heap later env x tx .boolean) :
    Means arrays scope heap later env (.unary pos .not x)
      (.unary (.converting pos (.prim .boolean) [none]) .not tx) .boolean := by
  unfold Means
  rw [lower_unary]
  refine (hx.computes.emit_one .not).mono fun captures y ⟨z, hz, hy⟩ => ⟨rfl, ?_⟩
  rw [hy, Direct.evaluate_unary]
  exact hz.negation

lemma means_signed {op : UnaryOperator} (hop : op ≠ .not) (htx : tx.type = .prim p)
    (hx : Means arrays scope heap later env x tx p) (hp : p.isNumeric = true)
    (hwhole : op = .complement → p.isIntegral = true) :
    Means arrays scope heap later env (.unary pos op x)
      (.unary (.converting pos (.prim p.promoted) [some p.promoted]) op tx) p.promoted := by
  have hpromoted := Primitive.isPromoted_promoted hp
  unfold Means
  rw [lower_unary]
  refine (hx.converted htx (Or.inl ⟨hp, hpromoted.isNumeric⟩)).bind fun y => ?_
  have hkind (hx : Direct.kindOf env x = some p) :
      Direct.kindOf env (.unary pos op x) = some p.promoted := by
    rw [Direct.kindOf_signed hop, hx, Option.map_some]
  cases op with
  | not => exact absurd rfl hop
  | plus =>
    refine (builds_pure y).mono fun captures z hz ⟨⟨hkindx, hfits⟩, hy⟩ => ⟨hkind hkindx, ?_⟩
    rw [hz, Direct.evaluate_unary, Direct.unary_eq hop hfits]
    have hsigned : (fun v => Outcome.ofOption (Direct.unary.signed .plus v)) = .value := rfl
    rwa [hsigned, hy.fits.andThen_value]
  | minus =>
    refine (builds_emit _).mono fun captures z hz ⟨⟨hkindx, hfits⟩, hy⟩ => ⟨hkind hkindx, ?_⟩
    rw [hz, Direct.evaluate_unary, Direct.unary_eq hop hfits]
    exact hy.opposite hpromoted
  | complement =>
    refine (builds_emit _).bind fun ones => (builds_emit _).mono
      fun captures z hz hones ⟨⟨hkindx, hfits⟩, hy⟩ => ⟨hkind hkindx, ?_⟩
    rw [hz, hones, Direct.evaluate_unary, Direct.unary_eq hop hfits]
    exact hy.complement (Primitive.isWhole_promoted (hwhole rfl))

lemma means_arith {op : ArithOperator} (htl : tl.type = .prim p) (htr : tr.type = .prim q)
    (hl : Means arrays scope heap later env l tl p) (hr : Means arrays scope heap later env r tr q)
    (hp : p.isNumeric = true) (hq : q.isNumeric = true)
    (hbits : Typing.isBitwise op = true → p.isIntegral = true ∧ q.isIntegral = true) :
    Means arrays scope heap later env (.binary pos (.arith op) l r)
      (.binary (.converting pos (.prim (p.common q)) [some (p.common q), some (p.common q)]) (.arith op) tl tr)
      (p.common q) := by
  have hpromoted := Primitive.isPromoted_common p q
  have hoperands := (hl.converted htl (Or.inl ⟨hp, hpromoted.isNumeric⟩)).emit_two
    (.binary (.arith op) (.prim (p.common q))) (hr.converted htr (Or.inl ⟨hq, hpromoted.isNumeric⟩))
  unfold Means
  rw [lower_binary _ rfl]
  refine Builds.mono hoperands fun captures z hz => ?_
  obtain ⟨x, y, ⟨⟨hkindl, hfitsl⟩, hx⟩, ⟨⟨hkindr, hfitsr⟩, hy⟩, rfl⟩ := hz
  refine ⟨Direct.kindOf_arith hkindl hkindr, ?_⟩
  have heval : Direct.evaluate env (.binary pos (.arith op) l r) = _ := Direct.promoteBoth_eq hfitsl hfitsr hp _
  rw [heval]
  exact hx.arithmetic op hy hpromoted fun hop => Primitive.isWhole_common (hbits hop).1 (hbits hop).2

lemma means_shift {op : ShiftOperator} (htl : tl.type = .prim p) (htr : tr.type = .prim q)
    (hl : Means arrays scope heap later env l tl p) (hr : Means arrays scope heap later env r tr q)
    (hp : p.isIntegral = true) (hq : q.isIntegral = true) :
    Means arrays scope heap later env (.binary pos (.shift op) l r)
      (.binary (.converting pos (.prim p.promoted) [some p.promoted, some q.promoted]) (.shift op) tl tr)
      p.promoted := by
  have hpn := Primitive.isNumeric_of_isIntegral hp
  have hqn := Primitive.isNumeric_of_isIntegral hq
  have hoperands := (hl.converted htl (Or.inl ⟨hpn, (Primitive.isPromoted_promoted hpn).isNumeric⟩)).emit_two
    (.binary (.shift op) (.prim p.promoted))
    (hr.converted htr (Or.inl ⟨hqn, (Primitive.isPromoted_promoted hqn).isNumeric⟩))
  unfold Means
  rw [lower_binary _ rfl]
  refine Builds.mono hoperands fun captures z hz => ?_
  obtain ⟨x, y, ⟨⟨hkindl, hfitsl⟩, hx⟩, ⟨⟨hkindr, hfitsr⟩, hy⟩, rfl⟩ := hz
  refine ⟨by rw [Direct.kindOf_shift, hkindl, Option.map_some], ?_⟩
  rw [Direct.evaluate_shift, Direct.shift_eq op hfitsl hfitsr hpn]
  exact hx.shift op hy (Primitive.isWhole_promoted hp) (Primitive.isWhole_promoted hq)

lemma means_compareNumbers {op : CompareOperator} (htl : tl.type = .prim p) (htr : tr.type = .prim q)
    (hl : Means arrays scope heap later env l tl p) (hr : Means arrays scope heap later env r tr q)
    (hp : p.isNumeric = true) (hq : q.isNumeric = true) :
    Means arrays scope heap later env (.binary pos (.compare op) l r)
      (.binary (.converting pos (.prim .boolean) [some (p.common q), some (p.common q)]) (.compare op) tl tr)
      .boolean := by
  have hnumeric := (Primitive.isPromoted_common p q).isNumeric
  have hoperands := (hl.converted htl (Or.inl ⟨hp, hnumeric⟩)).emit_two (.compare (.compare op))
    (hr.converted htr (Or.inl ⟨hq, hnumeric⟩))
  unfold Means
  rw [lower_binary _ rfl]
  refine Builds.mono hoperands fun captures z hz => ⟨rfl, ?_⟩
  obtain ⟨x, y, ⟨⟨hkindl, hfitsl⟩, hx⟩, ⟨⟨hkindr, hfitsr⟩, hy⟩, rfl⟩ := hz
  rw [Direct.evaluate_compare, Direct.compare_eq op hfitsl hp, Direct.promoteBoth_eq hfitsl hfitsr hp]
  exact hx.related op hy hnumeric

lemma means_compareTruths {op : CompareOperator} (hop : op = .eq ∨ op = .neq)
    (hl : Means arrays scope heap later env l tl .boolean)
    (hr : Means arrays scope heap later env r tr .boolean) :
    Means arrays scope heap later env (.binary pos (.compare op) l r)
      (.binary (.converting pos (.prim .boolean) [none, none]) (.compare op) tl tr) .boolean := by
  have hoperands := hl.computes.emit_two (.compare (.compare op)) hr.computes
  unfold Means
  rw [lower_binary _ rfl]
  refine Builds.mono hoperands fun captures z hz => ⟨rfl, ?_⟩
  obtain ⟨x, y, hx, hy, rfl⟩ := hz
  exact hx.sameTruth hop hy

lemma means_compareArrays {op : CompareOperator} (hop : op = .eq ∨ op = .neq)
    (hl : ArrayLocal scope heap l tl p) (hr : ArrayLocal scope heap r tr q) :
    Means arrays scope heap later env (.binary pos (.compare op) l r)
      (.binary (.converting pos (.prim .boolean) [none, none]) (.compare op) tl tr) .boolean := by
  unfold Means
  rw [lower_binary _ rfl]
  refine Builds.mono ((builds_arrayLocal arrays hl).emit_two (.compare (.compare op))
    (builds_arrayLocal arrays hr)) fun captures z hz => ⟨rfl, ?_⟩
  obtain ⟨x, y, ⟨i, xs, hevall, -, hx⟩, ⟨j, ys, hevalr, -, hy⟩, rfl⟩ := hz
  rw [Direct.evaluate_compare, hevall, hevalr]
  exact Computes.sameArray hop hx hy

lemma means_logical {op : BinaryOperator} {head : Head} (hop : chainHead? op = some head)
    (hl : Means arrays scope heap later env l tl .boolean)
    (hr : Means arrays scope heap later env r tr .boolean) :
    Means arrays scope heap later env (.binary pos op l r)
      (.binary (.converting pos (.prim .boolean) [none, none]) op tl tr) .boolean := by
  obtain ⟨decisive, hd, hkind, heval⟩ : ∃ decisive, head.decisive? = some decisive ∧
      Direct.kindOf env (.binary pos op l r) = some .boolean ∧
      Direct.evaluate env (.binary pos op l r) =
        (Direct.evaluate env l).andThen (Direct.shortCircuit decisive (Direct.evaluate env r)) := by
    cases op <;> cases hop <;> exact ⟨_, rfl, rfl, rfl⟩
  unfold Means
  rw [lower_logical _ hop]
  refine (hl.computes.chainBodies hop).bind fun earlier => hr.computes.plainBody.bind fun last =>
    (builds_emit _).mono fun captures x hx hlast hearlier => ⟨hkind, ?_⟩
  obtain ⟨y, hyield, hy⟩ := hlast
  rw [hx, heval]
  obtain hchain | ⟨b, z, rfl, hyield', hz⟩ := hearlier
  · exact hchain.chain_snoc hd hyield hy
  · exact (hz.chain_singleton hd hyield').chain_snoc hd hyield hy

end Operators

section Forms

variable {pos : Position} {x c yes no i : Expr Position} {tx tc tyes tno ti : TypedExpr} {q : Primitive}

lemma arrays_eq_prim {n : Nat} {t : TypeRef} (h : t.arrays n = .prim q) : n = 0 ∧ t = .prim q := by
  cases n with
  | zero => exact ⟨rfl, h⟩
  | succ n =>
    exfalso
    have harray (n : Nat) (t : TypeRef) : (TypeRef.array t).arrays n ≠ .prim q := by
      induction n generalizing t with
      | zero => exact fun h => by cases h
      | succ n ih => exact ih (.array t)
    exact harray n t h

lemma namedType?_ne_prim (resolver : Resolver) (name : String) :
    Typing.namedType? resolver name ≠ some (.prim q) := by
  unfold Typing.namedType? Resolver.lookupType? Typing.importable?
  intro h
  split at h
  · next t ht =>
    obtain rfl := Option.some.inj h
    split at ht
    · cases ht
    · cases ht
    · split at ht
      · cases ht
      · split at ht <;> cases ht
  · split at h
    · split at h <;> cases h
    · cases h

/-- Only the name of a primitive type is written for one. -/
lemma writtenType_eq_prim {resolver : Resolver} {t : TypeName} (h : Typing.writtenType resolver t = .prim q) :
    t.base = .primitive q ∧ t.dims = 0 := by
  obtain ⟨hdims, hbase⟩ := arrays_eq_prim h
  refine ⟨?_, hdims⟩
  cases ht : t.base with
  | primitive p =>
    rw [ht] at hbase
    rw [TypeRef.prim.inj hbase]
  | named parts =>
    exfalso
    rw [ht] at hbase
    dsimp only at hbase
    cases hnamed : Typing.namedType? resolver t.name with
    | some s =>
      rw [hnamed, Option.getD_some] at hbase
      exact namedType?_ne_prim resolver t.name (hnamed.trans (congrArg some hbase))
    | none =>
      rw [hnamed] at hbase
      cases hbase

lemma means_cast {t : TypeName} (ht : Typing.writtenType scope.resolver t = .prim q) (htx : tx.type = .prim p)
    (hx : Means arrays scope heap later env x tx p)
    (hpq : p.isNumeric = true ∧ q.isNumeric = true ∨ p = .boolean ∧ q = .boolean) :
    Means arrays scope heap later env (.cast pos t x) (.cast (.converting pos (.prim q) [some q]) t tx) q := by
  obtain ⟨hbase, hdims⟩ := writtenType_eq_prim ht
  have hconvert := hx.converted htx (hpq.imp id fun ⟨hp, hq⟩ => hp.trans hq.symm)
  have hlower : lower scope heap (.cast (.converting pos (.prim q) [some q]) t tx) =
      lower scope heap tx >>= castOperation tx.type (.prim q) := rfl
  have hcast : castOperation tx.type (.prim q) = fun y => convert y tx.type (some q) := by
    funext y
    rw [htx]
    rfl
  unfold Means
  rw [hlower, hcast]
  refine Builds.mono hconvert fun captures y ⟨_, hy⟩ => ⟨Direct.kindOf_cast hbase hdims, ?_⟩
  rw [Direct.evaluate_cast hbase hdims]
  exact hy

lemma means_numericChoice (hyes : tyes.type = .prim p) (hno : tno.type = .prim q)
    (hc : Means arrays scope heap later env c tc .boolean) (hy : Means arrays scope heap later env yes tyes p)
    (hn : Means arrays scope heap later env no tno q) (hp : p.isNumeric = true) (hq : q.isNumeric = true) :
    Means arrays scope heap later env (.conditional pos c yes no)
      (.conditional (.converting pos (.prim (p.common q)) [none, some (p.common q), some (p.common q)])
        tc tyes tno) (p.common q) := by
  have hnumeric := (Primitive.isPromoted_common p q).isNumeric
  have hybody := (hy.converted hyes (Or.inl ⟨hp, hnumeric⟩)).body
  have hnbody := (hn.converted hno (Or.inl ⟨hq, hnumeric⟩)).body
  unfold Means
  rw [lower_conditional]
  refine hc.computes.plainBody.bind fun cbody => Builds.bind hybody fun ybody => Builds.bind hnbody fun nbody =>
    (builds_emit _).mono fun captures x hx hnarm hyarm hcond => ?_
  obtain ⟨y, hyield, hy⟩ := hcond
  obtain ⟨z, hyieldz, ⟨hkindy, _⟩, hz⟩ := hyarm
  obtain ⟨w, hyieldw, ⟨hkindn, _⟩, hw⟩ := hnarm
  have harm : Direct.armValue (Direct.kindOf env yes) (Direct.kindOf env no) =
      Direct.convertTo (p.common q) := by
    rw [hkindy, hkindn, Direct.armValue_numbers hp hq]
  refine ⟨by simp [Direct.kindOf_conditional hkindy hkindn, hp, hq], ?_⟩
  rw [Direct.evaluate_conditional harm, hx]
  exact Computes.choice hyield hyieldz hyieldw hy hz hw

lemma means_truthChoice (hc : Means arrays scope heap later env c tc .boolean)
    (hy : Means arrays scope heap later env yes tyes .boolean)
    (hn : Means arrays scope heap later env no tno .boolean) :
    Means arrays scope heap later env (.conditional pos c yes no)
      (.conditional (.converting pos (.prim .boolean) [none, none, none]) tc tyes tno) .boolean := by
  unfold Means
  rw [lower_conditional]
  refine hc.computes.plainBody.bind fun cbody => Builds.bind hy.plainBody fun ybody =>
    Builds.bind hn.plainBody fun nbody => (builds_emit _).mono fun captures x hx hnarm hyarm hcond => ?_
  obtain ⟨y, hyield, hy⟩ := hcond
  obtain ⟨z, hyieldz, hkindy, hz⟩ := hyarm
  obtain ⟨w, hyieldw, hkindn, hw⟩ := hnarm
  have harm : Direct.armValue (Direct.kindOf env yes) (Direct.kindOf env no) = .value := by
    rw [hkindy, hkindn, Direct.armValue_truths]
  have hy' : (Direct.evaluate env yes).andThen .value = Direct.evaluate env yes := hz.fits.andThen_value
  have hn' : (Direct.evaluate env no).andThen .value = Direct.evaluate env no := hw.fits.andThen_value
  refine ⟨Direct.kindOf_conditional hkindy hkindn, ?_⟩
  rw [Direct.evaluate_conditional harm, hy', hn', hx]
  exact Computes.choice hyield hyieldz hyieldw hy hz hw

lemma kindOf_index {a : Expr Position} {ta : TypedExpr} {id : Nat} {items : List Value}
    (ha : ArrayLocal scope heap a ta p) (heval : Direct.evaluate env a = .value (.array id (.prim p) items)) :
    Direct.kindOf env (.index pos a i) = some p := by
  obtain ⟨_, _⟩ := ha
  rw [Direct.evaluate_name] at heval
  cases hv : env _ with
  | none =>
    rw [hv] at heval
    cases heval
  | some v =>
    rw [hv] at heval
    obtain rfl := Outcome.value.inj heval
    exact Direct.kindOf_index hv

lemma means_index {a : Expr Position} {ta : TypedExpr} (harrays : arrays = true)
    (ha : ArrayLocal scope heap a ta p) (hp : p ≠ .void) (hti : ti.type = .prim q)
    (hi : Means arrays scope heap later env i ti q) (hq : q.isIntegral = true) :
    Means arrays scope heap later env (.index pos a i)
      (.index (.converting pos (.prim p) [none, some .int]) ta ti) p := by
  have hindex := hi.converted (k := .int) hti (Or.inl ⟨Primitive.isNumeric_of_isIntegral hq, rfl⟩)
  have hoperands := (builds_arrayLocal arrays ha).emit_two (.arrayLoad (.prim p)) hindex
  have hlower : lower scope heap (.index (.converting pos (.prim p) [none, some .int]) ta ti) =
      lower scope heap ta >>= fun x => (lower scope heap ti >>= fun y => convert y ti.type (some .int)) >>= fun y =>
        emit (.of (.arrayLoad (.prim p)) [x, y]) := rfl
  unfold Means
  rw [hlower]
  refine Builds.mono hoperands fun captures z hz => ?_
  obtain ⟨x, y, ⟨id, items, heval, hitems, hx⟩, ⟨_, hy⟩, rfl⟩ := hz
  refine ⟨kindOf_index ha heval, ?_⟩
  have helement := Computes.element harrays (hitems harrays hp) hx hy
  rw [Outcome.andThen_assoc] at helement
  rw [Direct.evaluate_index, heval]
  exact helement

lemma means_length {a : Expr Position} {ta : TypedExpr} (ha : ArrayLocal scope heap a ta p) :
    Means arrays scope heap later env (.field pos a "length")
      (.field (.named pos (.prim .int) .length) ta "length") .int := by
  have hlower : lower scope heap (.field (.named pos (.prim .int) .length) ta "length") =
      lower scope heap ta >>= fun x => emit (.of .arrayLength [x]) := rfl
  unfold Means
  rw [hlower]
  refine Builds.mono ((builds_arrayLocal arrays ha).emit_one .arrayLength) fun captures y hy => ⟨rfl, ?_⟩
  obtain ⟨x, ⟨id, items, heval, _, hx⟩, rfl⟩ := hy
  rw [Direct.evaluate_length, heval]
  exact Computes.length hx

end Forms

/-- Whatever follows the rules of checking is lowered to what direct evaluation gives. -/
theorem means_of_elaborates (h : Elaborates arrays scope heap e te k) :
    Means arrays scope heap later env e te k := by
  induction h with
  | literal hp => exact means_literal hp
  | name hv hp => exact means_name hv hp
  | not _ ih => exact means_not ih
  | signed hop hx hp hwhole ih => exact means_signed hop hx.type_eq ih hp hwhole
  | logical hop _ _ ihl ihr => exact means_logical hop ihl ihr
  | arith hl hr hp hq hbits ihl ihr => exact means_arith hl.type_eq hr.type_eq ihl ihr hp hq hbits
  | shift hl hr hp hq ihl ihr => exact means_shift hl.type_eq hr.type_eq ihl ihr hp hq
  | compareNumbers hl hr hp hq ihl ihr => exact means_compareNumbers hl.type_eq hr.type_eq ihl ihr hp hq
  | compareTruths hop _ _ ihl ihr => exact means_compareTruths hop ihl ihr
  | compareArrays hop hl hr => exact means_compareArrays hop hl hr
  | cast ht hx hpq ih => exact means_cast ht hx.type_eq ih hpq
  | numericChoice _ hyes hno hp hq ihc ihyes ihno =>
    exact means_numericChoice hyes.type_eq hno.type_eq ihc ihyes ihno hp hq
  | truthChoice _ _ _ ihc ihyes ihno => exact means_truthChoice ihc ihyes ihno
  | index harrays ha hp hi hq ih => exact means_index harrays ha hp hi.type_eq ih hq
  | length ha => exact means_length ha

/-! ### Quoted predicates -/

/-- A quoted predicate of the fragment captures local variables, with the types of what they hold. -/
lemma quote_captures (h : Elaborates arrays scope heap e te k) :
    ∀ entry ∈ (quote scope heap te).captures.vars, ∃ c, scope.locals.lookup entry.1.name = some c ∧
      entry.2 = quoteCapture c ∧ entry.1.type = (c.content heap).staticType := by
  have hmeans : Means arrays scope heap heap (fun _ => none) e te k := means_of_elaborates h
  obtain ⟨_, htyped, _⟩ := hmeans ⟨[], []⟩ (by simp [TypedVars])
  intro entry hentry
  obtain ⟨v, hv, rfl⟩ := List.mem_map.mp hentry
  obtain ⟨value, hvalue, htype⟩ := htyped v hv
  obtain ⟨c, hc, rfl⟩ := Option.map_eq_some_iff.mp hvalue
  exact ⟨c, hc, by rw [hc, Option.getD_some], htype⟩

/-- The first entry for a name is the one of every variable with this name, as what it is bound to depends
on its name only. -/
lemma binding?_map {vars : List Var} {v : Var} (hv : v ∈ vars) (bound : String → Capture)
    (params : List (Parameter × Value)) :
    (Captures.mk (vars.map fun v => (v, bound v.name)) params).binding? v.name = some (bound v.name) := by
  unfold Captures.binding?
  induction vars with
  | nil => cases hv
  | cons first rest ih =>
    by_cases hname : first.name = v.name
    · simp [hname]
    · have hrest : v ∈ rest := by
        rcases List.mem_cons.mp hv with rfl | hrest
        · exact absurd rfl hname
        · exact hrest
      simpa [List.find?_cons, hname] using ih hrest

/-- A quoted predicate of the fragment is evaluated to what direct evaluation gives, and changes nothing. -/
theorem quote_evaluates (h : Elaborates arrays scope heap e te k)
    (hkept : ∀ entry ∈ (quote scope heap te).captures.vars, env entry.1.name = some (entry.2.content later) ∧
      (entry.2.content later).Keeps arrays entry.1.type) :
    ∃ t, (quote scope heap te).evaluate later = (.ok t, ⟨later, []⟩) ∧
      t.outcome = Direct.evaluate env e ∧ t.outcome.Fits arrays k ∧ t.Sound arrays := by
  have hmeans : Means arrays scope heap later env e te k := means_of_elaborates h
  obtain ⟨_, _, hpost⟩ := hmeans ⟨[], []⟩ (by simp [TypedVars])
  obtain ⟨-, hcomputes⟩ := hpost (quote scope heap te).captures fun v hv => by
    have hbound := binding?_map hv (fun name => quoteCapture ((scope.locals.lookup name).getD (.value .null)))
      (quote scope heap te).captures.params
    exact ⟨_, hbound, hkept _ (List.mem_map_of_mem hv)⟩
  obtain ⟨t, hgives, ho, hsound⟩ := hcomputes.runs ⟨later, []⟩ rfl
  exact ⟨t, hgives, ho, ho ▸ hcomputes.fits, hsound⟩

end Meaning

end Lowering

end PredicateTrace
