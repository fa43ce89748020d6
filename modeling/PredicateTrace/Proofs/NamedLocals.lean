import PredicateTrace.Predicate
import PredicateTrace.Proofs.LoweredTree
import PredicateTrace.Proofs.Positions

/-!
# Locals that a predicate does not name

The checker and lowering look up a captured local only for a name that stands in the expression as a name of its
own. Scopes that agree on these names give the same predicate, whatever else they hold: a local whose name is only
that of a member, a method or a written type has no influence.
-/

namespace PredicateTrace

open Host (Heap)

variable {scope scope' : Scope} {heap : Heap} {e : Expr Position} {te : TypedExpr}

namespace Expr

variable {α β : Type}

mutual

/-- The names in an expression that can refer to captured locals. -/
def names : Expr α → List String
  | .literal .. | .this _ => []
  | .name _ n => [n]
  | .field _ target _ => target.names
  | .call _ target _ args => target.names ++ namesOf args
  | .thisCall _ _ args => namesOf args
  | .index _ array place => array.names ++ place.names
  | .newObject _ _ args => namesOf args
  | .newArray _ _ dims _ => namesOf dims
  | .unary _ _ operand => operand.names
  | .binary _ _ left right => left.names ++ right.names
  | .instanceOf _ operand _ => operand.names
  | .cast _ _ operand => operand.names
  | .conditional _ cond thenArm elseArm => cond.names ++ thenArm.names ++ elseArm.names
  | .assign _ target value => target.names ++ value.names

/-- The names in some expressions that can refer to captured locals. -/
def namesOf : List (Expr α) → List String
  | [] => []
  | e :: rest => e.names ++ namesOf rest

end

mutual

theorem names_bare : (e : Expr α) → e.bare.names = e.names
  | .literal .. | .name .. | .this _ => rfl
  | .field _ target _ => names_bare target
  | .call _ target _ args => congrArg₂ (· ++ ·) (names_bare target) (namesOf_bareAll args)
  | .thisCall _ _ args => namesOf_bareAll args
  | .index _ array place => congrArg₂ (· ++ ·) (names_bare array) (names_bare place)
  | .newObject _ _ args => namesOf_bareAll args
  | .newArray _ _ dims _ => namesOf_bareAll dims
  | .unary _ _ operand => names_bare operand
  | .binary _ _ left right => congrArg₂ (· ++ ·) (names_bare left) (names_bare right)
  | .instanceOf _ operand _ => names_bare operand
  | .cast _ _ operand => names_bare operand
  | .conditional _ cond thenArm elseArm => congrArg₂ (· ++ ·)
      (congrArg₂ (· ++ ·) (names_bare cond) (names_bare thenArm)) (names_bare elseArm)
  | .assign _ target value => congrArg₂ (· ++ ·) (names_bare target) (names_bare value)

theorem namesOf_bareAll : (es : List (Expr α)) → namesOf (bareAll es) = namesOf es
  | [] => rfl
  | e :: rest => congrArg₂ (· ++ ·) (names_bare e) (namesOf_bareAll rest)

end

end Expr

/-- Two scopes differ at most in locals that have none of the given names. -/
structure Scope.AgreeOn (names : List String) (scope scope' : Scope) : Prop where
  locals : ∀ n ∈ names, scope'.locals.lookup n = scope.locals.lookup n
  this : scope'.this = scope.this
  resolver : scope'.resolver = scope.resolver

namespace Scope.AgreeOn

variable {names more : List String}

lemma left (h : AgreeOn (names ++ more) scope scope') : AgreeOn names scope scope' :=
  ⟨fun n hn => h.locals n (List.mem_append_left _ hn), h.this, h.resolver⟩

lemma right (h : AgreeOn (names ++ more) scope scope') : AgreeOn more scope scope' :=
  ⟨fun n hn => h.locals n (List.mem_append_right _ hn), h.this, h.resolver⟩

lemma local?_eq (h : AgreeOn names scope scope') {n : String} (hn : n ∈ names) :
    scope'.local? heap n = scope.local? heap n := by
  rw [Scope.local?, h.locals n hn, Scope.local?]

lemma isVariable_eq (h : AgreeOn names scope scope') {n : String} (hn : n ∈ names) :
    scope'.isVariable heap n = scope.isVariable heap n := by
  rw [isVariable, isLocal, isThisField, h.locals n hn, h.this, isVariable, isLocal, isThisField]

end Scope.AgreeOn

namespace Typing

lemma names_of_check (h : check scope heap e = .ok te) : te.names = e.names := by
  rw [← te.names_bare, bare_of_check e h, e.names_bare]

lemma nameParts?_congr (h : Scope.AgreeOn e.names scope scope') :
    nameParts? scope' heap e = nameParts? scope heap e := by
  fun_induction nameParts? scope heap e with
  | case1 p n hvar => rw [nameParts?, h.isVariable_eq (by simp [Expr.names]), if_pos hvar]
  | case2 p n hvar => rw [nameParts?, h.isVariable_eq (by simp [Expr.names]), if_neg hvar]
  | case3 p target n ih => rw [nameParts?, ih h]
  | case4 e hname hfield => rw [nameParts?] <;> assumption

lemma typeOfName?_congr (h : Scope.AgreeOn e.names scope scope') :
    typeOfName? scope' heap e = typeOfName? scope heap e := by
  rw [typeOfName?, nameParts?_congr h, h.resolver, typeOfName?]

lemma sample?_congr (h : Scope.AgreeOn te.names scope scope') :
    sample? scope' heap te = sample? scope heap te := by
  cases te with
  | name note n => rw [sample?, sample?, h.local?_eq (by simp [Expr.names])]
  | this note => exact h.this
  | _ => rfl

mutual

/-- The checker looks up the names of an expression and no other local. -/
theorem check_congr : (e : Expr Position) → Scope.AgreeOn e.names scope scope' →
    check scope' heap e = check scope heap e
  | .literal p v, h => rfl
  | .name p n, h => by
    rw [check, check, h.local?_eq (by simp [Expr.names]), h.this]
  | .this p, h => by rw [check, check, h.this]
  | .field p target n, h => by
    change Scope.AgreeOn target.names scope scope' at h
    rw [check, check, typeOfName?_congr h]
    split
    · rfl
    · rw [check_congr target h]
      refine bind_congr_ok fun t ht => ?_
      have htarget : Scope.AgreeOn t.names scope scope' := by
        rw [names_of_check ht]
        exact h
      rw [sample?_congr htarget]
  | .call p target n args, h => by
    rw [check, check, typeOfName?_congr h.left, checkAll_congr args h.right, check_congr target h.left]
  | .thisCall p n args, h => by rw [check, check, h.this, checkAll_congr args h]
  | .index p array place, h => by
    rw [check, check, check_congr array h.left, check_congr place h.right]
  | .newObject p t args, h => by rw [check, check, h.resolver, checkAll_congr args h]
  | .newArray p t dims extra, h => by rw [check, check, h.resolver, checkDimensions_congr dims h]
  | .unary p op operand, h => by rw [check, check, check_congr operand h]
  | .binary p op left right, h => by
    rw [check, check, check_congr left h.left, check_congr right h.right]
  | .instanceOf p operand t, h => by rw [check, check, h.resolver, check_congr operand h]
  | .cast p t operand, h => by rw [check, check, h.resolver, check_congr operand h]
  | .conditional p cond thenArm elseArm, h => by
    rw [check, check, check_congr cond h.left.left, check_congr thenArm h.left.right, check_congr elseArm h.right]
  | .assign p target value, h => by
    rw [check.eq_def, check.eq_def]
    cases target with
    | name q n =>
      dsimp only
      rw [h.local?_eq (by simp [Expr.names]), check_congr value h.right]
    | _ => rfl

theorem checkAll_congr : (es : List (Expr Position)) → Scope.AgreeOn (Expr.namesOf es) scope scope' →
    checkAll scope' heap es = checkAll scope heap es
  | [], h => rfl
  | e :: rest, h => by rw [checkAll, checkAll, check_congr e h.left, checkAll_congr rest h.right]

theorem checkDimensions_congr : (es : List (Expr Position)) → Scope.AgreeOn (Expr.namesOf es) scope scope' →
    checkDimensions scope' heap es = checkDimensions scope heap es
  | [], h => rfl
  | e :: rest, h => by
    rw [checkDimensions, checkDimensions, check_congr e h.left, checkDimensions_congr rest h.right]

end

lemma checkPredicate_congr (h : Scope.AgreeOn e.names scope scope') :
    checkPredicate scope' heap e = checkPredicate scope heap e := by
  rw [checkPredicate, checkPredicate, check_congr e h]

end Typing

namespace Lowering

lemma useVariable_congr {n : String} (h : scope'.local? heap n = scope.local? heap n) :
    useVariable scope' heap n = useVariable scope heap n := by
  rw [useVariable, h, useVariable]

lemma thisParameter_congr (h : scope'.this = scope.this) : thisParameter scope' = thisParameter scope := by
  rw [thisParameter, h, thisParameter]

mutual

/-- Lowering looks up the names of an expression and no other local. -/
theorem lower_congr : (te : TypedExpr) → te.Resolved scope heap → Scope.AgreeOn te.names scope scope' →
    lower scope' heap te = lower scope heap te
  | .literal note v, hte, h => rfl
  | .name note n, hte, h => by
    rw [lower, lower, useVariable_congr (h.local?_eq (by simp [Expr.names])), thisParameter_congr h.this]
  | .this note, hte, h => by rw [lower, lower, thisParameter_congr h.this]
  | .field note target n, hte, h => by
    change Scope.AgreeOn target.names scope scope' at h
    cases hte with
    | staticField _ hrole _ =>
      rw [lower, lower]
      simp only [hrole]
    | field _ _ htarget => rw [lower, lower, lower_congr target htarget h]
  | .call note target n args, hte, h => by
    cases hte with
    | staticCall _ hrole _ hargs =>
      rw [lower, lower]
      simp only [hrole]
      rw [lowerArgs_congr note 0 args hargs h.right]
    | call _ _ htarget hargs =>
      rw [lower, lower, lower_congr target htarget h.left, lowerArgs_congr note 0 args hargs h.right]
  | .thisCall note n args, hte, h => by
    cases hte with
    | thisCall _ _ _ hargs =>
      rw [lower, lower, lowerArgs_congr note 0 args hargs h, thisParameter_congr h.this]
  | .index note array place, hte, h => by
    cases hte with
    | index _ harray hplace => rw [lower, lower, lower_congr array harray h.left, lower_congr place hplace h.right]
  | .newObject note t args, hte, h => by
    cases hte with
    | newObject _ hargs => rw [lower, lower, lowerArgs_congr note 0 args hargs h]
  | .newArray note t dims extra, hte, h => by
    cases hte with
    | newArray _ hdims => rw [lower, lower, lowerArgs_congr note 0 dims hdims h]
  | .unary note op operand, hte, h => by
    cases hte with
    | unary _ hoperand => rw [lower, lower, lower_congr operand hoperand h]
  | .binary note op left right, hte, h => by
    cases hte with
    | binary _ hleft hright => rw [lower, lower, lower_congr left hleft h.left, lower_congr right hright h.right]
  | .instanceOf note operand t, hte, h => by
    cases hte with
    | instanceOf _ _ hoperand => rw [lower, lower, lower_congr operand hoperand h]
  | .cast note t operand, hte, h => by
    cases hte with
    | cast _ hoperand => rw [lower, lower, lower_congr operand hoperand h]
  | .conditional note cond thenArm elseArm, hte, h => by
    cases hte with
    | conditional _ hcond hthen helse =>
      rw [lower, lower, lower_congr cond hcond h.left.left, lower_congr thenArm hthen h.left.right,
        lower_congr elseArm helse h.right]
  | .assign note target value, hte, h => by
    cases hte with
    | assign _ _ _ hvalue =>
      rw [lower, lower, lower_congr value hvalue h.right]
      dsimp only
      rw [useVariable_congr (h.local?_eq (by simp [Expr.names]))]

theorem lowerArgs_congr (note : Typing) (place : Nat) : (args : List TypedExpr) →
    (∀ arg ∈ args, arg.Resolved scope heap) → Scope.AgreeOn (Expr.namesOf args) scope scope' →
    lowerArgs scope' heap note place args = lowerArgs scope heap note place args
  | [], hargs, h => rfl
  | arg :: rest, hargs, h => by
    obtain ⟨harg, hrest⟩ := List.forall_mem_cons.mp hargs
    rw [lowerArgs, lowerArgs, lower_congr arg harg h.left, lowerArgs_congr note (place + 1) rest hrest h.right]

end

end Lowering

/-- The scope without the locals that have none of the given names. -/
def Scope.restrict (names : List String) (scope : Scope) : Scope :=
  { scope with locals := scope.locals.filter fun entry => entry.1 ∈ names }

lemma lookup_restrict (names : List String) (scope : Scope) (n : String) :
    (scope.restrict names).locals.lookup n = if n ∈ names then scope.locals.lookup n else none := by
  unfold Scope.restrict
  induction scope.locals with
  | nil => simp
  | cons entry rest ih => grind

lemma agreeOn_restrict (names : List String) (scope : Scope) :
    Scope.AgreeOn names scope (scope.restrict names) :=
  ⟨fun n hn => by rw [lookup_restrict, if_pos hn], rfl, rfl⟩

namespace Lowering

/-- The variables of a predicate have names that stand in its expression. -/
lemma name_mem_names (h : Typing.check scope heap e = .ok te) :
    ∀ v ∈ ((lower scope heap te).run ⟨[], []⟩).2.vars, v.name ∈ e.names := by
  intro v hv
  -- With the named locals alone the expression is lowered in the same way, and all its variables are bound.
  have hagree := agreeOn_restrict e.names scope
  have hrestricted : Typing.check (scope.restrict e.names) heap e = .ok te := by
    rw [Typing.check_congr e hagree, h]
  have hlower : lower (scope.restrict e.names) heap te = lower scope heap te :=
    lower_congr te (Typing.resolved_of_check e h) (by rwa [Typing.names_of_check h])
  obtain ⟨root, hclosed⟩ := closedTree_quote (Typing.resolved_of_check e hrestricted)
  rw [quote_eq, hlower] at hclosed
  obtain ⟨c, hc, -⟩ := hclosed.bound _ (List.mem_map_of_mem hv)
  rw [lookup_restrict] at hc
  by_contra hname
  rw [if_neg hname] at hc
  cases hc

lemma quote_congr (h : Typing.check scope heap e = .ok te) (hagree : Scope.AgreeOn e.names scope scope') :
    quote scope' heap te = quote scope heap te := by
  have hnames := name_mem_names h
  have hvars : ∀ v ∈ ((lower scope heap te).run ⟨[], []⟩).2.vars,
      scope'.locals.lookup v.name = scope.locals.lookup v.name := fun v hv => hagree.locals _ (hnames v hv)
  have hlower : lower scope' heap te = lower scope heap te :=
    lower_congr te (Typing.resolved_of_check e h) (by rwa [Typing.names_of_check h])
  have hbound := List.map_congr_left fun v hv => congrArg
    (fun found : Option Capture => (v, quoteCapture (found.getD (.value .null)))) (hvars v hv)
  simp only [quote_eq, thisParameter_congr hagree.this, hagree.this, hlower, hbound]

end Lowering

/-- A predicate depends on the captured locals only by those that its expression names: with two scopes that
agree on them a source is rejected with the same error, or gives the same predicate with the same bindings and
traces. -/
theorem unnamed_locals_irrelevant {source : String}
    (hagree : ∀ e, Parser.parse source = .ok e → Scope.AgreeOn e.names scope scope') (heap : Heap) :
    quote scope' heap source = quote scope heap source ∧
      ∀ heap', (quote scope' heap source).map (fun q => q.evaluate heap') =
        (quote scope heap source).map fun q => q.evaluate heap' := by
  have hquote : quote scope' heap source = quote scope heap source := by
    unfold quote
    cases hparse : Parser.parse source with
    | error e => rfl
    | ok e =>
      have hnames := hagree e hparse
      dsimp only
      rw [Typing.checkPredicate_congr hnames]
      cases hcheck : Typing.checkPredicate scope heap e with
      | error e => rfl
      | ok te =>
        obtain ⟨hte, -⟩ := Typing.checkPredicate_eq_ok.mp hcheck
        exact congrArg Except.ok (Lowering.quote_congr hte hnames)
  exact ⟨hquote, fun heap' => by rw [hquote]⟩

/-- A local with the name of a member has no influence. -/
theorem unnamed_locals_irrelevant_of_member :
    let p : Capture := .value (.object .point 0)
    let scope : Scope := ⟨[("p", p), ("x", .value (.str "x"))], none, .empty⟩
    let scope' : Scope := ⟨[("p", p)], none, .empty⟩
    let heap : Heap := ⟨#[⟨.point, [("x", .hostInt 1), ("y", .hostInt 2)]⟩], #[], Value.firstId⟩
    (∃ q, quote scope heap "p.x==1" = .ok q) ∧ quote scope' heap "p.x==1" = quote scope heap "p.x==1" ∧
      ∀ heap', (quote scope' heap "p.x==1").map (fun q => q.evaluate heap') =
        (quote scope heap "p.x==1").map fun q => q.evaluate heap' := by
  intro p scope scope' heap
  have hnames : (Parser.parse "p.x==1").toOption.map Expr.names = some ["p"] := by decide +kernel
  have hagree : ∀ e, Parser.parse "p.x==1" = .ok e → Scope.AgreeOn e.names scope scope' := by
    intro e he
    rw [he] at hnames
    have hp : e.names = ["p"] := Option.some.inj hnames
    refine ⟨fun n hn => ?_, rfl, rfl⟩
    rw [hp, List.mem_singleton] at hn
    subst hn
    rfl
  have haccepted : (quote scope heap "p.x==1").toOption.isSome = true := by decide +kernel
  refine ⟨?_, unnamed_locals_irrelevant hagree heap⟩
  cases hq : quote scope heap "p.x==1" with
  | error e => simp [hq, Except.toOption] at haccepted
  | ok q => exact ⟨q, rfl⟩

end PredicateTrace
