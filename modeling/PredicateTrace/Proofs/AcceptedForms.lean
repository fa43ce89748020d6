import PredicateTrace.Predicate
import PredicateTrace.Proofs.Running

/-!
# What the checker accepts

An expression is accepted in one of a few forms, each given by what the checker makes of the parts of the expression.
What holds of all checked expressions is proved by going through these forms.
-/

namespace PredicateTrace.Typing

open Host (Heap)

variable {scope : Scope} {heap : Heap} {e : Expr Position} {te : TypedExpr} {p : Position} {note : Typing}

/-! ### Types of operations -/

section Notes

variable {f g : Position → Except TypeError Typing}

/-- A check of an operation at a position, which it only hands on: with a type and conversions, or with an error. -/
def Notes (f : Position → Except TypeError Typing) : Prop :=
  (∃ type conversions, ∀ p, f p = .ok ⟨p, some type, none, conversions, none⟩) ∨
    ∃ cause, ∀ p, f p = .error ⟨p, cause⟩

lemma notes_plain (type : TypeRef) : Notes fun p => .ok (plain p type) :=
  .inl ⟨type, none, fun _ => rfl⟩

lemma notes_converting (type : TypeRef) (conversions : List (Option Primitive)) :
    Notes fun p => .ok (converting p type conversions) :=
  .inl ⟨type, some conversions, fun _ => rfl⟩

lemma notes_error (cause : TypeCause) : Notes fun p => .error ⟨p, cause⟩ :=
  .inr ⟨cause, fun _ => rfl⟩

lemma Notes.ite {c : Prop} [Decidable c] (hf : Notes f) (hg : Notes g) : Notes fun p => if c then f p else g p := by
  by_cases h : c
  · simpa only [if_pos h] using hf
  · simpa only [if_neg h] using hg

lemma Notes.type_isSome (h : Notes f) (hnote : f p = .ok note) : note.type.isSome := by
  rcases h with ⟨type, conversions, hok⟩ | ⟨cause, herror⟩
  · obtain rfl := Except.ok.inj ((hok p).symm.trans hnote)
    rfl
  · rw [herror] at hnote
    cases hnote

lemma notes_unaryType (op : UnaryOperator) (t : TypeRef) : Notes fun p => unaryType p op t := by
  cases op with
  | not => exact .ite (notes_converting _ _) (notes_error _)
  | minus | plus | complement =>
    exact .ite (notes_converting _ _) (.ite (notes_error _) (.ite (notes_error _) (notes_converting _ _)))

lemma notes_numericType (op : BinaryOperator) (left right : TypeRef) (accepts : TypeRef → Bool)
    (promote : Primitive × Primitive × Primitive) : Notes fun p => numericType p op left right accepts promote :=
  .ite (notes_converting _ _) (.ite (notes_converting _ _) (notes_error _))

lemma notes_equalityType (op : BinaryOperator) (left right : TypeRef) :
    Notes fun p => equalityType p op left right :=
  .ite (notes_converting _ _) (.ite (notes_converting _ _) (notes_error _))

lemma notes_relationalType (op : BinaryOperator) (left right : TypeRef) :
    Notes fun p => relationalType p op left right :=
  .ite (notes_converting _ _) (.ite (notes_converting _ _) (notes_error _))

lemma notes_binaryType (op : BinaryOperator) (left right : TypeRef) : Notes fun p => binaryType p op left right := by
  cases op with
  | conjunction | disjunction => exact .ite (notes_converting _ _) (notes_error _)
  | compare c =>
    cases c with
    | eq | neq => exact notes_equalityType _ left right
    | lt | le | gt | ge => exact notes_relationalType _ left right
  | shift s =>
    simp only [binaryType]
    exact notes_numericType _ left right _ _
  | arith a =>
    exact .ite (notes_converting _ _) (.ite (.ite (notes_converting _ _) (notes_numericType _ left right _ _))
      (notes_numericType _ left right _ _))

lemma notes_indexType (array index : TypeRef) : Notes fun p => indexType p array index := by
  cases array with
  | array component => exact .ite (notes_error _) (notes_converting _ _)
  | _ => exact .ite (notes_error _) (.ite (notes_converting _ _) (notes_error _))

lemma notes_conditionalType (cond thenArm elseArm : TypeRef) :
    Notes fun p => conditionalType p cond thenArm elseArm :=
  .ite (notes_error _) (.ite (notes_converting _ _) (.ite (notes_converting _ _) (.ite (notes_converting _ _)
    (.ite (notes_converting _ _) (notes_converting _ _)))))

lemma notes_castType (source target : TypeRef) : Notes fun p => castType p source target := by
  cases target with
  | prim q => exact .ite (notes_converting _ _) (notes_error _)
  | _ => exact .ite (notes_error _) (notes_plain _)

end Notes

/-! ### Expressions -/

/-- The name of a type is a chain of names. -/
@[elab_as_elim]
lemma induction_on_typeName {motive : Expr Position → Prop} {owner : TypeRef}
    (h : typeOfName? scope heap e = some owner) (name : ∀ p n, motive (.name p n))
    (field : ∀ p target n, motive target → motive (.field p target n)) : motive e := by
  obtain ⟨parts, hparts, -⟩ := Option.bind_eq_some_iff.mp h
  clear h
  fun_induction nameParts? scope heap e generalizing parts with
  | case1 => cases hparts
  | case2 => exact name _ _
  | case3 p target n ih =>
    obtain ⟨others, hothers, -⟩ := Option.map_eq_some_iff.mp hparts
    exact field p target n (ih others hothers)
  | case4 => cases hparts

/-- How the checker accepts an expression, and what it notes. -/
inductive Accepts (scope : Scope) (heap : Heap) : Expr Position → TypedExpr → Prop
  | literal {p : Position} {v : Literal} : Accepts scope heap (.literal p v) (.literal (plain p (literalType v)) v)
  | local {p : Position} {n : String} {v : Value} (hlocal : scope.local? heap n = some v) :
    Accepts scope heap (.name p n) (.name (named p v.staticType .local) n)
  | thisField {p : Position} {n : String} {this : Value} (hlocal : scope.local? heap n = none)
    (hthis : scope.this = some this) (hfield : Host.hasAttribute heap this n = true) :
    Accepts scope heap (.name p n) (.name (named p (Resolver.fieldType heap this.staticType n (some this))
      (.thisField this.staticType)) n)
  | this {p : Position} {this : Value} (hthis : scope.this = some this) :
    Accepts scope heap (.this p) (.this (plain p this.staticType))
  | staticField {p : Position} {target : Expr Position} {n : String} {owner : TypeRef}
    (howner : typeOfName? scope heap target = some owner) :
    Accepts scope heap (.field p target n)
      (.field (named p (Resolver.fieldType heap owner n none) (.staticField owner)) (target.map untyped) n)
  | length {p : Position} {target : Expr Position} {t : TypedExpr} {component : TypeRef}
    (howner : typeOfName? scope heap target = none) (htarget : check scope heap target = .ok t)
    (htype : t.type = .array component) :
    Accepts scope heap (.field p target "length") (.field (named p (.prim .int) .length) t "length")
  | field {p : Position} {target : Expr Position} {t : TypedExpr} {n : String}
    (howner : typeOfName? scope heap target = none) (htarget : check scope heap target = .ok t)
    (harray : ∀ component, t.type ≠ .array component) (hprim : ∀ q, t.type ≠ .prim q) :
    Accepts scope heap (.field p target n)
      (.field (named p (Resolver.fieldType heap t.type n (sample? scope heap t)) (.field t.type)) t n)
  | staticCall {p : Position} {target : Expr Position} {n : String} {args : List (Expr Position)}
    {targs : List TypedExpr} {owner : TypeRef} (howner : typeOfName? scope heap target = some owner)
    (hargs : checkAll scope heap args = .ok targs) :
    Accepts scope heap (.call p target n args)
      (.call ⟨p, some (callType owner n true (targs.map Expr.type)).1, some (.staticMethod owner),
        some (callType owner n true (targs.map Expr.type)).2, none⟩ (target.map untyped) n targs)
  | call {p : Position} {target : Expr Position} {t : TypedExpr} {n : String} {args : List (Expr Position)}
    {targs : List TypedExpr} (howner : typeOfName? scope heap target = none)
    (htarget : check scope heap target = .ok t) (hprim : ∀ q, t.type ≠ .prim q)
    (hargs : checkAll scope heap args = .ok targs) :
    Accepts scope heap (.call p target n args)
      (.call ⟨p, some (callType t.type n false (targs.map Expr.type)).1, some (.method t.type),
        some (callType t.type n false (targs.map Expr.type)).2, none⟩ t n targs)
  | thisCall {p : Position} {n : String} {args : List (Expr Position)} {targs : List TypedExpr} {this : Value}
    (hthis : scope.this = some this) (hargs : checkAll scope heap args = .ok targs) :
    Accepts scope heap (.thisCall p n args)
      (.thisCall ⟨p, some (callType this.staticType n false (targs.map Expr.type)).1,
        some (.thisMethod this.staticType), some (callType this.staticType n false (targs.map Expr.type)).2,
        none⟩ n targs)
  | index {p : Position} {array place : Expr Position} {ta tp : TypedExpr} {note : Typing}
    (harray : check scope heap array = .ok ta) (hplace : check scope heap place = .ok tp)
    (hnote : indexType p ta.type tp.type = .ok note) :
    Accepts scope heap (.index p array place) (.index note ta tp)
  | newObject {p : Position} {t : TypeName} {args : List (Expr Position)} {targs : List TypedExpr}
    (hargs : checkAll scope heap args = .ok targs) :
    Accepts scope heap (.newObject p t args) (.newObject (plain p (writtenType scope.resolver t)) t targs)
  | newArray {p : Position} {t : TypeName} {dims : List (Expr Position)} {extra : Nat} {tdims : List TypedExpr}
    (hdims : checkDimensions scope heap dims = .ok tdims) :
    Accepts scope heap (.newArray p t dims extra)
      (.newArray (converting p ((writtenType scope.resolver t).arrays (tdims.length + extra))
        (tdims.map fun _ => some .int)) t tdims extra)
  | unary {p : Position} {op : UnaryOperator} {operand : Expr Position} {tx : TypedExpr} {note : Typing}
    (hoperand : check scope heap operand = .ok tx) (hnote : unaryType p op tx.type = .ok note) :
    Accepts scope heap (.unary p op operand) (.unary note op tx)
  | binary {p : Position} {op : BinaryOperator} {left right : Expr Position} {tl tr : TypedExpr} {note : Typing}
    (hleft : check scope heap left = .ok tl) (hright : check scope heap right = .ok tr)
    (hnote : binaryType p op tl.type tr.type = .ok note) :
    Accepts scope heap (.binary p op left right) (.binary note op tl tr)
  | instanceOf {p : Position} {operand : Expr Position} {tx : TypedExpr} {t : TypeName}
    (hoperand : check scope heap operand = .ok tx) (hprim : ∀ q, tx.type ≠ .prim q)
    (htarget : ∀ q, writtenType scope.resolver t ≠ .prim q) :
    Accepts scope heap (.instanceOf p operand t)
      (.instanceOf ⟨p, some (.prim .boolean), none, none, some (writtenType scope.resolver t)⟩ tx t)
  | cast {p : Position} {operand : Expr Position} {tx : TypedExpr} {t : TypeName} {note : Typing}
    (hoperand : check scope heap operand = .ok tx)
    (hnote : castType p tx.type (writtenType scope.resolver t) = .ok note) :
    Accepts scope heap (.cast p t operand) (.cast note t tx)
  | conditional {p : Position} {cond thenArm elseArm : Expr Position} {tc ty tn : TypedExpr} {note : Typing}
    (hcond : check scope heap cond = .ok tc) (htype : tc.type.isCondition = true)
    (hthen : check scope heap thenArm = .ok ty) (helse : check scope heap elseArm = .ok tn)
    (hnote : conditionalType p tc.type ty.type tn.type = .ok note) :
    Accepts scope heap (.conditional p cond thenArm elseArm) (.conditional note tc ty tn)
  | assign {p q : Position} {n : String} {v : Value} {value : Expr Position} {tv : TypedExpr}
    (hlocal : scope.local? heap n = some v) (hvalue : check scope heap value = .ok tv) :
    Accepts scope heap (.assign p (.name q n) value)
      (.assign (plain p v.staticType) (.name (named q v.staticType .local) n) tv)

lemma accepts_of_check (h : check scope heap e = .ok te) : Accepts scope heap e te := by
  cases e with
  | literal p v =>
    rw [check] at h
    obtain rfl := Except.ok.inj h
    exact .literal
  | name p n =>
    rw [check] at h
    split at h
    · next v hv =>
      obtain rfl := Except.ok.inj h
      exact .local hv
    · next hlocal =>
      split at h
      · next this hthis =>
        split at h
        · next hfield =>
          obtain rfl := Except.ok.inj h
          exact .thisField hlocal hthis hfield
        · cases h
      · cases h
  | this p =>
    rw [check] at h
    split at h
    · next this hthis =>
      obtain rfl := Except.ok.inj h
      exact .this hthis
    · cases h
  | field p target n =>
    rw [check] at h
    split at h
    · next owner howner =>
      obtain rfl := Except.ok.inj h
      exact .staticField howner
    · next howner =>
      obtain ⟨t, ht, h⟩ := bind_eq_ok.mp h
      dsimp only at h
      split at h
      · next component htype =>
        split at h
        · next hn =>
          subst hn
          obtain rfl := Except.ok.inj h
          exact .length howner ht htype
        · cases h
      · cases h
      · next harray hprim =>
        obtain rfl := Except.ok.inj h
        exact .field howner ht harray hprim
  | call p target n args =>
    rw [check] at h
    split at h
    · next owner howner =>
      obtain ⟨targs, hargs, h⟩ := bind_eq_ok.mp h
      obtain rfl := Except.ok.inj h
      exact .staticCall howner hargs
    · next howner =>
      obtain ⟨t, ht, h⟩ := bind_eq_ok.mp h
      dsimp only at h
      split at h
      · cases h
      · next hprim =>
        obtain ⟨targs, hargs, h⟩ := bind_eq_ok.mp h
        obtain rfl := Except.ok.inj h
        exact .call howner ht hprim hargs
  | thisCall p n args =>
    rw [check] at h
    split at h
    · next this hthis =>
      obtain ⟨targs, hargs, h⟩ := bind_eq_ok.mp h
      obtain rfl := Except.ok.inj h
      exact .thisCall hthis hargs
    · cases h
  | index p array place =>
    rw [check] at h
    obtain ⟨ta, ha, h⟩ := bind_eq_ok.mp h
    obtain ⟨tp, hp, h⟩ := bind_eq_ok.mp h
    obtain ⟨note, hnote, h⟩ := bind_eq_ok.mp h
    obtain rfl := Except.ok.inj h
    exact .index ha hp hnote
  | newObject p t args =>
    rw [check] at h
    obtain ⟨targs, hargs, h⟩ := bind_eq_ok.mp h
    obtain rfl := Except.ok.inj h
    exact .newObject hargs
  | newArray p t dims extra =>
    rw [check] at h
    obtain ⟨tdims, hdims, h⟩ := bind_eq_ok.mp h
    obtain rfl := Except.ok.inj h
    exact .newArray hdims
  | unary p op operand =>
    rw [check] at h
    obtain ⟨tx, hx, h⟩ := bind_eq_ok.mp h
    obtain ⟨note, hnote, h⟩ := bind_eq_ok.mp h
    obtain rfl := Except.ok.inj h
    exact .unary hx hnote
  | binary p op left right =>
    rw [check] at h
    obtain ⟨tl, hl, h⟩ := bind_eq_ok.mp h
    obtain ⟨tr, hr, h⟩ := bind_eq_ok.mp h
    obtain ⟨note, hnote, h⟩ := bind_eq_ok.mp h
    obtain rfl := Except.ok.inj h
    exact .binary hl hr hnote
  | instanceOf p operand t =>
    rw [check] at h
    obtain ⟨tx, hx, h⟩ := bind_eq_ok.mp h
    split at h
    · cases h
    · cases h
    · next hprim htarget =>
      obtain rfl := Except.ok.inj h
      exact .instanceOf hx hprim htarget
  | cast p t operand =>
    rw [check] at h
    obtain ⟨tx, hx, h⟩ := bind_eq_ok.mp h
    obtain ⟨note, hnote, h⟩ := bind_eq_ok.mp h
    obtain rfl := Except.ok.inj h
    exact .cast hx hnote
  | conditional p cond thenArm elseArm =>
    rw [check] at h
    obtain ⟨tc, hc, h⟩ := bind_eq_ok.mp h
    split at h
    · cases h
    · next htype =>
      obtain ⟨ty, hy, h⟩ := bind_eq_ok.mp h
      obtain ⟨tn, hn, h⟩ := bind_eq_ok.mp h
      obtain ⟨note, hnote, h⟩ := bind_eq_ok.mp h
      obtain rfl := Except.ok.inj h
      exact .conditional hc (by simpa using htype) hy hn hnote
  | assign p target value =>
    rw [check.eq_def] at h
    dsimp only at h
    split at h
    · split at h
      · next v hv =>
        obtain ⟨tv, hvalue, h⟩ := bind_eq_ok.mp h
        obtain rfl := Except.ok.inj h
        exact .assign hv hvalue
      · cases h
    · cases h

lemma checkAll_cons_eq_ok {rest : List (Expr Position)} {tes : List TypedExpr}
    (h : checkAll scope heap (e :: rest) = .ok tes) :
    ∃ te others, check scope heap e = .ok te ∧ checkAll scope heap rest = .ok others ∧ tes = te :: others := by
  rw [checkAll] at h
  obtain ⟨te, he, h⟩ := bind_eq_ok.mp h
  obtain ⟨others, hothers, h⟩ := bind_eq_ok.mp h
  exact ⟨te, others, he, hothers, (Except.ok.inj h).symm⟩

lemma checkDimensions_cons_eq_ok {rest : List (Expr Position)} {tes : List TypedExpr}
    (h : checkDimensions scope heap (e :: rest) = .ok tes) :
    ∃ te others, check scope heap e = .ok te ∧ te.type.isIndex = true ∧
      checkDimensions scope heap rest = .ok others ∧ tes = te :: others := by
  rw [checkDimensions] at h
  obtain ⟨te, he, h⟩ := bind_eq_ok.mp h
  dsimp only at h
  split at h
  · cases h
  · next hindex =>
    obtain ⟨others, hothers, h⟩ := bind_eq_ok.mp h
    exact ⟨te, others, he, by simpa using hindex, hothers, (Except.ok.inj h).symm⟩

/-- Accepted sizes are accepted expressions. -/
lemma checkAll_of_checkDimensions {es : List (Expr Position)} {tes : List TypedExpr}
    (h : checkDimensions scope heap es = .ok tes) : checkAll scope heap es = .ok tes := by
  induction es generalizing tes with
  | nil => rwa [checkDimensions] at h
  | cons e rest ih =>
    obtain ⟨te, others, he, -, hothers, rfl⟩ := checkDimensions_cons_eq_ok h
    rw [checkAll, he, ih hothers]
    rfl

/-! ### Predicates -/

lemma checkPredicate_eq_ok : checkPredicate scope heap e = .ok te ↔
    check scope heap e = .ok te ∧ (te.type.isCondition || e.isAssign) = true := by
  unfold checkPredicate
  rw [bind_eq_ok]
  constructor
  · rintro ⟨checked, hcheck, h⟩
    split at h
    · next hcondition =>
      obtain rfl := Except.ok.inj h
      exact ⟨hcheck, hcondition⟩
    · cases h
  · rintro ⟨hcheck, hcondition⟩
    exact ⟨te, hcheck, by rw [if_pos hcondition]; rfl⟩

/-- An accepted predicate has the type of a condition, or it is an assignment to a local variable. -/
lemma isCondition_or_assign (h : checkPredicate scope heap e = .ok te) :
    te.type.isCondition = true ∨ ∃ note noteOfName n tv, te = .assign note (.name noteOfName n) tv := by
  obtain ⟨hcheck, hcondition⟩ := checkPredicate_eq_ok.mp h
  rcases (Bool.or_eq_true _ _).mp hcondition with hcondition | hassign
  · exact .inl hcondition
  · cases e with
    | assign =>
      cases accepts_of_check hcheck
      exact .inr ⟨_, _, _, _, rfl⟩
    | _ => cases hassign

lemma quote_eq_ok {α : Type} [Text.Coded α] {source : α} {q : Quoted} : quote scope heap source = .ok q ↔
    ∃ e te, Parser.parse source = .ok e ∧ checkPredicate scope heap e = .ok te ∧
      q = Lowering.quote scope heap te := by
  unfold quote
  constructor
  · intro h
    split at h
    · cases h
    · next e hparse =>
      split at h
      · cases h
      · next te hcheck => exact ⟨e, te, hparse, hcheck, (Except.ok.inj h).symm⟩
  · rintro ⟨e, te, hparse, hcheck, rfl⟩
    simp only [hparse, hcheck]

end PredicateTrace.Typing
