import PredicateTrace.Lowering
import PredicateTrace.Proofs.AcceptedForms

/-!
# What lowering finds in a checked expression

Lowering looks up types, roles, local variables and the object bound as `this`. The checker leaves all of them behind,
so that lowering never has to fall back to the defaults that stand for a missing one.
-/

namespace PredicateTrace

open Host (Heap)

variable {scope : Scope} {heap : Heap} {e : Expr Position} {te : TypedExpr}

/-- A name with dots, of which the checker has noted nothing. -/
def Expr.IsUntypedName : TypedExpr → Prop
  | .name note _ => note.role = none
  | .field _ target _ => target.IsUntypedName
  | _ => False

/-- Everything that lowering looks up for an expression is there: the types of the nodes that are lowered, what names
and members refer to, the local variables that are used, and `this`. -/
inductive Expr.Resolved (scope : Scope) (heap : Heap) : TypedExpr → Prop
  | literal {note : Typing} {v : Literal} (htype : note.type.isSome) : Resolved scope heap (.literal note v)
  | local {note : Typing} {n : String} (htype : note.type.isSome) (hrole : note.role = some .local)
    (hlocal : (scope.local? heap n).isSome) : Resolved scope heap (.name note n)
  | thisField {note : Typing} {n : String} {owner : TypeRef} (htype : note.type.isSome)
    (hrole : note.role = some (.thisField owner)) (hthis : scope.this.isSome) : Resolved scope heap (.name note n)
  | this {note : Typing} (htype : note.type.isSome) (hthis : scope.this.isSome) : Resolved scope heap (.this note)
  | staticField {note : Typing} {target : TypedExpr} {n : String} {owner : TypeRef} (htype : note.type.isSome)
    (hrole : note.role = some (.staticField owner)) (htarget : target.IsUntypedName) :
    Resolved scope heap (.field note target n)
  | field {note : Typing} {target : TypedExpr} {n : String} (htype : note.type.isSome)
    (hrole : note.role = some .length ∨ ∃ owner, note.role = some (.field owner))
    (htarget : target.Resolved scope heap) : Resolved scope heap (.field note target n)
  | staticCall {note : Typing} {target : TypedExpr} {n : String} {args : List TypedExpr} {owner : TypeRef}
    (htype : note.type.isSome) (hrole : note.role = some (.staticMethod owner)) (htarget : target.IsUntypedName)
    (hargs : ∀ arg ∈ args, arg.Resolved scope heap) : Resolved scope heap (.call note target n args)
  | call {note : Typing} {target : TypedExpr} {n : String} {args : List TypedExpr} {owner : TypeRef}
    (htype : note.type.isSome) (hrole : note.role = some (.method owner)) (htarget : target.Resolved scope heap)
    (hargs : ∀ arg ∈ args, arg.Resolved scope heap) : Resolved scope heap (.call note target n args)
  | thisCall {note : Typing} {n : String} {args : List TypedExpr} (htype : note.type.isSome)
    (hrole : note.role = some (.thisMethod (Lowering.thisParameter scope).type)) (hthis : scope.this.isSome)
    (hargs : ∀ arg ∈ args, arg.Resolved scope heap) : Resolved scope heap (.thisCall note n args)
  | index {note : Typing} {array place : TypedExpr} (htype : note.type.isSome) (harray : array.Resolved scope heap)
    (hplace : place.Resolved scope heap) : Resolved scope heap (.index note array place)
  | newObject {note : Typing} {t : TypeName} {args : List TypedExpr} (htype : note.type.isSome)
    (hargs : ∀ arg ∈ args, arg.Resolved scope heap) : Resolved scope heap (.newObject note t args)
  | newArray {note : Typing} {t : TypeName} {dims : List TypedExpr} {extra : Nat} (htype : note.type.isSome)
    (hdims : ∀ dim ∈ dims, dim.Resolved scope heap) : Resolved scope heap (.newArray note t dims extra)
  | unary {note : Typing} {op : UnaryOperator} {operand : TypedExpr} (htype : note.type.isSome)
    (hoperand : operand.Resolved scope heap) : Resolved scope heap (.unary note op operand)
  | binary {note : Typing} {op : BinaryOperator} {left right : TypedExpr} (htype : note.type.isSome)
    (hleft : left.Resolved scope heap) (hright : right.Resolved scope heap) :
    Resolved scope heap (.binary note op left right)
  | instanceOf {note : Typing} {operand : TypedExpr} {t : TypeName} (htype : note.type.isSome)
    (htarget : note.target.isSome) (hoperand : operand.Resolved scope heap) :
    Resolved scope heap (.instanceOf note operand t)
  | cast {note : Typing} {t : TypeName} {operand : TypedExpr} (htype : note.type.isSome)
    (hoperand : operand.Resolved scope heap) : Resolved scope heap (.cast note t operand)
  | conditional {note : Typing} {cond thenArm elseArm : TypedExpr} (htype : note.type.isSome)
    (hcond : cond.Resolved scope heap) (hthen : thenArm.Resolved scope heap) (helse : elseArm.Resolved scope heap) :
    Resolved scope heap (.conditional note cond thenArm elseArm)
  | assign {note noteOfName : Typing} {n : String} {value : TypedExpr} (htype : note.type.isSome)
    (hrole : noteOfName.role = some .local) (hlocal : (scope.local? heap n).isSome)
    (hvalue : value.Resolved scope heap) : Resolved scope heap (.assign note (.name noteOfName n) value)

namespace Typing

lemma isUntypedName_of_typeOfName? {owner : TypeRef} (h : typeOfName? scope heap e = some owner) :
    (e.map untyped).IsUntypedName :=
  induction_on_typeName h (fun _ _ => rfl) fun _ _ _ ih => ih

mutual

/-- The checker leaves everything that lowering looks up. -/
theorem resolved_of_check : (e : Expr Position) → {te : TypedExpr} → check scope heap e = .ok te →
    te.Resolved scope heap
  | .literal _ _, te, h => by
    cases accepts_of_check h
    exact .literal rfl
  | .name _ _, te, h => by
    cases accepts_of_check h with
    | «local» hlocal => exact .local rfl rfl (by rw [hlocal]; rfl)
    | thisField _ hthis _ => exact .thisField rfl rfl (by rw [hthis]; rfl)
  | .this _, te, h => by
    cases accepts_of_check h with
    | this hthis => exact .this rfl (by rw [hthis]; rfl)
  | .field _ target _, te, h => by
    cases accepts_of_check h with
    | staticField howner => exact .staticField rfl rfl (isUntypedName_of_typeOfName? howner)
    | length _ htarget _ => exact .field rfl (Or.inl rfl) (resolved_of_check target htarget)
    | field _ htarget _ _ => exact .field rfl (Or.inr ⟨_, rfl⟩) (resolved_of_check target htarget)
  | .call _ target _ args, te, h => by
    cases accepts_of_check h with
    | staticCall howner hargs =>
      exact .staticCall rfl rfl (isUntypedName_of_typeOfName? howner) (resolved_of_checkAll args hargs)
    | call _ htarget _ hargs =>
      exact .call rfl rfl (resolved_of_check target htarget) (resolved_of_checkAll args hargs)
  | .thisCall _ _ args, te, h => by
    cases accepts_of_check h with
    | @thisCall _ _ _ _ this hthis hargs =>
      have hrole : this.staticType = (Lowering.thisParameter scope).type := by
        rw [Lowering.thisParameter, hthis]
        rfl
      exact .thisCall rfl (congrArg (fun t => some (Role.thisMethod t)) hrole) (by rw [hthis]; rfl)
        (resolved_of_checkAll args hargs)
  | .index _ array place, te, h => by
    cases accepts_of_check h with
    | index harray hplace hnote =>
      exact .index ((notes_indexType _ _).type_isSome hnote) (resolved_of_check array harray)
        (resolved_of_check place hplace)
  | .newObject _ _ args, te, h => by
    cases accepts_of_check h with
    | newObject hargs => exact .newObject rfl (resolved_of_checkAll args hargs)
  | .newArray _ _ dims _, te, h => by
    cases accepts_of_check h with
    | newArray hdims => exact .newArray rfl (resolved_of_checkAll dims (checkAll_of_checkDimensions hdims))
  | .unary _ _ operand, te, h => by
    cases accepts_of_check h with
    | unary hoperand hnote =>
      exact .unary ((notes_unaryType _ _).type_isSome hnote) (resolved_of_check operand hoperand)
  | .binary _ _ left right, te, h => by
    cases accepts_of_check h with
    | binary hleft hright hnote =>
      exact .binary ((notes_binaryType _ _ _).type_isSome hnote) (resolved_of_check left hleft)
        (resolved_of_check right hright)
  | .instanceOf _ operand _, te, h => by
    cases accepts_of_check h with
    | instanceOf hoperand _ _ => exact .instanceOf rfl rfl (resolved_of_check operand hoperand)
  | .cast _ _ operand, te, h => by
    cases accepts_of_check h with
    | cast hoperand hnote =>
      exact .cast ((notes_castType _ _).type_isSome hnote) (resolved_of_check operand hoperand)
  | .conditional _ cond thenArm elseArm, te, h => by
    cases accepts_of_check h with
    | conditional hcond _ hthen helse hnote =>
      exact .conditional ((notes_conditionalType _ _ _).type_isSome hnote) (resolved_of_check cond hcond)
        (resolved_of_check thenArm hthen) (resolved_of_check elseArm helse)
  | .assign _ _ value, te, h => by
    cases accepts_of_check h with
    | assign hlocal hvalue => exact .assign rfl rfl (by rw [hlocal]; rfl) (resolved_of_check value hvalue)

theorem resolved_of_checkAll : (es : List (Expr Position)) → {tes : List TypedExpr} →
    checkAll scope heap es = .ok tes → ∀ te ∈ tes, te.Resolved scope heap
  | [], tes, h => by
    rw [checkAll] at h
    obtain rfl := Except.ok.inj h
    simp
  | e :: rest, tes, h => by
    obtain ⟨te, others, he, hothers, rfl⟩ := checkAll_cons_eq_ok h
    exact List.forall_mem_cons.mpr ⟨resolved_of_check e he, resolved_of_checkAll rest hothers⟩

end

end Typing

end PredicateTrace
