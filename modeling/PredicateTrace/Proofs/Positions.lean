import PredicateTrace.Proofs.LoweringInputs
import PredicateTrace.Proofs.Rendering

/-!
# Expressions at other places

Where an expression stands in its source does not matter for what it means: checking only hands positions on, and
lowering does not look at them. Two expressions that are the same without their positions are checked alike and
lowered to the same ops.
-/

namespace PredicateTrace

open Host (Heap)

variable {scope : Scope} {heap : Heap} {e e' : Expr Position} {te te' : TypedExpr} {p : Position}

/-- The note of a node at the start of a source. -/
def Typing.unplaced (note : Typing) : Typing :=
  { note with position := .start }

namespace Expr

/-- An expression with all of its positions at the start of a source. -/
def atStart (e : Expr Position) : Expr Position :=
  e.bare.map fun _ => .start

def atStartAll (es : List (Expr Position)) : List (Expr Position) :=
  mapList (fun _ => .start) (bareAll es)

mutual

/-- A checked expression with all of its positions at the start of a source. -/
def unplaced : TypedExpr → TypedExpr
  | .literal note v => .literal note.unplaced v
  | .name note n => .name note.unplaced n
  | .this note => .this note.unplaced
  | .field note e n => .field note.unplaced e.unplaced n
  | .call note e n args => .call note.unplaced e.unplaced n (unplacedAll args)
  | .thisCall note n args => .thisCall note.unplaced n (unplacedAll args)
  | .index note e i => .index note.unplaced e.unplaced i.unplaced
  | .newObject note t args => .newObject note.unplaced { t with position := .start } (unplacedAll args)
  | .newArray note t dims extra => .newArray note.unplaced { t with position := .start } (unplacedAll dims) extra
  | .unary note op e => .unary note.unplaced op e.unplaced
  | .binary note op l r => .binary note.unplaced op l.unplaced r.unplaced
  | .instanceOf note e t => .instanceOf note.unplaced e.unplaced { t with position := .start }
  | .cast note t e => .cast note.unplaced { t with position := .start } e.unplaced
  | .conditional note c yes no => .conditional note.unplaced c.unplaced yes.unplaced no.unplaced
  | .assign note target value => .assign note.unplaced target.unplaced value.unplaced

def unplacedAll : List TypedExpr → List TypedExpr
  | [] => []
  | e :: es => e.unplaced :: unplacedAll es

end

@[simp]
lemma type_unplaced (te : TypedExpr) : te.unplaced.type = te.type := by
  cases te <;> rfl

lemma unplacedAll_eq_map (tes : List TypedExpr) : unplacedAll tes = tes.map unplaced := by
  induction tes with
  | nil => rfl
  | cons te rest ih => rw [unplacedAll, ih, List.map_cons]

@[simp]
lemma map_type_unplacedAll (tes : List TypedExpr) : (unplacedAll tes).map type = tes.map type := by
  rw [unplacedAll_eq_map, List.map_map]
  exact List.map_congr_left fun te _ => type_unplaced te

@[simp]
lemma length_unplacedAll (tes : List TypedExpr) : (unplacedAll tes).length = tes.length := by
  rw [unplacedAll_eq_map, List.length_map]

end Expr

namespace Typing

/-! ### Names -/

lemma nameParts?_atStart (e : Expr Position) : nameParts? scope heap e.atStart = nameParts? scope heap e := by
  fun_induction nameParts? scope heap e with
  | case1 p n h => exact if_pos h
  | case2 p n h => exact if_neg h
  | case3 p target n ih => exact congrArg _ ih
  | case4 e hname hfield => cases e <;> first | rfl | exact absurd rfl (hname _ _) | exact absurd rfl (hfield _ _ _)

lemma typeOfName?_atStart (e : Expr Position) : typeOfName? scope heap e.atStart = typeOfName? scope heap e := by
  rw [typeOfName?, nameParts?_atStart, typeOfName?]

lemma map_untyped_atStart {owner : TypeRef} (h : typeOfName? scope heap e = some owner) :
    e.atStart.map untyped = (e.map untyped).unplaced :=
  induction_on_typeName h (fun _ _ => rfl) fun _ _ n ih => congrArg (fun t => Expr.field (untyped .start) t n) ih

lemma bare_map_untyped {owner : TypeRef} (h : typeOfName? scope heap e = some owner) :
    (e.map untyped).bare = e.bare :=
  induction_on_typeName h (fun _ _ => rfl) fun _ _ n ih => congrArg (Expr.field () · n) ih

lemma sample?_unplaced (te : TypedExpr) : sample? scope heap te.unplaced = sample? scope heap te := by
  cases te <;> rfl

/-! ### Checks that give the same -/

section Agree

variable {α β : Type} {move : α → α} {move' : β → β} {r r' : Except TypeError α} {x y : TypeError}

/-- Either both of two checks fail, or the second one gives what the first one gives, moved to other positions. -/
def Agree (move : α → α) (r r' : Except TypeError α) : Prop :=
  r'.toOption = r.toOption.map move

lemma agree_error : Agree move (.error x) (.error y) :=
  rfl

lemma Agree.bind {next next' : α → Except TypeError β} (h : Agree move r r')
    (hnext : ∀ a, Agree move' (next a) (next' (move a))) : Agree move' (r >>= next) (r' >>= next') := by
  cases r with
  | error x =>
    cases r' with
    | error y => exact agree_error
    | ok a => cases h
  | ok a =>
    cases r' with
    | error y => cases h
    | ok b =>
      obtain rfl : b = move a := Option.some.inj h
      exact hnext a

lemma Agree.exists_ok {a : α} (h : Agree move r r') (hr : r = .ok a) : r' = .ok (move a) := by
  subst hr
  cases r' with
  | error y => cases h
  | ok b => rw [Option.some.inj h]

lemma Agree.exists_of_ok {b : α} (h : Agree move r r') (hr : r' = .ok b) : ∃ a, r = .ok a ∧ b = move a := by
  subst hr
  cases r with
  | error x => cases h
  | ok a => exact ⟨a, rfl, Option.some.inj h⟩

end Agree

lemma Notes.agree {f : Position → Except TypeError Typing} (h : Notes f) (p : Position) :
    Agree unplaced (f p) (f .start) := by
  rcases h with ⟨type, conversions, hok⟩ | ⟨cause, herror⟩
  · rw [hok, hok]
    rfl
  · rw [herror, herror]
    exact agree_error

/-! ### Checked expressions -/

mutual

/-- An expression is checked at the start of a source as where it stands. -/
theorem agree_check : (e : Expr Position) → Agree Expr.unplaced (check scope heap e) (check scope heap e.atStart)
  | .literal p v => rfl
  | .name p n => by
    change Agree _ _ (check scope heap (.name .start n))
    rw [check, check]
    cases scope.local? heap n with
    | some v => rfl
    | none =>
      cases scope.this with
      | some this => dsimp only; split_ifs <;> rfl
      | none => rfl
  | .this p => by
    change Agree _ _ (check scope heap (.this .start))
    rw [check, check]
    cases scope.this <;> rfl
  | .field p target n => by
    change Agree _ _ (check scope heap (.field .start target.atStart n))
    rw [check, check, typeOfName?_atStart]
    cases howner : typeOfName? scope heap target with
    | some owner =>
      dsimp only
      rw [map_untyped_atStart howner]
      rfl
    | none =>
      refine (agree_check target).bind fun t => ?_
      dsimp only
      rw [Expr.type_unplaced, sample?_unplaced]
      cases t.type with
      | array component => dsimp only; split_ifs <;> rfl
      | _ => rfl
  | .call p target n args => by
    change Agree _ _ (check scope heap (.call .start target.atStart n (Expr.atStartAll args)))
    rw [check, check, typeOfName?_atStart]
    cases howner : typeOfName? scope heap target with
    | some owner =>
      dsimp only
      rw [map_untyped_atStart howner]
      refine (agree_checkAll args).bind fun targs => ?_
      rw [Expr.map_type_unplacedAll]
      rfl
    | none =>
      refine (agree_check target).bind fun t => ?_
      have hargs (owner : TypeRef) : Agree Expr.unplaced
          (checkAll scope heap args >>= fun targs =>
            pure (.call ⟨p, some (callType owner n false (targs.map Expr.type)).1, some (.method owner),
              some (callType owner n false (targs.map Expr.type)).2, none⟩ t n targs))
          (checkAll scope heap (Expr.atStartAll args) >>= fun targs =>
            pure (.call ⟨.start, some (callType owner n false (targs.map Expr.type)).1, some (.method owner),
              some (callType owner n false (targs.map Expr.type)).2, none⟩ t.unplaced n targs)) := by
        refine (agree_checkAll args).bind fun targs => ?_
        rw [Expr.map_type_unplacedAll]
        rfl
      dsimp only
      rw [Expr.type_unplaced]
      cases t.type with
      | prim q => rfl
      | _ => exact hargs _
  | .thisCall p n args => by
    change Agree _ _ (check scope heap (.thisCall .start n (Expr.atStartAll args)))
    rw [check, check]
    cases scope.this with
    | none => rfl
    | some this =>
      refine (agree_checkAll args).bind fun targs => ?_
      rw [Expr.map_type_unplacedAll]
      rfl
  | .index p array place => by
    change Agree _ _ (check scope heap (.index .start array.atStart place.atStart))
    rw [check, check]
    refine (agree_check array).bind fun ta => (agree_check place).bind fun tp => ?_
    rw [Expr.type_unplaced, Expr.type_unplaced]
    exact ((notes_indexType _ _).agree p).bind fun note => rfl
  | .newObject p t args => by
    change Agree _ _ (check scope heap (.newObject .start { t with position := .start } (Expr.atStartAll args)))
    rw [check, check]
    exact (agree_checkAll args).bind fun targs => rfl
  | .newArray p t dims extra => by
    change Agree _ _ (check scope heap (.newArray .start { t with position := .start } (Expr.atStartAll dims) extra))
    rw [check, check]
    refine (agree_checkDimensions dims).bind fun tdims => ?_
    rw [Expr.length_unplacedAll, Expr.unplacedAll_eq_map, List.map_map, ← Expr.unplacedAll_eq_map]
    rfl
  | .unary p op operand => by
    change Agree _ _ (check scope heap (.unary .start op operand.atStart))
    rw [check, check]
    refine (agree_check operand).bind fun t => ?_
    rw [Expr.type_unplaced]
    exact ((notes_unaryType op _).agree p).bind fun note => rfl
  | .binary p op left right => by
    change Agree _ _ (check scope heap (.binary .start op left.atStart right.atStart))
    rw [check, check]
    refine (agree_check left).bind fun tl => (agree_check right).bind fun tr => ?_
    rw [Expr.type_unplaced, Expr.type_unplaced]
    exact ((notes_binaryType op _ _).agree p).bind fun note => rfl
  | .instanceOf p operand t => by
    change Agree _ _ (check scope heap (.instanceOf .start operand.atStart { t with position := .start }))
    rw [check, check]
    refine (agree_check operand).bind fun tx => ?_
    rw [Expr.type_unplaced]
    have hwritten : writtenType scope.resolver { t with position := .start } = writtenType scope.resolver t := rfl
    rw [hwritten]
    generalize writtenType scope.resolver t = target
    cases tx.type <;> cases target <;> rfl
  | .cast p t operand => by
    change Agree _ _ (check scope heap (.cast .start { t with position := .start } operand.atStart))
    rw [check, check]
    refine (agree_check operand).bind fun tx => ?_
    rw [Expr.type_unplaced]
    exact ((notes_castType _ _).agree p).bind fun note => rfl
  | .conditional p cond thenArm elseArm => by
    change Agree _ _ (check scope heap (.conditional .start cond.atStart thenArm.atStart elseArm.atStart))
    rw [check, check]
    refine (agree_check cond).bind fun tc => ?_
    dsimp only
    rw [Expr.type_unplaced]
    split
    · rfl
    · refine (agree_check thenArm).bind fun ty => (agree_check elseArm).bind fun tn => ?_
      rw [Expr.type_unplaced, Expr.type_unplaced]
      exact ((notes_conditionalType _ _ _).agree p).bind fun note => rfl
  | .assign p target value => by
    change Agree _ _ (check scope heap (.assign .start target.atStart value.atStart))
    rw [check.eq_def, check.eq_def]
    cases target with
    | name q n =>
      change Agree _ _ (match scope.local? heap n with | some v => _ | none => _)
      dsimp only
      cases scope.local? heap n with
      | some v => exact (agree_check value).bind fun tv => rfl
      | none => rfl
    | _ => rfl

theorem agree_checkAll : (es : List (Expr Position)) →
    Agree Expr.unplacedAll (checkAll scope heap es) (checkAll scope heap (Expr.atStartAll es))
  | [] => rfl
  | e :: rest => by
    change Agree _ _ (checkAll scope heap (e.atStart :: Expr.atStartAll rest))
    rw [checkAll, checkAll]
    exact (agree_check e).bind fun te => (agree_checkAll rest).bind fun tes => rfl

theorem agree_checkDimensions : (es : List (Expr Position)) →
    Agree Expr.unplacedAll (checkDimensions scope heap es) (checkDimensions scope heap (Expr.atStartAll es))
  | [] => rfl
  | e :: rest => by
    change Agree _ _ (checkDimensions scope heap (e.atStart :: Expr.atStartAll rest))
    rw [checkDimensions, checkDimensions]
    refine (agree_check e).bind fun te => ?_
    dsimp only
    rw [Expr.type_unplaced]
    split
    · rfl
    · exact (agree_checkDimensions rest).bind fun tes => rfl

end

/-- Expressions that are the same without their positions are checked alike. -/
lemma check_of_bare_eq (h : e.bare = e'.bare) (hte : check scope heap e = .ok te) :
    ∃ te', check scope heap e' = .ok te' ∧ te'.unplaced = te.unplaced := by
  have hstart : e.atStart = e'.atStart := by rw [Expr.atStart, h, Expr.atStart]
  have hchecked := (agree_check e).exists_ok hte
  rw [hstart] at hchecked
  obtain ⟨te', hte', heq⟩ := (agree_check e').exists_of_ok hchecked
  exact ⟨te', hte', heq.symm⟩

/-! ### Checked expressions without their notes -/

mutual

/-- The checker gives the expression that it was given, with notes. -/
theorem bare_of_check : (e : Expr Position) → {te : TypedExpr} → check scope heap e = .ok te → te.bare = e.bare
  | .literal _ _, te, h => by
    cases accepts_of_check h
    rfl
  | .name _ _, te, h => by
    cases accepts_of_check h <;> rfl
  | .this _, te, h => by
    cases accepts_of_check h
    rfl
  | .field _ target n, te, h => by
    cases accepts_of_check h with
    | staticField howner => exact congrArg (Expr.field () · n) (bare_map_untyped howner)
    | length _ htarget _ => exact congrArg (Expr.field () · _) (bare_of_check target htarget)
    | field _ htarget _ _ => exact congrArg (Expr.field () · n) (bare_of_check target htarget)
  | .call _ target n args, te, h => by
    cases accepts_of_check h with
    | staticCall howner hargs =>
      exact congrArg₂ (Expr.call () · n ·) (bare_map_untyped howner) (bare_of_checkAll args hargs)
    | call _ htarget _ hargs =>
      exact congrArg₂ (Expr.call () · n ·) (bare_of_check target htarget) (bare_of_checkAll args hargs)
  | .thisCall _ n args, te, h => by
    cases accepts_of_check h with
    | thisCall _ hargs => exact congrArg (Expr.thisCall () n) (bare_of_checkAll args hargs)
  | .index _ array place, te, h => by
    cases accepts_of_check h with
    | index harray hplace _ =>
      exact congrArg₂ (Expr.index ()) (bare_of_check array harray) (bare_of_check place hplace)
  | .newObject _ t args, te, h => by
    cases accepts_of_check h with
    | newObject hargs =>
      exact congrArg (Expr.newObject () { t with position := .start }) (bare_of_checkAll args hargs)
  | .newArray _ t dims extra, te, h => by
    cases accepts_of_check h with
    | newArray hdims =>
      exact congrArg (Expr.newArray () { t with position := .start } · extra)
        (bare_of_checkAll dims (checkAll_of_checkDimensions hdims))
  | .unary _ op operand, te, h => by
    cases accepts_of_check h with
    | unary hoperand _ => exact congrArg (Expr.unary () op) (bare_of_check operand hoperand)
  | .binary _ op left right, te, h => by
    cases accepts_of_check h with
    | binary hleft hright _ =>
      exact congrArg₂ (Expr.binary () op) (bare_of_check left hleft) (bare_of_check right hright)
  | .instanceOf _ operand t, te, h => by
    cases accepts_of_check h with
    | instanceOf hoperand _ _ =>
      exact congrArg (Expr.instanceOf () · { t with position := .start }) (bare_of_check operand hoperand)
  | .cast _ t operand, te, h => by
    cases accepts_of_check h with
    | cast hoperand _ =>
      exact congrArg (Expr.cast () { t with position := .start }) (bare_of_check operand hoperand)
  | .conditional _ cond thenArm elseArm, te, h => by
    cases accepts_of_check h with
    | conditional hcond _ hthen helse _ =>
      rw [Expr.bare, Expr.bare, bare_of_check cond hcond, bare_of_check thenArm hthen, bare_of_check elseArm helse]
  | .assign _ _ value, te, h => by
    cases accepts_of_check h with
    | assign _ hvalue => exact congrArg (Expr.assign () (.name () _)) (bare_of_check value hvalue)

theorem bare_of_checkAll : (es : List (Expr Position)) → {tes : List TypedExpr} →
    checkAll scope heap es = .ok tes → Expr.bareAll tes = Expr.bareAll es
  | [], tes, h => by
    rw [checkAll] at h
    obtain rfl := Except.ok.inj h
    rfl
  | e :: rest, tes, h => by
    obtain ⟨te, others, he, hothers, rfl⟩ := checkAll_cons_eq_ok h
    exact congrArg₂ List.cons (bare_of_check e he) (bare_of_checkAll rest hothers)

end

mutual

theorem usesThis_unplaced : (te : TypedExpr) → usesThis te.unplaced = usesThis te
  | .literal .. | .name .. | .this _ | .thisCall .. => rfl
  | .field _ target _ => usesThis_unplaced target
  | .call _ target _ args => congrArg₂ (· || ·) (usesThis_unplaced target) (anyUsesThis_unplaced args)
  | .index _ array place => congrArg₂ (· || ·) (usesThis_unplaced array) (usesThis_unplaced place)
  | .newObject _ _ args => anyUsesThis_unplaced args
  | .newArray _ _ dims _ => anyUsesThis_unplaced dims
  | .unary _ _ operand => usesThis_unplaced operand
  | .binary _ _ left right => congrArg₂ (· || ·) (usesThis_unplaced left) (usesThis_unplaced right)
  | .instanceOf _ operand _ => usesThis_unplaced operand
  | .cast _ _ operand => usesThis_unplaced operand
  | .conditional _ cond thenArm elseArm => congrArg₂ (· || ·)
      (congrArg₂ (· || ·) (usesThis_unplaced cond) (usesThis_unplaced thenArm)) (usesThis_unplaced elseArm)
  | .assign _ target value => congrArg₂ (· || ·) (usesThis_unplaced target) (usesThis_unplaced value)

theorem anyUsesThis_unplaced : (tes : List TypedExpr) → anyUsesThis (Expr.unplacedAll tes) = anyUsesThis tes
  | [] => rfl
  | te :: rest => congrArg₂ (· || ·) (usesThis_unplaced te) (anyUsesThis_unplaced rest)

end

end Typing

namespace Lowering

lemma paramTypes_unplaced (note : Typing) (args : List TypedExpr) :
    paramTypes note.unplaced (Expr.unplacedAll args) = paramTypes note args := by
  refine List.ext_getElem? fun place => ?_
  simp only [paramTypes, Expr.unplacedAll_eq_map, List.getElem?_mapIdx, List.getElem?_map, Option.map_map]
  refine congrArg (fun f => (args[place]?).map f) (funext fun arg => ?_)
  dsimp only [Function.comp]
  rw [Expr.type_unplaced]
  rfl

mutual

/-- Lowering does not look at positions. -/
theorem lower_unplaced : (te : TypedExpr) → lower scope heap te.unplaced = lower scope heap te
  | .literal note v => rfl
  | .name note n => rfl
  | .this note => rfl
  | .field note target n => by
    rw [Expr.unplaced, lower, lower, lower_unplaced target, Expr.type_unplaced]
    rfl
  | .call note target n args => by
    rw [Expr.unplaced, lower, lower, lower_unplaced target, lowerArgs_unplaced note 0 args, paramTypes_unplaced,
      Expr.type_unplaced]
    rfl
  | .thisCall note n args => by
    rw [Expr.unplaced, lower, lower, lowerArgs_unplaced note 0 args, paramTypes_unplaced]
    rfl
  | .index note array place => by
    rw [Expr.unplaced, lower, lower, lower_unplaced array, lower_unplaced place, Expr.type_unplaced]
    rfl
  | .newObject note t args => by
    rw [Expr.unplaced, lower, lower, lowerArgs_unplaced note 0 args]
    rfl
  | .newArray note t dims extra => by
    rw [Expr.unplaced, lower, lower, lowerArgs_unplaced note 0 dims]
    rfl
  | .unary note op operand => by
    rw [Expr.unplaced, lower, lower, lower_unplaced operand, Expr.type_unplaced]
    rfl
  | .binary note op left right => by
    have hleft : continues op left.unplaced = continues op left := by cases left <;> rfl
    rw [Expr.unplaced, lower, lower, lower_unplaced left, lower_unplaced right, Expr.type_unplaced,
      Expr.type_unplaced, chainBodies, chainBodies, hleft, Expr.type_unplaced]
    rfl
  | .instanceOf note operand t => by
    rw [Expr.unplaced, lower, lower, lower_unplaced operand]
    rfl
  | .cast note t operand => by
    rw [Expr.unplaced, lower, lower, lower_unplaced operand, Expr.type_unplaced]
    rfl
  | .conditional note cond thenArm elseArm => by
    rw [Expr.unplaced, lower, lower, lower_unplaced cond, lower_unplaced thenArm, lower_unplaced elseArm,
      Expr.type_unplaced, Expr.type_unplaced, Expr.type_unplaced]
    rfl
  | .assign note target value => by
    rw [Expr.unplaced, lower.eq_def, lower.eq_def]
    dsimp only
    rw [lower_unplaced value]
    cases target <;> rfl

theorem lowerArgs_unplaced (note : Typing) (place : Nat) : (args : List TypedExpr) →
    lowerArgs scope heap note.unplaced place (Expr.unplacedAll args) = lowerArgs scope heap note place args
  | [] => rfl
  | arg :: rest => by
    rw [Expr.unplacedAll, lowerArgs, lowerArgs, lower_unplaced arg, lowerArgs_unplaced note (place + 1) rest,
      Expr.type_unplaced]
    rfl

end

end Lowering

end PredicateTrace
