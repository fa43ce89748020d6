import PredicateTrace.Proofs.NamedLocals

/-!
# Locals that a predicate captures

A quoted predicate holds a binding for each captured local that its expression names, the one that the local had
when the predicate was quoted, and no other.
-/

namespace PredicateTrace

open Host (Heap)

variable {scope : Scope} {heap : Heap} {e : Expr Position} {te : TypedExpr} {n : String}

namespace Lowering

variable {α β : Type} {build : Build α} {next : α → Build β}

/-- A construction that leaves a recorded name recorded. -/
def Keeps (n : String) (build : Build α) : Prop :=
  ∀ b : Builder, n ∈ b.vars.map Var.name → n ∈ (build.run b).2.vars.map Var.name

/-- A construction that records a name. -/
def Records (n : String) (build : Build α) : Prop :=
  ∀ b : Builder, n ∈ (build.run b).2.vars.map Var.name

lemma Makes.keeps {fits : α → List Operand → Prop} (h : Makes scope heap build fits) : Keeps n build := by
  intro b hb
  obtain ⟨made, hvars, -⟩ := h b
  rw [hvars]
  exact List.map_subset Var.name (recordAll_subset made) hb

lemma keeps_emit (op : Op) : Keeps n (emit op) :=
  fun _ hb => hb

lemma keeps_pure (a : α) : Keeps n (pure a) :=
  fun _ hb => hb

lemma Keeps.bind (h : Keeps n build) (hnext : ∀ a, Keeps n (next a)) : Keeps n (build >>= next) :=
  fun b hb => hnext _ _ (h b hb)

lemma Records.bind (h : Records n build) (hnext : ∀ a, Keeps n (next a)) : Records n (build >>= next) :=
  fun b => hnext _ _ (h b)

lemma Records.behind (hnext : ∀ a, Records n (next a)) : Records n (build >>= next) :=
  fun _ => hnext _ _

lemma Records.inBlock (h : Records n build) : Records n (inBlock build) :=
  fun b => h ⟨b.vars, []⟩

lemma records_useVariable : Records n (useVariable scope heap n) := by
  intro b
  obtain ⟨v, hv, hname, hrun⟩ := run_useVariable scope heap n b
  rw [hrun]
  exact List.mem_map.mpr ⟨v, hv, hname⟩

lemma keeps_useVariable (m : String) : Keeps n (useVariable scope heap m) := by
  intro b hb
  obtain ⟨v, -, -, hrun⟩ := run_useVariable scope heap m b
  rw [hrun]
  exact List.map_subset Var.name (record_subset m) hb

lemma keeps_convert (x : Operand) (source : TypeRef) (target : Option Primitive) :
    Keeps n (convert x source target) := by
  unfold convert
  split
  · split
    · exact keeps_emit _
    · exact keeps_pure x
  · exact keeps_pure x

section Operands

variable {build : Build Operand}

lemma keeps_body (h : Keeps n build) (source : TypeRef) (target : Option Primitive) :
    Keeps n (body source target build) :=
  fun b hb => (h.bind fun x => keeps_convert x source target) ⟨b.vars, []⟩ hb

lemma Records.convert (h : Records n build) (source : TypeRef) (target : Option Primitive) :
    Records n (build >>= fun x => convert x source target) :=
  h.bind fun x => keeps_convert x source target

lemma Records.body (h : Records n build) (source : TypeRef) (target : Option Primitive) :
    Records n (body source target build) :=
  (h.convert source target).inBlock.bind fun _ => keeps_pure _

lemma Records.chainBodies (h : Records n build) (op : BinaryOperator) (left : TypedExpr) :
    Records n (chainBodies op left build) := by
  unfold Lowering.chainBodies
  split
  · refine h.inBlock.bind fun r => ?_
    split <;> exact keeps_pure _
  · exact (h.body left.type none).bind fun _ => keeps_pure _

end Operands

end Lowering

lemma Scope.isSome_local? : (scope.local? heap n).isSome = scope.isLocal n := by
  rw [local?, Option.isSome_map, isLocal]

namespace Typing

/-- What is read as the name of a type starts with no local. -/
lemma isLocal_of_typeOfName? {owner : TypeRef} (h : typeOfName? scope heap e = some owner) (hn : n ∈ e.names) :
    scope.isLocal n = false := by
  obtain ⟨parts, hparts, -⟩ := Option.bind_eq_some_iff.mp h
  clear h
  fun_induction nameParts? scope heap e generalizing parts with
  | case1 => cases hparts
  | case2 p m hvar =>
    obtain rfl : n = m := by simpa [Expr.names] using hn
    simp only [Scope.isVariable, Bool.or_eq_true, not_or, Bool.not_eq_true] at hvar
    exact hvar.1
  | case3 p target m ih =>
    obtain ⟨others, hothers, -⟩ := Option.map_eq_some_iff.mp hparts
    exact ih hn others hothers
  | case4 => cases hparts

end Typing

namespace Lowering

open Typing

lemma keeps_lower (h : check scope heap e = .ok te) : Keeps n (lower scope heap te) :=
  (spans_lower (resolved_of_check e h)).keeps

lemma keeps_lowerArgs {args : List TypedExpr} (h : ∀ arg ∈ args, arg.Resolved scope heap) (note : Typing)
    (place : Nat) : Keeps n (lowerArgs scope heap note place args) :=
  (spans_lowerArgs note place fun arg harg => spans_lower (h arg harg)).keeps

/-- A name is recorded by the first argument or by the others. -/
lemma records_cons {arg : TypedExpr} {rest : List TypedExpr} (note : Typing) (place : Nat)
    (hrest : ∀ arg ∈ rest, arg.Resolved scope heap)
    (h : Records n (lower scope heap arg) ∨ Records n (lowerArgs scope heap note (place + 1) rest)) :
    Records n (lowerArgs scope heap note place (arg :: rest)) := by
  rw [lowerArgs]
  rcases h with h | h
  · exact h.bind fun x => (keeps_convert x _ _).bind fun _ =>
      (keeps_lowerArgs hrest note _).bind fun _ => keeps_pure _
  · exact .behind fun _ => .behind fun _ => h.bind fun _ => keeps_pure _

mutual

/-- Lowering records every local that an expression names. -/
theorem records_lower (hlocal : scope.isLocal n = true) : (e : Expr Position) → {te : TypedExpr} →
    check scope heap e = .ok te → n ∈ e.names → Records n (lower scope heap te)
  | .literal .., te, h, hn => by simp [Expr.names] at hn
  | .this _, te, h, hn => by simp [Expr.names] at hn
  | .name _ m, te, h, hn => by
    obtain rfl : n = m := by simpa [Expr.names] using hn
    cases accepts_of_check h with
    | «local» hv =>
      rw [lower]
      exact records_useVariable.bind fun _ => keeps_emit _
    | thisField hnone _ _ =>
      rw [← @Scope.isSome_local? scope heap, hnone] at hlocal
      cases hlocal
  | .field _ target _, te, h, hn => by
    cases accepts_of_check h with
    | staticField howner =>
      rw [isLocal_of_typeOfName? howner hn] at hlocal
      cases hlocal
    | length _ htarget _ =>
      rw [lower]
      exact (records_lower hlocal target htarget hn).bind fun _ => keeps_emit _
    | field _ htarget _ _ =>
      rw [lower]
      exact (records_lower hlocal target htarget hn).bind fun _ => keeps_emit _
  | .call _ target _ args, te, h, hn => by
    cases accepts_of_check h with
    | staticCall howner hargs =>
      rw [lower]
      rcases List.mem_append.mp hn with hn | hn
      · rw [isLocal_of_typeOfName? howner hn] at hlocal
        cases hlocal
      · exact (records_lowerArgs hlocal _ _ args hargs hn).bind fun _ => keeps_emit _
    | call _ htarget _ hargs =>
      rw [lower]
      rcases List.mem_append.mp hn with hn | hn
      · exact (records_lower hlocal target htarget hn).bind fun _ =>
          (keeps_lowerArgs (resolved_of_checkAll args hargs) _ _).bind fun _ => keeps_emit _
      · exact .behind fun _ => (records_lowerArgs hlocal _ _ args hargs hn).bind fun _ => keeps_emit _
  | .thisCall _ _ args, te, h, hn => by
    cases accepts_of_check h with
    | thisCall _ hargs =>
      rw [lower]
      exact (records_lowerArgs hlocal _ _ args hargs hn).bind fun _ => keeps_emit _
  | .index _ array place, te, h, hn => by
    cases accepts_of_check h with
    | index harray hplace _ =>
      rw [lower]
      rcases List.mem_append.mp hn with hn | hn
      · exact (records_lower hlocal array harray hn).bind fun _ =>
          (keeps_lower hplace).bind fun x => (keeps_convert x _ _).bind fun _ => keeps_emit _
      · exact .behind fun _ => (records_lower hlocal place hplace hn).bind fun x =>
          (keeps_convert x _ _).bind fun _ => keeps_emit _
  | .newObject _ _ args, te, h, hn => by
    cases accepts_of_check h with
    | newObject hargs =>
      rw [lower]
      exact (records_lowerArgs hlocal _ _ args hargs hn).bind fun _ => keeps_emit _
  | .newArray _ _ dims _, te, h, hn => by
    cases accepts_of_check h with
    | newArray hdims =>
      rw [lower]
      exact (records_lowerArgs hlocal _ _ dims (checkAll_of_checkDimensions hdims) hn).bind fun _ => keeps_emit _
  | .unary _ op operand, te, h, hn => by
    cases accepts_of_check h with
    | unary hoperand _ =>
      rw [lower]
      exact (records_lower hlocal operand hoperand hn).bind fun x => (keeps_convert x _ _).bind fun y =>
        (@spans_unaryOperation scope heap _ op y).keeps
  | .binary _ op left right, te, h, hn => by
    cases accepts_of_check h with
    | binary hleft hright _ =>
      rw [lower]
      split
      · rcases List.mem_append.mp hn with hn | hn
        · exact ((records_lower hlocal left hleft hn).chainBodies op _).bind fun _ =>
            (keeps_body (keeps_lower hright) _ _).bind fun _ => keeps_emit _
        · exact .behind fun _ => ((records_lower hlocal right hright hn).body _ _).bind fun _ => keeps_emit _
      · next hhead =>
        rcases List.mem_append.mp hn with hn | hn
        · exact (records_lower hlocal left hleft hn).bind fun x => (keeps_convert x _ _).bind fun y =>
            (keeps_lower hright).bind fun z => (keeps_convert z _ _).bind fun w =>
              (@spans_operation scope heap _ op hhead y w).keeps
        · exact .behind fun _ => .behind fun y => (records_lower hlocal right hright hn).bind fun z =>
            (keeps_convert z _ _).bind fun w => (@spans_operation scope heap _ op hhead y w).keeps
  | .instanceOf _ operand _, te, h, hn => by
    cases accepts_of_check h with
    | instanceOf hoperand _ _ =>
      rw [lower]
      exact (records_lower hlocal operand hoperand hn).bind fun _ => keeps_emit _
  | .cast _ _ operand, te, h, hn => by
    cases accepts_of_check h with
    | cast hoperand _ =>
      rw [lower]
      exact (records_lower hlocal operand hoperand hn).bind fun x => (@spans_castOperation scope heap _ _ x).keeps
  | .conditional _ cond thenArm elseArm, te, h, hn => by
    cases accepts_of_check h with
    | conditional hcond _ hthen helse _ =>
      rw [lower]
      rcases List.mem_append.mp hn with hn | hn
      · rcases List.mem_append.mp hn with hn | hn
        · exact ((records_lower hlocal cond hcond hn).body _ _).bind fun _ =>
            (keeps_body (keeps_lower hthen) _ _).bind fun _ =>
              (keeps_body (keeps_lower helse) _ _).bind fun _ => keeps_emit _
        · exact .behind fun _ => ((records_lower hlocal thenArm hthen hn).body _ _).bind fun _ =>
            (keeps_body (keeps_lower helse) _ _).bind fun _ => keeps_emit _
      · exact .behind fun _ => .behind fun _ => ((records_lower hlocal elseArm helse hn).body _ _).bind fun _ =>
          keeps_emit _
  | .assign _ target value, te, h, hn => by
    cases accepts_of_check h with
    | assign _ hvalue =>
      rw [lower]
      rcases List.mem_append.mp hn with hn | hn
      · obtain rfl : n = _ := List.mem_singleton.mp hn
        exact .behind fun _ => records_useVariable.bind fun _ => keeps_emit _
      · exact (records_lower hlocal value hvalue hn).bind fun _ =>
          (keeps_useVariable _).bind fun _ => keeps_emit _

theorem records_lowerArgs (hlocal : scope.isLocal n = true) (note : Typing) (place : Nat) :
    (es : List (Expr Position)) → {args : List TypedExpr} → checkAll scope heap es = .ok args →
    n ∈ Expr.namesOf es → Records n (lowerArgs scope heap note place args)
  | [], args, h, hn => by simp [Expr.namesOf] at hn
  | e :: rest, args, h, hn => by
    obtain ⟨t, ts, he, hrest, rfl⟩ := checkAll_cons_eq_ok h
    exact records_cons note place (resolved_of_checkAll rest hrest) ((List.mem_append.mp hn).imp
      (records_lower hlocal e he) (records_lowerArgs hlocal note (place + 1) rest hrest))

end

end Lowering

end PredicateTrace
