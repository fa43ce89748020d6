import Mathlib.Data.List.Induction
import Mathlib.Data.List.Nodup
import PredicateTrace.Proofs.LoweredParts

/-!
# Lowered predicates

A predicate that was checked is lowered to a tree whose blocks list the ops of what they give, and whose bindings are
those of the variables and of the receiver that occur in the tree.
-/

namespace PredicateTrace

open Host (Heap)

variable {scope : Scope} {heap : Heap} {e : Expr Position} {te : TypedExpr}

namespace Lowering

/-- A table that numbers names in the order in which they were met, each of them once. -/
structure Numbered (vars : List Var) (names : List String) : Prop where
  name_eq : vars.map Var.name = names.eraseDups
  nodup : (vars.map Var.name).Nodup
  slot_eq : vars.map Var.slot = List.range vars.length

lemma Numbered.record {vars : List Var} (h : Numbered vars names) (name : String) :
    Numbered (record scope heap vars name) (names ++ [name]) := by
  have hmem : vars.any (·.name == name) = true ↔ name ∈ names := by
    have hnames : name ∈ vars.map Var.name ↔ name ∈ names := by rw [h.name_eq, List.mem_eraseDups]
    rw [← hnames]
    simp
  unfold Lowering.record
  split
  · next hknown =>
    have hold : [name].removeAll names = [] := by simpa [List.removeAll] using hmem.mp hknown
    exact ⟨by rw [h.name_eq, List.eraseDups_append, hold]; simp, h.nodup, h.slot_eq⟩
  · next hfresh =>
    have hnew : name ∉ names := fun hname => hfresh (hmem.mpr hname)
    have hone : [name].removeAll names = [name] := by simpa [List.removeAll] using hnew
    refine ⟨?_, ?_, ?_⟩
    · rw [List.map_append, h.name_eq, List.eraseDups_append, hone]
      rfl
    · rw [List.map_append]
      refine List.nodup_append.mpr ⟨h.nodup, by simp, fun a ha b hb hab => hnew ?_⟩
      rw [h.name_eq, List.mem_eraseDups] at ha
      obtain rfl : b = name := List.mem_singleton.mp hb
      rwa [← hab]
    · rw [List.map_append, h.slot_eq, List.length_append, List.length_singleton, List.range_succ]
      rfl

lemma numbered_foldl (names : List String) : Numbered (names.foldl (record scope heap) []) names := by
  induction names using List.reverseRecOn with
  | nil => exact ⟨rfl, .nil, rfl⟩
  | append_singleton names name ih =>
    rw [List.foldl_append]
    exact ih.record name

lemma numbered_recordAll (scope : Scope) (heap : Heap) (x : Operand) :
    Numbered (recordAll scope heap [] x.parts) (x.vars.map Var.name) :=
  numbered_foldl _

end Lowering

/-- A quoted predicate is a closed tree with a given root: the blocks list the ops of what they give, and the bindings
are those of the variables and of the receiver that occur in the tree. -/
structure Quoted.ClosedTree (scope : Scope) (q : Quoted) (root : Operand) : Prop where
  lambda : q.op = .mk .lambda [] [.mk [.ending (q.captures.params.map Prod.fst) root.ops (.of .ret [root])]]
  bodies : ∀ op, .op op ∈ root.parts → ∀ body ∈ op.bodies, ∃ x, body.Yields x
  inner : ∀ op, .op op ∈ root.parts → op.head ≠ .ret ∧ op.head ≠ .yield
  vars : ∀ v, v ∈ q.captures.vars.map Prod.fst ↔ v ∈ root.vars
  oneVar : ∀ v ∈ root.vars, ∀ w ∈ root.vars, v.name = w.name → v = w
  order : q.captures.vars.map (fun entry => entry.1.name) = (root.vars.map Var.name).eraseDups
  slots : q.captures.vars.map (fun entry => entry.1.slot) = List.range q.captures.vars.length
  bound : ∀ entry ∈ q.captures.vars, ∃ c, scope.locals.lookup entry.1.name = some c ∧
    entry.2 = Lowering.quoteCapture c
  params : ∀ p, p ∈ q.captures.params.map Prod.fst ↔ .param p ∈ root.parts
  receiver : ∀ entry ∈ q.captures.params, entry.1 = Lowering.thisParameter scope ∧ scope.this = some entry.2

namespace Lowering

/-- What a predicate is made of: the value of its expression, the ops of its block, and the bindings of the variables
that were numbered and of the receiver that is used. -/
lemma quote_eq (scope : Scope) (heap : Heap) (te : TypedExpr) :
    quote scope heap te =
      let value := ((lower scope heap te).run ⟨[], []⟩).1
      let builder := ((lower scope heap te).run ⟨[], []⟩).2
      let params := (if Typing.usesThis te then scope.this else none).toList.map fun v => (thisParameter scope, v)
      ⟨.mk .lambda [] [.mk [.ending (params.map Prod.fst) builder.ops (.of .ret [value])]],
        ⟨builder.vars.map fun v => (v, quoteCapture ((scope.locals.lookup v.name).getD (.value .null))), params⟩⟩ := by
  unfold quote
  dsimp only
  cases (if Typing.usesThis te then scope.this else none) <;> rfl

/-- The variables of an operand are those that are in the table, once all of them were recorded. -/
lemma mem_recordAll_iff {x : Operand} (hmade : ∀ y ∈ x.parts, Made scope heap (recordAll scope heap [] x.parts) y)
    (v : Var) : v ∈ recordAll scope heap [] x.parts ↔ v ∈ x.vars := by
  have htable := numbered_recordAll scope heap x
  have hsubset : ∀ v ∈ x.vars, v ∈ recordAll scope heap [] x.parts := by
    intro v hv
    obtain ⟨y, hy, hvar⟩ := List.mem_filterMap.mp hv
    cases y with
    | op o => exact ((hmade _ hy).2.2 v hvar).1
    | param p => cases hvar
  refine ⟨fun hv => ?_, hsubset v⟩
  have hname : v.name ∈ x.vars.map Var.name := by
    rw [← List.mem_eraseDups, ← htable.name_eq]
    exact List.mem_map_of_mem hv
  obtain ⟨w, hw, hwv⟩ := List.mem_map.mp hname
  rwa [List.inj_on_of_nodup_map htable.nodup hv (hsubset w hw) hwv.symm]

lemma closedTree_quote (h : te.Resolved scope heap) : ∃ root, (quote scope heap te).ClosedTree scope root := by
  obtain ⟨_, _, hrun, hops, hshaped⟩ := emits_lower scope heap te ⟨[], []⟩
  obtain ⟨made, hvars, hmade, hparts, huses⟩ := spans_lower h ⟨[], []⟩
  have hquote := quote_eq scope heap te
  dsimp only at hquote
  generalize ((lower scope heap te).run ⟨[], []⟩).1 = root at *
  generalize ((lower scope heap te).run ⟨[], []⟩).2 = builder at *
  rw [List.nil_append] at hparts
  subst hparts
  have hbuilder : builder.ops = root.ops := by
    rw [hrun]
    exact hops
  rw [hvars] at hmade
  rw [hbuilder, hvars] at hquote
  have hlocal : ∀ v ∈ recordAll scope heap [] root.parts, (scope.local? heap v.name).isSome := by
    intro v hv
    obtain ⟨y, hy, hvar⟩ := List.mem_filterMap.mp ((mem_recordAll_iff hmade v).mp hv)
    cases y with
    | op o => exact ((hmade _ hy).2.2 v hvar).2
    | param p => cases hvar
  have htable := numbered_recordAll scope heap root
  refine ⟨root, ?_⟩
  rw [hquote]
  constructor
  case lambda => rfl
  case bodies =>
    intro op hop
    exact (hshaped op (Operand.part_of_mem_parts root hshaped hop)).yields
  case inner => exact fun op hop => ⟨(hmade _ hop).1, (hmade _ hop).2.1⟩
  case vars =>
    intro v
    rw [← mem_recordAll_iff hmade v, List.map_map]
    simp
  case oneVar =>
    intro v hv w hw hname
    exact List.inj_on_of_nodup_map htable.nodup ((mem_recordAll_iff hmade v).mpr hv)
      ((mem_recordAll_iff hmade w).mpr hw) hname
  case order =>
    rw [List.map_map, ← htable.name_eq]
    rfl
  case slots =>
    rw [List.map_map, List.length_map, ← htable.slot_eq]
    rfl
  case bound =>
    intro entry hentry
    obtain ⟨v, hv, rfl⟩ := List.mem_map.mp hentry
    have hlookup := hlocal v hv
    rw [Scope.local?, Option.isSome_map] at hlookup
    obtain ⟨c, hc⟩ := Option.isSome_iff_exists.mp hlookup
    exact ⟨c, hc, by rw [hc]; rfl⟩
  case params =>
    intro p
    constructor
    · intro hp
      obtain ⟨entry, hentry, rfl⟩ := List.mem_map.mp hp
      obtain ⟨v, hv, rfl⟩ := List.mem_map.mp hentry
      by_cases hthis : Typing.usesThis te = true
      · exact huses.mpr hthis
      · rw [if_neg hthis] at hv
        cases hv
    · intro hp
      obtain ⟨rfl, hbound⟩ := hmade _ hp
      obtain ⟨v, hv⟩ := Option.isSome_iff_exists.mp hbound
      rw [if_pos (huses.mp hp), hv]
      simp
  case receiver =>
    intro entry hentry
    obtain ⟨v, hv, rfl⟩ := List.mem_map.mp hentry
    refine ⟨rfl, ?_⟩
    by_cases hthis : Typing.usesThis te = true
    · rw [if_pos hthis] at hv
      exact Option.mem_toList.mp hv
    · rw [if_neg hthis] at hv
      cases hv

end Lowering

/-- Lowering finds everything that it looks up in an expression which the checker accepts, and gives a closed tree. -/
theorem lowered_closed (h : Typing.check scope heap e = .ok te) :
    te.Resolved scope heap ∧ ∃ root, (Lowering.quote scope heap te).ClosedTree scope root :=
  ⟨Typing.resolved_of_check e h, Lowering.closedTree_quote (Typing.resolved_of_check e h)⟩

/-- The predicate `b && this == null` has one variable and the receiver. -/
theorem lowered_closed_of_conjunction :
    let scope : Scope := ⟨[("x", .value (.hostInt 5)), ("b", .value (.bool true))], some (.str "s"), .empty⟩
    let e : Expr Position := .binary ⟨1, 3⟩ .conjunction (.name ⟨1, 1⟩ "b")
      (.binary ⟨1, 11⟩ (.compare .eq) (.this ⟨1, 6⟩) (.literal ⟨1, 14⟩ .null))
    let te : TypedExpr := .binary (.converting ⟨1, 3⟩ (.prim .boolean) [none, none]) .conjunction
      (.name (.named ⟨1, 1⟩ (.prim .boolean) .local) "b")
      (.binary (.converting ⟨1, 11⟩ (.prim .boolean) [none, none]) (.compare .eq)
        (.this (.plain ⟨1, 6⟩ .string)) (.literal (.plain ⟨1, 14⟩ .null) .null))
    Typing.check scope Heap.empty e = .ok te ∧ te.Resolved scope Heap.empty ∧
      ∃ root, (Lowering.quote scope Heap.empty te).ClosedTree scope root := by
  intro scope e te
  have hcheck : Typing.check scope Heap.empty e = .ok te := rfl
  exact ⟨hcheck, lowered_closed hcheck⟩

end PredicateTrace
