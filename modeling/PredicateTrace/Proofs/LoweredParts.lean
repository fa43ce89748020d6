import PredicateTrace.Proofs.LoweredShape
import PredicateTrace.Proofs.LoweringInputs

/-!
# What lowered trees are made of

The operands inside of a tree, in the order in which lowering builds them, with the variables and parameters among
them. Lowering numbers the variables in this order, and it uses the parameter that stands for `this` where the checked
expression refers to it. What a part of the construction makes is put together from what its parts make.
-/

namespace PredicateTrace

open Host (Heap)

/-- The variable that an op loads or stores. -/
def Head.var? : Head → Option Var
  | .varLoad v | .varStore v => some v
  | _ => none

mutual

/-- The operands inside of an operand, each after those that it is made of. -/
def Operand.parts : Operand → List Operand
  | .op op => op.parts
  | .param p => [.param p]

/-- The operands inside of an op: its operands, what its bodies give, and the op itself. -/
def Op.parts : Op → List Operand
  | .mk head operands bodies => Operand.partsOf operands ++ Op.bodyParts bodies ++ [.op (.mk head operands bodies)]

def Operand.partsOf : List Operand → List Operand
  | [] => []
  | x :: rest => x.parts ++ Operand.partsOf rest

def Op.bodyParts : List Body → List Operand
  | [] => []
  | body :: rest => body.parts ++ Op.bodyParts rest

def Body.parts : Body → List Operand
  | .mk blocks => Body.blockParts blocks

def Body.blockParts : List Block → List Operand
  | [] => []
  | block :: rest => block.parts ++ Body.blockParts rest

/-- The operands inside of what ends a block. -/
def Block.parts : Block → List Operand
  | .empty _ => []
  | .ending _ _ (.mk _ operands bodies) => Operand.partsOf operands ++ Op.bodyParts bodies

end

/-- The variable that an operand loads or stores. -/
def Operand.var? : Operand → Option Var
  | .op o => o.head.var?
  | .param _ => none

/-- The variables that are loaded or stored inside of an operand, in the order in which it is built. -/
def Operand.vars (x : Operand) : List Var :=
  x.parts.filterMap Operand.var?

lemma Operand.partsOf_append (xs ys : List Operand) :
    Operand.partsOf (xs ++ ys) = Operand.partsOf xs ++ Operand.partsOf ys := by
  induction xs with
  | nil => rfl
  | cons x rest ih => rw [List.cons_append, Operand.partsOf, Operand.partsOf, ih, List.append_assoc]

lemma Op.bodyParts_append (bodies others : List Body) :
    Op.bodyParts (bodies ++ others) = Op.bodyParts bodies ++ Op.bodyParts others := by
  induction bodies with
  | nil => rfl
  | cons body rest ih => rw [List.cons_append, Op.bodyParts, Op.bodyParts, ih, List.append_assoc]

lemma Operand.parts_of (head : Head) (xs : List Operand) :
    (Operand.op (.of head xs)).parts = Operand.partsOf xs ++ [.op (.of head xs)] := by
  rw [Op.of, Operand.parts, Op.parts, Op.bodyParts, List.append_nil]

lemma Operand.parts_bodies (head : Head) (bodies : List Body) :
    (Operand.op (.mk head [] bodies)).parts = Op.bodyParts bodies ++ [.op (.mk head [] bodies)] := by
  rw [Operand.parts, Op.parts, Operand.partsOf, List.nil_append]

lemma Operand.partsOf_one (x : Operand) : Operand.partsOf [x] = x.parts := by
  rw [Operand.partsOf, Operand.partsOf, List.append_nil]

lemma Operand.partsOf_two (x y : Operand) : Operand.partsOf [x, y] = x.parts ++ y.parts := by
  rw [Operand.partsOf, Operand.partsOf_one]

lemma Body.Yields.parts_eq {body : Body} {x : Operand} (h : body.Yields x) : body.parts = x.parts := by
  rw [h, Body.parts, Body.blockParts, Body.blockParts, List.append_nil, Op.of, Block.parts, Operand.partsOf_one,
    Op.bodyParts, List.append_nil]

mutual

/-- What is inside of a well-shaped operand is a part of it. -/
theorem Operand.part_of_mem_parts : (x : Operand) → {y : Operand} → x.WellShaped → y ∈ x.parts → Operand.Part y x
  | .param p, y, _, h => by
    obtain rfl := List.mem_singleton.mp h
    exact .refl _
  | .op (.mk head operands bodies), y, hx, h => by
    rw [Operand.parts, Op.parts, List.mem_append, List.mem_append, List.mem_singleton] at h
    rcases h with (h | h) | rfl
    · exact Operand.part_of_mem_partsOf operands (fun z hz => hz) hx h
    · exact Op.part_of_mem_bodyParts bodies (fun b hb => hb) hx h
    · exact .refl _
termination_by structural x => x

theorem Operand.part_of_mem_partsOf : (xs : List Operand) → {op : Op} → {y : Operand} → xs ⊆ op.operands →
    (Operand.op op).WellShaped → y ∈ Operand.partsOf xs → Operand.Part y (.op op)
  | [], op, y, _, _, h => by
    rw [Operand.partsOf] at h
    cases h
  | x :: rest, op, y, hxs, hop, h => by
    obtain ⟨hx, hrest⟩ := List.cons_subset.mp hxs
    rw [Operand.partsOf] at h
    rcases List.mem_append.mp h with h | h
    · exact .operand hx (Operand.part_of_mem_parts x (hop.of_part (.operand hx (.refl x))) h)
    · exact Operand.part_of_mem_partsOf rest hrest hop h
termination_by structural xs => xs

theorem Op.part_of_mem_bodyParts : (bodies : List Body) → {op : Op} → {y : Operand} → bodies ⊆ op.bodies →
    (Operand.op op).WellShaped → y ∈ Op.bodyParts bodies → Operand.Part y (.op op)
  | [], op, y, _, _, h => by
    rw [Op.bodyParts] at h
    cases h
  | body :: rest, op, y, hbodies, hop, h => by
    obtain ⟨hbody, hrest⟩ := List.cons_subset.mp hbodies
    rw [Op.bodyParts] at h
    rcases List.mem_append.mp h with h | h
    · obtain ⟨x, hyield⟩ := (hop op (.refl _)).yields body hbody
      have hx := hop.of_part (.yielded hbody hyield.yielded?_eq (.refl x))
      exact .yielded hbody hyield.yielded?_eq (Body.part_of_mem_parts body hyield hx h)
    · exact Op.part_of_mem_bodyParts rest hrest hop h
termination_by structural bodies => bodies

theorem Body.part_of_mem_parts : (body : Body) → {x y : Operand} → body.Yields x → x.WellShaped → y ∈ body.parts →
    Operand.Part y x
  | .mk [.ending _ _ (.mk _ [z] _)], x, y, hyield, hx, h => by
    rw [hyield.parts_eq] at h
    obtain rfl : z = x := by
      cases hyield
      rfl
    exact Operand.part_of_mem_parts z hx h
  | .mk [], _, _, hyield, _, _ => by cases hyield
  | .mk [.empty _], _, _, hyield, _, _ => by cases hyield
  | .mk [.ending _ _ (.mk _ [] _)], _, _, hyield, _, _ => by cases hyield
  | .mk [.ending _ _ (.mk _ (_ :: _ :: _) _)], _, _, hyield, _, _ => by cases hyield
  | .mk (_ :: _ :: _), _, _, hyield, _, _ => by cases hyield
termination_by structural body => body

end

namespace Lowering

variable {scope : Scope} {heap : Heap} {α β : Type} {build : Build α} {next : α → Build β} {vars : List Var}
  {fits fits' : α → List Operand → Prop} {parts : α → List Operand} {parts' : β → List Operand}
  {before : List Operand} {uses uses' : Bool}

/-! ### Tables of variables -/

/-- A table of variables after a name was met. -/
def record (scope : Scope) (heap : Heap) (vars : List Var) (name : String) : List Var :=
  if vars.any (·.name == name) then vars
  else vars ++ [⟨name, vars.length, ((scope.local? heap name).getD .null).staticType⟩]

/-- A table of variables after some operands were built. -/
def recordAll (scope : Scope) (heap : Heap) (vars : List Var) (made : List Operand) : List Var :=
  ((made.filterMap Operand.var?).map Var.name).foldl (record scope heap) vars

lemma recordAll_append (made more : List Operand) :
    recordAll scope heap vars (made ++ more) = recordAll scope heap (recordAll scope heap vars made) more := by
  simp [recordAll]

lemma record_subset (name : String) : vars ⊆ record scope heap vars name := by
  unfold record
  split
  · exact List.Subset.refl vars
  · exact List.subset_append_left vars _

lemma recordAll_subset (made : List Operand) : vars ⊆ recordAll scope heap vars made := by
  unfold recordAll
  generalize (made.filterMap Operand.var?).map Var.name = names
  induction names generalizing vars with
  | nil => exact List.Subset.refl vars
  | cons name rest ih => exact List.Subset.trans (record_subset name) ih

lemma run_useVariable (scope : Scope) (heap : Heap) (name : String) (b : Builder) :
    ∃ v ∈ record scope heap b.vars name, v.name = name ∧
      (useVariable scope heap name).run b = (v, ⟨record scope heap b.vars name, b.ops⟩) := by
  unfold record
  obtain ⟨v, hmem, hname, hrun⟩ | ⟨v, rfl, hnone, hrun⟩ := useVariable_cases scope heap name b
  · have hany : (b.vars.any fun v => v.name == name) = true :=
      List.any_eq_true.mpr ⟨v, hmem, by simpa using hname⟩
    rw [if_pos hany]
    exact ⟨v, hmem, hname, hrun⟩
  · have hany : ¬(b.vars.any fun v => v.name == name) = true := by simpa using hnone
    rw [if_neg hany]
    exact ⟨_, List.mem_append_right _ (List.mem_singleton_self _), rfl, hrun⟩

/-! ### What a part of the construction makes -/

/-- An operand that lowering makes: an op that does not end a block, with a variable of the table, if any, that
stands for a local; or the parameter that stands for `this`, which is bound. -/
def Made (scope : Scope) (heap : Heap) (vars : List Var) : Operand → Prop
  | .op o => o.head ≠ .ret ∧ o.head ≠ .yield ∧
      ∀ v, o.head.var? = some v → v ∈ vars ∧ (scope.local? heap v.name).isSome
  | .param p => p = thisParameter scope ∧ scope.this.isSome

/-- A construction makes some operands, one after the other, and records their variables. -/
def Makes (scope : Scope) (heap : Heap) (build : Build α) (fits : α → List Operand → Prop) : Prop :=
  ∀ b : Builder, ∃ made, (build.run b).2.vars = recordAll scope heap b.vars made ∧
    (∀ y ∈ made, Made scope heap (build.run b).2.vars y) ∧ fits (build.run b).1 made

lemma Made.mono {vars' : List Var} {y : Operand} (h : Made scope heap vars y) (hvars : vars ⊆ vars') :
    Made scope heap vars' y := by
  cases y with
  | param p => exact h
  | op o => exact ⟨h.1, h.2.1, fun v hv => ⟨hvars (h.2.2 v hv).1, (h.2.2 v hv).2⟩⟩

lemma Makes.mono (h : Makes scope heap build fits) (hfits : ∀ a made, fits a made → fits' a made) :
    Makes scope heap build fits' := by
  intro b
  obtain ⟨made, hvars, hmade, hfit⟩ := h b
  exact ⟨made, hvars, hmade, hfits _ _ hfit⟩

lemma Makes.bind {fits' : β → List Operand → Prop} (h : Makes scope heap build fits)
    (hnext : ∀ a made, fits a made → Makes scope heap (next a) fun c more => fits' c (made ++ more)) :
    Makes scope heap (build >>= next) fits' := by
  intro b
  obtain ⟨made, hvars, hmade, hfit⟩ := h b
  obtain ⟨more, hvars', hmore, hfit'⟩ := hnext _ made hfit (build.run b).2
  have hrun : (build >>= next).run b = (next (build.run b).1).run (build.run b).2 := rfl
  refine ⟨made ++ more, ?_, ?_, hfit'⟩
  · rw [hrun, hvars', hvars, recordAll_append]
  · rw [hrun]
    refine List.forall_mem_append.mpr ⟨fun y hy => (hmade y hy).mono ?_, hmore⟩
    rw [hvars']
    exact recordAll_subset more

lemma makes_pure (a : α) : Makes scope heap (pure a) fun a' made => a' = a ∧ made = [] :=
  fun b => ⟨[], rfl, by simp, rfl, rfl⟩

lemma makes_this (hthis : scope.this.isSome) :
    Makes scope heap (pure (Operand.param (thisParameter scope))) fun x made =>
      x = .param (thisParameter scope) ∧ made = [.param (thisParameter scope)] :=
  fun b => ⟨[.param (thisParameter scope)], rfl, by simpa [Made] using hthis, rfl, rfl⟩

lemma makes_emit (op : Op) (hret : op.head ≠ .ret) (hyield : op.head ≠ .yield) (hvar : op.head.var? = none) :
    Makes scope heap (emit op) fun x made => x = .op op ∧ made = [.op op] := by
  intro b
  refine ⟨[.op op], ?_, ?_, rfl, rfl⟩
  · have hnone : recordAll scope heap b.vars [.op op] = b.vars := by
      simp [recordAll, Operand.var?, hvar]
    rw [hnone]
    rfl
  · have hmade : Made scope heap ((emit op).run b).2.vars (.op op) :=
      ⟨hret, hyield, fun v hv => by rw [hvar] at hv; cases hv⟩
    simpa using hmade

/-- An op that loads or stores the variable with a name. -/
lemma makes_variable {name : String} {head : Var → Head} {xs : List Operand} (hlocal : (scope.local? heap name).isSome)
    (hhead : ∀ v, head v ≠ .ret ∧ head v ≠ .yield ∧ (head v).var? = some v) :
    Makes scope heap (useVariable scope heap name >>= fun v => emit (.of (head v) xs)) fun x made =>
      ∃ v, x = .op (.of (head v) xs) ∧ made = [.op (.of (head v) xs)] := by
  intro b
  obtain ⟨v, hmem, hname, hrun⟩ := run_useVariable scope heap name b
  have hresult : (useVariable scope heap name >>= fun v => emit (.of (head v) xs)).run b =
      (.op (.of (head v) xs), ⟨record scope heap b.vars name, b.ops ++ [.of (head v) xs]⟩) := by
    rw [StateT.run_bind, hrun]
    rfl
  rw [hresult]
  have hvar : (Operand.op (.of (head v) xs)).var? = some v := (hhead v).2.2
  refine ⟨[.op (.of (head v) xs)], ?_, ?_, v, rfl, rfl⟩
  · simp [recordAll, hvar, hname]
  · have hmade : Made scope heap (record scope heap b.vars name) (.op (.of (head v) xs)) := by
      refine ⟨(hhead v).1, (hhead v).2.1, fun w hw => ?_⟩
      obtain rfl : v = w := Option.some.inj ((hhead v).2.2.symm.trans hw)
      exact ⟨hmem, by rw [hname]; exact hlocal⟩
    simpa using hmade

lemma Makes.inBlock (h : Makes scope heap build fits) :
    Makes scope heap (inBlock build) fun r made => fits r.1 made :=
  fun b => h ⟨b.vars, []⟩

/-- What was made last can go when it has no variable. -/
lemma Makes.forget (h : Makes scope heap build fits)
    (hlast : ∀ a made, fits a made → ∃ kept y, made = kept ++ [y] ∧ y.var? = none ∧ fits' a kept) :
    Makes scope heap build fits' := by
  intro b
  obtain ⟨made, hvars, hmade, hfit⟩ := h b
  obtain ⟨kept, y, rfl, hy, hfit'⟩ := hlast _ made hfit
  refine ⟨kept, ?_, (List.forall_mem_append.mp hmade).1, hfit'⟩
  rw [hvars, recordAll_append]
  simp [recordAll, hy]

/-! ### What a part of the construction adds -/

/-- A construction adds to the parts that were there before those of what it gives, and uses `this` or not. -/
def Spans (scope : Scope) (heap : Heap) (parts : α → List Operand) (before : List Operand) (uses : Bool)
    (build : Build α) : Prop :=
  Makes scope heap build fun a made =>
    parts a = before ++ made ∧ (.param (thisParameter scope) ∈ made ↔ uses = true)

lemma spans_pure {a : α} (h : parts a = before) : Spans scope heap parts before false (pure a) :=
  (makes_pure a).mono fun a' made ⟨ha, hmade⟩ => by
    subst ha hmade
    exact ⟨by rw [h, List.append_nil], by simp⟩

lemma Spans.bind (h : Spans scope heap parts before uses build)
    (hnext : ∀ a, Spans scope heap parts' (parts a) uses' (next a)) :
    Spans scope heap parts' before (uses || uses') (build >>= next) := by
  refine Makes.bind h fun a made ⟨hparts, huses⟩ => (hnext a).mono fun c more ⟨hparts', huses'⟩ => ⟨?_, ?_⟩
  · rw [hparts', hparts, List.append_assoc]
  · rw [List.mem_append, huses, huses', Bool.or_eq_true]

/-- What was there before other parts stays there. -/
lemma Spans.behind (h : Spans scope heap parts before uses build) (first : List Operand) :
    Spans scope heap (fun a => first ++ parts a) (first ++ before) uses build :=
  h.mono fun a made ⟨hparts, huses⟩ => ⟨by simp [hparts], huses⟩

lemma spans_emit {head : Head} {xs : List Operand} (hret : head ≠ .ret) (hyield : head ≠ .yield)
    (hvar : head.var? = none) : Spans scope heap Operand.parts (Operand.partsOf xs) false (emit (.of head xs)) :=
  (makes_emit (.of head xs) hret hyield hvar).mono fun y made ⟨hy, hmade⟩ => by
    subst hy hmade
    exact ⟨Operand.parts_of head xs, by simp⟩

lemma spans_leaf {head : Head} (hret : head ≠ .ret) (hyield : head ≠ .yield) (hvar : head.var? = none) :
    Spans scope heap Operand.parts [] false (emit (.leaf head)) :=
  @spans_emit scope heap head [] hret hyield hvar

lemma spans_this (hthis : scope.this.isSome) :
    Spans scope heap Operand.parts [] true (pure (.param (thisParameter scope))) :=
  (makes_this hthis).mono fun x made ⟨hx, hmade⟩ => by
    subst hx hmade
    exact ⟨rfl, by simp⟩

lemma spans_variable {name : String} {head : Var → Head} {xs : List Operand}
    (hlocal : (scope.local? heap name).isSome)
    (hhead : ∀ v, head v ≠ .ret ∧ head v ≠ .yield ∧ (head v).var? = some v) :
    Spans scope heap Operand.parts (Operand.partsOf xs) false
      (useVariable scope heap name >>= fun v => emit (.of (head v) xs)) :=
  (makes_variable hlocal hhead).mono fun x made ⟨v, hx, hmade⟩ => by
    subst hx hmade
    exact ⟨Operand.parts_of (head v) xs, by simp⟩

section Operands

variable {build : Build Operand}

/-- An op on one operand that is just built. -/
lemma Spans.emit_one {head : Head} (h : Spans scope heap Operand.parts before uses build) (hret : head ≠ .ret)
    (hyield : head ≠ .yield) (hvar : head.var? = none) :
    Spans scope heap Operand.parts before uses (build >>= fun x => emit (.of head [x])) := by
  rw [← Bool.or_false uses]
  refine h.bind fun x => ?_
  rw [← Operand.partsOf_one]
  exact spans_emit hret hyield hvar

/-- An op on one operand that was built before and on one that is just built. -/
lemma Spans.emit_two {head : Head} (h : Spans scope heap Operand.parts [] uses build) (x : Operand)
    (hret : head ≠ .ret) (hyield : head ≠ .yield) (hvar : head.var? = none) :
    Spans scope heap Operand.parts x.parts uses (build >>= fun y => emit (.of head [x, y])) := by
  have hbehind := h.behind x.parts
  rw [List.append_nil] at hbehind
  rw [← Bool.or_false uses]
  refine hbehind.bind fun y => ?_
  rw [← Operand.partsOf_two]
  exact spans_emit hret hyield hvar

lemma spans_convert (x : Operand) (source : TypeRef) (target : Option Primitive) :
    Spans scope heap Operand.parts x.parts false (convert x source target) := by
  have hkeep : Spans scope heap Operand.parts x.parts false (pure x) := spans_pure rfl
  cases target with
  | none => exact hkeep
  | some target =>
    rw [convert]
    split
    · rw [← Operand.partsOf_one]
      exact spans_emit (by simp) (by simp) rfl
    · exact hkeep

lemma Spans.convert (h : Spans scope heap Operand.parts before uses build) (source : TypeRef)
    (target : Option Primitive) :
    Spans scope heap Operand.parts before uses (build >>= fun x => convert x source target) := by
  rw [← Bool.or_false uses]
  exact h.bind fun x => spans_convert x source target

lemma Spans.body (h : Spans scope heap Operand.parts [] uses build) (source : TypeRef) (target : Option Primitive) :
    Spans scope heap Body.parts [] uses (body source target build) := by
  refine Makes.bind (h.convert source target).inBlock fun r made ⟨hparts, huses⟩ => ?_
  refine (makes_pure _).mono fun b more ⟨hb, hmore⟩ => ?_
  subst hb hmore
  have hbody : (Body.mk [.ending [] r.2 (.of .yield [r.1])]).parts = r.1.parts := by
    rw [Body.parts, Body.blockParts, Body.blockParts, List.append_nil, Op.of, Block.parts, Operand.partsOf_one,
      Op.bodyParts, List.append_nil]
  rw [List.append_nil, hbody]
  exact ⟨hparts, huses⟩

/-- The op of the inner chain goes, and its bodies stay. -/
lemma spans_chainBodies {op : BinaryOperator} {head : Head} {left : TypedExpr} (hhead : chainHead? op = some head)
    (h : Spans scope heap Operand.parts [] uses (lower scope heap left)) :
    Spans scope heap Op.bodyParts [] uses (chainBodies op left (lower scope heap left)) := by
  unfold chainBodies
  split
  · next hcontinues =>
    have hchain : Makes scope heap (lower scope heap left) fun x made => ∃ bodies, x = .op (.mk head [] bodies) ∧
        made = Op.bodyParts bodies ∧ (.param (thisParameter scope) ∈ made ↔ uses = true) := by
      have hshape : Makes scope heap (lower scope heap left) fun x made => (∃ bodies, x = .op (.mk head [] bodies)) ∧
          x.parts = [] ++ made ∧ (.param (thisParameter scope) ∈ made ↔ uses = true) := by
        intro b
        obtain ⟨made, hvars, hmade, hfits⟩ := h b
        exact ⟨made, hvars, hmade, lower_chain hhead hcontinues b, hfits⟩
      refine hshape.forget fun x made ⟨⟨bodies, hx⟩, hparts, huses⟩ => ?_
      rw [hx, Operand.parts_bodies, List.nil_append] at hparts
      subst hparts
      refine ⟨Op.bodyParts bodies, _, rfl, ?_, bodies, hx, rfl, by simpa using huses⟩
      cases op <;> cases hhead <;> rfl
    refine Makes.bind hchain.inBlock fun r made ⟨bodies, hx, hmade, huses⟩ => ?_
    obtain ⟨x, ops⟩ := r
    dsimp only at hx ⊢
    subst hx
    refine (makes_pure _).mono fun bodies' more ⟨hbodies, hmore⟩ => ?_
    subst hbodies hmore hmade
    rw [List.append_nil]
    exact ⟨rfl, huses⟩
  · rw [← Bool.or_false uses]
    refine (h.body left.type none).bind fun body => spans_pure ?_
    rw [Op.bodyParts, Op.bodyParts, List.append_nil]

lemma spans_unaryOperation (type : TypeRef) (op : UnaryOperator) (x : Operand) :
    Spans scope heap Operand.parts x.parts false (unaryOperation type x op) := by
  have hone {head : Head} (hret : head ≠ .ret) (hyield : head ≠ .yield) (hvar : head.var? = none) :
      Spans scope heap Operand.parts x.parts false (emit (.of head [x])) := by
    rw [← Operand.partsOf_one]
    exact spans_emit hret hyield hvar
  cases op with
  | not => exact hone (by simp) (by simp) rfl
  | minus => exact hone (by simp) (by simp) rfl
  | plus => exact spans_pure rfl
  | complement =>
    have hones : Spans scope heap Operand.parts [] false (emit (allOnes type)) := by
      unfold allOnes
      split <;> exact spans_leaf (by simp) (by simp) rfl
    exact hones.emit_two x (by simp) (by simp) rfl

lemma spans_castOperation (source target : TypeRef) (x : Operand) :
    Spans scope heap Operand.parts x.parts false (castOperation source target x) := by
  have hone {head : Head} (hret : head ≠ .ret) (hyield : head ≠ .yield) (hvar : head.var? = none) :
      Spans scope heap Operand.parts x.parts false (emit (.of head [x])) := by
    rw [← Operand.partsOf_one]
    exact spans_emit hret hyield hvar
  unfold castOperation
  split
  · split
    · exact hone (by simp) (by simp) rfl
    · exact spans_convert x source _
  · exact hone (by simp) (by simp) rfl

/-- Arguments, each behind the ones before it. -/
lemma spans_lowerArgs (note : Typing) (place : Nat) {args : List TypedExpr}
    (h : ∀ arg ∈ args, Spans scope heap Operand.parts [] (Typing.usesThis arg) (lower scope heap arg)) :
    Spans scope heap Operand.partsOf [] (Typing.anyUsesThis args) (lowerArgs scope heap note place args) := by
  induction args generalizing place with
  | nil =>
    rw [lowerArgs]
    exact spans_pure rfl
  | cons arg rest ih =>
    obtain ⟨harg, hrest⟩ := List.forall_mem_cons.mp h
    rw [lowerArgs, ← bind_assoc, Typing.anyUsesThis]
    refine (harg.convert arg.type (conversionAt note place)).bind fun x => ?_
    have hothers := (ih (place + 1) hrest).behind x.parts
    rw [List.append_nil] at hothers
    rw [← Bool.or_false (Typing.anyUsesThis rest)]
    exact hothers.bind fun xs => spans_pure (by rw [Operand.partsOf])

/-- An op on some operands and on further ones that are just built. -/
lemma Spans.emit_all {args : Build (List Operand)} {head : Head} (h : Spans scope heap Operand.partsOf [] uses args)
    (first : List Operand) (hret : head ≠ .ret) (hyield : head ≠ .yield) (hvar : head.var? = none) :
    Spans scope heap Operand.parts (Operand.partsOf first) uses (args >>= fun xs => emit (.of head (first ++ xs))) := by
  have hbehind := h.behind (Operand.partsOf first)
  rw [List.append_nil] at hbehind
  rw [← Bool.or_false uses]
  refine hbehind.bind fun xs => ?_
  rw [← Operand.partsOf_append]
  exact spans_emit hret hyield hvar

lemma spans_operation (note : Typing) {op : BinaryOperator} (h : chainHead? op = none) (x y : Operand) :
    Spans scope heap Operand.parts (x.parts ++ y.parts) false (operation note op x y) := by
  rw [← Operand.partsOf_two]
  cases op with
  | arith a => exact spans_emit (by simp) (by simp) rfl
  | shift s => exact spans_emit (by simp) (by simp) rfl
  | compare c => exact spans_emit (by simp) (by simp) rfl
  | conjunction | disjunction => cases h

/-- An op with bodies and without operands. -/
lemma spans_emit_bodies {head : Head} (bodies : List Body) (hret : head ≠ .ret) (hyield : head ≠ .yield)
    (hvar : head.var? = none) :
    Spans scope heap Operand.parts (Op.bodyParts bodies) false (emit (.mk head [] bodies)) :=
  (makes_emit (.mk head [] bodies) hret hyield hvar).mono fun y made ⟨hy, hmade⟩ => by
    subst hy hmade
    exact ⟨Operand.parts_bodies head bodies, by simp⟩

/-- A body behind the ones before it. -/
lemma Spans.body_behind (h : Spans scope heap Operand.parts [] uses build) (source : TypeRef)
    (target : Option Primitive) (earlier : List Body) :
    Spans scope heap (fun b => Op.bodyParts (earlier ++ [b])) (Op.bodyParts earlier) uses
      (Lowering.body source target build) := by
  have hbehind := (h.body source target).behind (Op.bodyParts earlier)
  rw [List.append_nil] at hbehind
  refine Makes.mono hbehind fun b made ⟨hparts, huses⟩ => ⟨?_, huses⟩
  dsimp only at hparts ⊢
  rw [Op.bodyParts_append, Op.bodyParts, Op.bodyParts, List.append_nil]
  exact hparts

lemma usesThis_untypedName {e : TypedExpr} (h : e.IsUntypedName) : Typing.usesThis e = false := by
  cases e with
  | name note n =>
    have hrole : note.role = none := h
    rw [Typing.usesThis, hrole]
  | field note target n =>
    have htarget : target.IsUntypedName := h
    rw [Typing.usesThis, usesThis_untypedName htarget]
  | _ => cases h

/-- Lowering makes the parts of the operand that it gives. -/
theorem spans_lower {e : TypedExpr} (h : e.Resolved scope heap) :
    Spans scope heap Operand.parts [] (Typing.usesThis e) (lower scope heap e) := by
  induction h with
  | @literal note v htype =>
    rw [lower]
    cases v <;> exact spans_leaf (by simp) (by simp) rfl
  | @«local» note n htype hrole hlocal =>
    rw [lower, hrole, Typing.usesThis, hrole]
    exact @spans_variable scope heap n .varLoad [] hlocal fun v => ⟨by simp, by simp, rfl⟩
  | @thisField note n owner htype hrole hthis =>
    rw [lower, hrole, Typing.usesThis, hrole]
    exact (spans_this hthis).emit_one (by simp) (by simp) rfl
  | @this note htype hthis =>
    rw [lower, Typing.usesThis]
    exact spans_this hthis
  | @staticField note target n owner htype hrole htarget =>
    rw [lower, hrole, Typing.usesThis, usesThis_untypedName htarget]
    exact spans_leaf (by simp) (by simp) rfl
  | @field note target n htype hrole htarget ih =>
    rw [lower, Typing.usesThis]
    rcases hrole with hrole | ⟨owner, hrole⟩
    · rw [hrole]
      exact ih.emit_one (by simp) (by simp) rfl
    · rw [hrole]
      exact ih.emit_one (by simp) (by simp) rfl
  | @staticCall note target n args owner htype hrole htarget hargs ih =>
    rw [lower, hrole, Typing.usesThis, usesThis_untypedName htarget, Bool.false_or]
    exact (spans_lowerArgs note 0 ih).emit_all [] (by simp) (by simp) rfl
  | @call note target n args owner htype hrole htarget hargs ih ihargs =>
    rw [lower, hrole, Typing.usesThis]
    refine ih.bind fun receiver => ?_
    rw [← Operand.partsOf_one]
    exact (spans_lowerArgs note 0 ihargs).emit_all [receiver] (by simp) (by simp) rfl
  | @thisCall note n args htype hrole hthis hargs ih =>
    rw [lower, Typing.usesThis]
    have hargs (receiver : Operand) : Spans scope heap Operand.parts receiver.parts (Typing.anyUsesThis args)
        (lowerArgs scope heap note 0 args >>= fun xs => emit (.of (.invoke ⟨(thisParameter scope).type, n,
          paramTypes note args, note.type.getD .object⟩ true) (receiver :: xs))) := by
      rw [← Operand.partsOf_one]
      exact (spans_lowerArgs note 0 ih).emit_all [receiver] (by simp) (by simp) rfl
    exact (spans_this hthis).bind hargs
  | @index note array place htype harray hplace iharray ihplace =>
    rw [lower, Typing.usesThis]
    refine iharray.bind fun x => ?_
    rw [← bind_assoc]
    exact (ihplace.convert place.type (conversionAt note 1)).emit_two x (by simp) (by simp) rfl
  | @newObject note t args htype hargs ih =>
    rw [lower, Typing.usesThis]
    exact (spans_lowerArgs note 0 ih).emit_all [] (by simp) (by simp) rfl
  | @newArray note t dims extra htype hdims ih =>
    rw [lower, Typing.usesThis]
    exact (spans_lowerArgs note 0 ih).emit_all [] (by simp) (by simp) rfl
  | @unary note op operand htype hoperand ih =>
    rw [lower_unary, Typing.usesThis, ← Bool.or_false (Typing.usesThis operand)]
    exact (ih.convert operand.type (conversionAt note 0)).bind fun x => spans_unaryOperation _ op x
  | @binary note op left right htype hleft hright ihleft ihright =>
    rw [Typing.usesThis]
    cases hhead : chainHead? op with
    | some head =>
      have hplain : head ≠ .ret ∧ head ≠ .yield ∧ head.var? = none := by
        cases op <;> cases hhead <;> exact ⟨by simp, by simp, rfl⟩
      rw [lower_logical note hhead]
      refine (spans_chainBodies hhead ihleft).bind fun earlier => ?_
      rw [← Bool.or_false (Typing.usesThis right)]
      refine (ihright.body_behind right.type none earlier).bind fun last => ?_
      exact spans_emit_bodies (earlier ++ [last]) hplain.1 hplain.2.1 hplain.2.2
    | none =>
      rw [lower_binary note hhead]
      refine (ihleft.convert left.type (conversionAt note 0)).bind fun x => ?_
      have hright := (ihright.convert right.type (conversionAt note 1)).behind x.parts
      rw [List.append_nil] at hright
      rw [← Bool.or_false (Typing.usesThis right)]
      exact hright.bind fun y => spans_operation note hhead x y
  | @instanceOf note operand t htype htarget hoperand ih =>
    rw [lower, Typing.usesThis]
    exact ih.emit_one (by simp) (by simp) rfl
  | @cast note t operand htype hoperand ih =>
    rw [lower, Typing.usesThis, ← Bool.or_false (Typing.usesThis operand)]
    exact ih.bind fun x => spans_castOperation _ _ x
  | @conditional note cond thenArm elseArm htype hcond hthen helse ihcond ihthen ihelse =>
    rw [lower_conditional, Typing.usesThis, Bool.or_assoc]
    refine (ihcond.body_behind cond.type none []).bind fun c => ?_
    refine (ihthen.body_behind thenArm.type (conversionAt note 1) [c]).bind fun yes => ?_
    rw [← Bool.or_false (Typing.usesThis elseArm)]
    refine (ihelse.body_behind elseArm.type (conversionAt note 2) [c, yes]).bind fun no => ?_
    exact spans_emit_bodies [c, yes, no] (by simp) (by simp) rfl
  | @assign note noteOfName n value htype hrole hlocal hvalue ih =>
    rw [lower.eq_def, Typing.usesThis, Typing.usesThis, hrole, Bool.false_or, ← Bool.or_false (Typing.usesThis value)]
    refine ih.bind fun x => ?_
    rw [← Operand.partsOf_one]
    exact spans_variable hlocal fun v => ⟨by simp, by simp, rfl⟩

end Operands

end Lowering

end PredicateTrace
