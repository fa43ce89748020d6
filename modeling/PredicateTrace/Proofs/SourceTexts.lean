import PredicateTrace.Proofs.LoweredForms

/-!
# Source texts of lowered trees

Every op of a predicate that was quoted has a source text: the bodies inside of it yield their values and no call
lacks its receiver, so that what is no expression can at least be listed.
-/

namespace PredicateTrace

variable {x : Operand} {showObject : Nat → String} {f : Formatter}

/-! ### Texts one after the other -/

section Lists

variable {α β : Type} {write : α → Option β} {xs : List α}

lemma isSome_mapM (h : ∀ x ∈ xs, (write x).isSome) : (xs.mapM write).isSome := by
  induction xs with
  | nil => rfl
  | cons x rest ih =>
    obtain ⟨hx, hrest⟩ := List.forall_mem_cons.mp h
    obtain ⟨text, hx⟩ := Option.isSome_iff_exists.mp hx
    obtain ⟨others, hothers⟩ := Option.isSome_iff_exists.mp (ih hrest)
    rw [List.mapM_cons, hx, hothers]
    rfl

lemma exists_of_mem_mapM {ys : List β} (h : xs.mapM write = some ys) : ∀ y ∈ ys, ∃ x ∈ xs, write x = some y := by
  induction xs generalizing ys with
  | nil =>
    obtain rfl := Option.some.inj h
    exact fun y hy => absurd hy List.not_mem_nil
  | cons x rest ih =>
    rw [List.mapM_cons] at h
    obtain ⟨first, hfirst, h⟩ := Option.bind_eq_some_iff.mp h
    obtain ⟨others, hothers, h⟩ := Option.bind_eq_some_iff.mp h
    obtain rfl := Option.some.inj h
    refine List.forall_mem_cons.mpr ⟨⟨x, List.mem_cons_self, hfirst⟩, fun y hy => ?_⟩
    obtain ⟨z, hz, hwrite⟩ := ih hothers y hy
    exact ⟨z, List.mem_cons_of_mem _ hz, hwrite⟩

end Lists

lemma operandListings?_eq (xs : List Operand) :
    Op.operandListings? showObject xs = xs.mapM (Operand.listing? showObject) := by
  induction xs with
  | nil => rfl
  | cons x rest ih => rw [Op.operandListings?, List.mapM_cons, ih]

lemma bodyListings?_eq (bodies : List Body) : Op.bodyListings? showObject bodies =
    bodies.mapM fun body => (body.listing? showObject).map fun text => "\x7b" ++ text ++ "\x7d" := by
  induction bodies with
  | nil => rfl
  | cons body rest ih =>
    rw [Op.bodyListings?, List.mapM_cons, ih]
    cases body.listing? showObject <;> rfl

lemma operandFragments?_eq (xs : List Operand) : Op.operandFragments? f xs = xs.mapM (Operand.fragment? f) := by
  induction xs with
  | nil => rfl
  | cons x rest ih => rw [Op.operandFragments?, List.mapM_cons, ih]

lemma bodyFragments?_eq (bodies : List Body) : Op.bodyFragments? f bodies = bodies.mapM (Body.fragment? f) := by
  induction bodies with
  | nil => rfl
  | cons body rest ih => rw [Op.bodyFragments?, List.mapM_cons, ih]

/-! ### Listings -/

lemma isSome_listing?_of {head : Head} {operands : List Operand} {bodies : List Body}
    (hoperands : ∀ x ∈ operands, (x.listing? showObject).isSome)
    (hbodies : ∀ body ∈ bodies, (body.listing? showObject).isSome) :
    ((Op.mk head operands bodies).listing? showObject).isSome := by
  obtain ⟨texts, htexts⟩ := Option.isSome_iff_exists.mp (isSome_mapM hoperands)
  obtain ⟨others, hothers⟩ := Option.isSome_iff_exists.mp
    (isSome_mapM fun body hb => Option.isSome_map.trans (hbodies body hb))
  rw [Op.listing?, operandListings?_eq, bodyListings?_eq, htexts, hothers]
  rfl

lemma Operand.WellShaped.isSome_listing? (hx : x.WellShaped) : (x.listing? showObject).isSome := by
  induction x using Operand.induction_on_parts with
  | param p => rfl
  | op op ihoperand ihbody =>
    rw [Operand.listing?]
    obtain ⟨head, operands, bodies⟩ := op
    refine isSome_listing?_of
      (fun x hmem => ihoperand x hmem (hx.of_part (.operand hmem (.refl x)))) fun body hb => ?_
    obtain ⟨y, hyields⟩ := (hx _ (.refl _)).yields body hb
    have hy := ihbody body hb y hyields.yielded?_eq (hx.of_part (.yielded hb hyields.yielded?_eq (.refl y)))
    rw [hyields, Body.listing?, Block.listing?]
    exact isSome_listing?_of (by simpa using hy) (by simp)

/-! ### Source texts -/

/-- An op of a well-shaped tree is written as an expression, or else by its listing. -/
lemma Operand.WellShaped.isSome_fragment? (hx : x.WellShaped) (hreceived : x.Received) :
    (x.fragment? f).isSome := by
  induction x using Operand.induction_on_parts with
  | param p => rfl
  | op op ihoperand ihbody =>
    -- An op that is no expression is listed.
    have hlisted : (op.listedFragment? f).isSome := by
      have hlisting : (op.listing? f.showObject).isSome := hx.isSome_listing?
      rwa [Op.listedFragment?, Option.isSome_map]
    obtain ⟨head, operands, bodies⟩ := op
    have hoperands : ∀ x ∈ operands, (x.fragment? f).isSome := fun x hmem =>
      ihoperand x hmem (hx.of_part (.operand hmem (.refl x))) fun op hop => hreceived op (.operand hmem hop)
    have hbodies : ∀ body ∈ bodies, (body.fragment? f).isSome := by
      intro body hb
      obtain ⟨y, hyields⟩ := (hx _ (.refl _)).yields body hb
      have hy := ihbody body hb y hyields.yielded?_eq (hx.of_part (.yielded hb hyields.yielded?_eq (.refl y)))
        fun op hop => hreceived op (.yielded hb hyields.yielded?_eq hop)
      rw [hyields]
      exact hy
    obtain ⟨fragments, hfragments⟩ := Option.isSome_iff_exists.mp (isSome_mapM hoperands)
    obtain ⟨others, hothers⟩ := Option.isSome_iff_exists.mp (isSome_mapM hbodies)
    have hreceiver : head.lacksReceiver operands = false := hreceived _ (.refl _)
    rw [Operand.fragment?, Op.fragment?]
    split
    · exact hlisted
    · rw [hreceiver, operandFragments?_eq, bodyFragments?_eq, hfragments, hothers]
      simp only [Bool.false_eq_true, if_false, Option.bind_eq_bind, Option.bind_some]
      split
      · rfl
      · exact hlisted

end PredicateTrace
