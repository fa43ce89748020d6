import Mathlib.Tactic.Lemma
import PredicateTrace.Evaluation

/-!
# Running computations of the evaluator

The host and the evaluator compute in the same way: with a failure or a result, and with a state that is
kept in either case. `Gives m s a s'` says that the computation `m`, run from the state `s`, has the
result `a` and leaves the state `s'`; `Stops m s e` says that it fails with `e`.
-/

namespace PredicateTrace

open Host (Heap Run)

variable {ε σ α β : Type}

lemma bind_eq_ok {m : Except ε α} {f : α → Except ε β} {b : β} :
    (m >>= f) = .ok b ↔ ∃ a, m = .ok a ∧ f a = .ok b := by
  cases m <;> simp [bind, Except.bind]

lemma map_eq_ok {m : Except ε α} {f : α → β} {b : β} : m.map f = .ok b ↔ ∃ a, m = .ok a ∧ f a = b := by
  cases m <;> simp [Except.map]

lemma bind_congr_ok {m : Except ε α} {f g : α → Except ε β} (h : ∀ a, m = .ok a → f a = g a) :
    m >>= f = m >>= g := by
  cases m with
  | error e => rfl
  | ok a => exact h a rfl

/-- The result or the failure of a computation, and the state that it leaves. -/
def runFrom (m : ExceptT ε (StateM σ) α) (s : σ) : Except ε α × σ :=
  m.run.run s

lemma runFrom_bind (m : ExceptT ε (StateM σ) α) (f : α → ExceptT ε (StateM σ) β) (s : σ) :
    runFrom (m >>= f) s = match runFrom m s with
      | (.ok a, s') => runFrom (f a) s'
      | (.error e, s') => (.error e, s') := by
  have hbind : runFrom (m >>= f) s =
      runFrom (fun s' => ExceptT.bindCont f (runFrom m s).1 s') (runFrom m s).2 := rfl
  rw [hbind]
  rcases runFrom m s with ⟨_ | a, s'⟩ <;> rfl

/-- A computation has a result and leaves a state. -/
def Gives (m : ExceptT ε (StateM σ) α) (s : σ) (a : α) (s' : σ) : Prop :=
  runFrom m s = (.ok a, s')

lemma gives_bind {m : ExceptT ε (StateM σ) α} {f : α → ExceptT ε (StateM σ) β} {s s'' : σ} {b : β} :
    Gives (m >>= f) s b s'' ↔ ∃ a s', Gives m s a s' ∧ Gives (f a) s' b s'' := by
  unfold Gives
  rw [runFrom_bind]
  rcases runFrom m s with ⟨_ | a, s'⟩ <;> simp [and_assoc]

@[simp]
lemma gives_pure {a b : α} {s s' : σ} :
    Gives (pure a : ExceptT ε (StateM σ) α) s b s' ↔ b = a ∧ s' = s := by
  change (Except.ok a, s) = (Except.ok b, s') ↔ _
  rw [Prod.mk.injEq, Except.ok.injEq, eq_comm, @eq_comm _ s]

@[simp]
lemma gives_throw {e : ε} {a : α} {s s' : σ} :
    ¬Gives (throw e : ExceptT ε (StateM σ) α) s a s' := by
  change ¬(Except.error e, s) = (Except.ok a, s')
  simp

@[simp]
lemma gives_get {s t s' : σ} :
    Gives (get : ExceptT ε (StateM σ) σ) s t s' ↔ t = s ∧ s' = s := by
  change (Except.ok s, s) = (Except.ok t, s') ↔ _
  rw [Prod.mk.injEq, Except.ok.injEq, eq_comm, @eq_comm _ s]

@[simp]
lemma gives_modify {f : σ → σ} {s s' : σ} {u : PUnit} :
    Gives (modify f : ExceptT ε (StateM σ) PUnit) s u s' ↔ s' = f s := by
  change (Except.ok PUnit.unit, f s) = (Except.ok u, s') ↔ _
  rw [Prod.mk.injEq, @eq_comm _ (f s)]
  simp

/-- A computation fails. -/
def Stops (m : ExceptT ε (StateM σ) α) (s : σ) (e : ε) : Prop :=
  (runFrom m s).1 = .error e

lemma gives_or_stops (m : ExceptT ε (StateM σ) α) (s : σ) : (∃ a s', Gives m s a s') ∨ ∃ e, Stops m s e := by
  unfold Gives Stops
  rcases runFrom m s with ⟨e | a, s'⟩
  · exact Or.inr ⟨e, rfl⟩
  · exact Or.inl ⟨a, s', rfl⟩

lemma stops_bind {m : ExceptT ε (StateM σ) α} {f : α → ExceptT ε (StateM σ) β} {s : σ} {e : ε} :
    Stops (m >>= f) s e ↔ Stops m s e ∨ ∃ a s', Gives m s a s' ∧ Stops (f a) s' e := by
  unfold Stops Gives
  rw [runFrom_bind]
  rcases runFrom m s with ⟨_ | a, s'⟩ <;> simp [and_assoc]

lemma stops_bind_of_total {m : ExceptT ε (StateM σ) α} {f : α → ExceptT ε (StateM σ) β} {s : σ} {e : ε}
    (hf : ∀ a s', ¬Stops (f a) s' e) : Stops (m >>= f) s e ↔ Stops m s e := by
  simp only [stops_bind, hf, and_false, exists_false, or_false]

@[simp]
lemma stops_pure {a : α} {s : σ} {e : ε} : ¬Stops (pure a : ExceptT ε (StateM σ) α) s e :=
  nofun

@[simp]
lemma stops_throw {e e' : ε} {s : σ} : Stops (throw e : ExceptT ε (StateM σ) α) s e' ↔ e = e' := by
  change Except.error e = Except.error e' ↔ _
  rw [Except.error.injEq]

@[simp]
lemma stops_get {s : σ} {e : ε} : ¬Stops (get : ExceptT ε (StateM σ) σ) s e :=
  nofun

@[simp]
lemma stops_modify {f : σ → σ} {s : σ} {e : ε} : ¬Stops (modify f : ExceptT ε (StateM σ) PUnit) s e :=
  nofun

/-- Each result of a list of computations is the result of one of them. -/
lemma gives_mapM {f : α → ExceptT ε (StateM σ) β} {xs : List α} {ys : List β} {s s' : σ}
    (h : Gives (xs.mapM f) s ys s') : ∀ y ∈ ys, ∃ x ∈ xs, ∃ t t', Gives (f x) t y t' := by
  induction xs generalizing ys s s' with
  | nil =>
    obtain ⟨rfl, -⟩ := gives_pure.mp h
    simp
  | cons x rest ih =>
    rw [List.mapM_cons, gives_bind] at h
    obtain ⟨y, t, hx, h⟩ := h
    obtain ⟨others, t', hrest, h⟩ := gives_bind.mp h
    obtain ⟨rfl, -⟩ := gives_pure.mp h
    refine List.forall_mem_cons.mpr ⟨⟨x, List.mem_cons_self, s, t, hx⟩, fun z hz => ?_⟩
    obtain ⟨w, hw, hg⟩ := ih hrest z hz
    exact ⟨w, List.mem_cons_of_mem _ hw, hg⟩

lemma runFrom_outcomeOf (run : Run (Option Value)) (p : Progress) :
    runFrom (Evaluation.outcomeOf run) p =
      match runFrom run p.heap with
      | (.ok (some v), heap) => (.ok (.value v), { p with heap })
      | (.ok none, heap) => (.ok .unsupported, { p with heap })
      | (.error (.raised e), heap) => (.ok (.threw e), { p with heap })
      | (.error (.unresolved m), heap) => (.error (.unresolved m), { p with heap }) := by
  generalize hrun : runFrom run p.heap = r
  change run p.heap = r at hrun
  rw [Evaluation.outcomeOf, runFrom_bind]
  change runFrom (set { p with heap := (run p.heap).2 } >>= _) p = _
  rw [runFrom_bind]
  change runFrom _ { p with heap := (run p.heap).2 } = _
  rw [hrun]
  rcases r with ⟨(e | m) | (_ | v), heap⟩ <;> rfl

/-- The outcome of a computation of the host: what it was raised, or whether it gave a value. -/
lemma gives_outcomeOf {run : Run (Option Value)} {p p' : Progress} {o : Outcome} :
    Gives (Evaluation.outcomeOf run) p o p' ↔
      p' = { p with heap := (runFrom run p.heap).2 } ∧
        match (runFrom run p.heap).1 with
        | .ok (some v) => o = .value v
        | .ok none => o = .unsupported
        | .error (.raised e) => o = .threw e
        | .error (.unresolved _) => False := by
  unfold Gives
  rw [runFrom_outcomeOf]
  rcases runFrom run p.heap with ⟨(e | m) | (_ | v), heap⟩ <;> simp [and_comm, eq_comm]

/-- Only a missing member has no outcome. -/
lemma stops_outcomeOf {run : Run (Option Value)} {p : Progress} {e : Abort} :
    Stops (Evaluation.outcomeOf run) p e ↔
      ∃ m, e = .unresolved m ∧ Stops run p.heap (.unresolved m) := by
  unfold Stops
  rw [runFrom_outcomeOf]
  rcases runFrom run p.heap with ⟨(e | m) | (_ | v), heap⟩ <;> simp [eq_comm]

end PredicateTrace
