import PredicateTrace.Proofs.CapturedContents
import PredicateTrace.Proofs.CapturedLocals
import PredicateTrace.Session

/-!
# Quoted predicates as snapshots

A program binds its variables anew, assigns the cells that they hold, and quotes and builds predicates in any
order. A predicate keeps the bindings of the moment at which it was quoted. Of what the program does later it
sees the contents of the cells among them and the state of the host, and nothing else.
-/

namespace PredicateTrace

open Host (Heap Run)

/-- The places of the cells that variables hold. -/
def Session.cellPlaces (locals : List (String × Capture)) : List Nat :=
  locals.filterMap fun
    | (_, .slot place true) => some place
    | _ => none

/-- What a program does with its variables and its predicates. -/
inductive Action
  | quote (name source : String)
  | bind (name : String) (v : Value)
  /-- Binds a variable to a cell that was made before. -/
  | share (name : String) (cell : Nat)
  /-- Assigns a cell, or an attribute of an object. -/
  | setField (name field : String) (v : Value)
  | build (q : Quoted)

/-- A program that runs: its session, the state of the host, and the places of the cells that it has made. -/
structure Program where
  session : Session
  heap : Heap
  cells : List Nat

namespace Program

variable {p p' p'' : Program}

/-- The program after an action; what is not possible has no effect. -/
def perform (p : Program) : Action → Program
  | .quote name source =>
    match p.session.quote name source p.heap with
    | .ok s => { p with session := s }
    | .error _ => p
  | .bind name v =>
    match runFrom (p.session.bind name v) p.heap with
    | (.ok s, heap) => ⟨s, heap, Session.cellPlaces s.locals ++ p.cells⟩
    | (.error _, _) => p
  | .share name cell =>
    if cell ∈ p.cells then
      { p with session.locals := Session.assign name (.slot cell true) p.session.locals }
    else p
  | .setField name field v => { p with heap := (runFrom (p.session.setField name field v) p.heap).2 }
  | .build q => { p with heap := (q.evaluate p.heap).2.heap }

/-- The program after some actions. -/
def run (p : Program) (actions : List Action) : Program :=
  actions.foldl perform p

/-- A later state of a program: what is no cell has kept its value, and is no cell. -/
structure Later (p p' : Program) : Prop where
  size : p.heap.slots.size ≤ p'.heap.slots.size
  kept : ∀ place < p.heap.slots.size, place ∉ p.cells →
    place ∉ p'.cells ∧ p'.heap.slot place = p.heap.slot place
  cells : p.cells ⊆ p'.cells

lemma Later.refl (p : Program) : Later p p :=
  ⟨Nat.le_refl _, fun _ _ hcell => ⟨hcell, rfl⟩, List.Subset.refl _⟩

lemma Later.trans (h : Later p p') (h' : Later p' p'') : Later p p'' := by
  refine ⟨Nat.le_trans h.size h'.size, fun place hplace hcell => ?_, List.Subset.trans h.cells h'.cells⟩
  obtain ⟨hcell', hslot⟩ := h.kept place hplace hcell
  obtain ⟨hcell'', hslot'⟩ := h'.kept place (Nat.lt_of_lt_of_le hplace h.size) hcell'
  exact ⟨hcell'', hslot'.trans hslot⟩

end Program

end PredicateTrace
