import PredicateTrace.Proofs.Positions
import PredicateTrace.Proofs.SourceLines
import PredicateTrace.Proofs.Verdicts

/-!
# Lines of a diagnostic

As long as nothing fails and all values are data, a diagnostic has a line for every node that it shows. Only the texts
inside of a map and the names of types are shown as they are, and can bring further line feeds into an entry.
-/

namespace PredicateTrace

open Host (Heap)
open Text (OneLine codes oneLine_codes oneLine_codes_append)

/-- A type that an op, or an op inside of it, is written or listed with. -/
def Op.Shows (op : Op) (t : TypeRef) : Prop :=
  ∃ inner, Operand.Part (.op inner) (.op op) ∧ t ∈ inner.head.shownTypes

/-- A node shows something with a line feed as it is: a text inside of a map in its value, or the name of a type. -/
def Trace.Breaks (n : Trace) : Prop :=
  (∃ v, n.outcome = .value v ∧ ¬OneLine (v.unescaped false)) ∨ ∃ t, n.op.Shows t ∧ ¬OneLine (codes t.text)

variable {f : Formatter} {t n : Trace}

/-! ### Sources of nodes -/

lemma Token.IsName.isLine {name : String} (h : Token.IsName name) : Text.IsLine name := by
  obtain ⟨⟨c, cs, hname, -, hstart, hparts⟩, -⟩ := h
  have hfirst : isNamePart c = true := isNamePart_of_isNameStart hstart
  rw [Text.IsLine, oneLine_codes, hname]
  intro hmem
  have hall : ∀ d ∈ c :: cs, isNamePart d = true := List.forall_mem_cons.mpr ⟨hfirst, hparts⟩
  exact absurd (hall '\n' hmem) (by decide)

/-- The names in what an accepted predicate is lowered to are on one line. -/
lemma Quoted.emitted_of_returned? {α : Type} [Text.Coded α] {scope : Scope} {heap : Heap} {source : α} {q : Quoted}
    {root : Operand} (hq : quote scope heap source = .ok q) (hroot : q.returned? = some root) :
    root.Emitted Text.IsLine := by
  obtain ⟨e, te, hparse, hcheck, rfl⟩ := Typing.quote_eq_ok.mp hq
  have hnames : te.AllNames Text.IsLine := by
    rw [← te.allNames_bare, Typing.bare_of_check e (Typing.checkPredicate_eq_ok.mp hcheck).1, e.allNames_bare]
    exact e.allNames_of_words fun n hn => Token.IsName.isLine (isScanned_of_parse hparse (.ident n) hn)
  obtain rfl := Option.some.inj hroot
  exact Lowering.emitted_lower scope heap (by decide : OneLine (codes "")) te hnames ⟨[], []⟩

namespace Evaluation

variable {captures : Captures} {x : Operand} {p p' : Progress}

/-- The source of a node is on one line if all types that it is written with are, and so is the kind of its op. -/
lemma oneLine_of_node (hshape : x.WellShaped) (hx : x.Emitted Text.IsLine) (h : Gives (evaluateOperand captures x) p t p')
    (hn : n ∈ t.nodes) (htypes : ∀ type, n.op.Shows type → OneLine (codes type.text)) :
    OneLine (codes (n.sourceText f)) ∧ OneLine (codes n.op.kind) := by
  rw [Trace.sourceText, Op.source?]
  obtain hpart | ⟨param, v, hop⟩ := op_of_node hshape h hn
  · have hline : (Operand.op n.op).IsLine :=
      ⟨hshape.of_part hpart, hx.of_part hpart, fun inner hinner type htype => htypes type ⟨inner, hinner, htype⟩⟩
    refine ⟨?_, hline.emitted_head.oneLine_kind⟩
    cases hfragment : n.op.fragment? f with
    | none => decide
    | some fragment => exact Text.oneLine_codes_ofCodes.mpr (hline.oneLine_fragment fragment hfragment)
  · rw [hop]
    change OneLine (codes "this") ∧ OneLine (codes "this")
    decide

end Evaluation

/-! ### Entries -/

namespace Trace

/-- An entry has a line feed only where something is shown as it is. -/
lemma oneLine_line (hsource : OneLine (codes (n.sourceText f))) (hkind : OneLine (codes n.op.kind))
    (hdata : n.outcome = .unsupported ∨ ∃ v, n.outcome = .value v ∧ v.isData = true) (hn : ¬n.Breaks) :
    '\n' ∉ (n.line f).toList := by
  rw [← oneLine_codes, line]
  rcases hdata with ho | ⟨v, ho, hv⟩
  · simp +decide [ho, hsource, hkind]
  · have hvalue : OneLine (v.unescaped false) := by
      by_contra hbroken
      exact hn (.inl ⟨v, ho, hbroken⟩)
    have hformat : OneLine (codes (f.format v)) := (Formatter.formatAt_of_isData hv).2 hvalue
    simp +decide [ho, hsource, hformat]

/-- Every entry is closed by a line feed, next to those that it has itself. -/
lemma count_lineFeed_entries {ns : List Trace} : (String.join (ns.map fun n => n.line f ++ "\n")).toList.count '\n' =
    ns.length + (ns.map fun n => (n.line f).toList.count '\n').sum := by
  induction ns with
  | nil => rfl
  | cons n rest ih =>
    have hclosing : "\n".toList.count '\n' = 1 := rfl
    rw [List.map_cons, String.join_cons, String.toList_append, String.toList_append, List.count_append,
      List.count_append, hclosing, ih, List.map_cons, List.sum_cons, List.length_cons]
    omega

/-- The diagnostic on data has an entry for every node that is not trivial. -/
lemma report_of_data (hsource : ∀ n ∈ t.nodes, (n.op.source? f).isSome)
    (hdata : ∀ n ∈ t.nodes, n.outcome = .unsupported ∨ ∃ v, n.outcome = .value v ∧ v.isData = true) :
    t.report f = .ok (String.join (t.shown.map fun n => n.line f ++ "\n")) := by
  have htext : (t.shown.all fun n => n.outcome.hasText f) = true := by
    refine List.all_eq_true.mpr fun n hn => ?_
    rcases hdata n (List.mem_of_mem_filter hn) with ho | ⟨v, ho, hv⟩
    · rw [ho, Outcome.hasText]
    · rw [ho]
      exact (Formatter.formatAt_of_isData hv).1
  rw [report_eq, entries_eq hsource, ← shown, if_pos htext]

/-- A text inside of a map that fits the budget is part of the entry as it is. -/
lemma lineFeed_of_unescaped {v : Value} (ho : n.outcome = .value v) (hv : v.isData = true)
    (hfits : (v.inFull f.showObject).length ≤ f.budget) (hvalue : ¬OneLine (v.unescaped false)) :
    '\n' ∈ (n.line f).toList := by
  by_contra hnot
  rw [← oneLine_codes, line, ho] at hnot
  exact hvalue ((Formatter.oneLine_format_of_fits hv hfits).mp (oneLine_codes_append.mp hnot).2)

/-- How a diagnostic is divided into lines. -/
structure Lined (f : Formatter) (t : Trace) (text : String) : Prop where
  /-- There is an entry for every node that is not trivial, closed by a line feed. -/
  entries : text = String.join (t.shown.map fun n => n.line f ++ "\n")
  /-- An entry has a line feed of its own only where its node shows one as it is. -/
  broken : ∀ n ∈ t.shown, '\n' ∈ (n.line f).toList → n.Breaks
  /-- An entry has the line feeds of the texts inside of a map, if the value of its node fits the budget. -/
  kept : ∀ n ∈ t.shown, ∀ v, n.outcome = .value v → (v.inFull f.showObject).length ≤ f.budget →
    ¬OneLine (v.unescaped false) → '\n' ∈ (n.line f).toList
  /-- There are as many line feeds as entries, and those that the entries have themselves. -/
  count : text.toList.count '\n' = t.shown.length + (t.shown.map fun n => (n.line f).toList.count '\n').sum
  /-- If no node shows a line feed as it is, there are exactly as many as entries. -/
  exact_count : (∀ n ∈ t.shown, ¬n.Breaks) → text.toList.count '\n' = t.shown.length

end Trace

/-- A diagnostic on data has one line for every node that it shows, unless a node shows a text inside of a map or the
name of a type that has a line feed. -/
theorem one_line_per_shown_node {scope : Scope} {heap heap' : Heap} {source : String} {q : Quoted} {t : Trace}
    {p : Progress} (hq : quote scope heap source = .ok q) (ht : q.evaluate heap' = (.ok t, p)) (f : Formatter)
    (hdata : ∀ n ∈ t.nodes, n.outcome = .unsupported ∨ ∃ v, n.outcome = .value v ∧ v.isData = true) :
    ∃ text, t.report f = .ok text ∧ t.Lined f text := by
  obtain ⟨root, hreturned, hg, hshape, -, -⟩ := Quoted.exists_root hq ht
  have hemitted : root.Emitted Text.IsLine := Quoted.emitted_of_returned? hq hreturned
  have hbroken : ∀ n ∈ t.shown, '\n' ∈ (n.line f).toList → n.Breaks := by
    intro n hn hmem
    by_contra hb
    have hnode : n ∈ t.nodes := List.mem_of_mem_filter hn
    have htypes : ∀ type, n.op.Shows type → OneLine (codes type.text) := by
      intro type htype
      by_contra hline
      exact hb (.inr ⟨type, htype, hline⟩)
    obtain ⟨hsource, hkind⟩ := Evaluation.oneLine_of_node hshape hemitted hg hnode htypes
    exact Trace.oneLine_line hsource hkind (hdata n hnode) hb hmem
  have hreport := Trace.report_of_data (Quoted.isSome_source? hq ht f) hdata
  refine ⟨_, hreport, rfl, hbroken, fun n hn v ho hfits => ?_, Trace.count_lineFeed_entries, fun hnone => ?_⟩
  · rcases hdata n (List.mem_of_mem_filter hn) with hunsupported | ⟨w, hw, hdata⟩
    · simp [ho] at hunsupported
    · obtain rfl : w = v := by simpa [ho] using hw.symm
      exact Trace.lineFeed_of_unescaped ho hdata hfits
  · have hzero : (t.shown.map fun n => (n.line f).toList.count '\n').sum = 0 := by
      refine List.sum_eq_zero fun k hk => ?_
      obtain ⟨n, hn, rfl⟩ := List.mem_map.mp hk
      exact List.count_eq_zero.mpr fun hmem => hnone n hn (hbroken n hn hmem)
    rw [Trace.count_lineFeed_entries, hzero, Nat.add_zero]

/-- A text in a list is shown escaped, on the line of its entry. -/
theorem one_line_per_shown_node_of_list :
    let scope : Scope := ⟨[("xs", .value (.list [.str "a\nb", .null]))], none, .empty⟩
    ∃ q t p, quote scope Heap.empty "xs == null" = .ok q ∧ q.evaluate Heap.empty = (.ok t, p) ∧
      (∀ n ∈ t.nodes, n.outcome = .unsupported ∨ ∃ v, n.outcome = .value v ∧ v.isData = true) ∧
      t.shown.length = 2 ∧ ∀ f : Formatter, ∃ text, t.report f = .ok text ∧ t.Lined f text := by
  intro scope
  let test (t : Trace) (_ : Progress) := t.shown.length == 2 && t.nodes.all fun n => n.value?.any Value.isData
  obtain ⟨q, t, p, hq, ht, hrun⟩ : ∃ q t p, quote scope Heap.empty "xs == null" = .ok q ∧
      q.evaluate Heap.empty = (.ok t, p) ∧ test t p = true := exists_run (by decide +kernel)
  simp only [test, Bool.and_eq_true, beq_iff_eq, List.all_eq_true, Option.any_eq_true] at hrun
  obtain ⟨hshown, hdata⟩ := hrun
  have hvalues : ∀ n ∈ t.nodes, n.outcome = .unsupported ∨ ∃ v, n.outcome = .value v ∧ v.isData = true := by
    intro n hn
    obtain ⟨v, hv, hvdata⟩ := hdata n hn
    exact .inr ⟨v, Trace.value?_eq_some.mp hv, hvdata⟩
  exact ⟨q, t, p, hq, ht, hvalues, hshown, fun f => one_line_per_shown_node hq ht f hvalues⟩

/-- Whether a value is a map with one entry of two short texts, the second with a line feed. -/
def Value.isBrokenEntry : Value → Bool
  | .map [(.str key, .str text)] => decide (key.length + text.length ≤ 10) && text.toList.contains '\n'
  | _ => false

lemma Value.isBrokenEntry_fits {v : Value} (hv : v.isBrokenEntry = true) (showObject : Nat → String) :
    v.isData = true ∧ (v.inFull showObject).length ≤ 13 ∧ ¬OneLine (v.unescaped false) := by
  unfold isBrokenEntry at hv
  split at hv
  · next key text =>
    rw [Bool.and_eq_true, decide_eq_true_eq, List.contains_iff_mem] at hv
    obtain ⟨hlength, hbroken⟩ := hv
    refine ⟨rfl, ?_, ?_⟩
    · have hopening : "[".length = 1 := rfl
      have hmiddle : "=".length = 1 := rfl
      have hclosing : "]".length = 1 := rfl
      have hform : (map [(str key, str text)]).inFull showObject = "[" ++ (key ++ "=" ++ text) ++ "]" := by
        simp [inFull, sourceText, hostText, commaSeparated]
      simp only [hform, String.length_append, hopening, hmiddle, hclosing]
      omega
    · simpa [unescaped, unescapedOfEntries, oneLine_codes] using fun _ => hbroken
  · cases hv

/-- A text in a map is shown as it is: here two nodes are shown on more than two lines. -/
theorem map_entry_breaks_line :
    let scope : Scope := ⟨[("m", .value (.map [(.str "k", .str "a\nb")]))], none, .empty⟩
    ∃ q t p text, quote scope Heap.empty "m == null" = .ok q ∧ q.evaluate Heap.empty = (.ok t, p) ∧
      (∀ n ∈ t.nodes, ∃ v, n.outcome = .value v ∧ v.isData = true) ∧
      t.report (p.heap.formatter Formatter.defaultBudget) = .ok text ∧ t.shown.length = 2 ∧
      2 < text.toList.count '\n' := by
  intro scope
  let test (t : Trace) (_ : Progress) := t.shown.length == 2 && (t.nodes.all fun n => n.value?.any Value.isData) &&
    t.shown.any fun n => n.value?.any Value.isBrokenEntry
  obtain ⟨q, t, p, hq, ht, hrun⟩ : ∃ q t p, quote scope Heap.empty "m == null" = .ok q ∧
      q.evaluate Heap.empty = (.ok t, p) ∧ test t p = true := exists_run (by decide +kernel)
  simp only [test, Bool.and_eq_true, beq_iff_eq, List.all_eq_true, List.any_eq_true, Option.any_eq_true] at hrun
  obtain ⟨⟨hshown, hdata⟩, n, hn, v, hv, hentry⟩ := hrun
  have hvalues : ∀ n ∈ t.nodes, ∃ v, n.outcome = .value v ∧ v.isData = true := by
    intro n hn
    obtain ⟨v, hv, hvdata⟩ := hdata n hn
    exact ⟨v, Trace.value?_eq_some.mp hv, hvdata⟩
  let f := p.heap.formatter Formatter.defaultBudget
  have hreport := Trace.report_of_data (Quoted.isSome_source? hq ht f) fun n hn => .inr (hvalues n hn)
  refine ⟨q, t, p, _, hq, ht, hvalues, hreport, hshown, ?_⟩
  obtain ⟨hvdata, hlength, hbroken⟩ := Value.isBrokenEntry_fits hentry f.showObject
  have hfits : (v.inFull f.showObject).length ≤ f.budget := hlength.trans (by decide : 13 ≤ Formatter.defaultBudget)
  have hmem := Trace.lineFeed_of_unescaped (f := f) (Trace.value?_eq_some.mp hv) hvdata hfits hbroken
  have hsum : (n.line f).toList.count '\n' ≤ (t.shown.map fun n => (n.line f).toList.count '\n').sum :=
    List.le_sum_of_mem (List.mem_map_of_mem hn)
  have hpos : 0 < (n.line f).toList.count '\n' := List.count_pos_iff.mpr hmem
  rw [Trace.count_lineFeed_entries, hshown]
  omega

end PredicateTrace
