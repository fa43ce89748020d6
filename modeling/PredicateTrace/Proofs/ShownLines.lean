import PredicateTrace.Proofs.ShownForms
import PredicateTrace.Proofs.SingleLines

/-!
# Values shown on one line

The texts in a value are escaped, and so put on one line, except for those inside of a map, whose entries are shown
with the texts as they are. Nothing else in the form of a value can have a line feed.
-/

namespace PredicateTrace

open Text (OneLine codes oneLine_codes oneLine_append oneLine_codes_append oneLine_between oneLine_commaSeparated)

namespace Value

mutual

/-- Whether a value is a primitive, a text, `null`, or a list, tuple, array, set or map of such values. -/
def isData : Value → Bool
  | .null | .bool _ | .str _ | .units _ | .char _ | .integral .. | .floating .. | .hostInt _ | .hostFloat .. => true
  | .array _ _ items | .list items | .tuple items | .set items | .frozenset items => allData items
  | .map entries => entriesData entries
  | _ => false

/-- Whether all values of a list are such data. -/
def allData : List Value → Bool
  | [] => true
  | v :: rest => isData v && allData rest

/-- Whether all entries of a map are such data. -/
def entriesData : List (Value × Value) → Bool
  | [] => true
  | (k, v) :: rest => isData k && isData v && entriesData rest

end

mutual

/-- The codes of the texts in a value that are shown as they are: those inside of a map, or all of them if the value
itself is inside of one. -/
def unescaped (inMap : Bool) : Value → List Nat
  | .str text => if inMap then codes text else []
  | .units codes => if inMap then codes else []
  | .char code => if inMap then [code] else []
  | .array _ _ items | .list items | .tuple items | .set items | .frozenset items => unescapedOfAll inMap items
  | .map entries => unescapedOfEntries entries
  | _ => []

/-- The codes of the texts in some values that are shown as they are. -/
def unescapedOfAll (inMap : Bool) : List Value → List Nat
  | [] => []
  | v :: rest => unescaped inMap v ++ unescapedOfAll inMap rest

/-- The codes of the texts in the entries of a map. -/
def unescapedOfEntries : List (Value × Value) → List Nat
  | [] => []
  | (k, v) :: rest => unescaped true k ++ unescaped true v ++ unescapedOfEntries rest

end

variable {showObject : Nat → String} {canShow : Nat → Bool} {v : Value} {items : List Value}

lemma allData_eq_all : allData items = items.all isData := by
  induction items with
  | nil => rw [allData, List.all_nil]
  | cons item rest ih => rw [allData, List.all_cons, ih]

lemma isData_of_items (h : v.shownItems? = some items) : v.isData = items.all isData := by
  rw [← allData_eq_all]
  cases v <;> cases h <;> rw [isData]

lemma unescaped_of_items (h : v.shownItems? = some items) (inMap : Bool) :
    v.unescaped inMap = unescapedOfAll inMap items := by
  cases v <;> cases h <;> rw [unescaped]

lemma oneLine_unescapedOfAll {inMap : Bool} :
    OneLine (unescapedOfAll inMap items) ↔ ∀ i ∈ items, OneLine (i.unescaped inMap) := by
  induction items with
  | nil => simp [unescapedOfAll, OneLine]
  | cons item rest ih => rw [unescapedOfAll, oneLine_append, ih, List.forall_mem_cons]

lemma entriesData_eq_all {entries : List (Value × Value)} :
    entriesData entries = entries.all fun entry => entry.1.isData && entry.2.isData := by
  induction entries with
  | nil => rw [entriesData, List.all_nil]
  | cons entry rest ih => rw [entriesData, List.all_cons, ih]

lemma oneLine_unescapedOfEntries {entries : List (Value × Value)} : OneLine (unescapedOfEntries entries) ↔
    ∀ entry ∈ entries, OneLine (entry.1.unescaped true) ∧ OneLine (entry.2.unescaped true) := by
  induction entries with
  | nil => simp [unescapedOfEntries, OneLine]
  | cons entry rest ih => rw [unescapedOfEntries, oneLine_append, oneLine_append, ih, List.forall_mem_cons]

/-! ### Source texts -/

mutual

/-- The text of data is on one line exactly if all texts in it are. -/
theorem oneLine_sourceText : (v : Value) → v.isData = true →
    (OneLine (codes (v.sourceText showObject)) ↔ OneLine (v.unescaped true))
  | .null, _ => by
    simp only [sourceText, unescaped]
    decide
  | .bool b, _ => by
    simp only [sourceText, unescaped]
    cases b <;> decide
  | .str text, _ | .units codes, _ | .char code, _ => by simp [sourceText, hostText, unescaped]
  | .integral kind n, _ => by
    have htext : (integral kind n).sourceText showObject = toString n := by simp [sourceText, hostText]
    simp only [htext, unescaped]
    exact iff_of_true (Number.oneLine_int n) List.not_mem_nil
  | .hostInt n, _ => by
    have htext : (hostInt n).sourceText showObject = toString n := by
      rw [sourceText, hostText]
      · rfl
      all_goals simp
    simp only [htext, unescaped]
    exact iff_of_true (Number.oneLine_int n) List.not_mem_nil
  | .floating .float x _, _ => by
    simp only [sourceText, unescaped]
    exact iff_of_true (Number.oneLine_sourceSingle x) List.not_mem_nil
  | .floating .double x _, _ | .hostFloat x _, _ => by
    simp only [sourceText, unescaped]
    exact iff_of_true (Number.oneLine_sourceDouble x) List.not_mem_nil
  | .array _ _ items, hv | .list items, hv | .tuple items, hv | .set items, hv | .frozenset items, hv => by
    rw [sourceText, unescaped, oneLine_between (by decide) (by decide), oneLine_commaSeparated]
    exact oneLine_sourceTexts items hv
  | .map entries, hv => by
    rw [sourceText, unescaped, oneLine_between (by decide) (by decide), oneLine_commaSeparated]
    exact oneLine_entrySourceTexts entries hv

theorem oneLine_sourceTexts : (items : List Value) → allData items = true →
    ((∀ text ∈ sourceTexts showObject items, OneLine (codes text)) ↔ OneLine (unescapedOfAll true items))
  | [], _ => by simp [sourceTexts, unescapedOfAll, OneLine]
  | v :: rest, hv => by
    rw [allData, Bool.and_eq_true] at hv
    rw [sourceTexts, unescapedOfAll, List.forall_mem_cons, oneLine_append, oneLine_sourceText v hv.1,
      oneLine_sourceTexts rest hv.2]

theorem oneLine_entrySourceTexts : (entries : List (Value × Value)) → entriesData entries = true →
    ((∀ text ∈ entrySourceTexts showObject entries, OneLine (codes text)) ↔ OneLine (unescapedOfEntries entries))
  | [], _ => by simp [entrySourceTexts, unescapedOfEntries, OneLine]
  | (k, v) :: rest, hv => by
    rw [entriesData, Bool.and_eq_true, Bool.and_eq_true] at hv
    rw [entrySourceTexts, unescapedOfEntries, List.forall_mem_cons, oneLine_append, oneLine_append,
      oneLine_codes_append, oneLine_codes_append, and_iff_left (by decide : OneLine (codes "=")),
      oneLine_sourceText k hv.1.1, oneLine_sourceText v hv.1.2, oneLine_entrySourceTexts rest hv.2]

end

mutual

/-- Data has a text. -/
theorem hasSourceText_of_isData : (v : Value) → v.isData = true → v.hasSourceText canShow = true
  | .array _ _ items, h | .list items, h | .tuple items, h | .set items, h | .frozenset items, h => by
    rw [hasSourceText]
    exact allHaveSourceText_of_allData items h
  | .map entries, h => by
    rw [hasSourceText]
    exact entriesHaveSourceText_of_entriesData entries h
  | .null, _ | .bool _, _ | .str _, _ | .units _, _ | .char _, _ | .integral .., _ | .floating .., _
  | .hostInt _, _ | .hostFloat .., _ => by simp [hasSourceText, hasHostText, hasLiteral]

theorem allHaveSourceText_of_allData : (items : List Value) → allData items = true →
    allHaveSourceText canShow items = true
  | [], _ => rfl
  | v :: rest, h => by
    rw [allData, Bool.and_eq_true] at h
    rw [allHaveSourceText, hasSourceText_of_isData v h.1, allHaveSourceText_of_allData rest h.2]
    rfl

theorem entriesHaveSourceText_of_entriesData : (entries : List (Value × Value)) → entriesData entries = true →
    entriesHaveSourceText canShow entries = true
  | [], _ => rfl
  | (k, v) :: rest, h => by
    rw [entriesData, Bool.and_eq_true, Bool.and_eq_true] at h
    rw [entriesHaveSourceText, hasSourceText_of_isData k h.1.1, hasSourceText_of_isData v h.1.2,
      entriesHaveSourceText_of_entriesData rest h.2]
    rfl

end

/-- What a value shows in full as it is stays in its form. -/
lemma oneLine_unescaped_of_inFull (hv : v.isData = true) (h : OneLine (codes (v.inFull showObject))) :
    OneLine (v.unescaped false) := by
  induction v using Value.induction_on_items with
  | step v ih =>
    cases hitems : v.shownItems? with
    | some items =>
      rw [isData_of_items hitems, List.all_eq_true] at hv
      rw [inFull_of_items hitems, oneLine_between (by decide) (by decide), oneLine_commaSeparated, List.forall_mem_map] at h
      rw [unescaped_of_items hitems, oneLine_unescapedOfAll]
      exact fun i hi => ih items hitems i hi (hv i hi) (h i hi)
    | none =>
      cases v with
      | array | list | tuple | set | frozenset => cases hitems
      | map entries =>
        rw [isData, entriesData_eq_all, List.all_eq_true] at hv
        rw [inFull, oneLine_between (by decide) (by decide), oneLine_commaSeparated, List.forall_mem_map] at h
        rw [unescaped, oneLine_unescapedOfEntries]
        intro entry hentry
        obtain ⟨hk, hv⟩ := Bool.and_eq_true _ _ ▸ hv entry hentry
        have hentry := h entry hentry
        rw [oneLine_codes_append, oneLine_codes_append, oneLine_sourceText _ hk, oneLine_sourceText _ hv] at hentry
        exact ⟨hentry.1.1, hentry.2⟩
      | _ => exact List.not_mem_nil

end Value

/-! ### Forms with a budget -/

namespace Formatter

open Value (isData unescaped unescapedOfAll)

variable {f : Formatter} {used : Nat} {separator : String} {v : Value}

section Sequence

variable {α : Type} {form : Nat → α → String} {can : Nat → α → Bool} {xs : List α}

lemma oneLine_sequence (h : ∀ x ∈ xs, ∀ used, OneLine (codes (form used x))) (hseparator : OneLine (codes separator)) :
    OneLine (codes (f.sequence form used separator xs)) := by
  induction xs generalizing used separator with
  | nil => exact List.not_mem_nil
  | cons x rest ih =>
    obtain ⟨hx, hrest⟩ := List.forall_mem_cons.mp h
    rw [sequence]
    split
    · exact oneLine_codes_append.mpr ⟨hseparator, by decide⟩
    · rw [oneLine_codes_append, oneLine_codes_append]
      exact ⟨⟨hseparator, hx _⟩, ih hrest (by decide)⟩

lemma canSequence_of_forall (h : ∀ x ∈ xs, ∀ used, can used x = true) : f.canSequence can form used separator xs = true := by
  induction xs generalizing used separator with
  | nil => rfl
  | cons x rest ih =>
    obtain ⟨hx, hrest⟩ := List.forall_mem_cons.mp h
    rw [canSequence]
    split
    · rfl
    · rw [hx, ih hrest, Bool.and_self]

end Sequence

lemma oneLine_doubleLiteral (x : Float) : OneLine (codes (doubleLiteral x)) :=
  Number.oneLine_floatingLiteral (by decide) Number.oneLine_sourceDouble x

lemma oneLine_singleLiteral (x : Float) : OneLine (codes (singleLiteral x)) :=
  Number.oneLine_floatingLiteral (by decide)
    (fun x => oneLine_codes_append.mpr ⟨Number.oneLine_sourceSingle x, by decide⟩) x

/-- Data can be shown, and is shown on one line if the texts inside of its maps are on one. -/
theorem formatAt_of_isData (hv : v.isData = true) :
    f.canFormatAt used v = true ∧ (OneLine (v.unescaped false) → OneLine (codes (f.formatAt used v))) := by
  induction v using Value.induction_on_items generalizing used with
  | step v ih =>
    cases hitems : v.shownItems? with
    | some items =>
      rw [Value.isData_of_items hitems, List.all_eq_true] at hv
      rw [formatAt_of_items hitems, canFormatAt_of_items hitems, formatItems_eq, canFormatItems_eq,
        Value.unescaped_of_items hitems]
      refine ⟨canSequence_of_forall fun i hi used => (ih items hitems i hi (hv i hi)).1, fun h => ?_⟩
      exact (oneLine_between (by decide) (by decide)).mpr (oneLine_sequence
        (fun i hi used => (ih items hitems i hi (hv i hi)).2 (Value.oneLine_unescapedOfAll.mp h i hi)) (by decide))
    | none =>
      have hsource : v.hasSourceText f.canShow = true := Value.hasSourceText_of_isData v hv
      cases v with
      | array | list | tuple | set | frozenset => cases hitems
      | map entries =>
        rw [isData, Value.entriesData_eq_all, List.all_eq_true] at hv
        rw [canFormatAt, formatAt, canFormatEntries_eq, formatEntries_eq, unescaped]
        refine ⟨canSequence_of_forall fun entry hentry _ => ?_, fun h => ?_⟩
        · obtain ⟨hk, hv⟩ := Bool.and_eq_true _ _ ▸ hv entry hentry
          rw [hasEntryText, Value.hasSourceText_of_isData _ hk, Value.hasSourceText_of_isData _ hv, Bool.and_self]
        · refine (oneLine_between (by decide) (by decide)).mpr
            (oneLine_sequence (fun entry hentry _ => Text.oneLine_abbreviate _ ?_) (by decide))
          obtain ⟨hk, hv⟩ := Bool.and_eq_true _ _ ▸ hv entry hentry
          obtain ⟨hkey, hvalue⟩ := Value.oneLine_unescapedOfEntries.mp h entry hentry
          rw [entryText, oneLine_codes_append, oneLine_codes_append]
          exact ⟨⟨(Value.oneLine_sourceText _ hk).mpr hkey, by decide⟩, (Value.oneLine_sourceText _ hv).mpr hvalue⟩
      | null =>
        rw [formatAt]
        exact ⟨hsource, fun _ => by decide⟩
      | bool b =>
        rw [formatAt]
        exact ⟨hsource, fun _ => by cases b <;> decide⟩
      | str text =>
        rw [formatAt]
        exact ⟨hsource, fun _ => Text.oneLine_codes_ofCodes.mpr (Text.oneLine_quotedLiteral (by decide) _ _)⟩
      | units codes =>
        rw [formatAt]
        exact ⟨hsource, fun _ => Text.oneLine_codes_ofCodes.mpr (Text.oneLine_quotedLiteral (by decide) _ _)⟩
      | char code =>
        rw [formatAt]
        exact ⟨hsource, fun _ => Text.oneLine_codes_ofCodes.mpr (Text.oneLine_quotedLiteral (by decide) _ _)⟩
      | integral kind n =>
        refine ⟨hsource, fun _ => ?_⟩
        cases kind with
        | long => exact oneLine_codes_append.mpr ⟨Number.oneLine_int n, by decide⟩
        | byte | short | int => exact Number.oneLine_int n
      | hostInt n => exact ⟨hsource, fun _ => Number.oneLine_int n⟩
      | floating kind x id =>
        refine ⟨hsource, fun _ => ?_⟩
        cases kind with
        | float => exact oneLine_singleLiteral x
        | double => exact oneLine_doubleLiteral x
      | hostFloat x id => exact ⟨hsource, fun _ => oneLine_doubleLiteral x⟩
      | _ => cases hv

/-- Data that fits the budget is shown on one line exactly if the texts inside of its maps are on one. -/
theorem oneLine_format_of_fits (hv : v.isData = true) (hfits : (v.inFull f.showObject).length ≤ f.budget) :
    OneLine (codes (f.format v)) ↔ OneLine (v.unescaped false) := by
  refine ⟨fun h => ?_, (formatAt_of_isData hv).2⟩
  rw [format, (formatAt_of_fits (by rwa [Nat.zero_add])).1] at h
  exact Value.oneLine_unescaped_of_inFull hv h

end Formatter

end PredicateTrace
