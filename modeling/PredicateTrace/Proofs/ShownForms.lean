import PredicateTrace.Proofs.StringLiterals

/-!
# Values shown in full

A value has a form that no budget cuts. A formatter gives this form whenever it fits into the budget, however deep
the containers nest: the budget of a text, of an object or of an element is what the characters before it have left,
and each of these limits is met by whatever the whole form has room for.
-/

namespace PredicateTrace

open Value (commaSeparated)

/-- A literal of codes between quotes, however long. -/
def Text.wholeLiteral (literal : List Nat) : List Nat :=
  '"'.toNat :: literal.flatMap sourcePieceCodes ++ ['"'.toNat]

open Text (sourcePieceCodes escapeWithin wholeLiteral)

variable {f : Formatter} {used : Nat} {separator : String} {v : Value} {items : List Value}

/-! ### Containers -/

namespace Value

/-- The elements between the brackets that a container is shown in; a map shows entries. -/
def shownItems? : Value → Option (List Value)
  | .array _ _ items => some items
  | .list items => some items
  | .tuple items => some items
  | .set items => some items
  | .frozenset items => some items
  | _ => none

lemma sizeOf_lt_of_shownItems {i : Value} (h : v.shownItems? = some items) (hi : i ∈ items) : sizeOf i < sizeOf v := by
  have hlt := List.sizeOf_lt_of_mem hi
  cases v <;> cases h <;> simp +arith <;> omega

/-- What holds of a value as soon as it holds of the elements that it shows holds of every value. -/
theorem induction_on_items {P : Value → Prop} (step : ∀ v, (∀ items, v.shownItems? = some items → ∀ i ∈ items, P i) → P v)
    (v : Value) : P v :=
  step v fun _ hitems _ hi =>
    have := sizeOf_lt_of_shownItems hitems hi
    induction_on_items step _
termination_by sizeOf v

lemma allHaveSourceText_eq_all {canShow : Nat → Bool} :
    allHaveSourceText canShow items = items.all (·.hasSourceText canShow) := by
  induction items with
  | nil => rw [allHaveSourceText, List.all_nil]
  | cons first rest ih => rw [allHaveSourceText, List.all_cons, ih]

lemma entriesHaveSourceText_eq_all {canShow : Nat → Bool} {entries : List (Value × Value)} :
    entriesHaveSourceText canShow entries =
      entries.all fun entry => entry.1.hasSourceText canShow && entry.2.hasSourceText canShow := by
  induction entries with
  | nil => rw [entriesHaveSourceText, List.all_nil]
  | cons entry rest ih => rw [entriesHaveSourceText, List.all_cons, ih]

lemma hasSourceText_of_items {canShow : Nat → Bool} (h : v.shownItems? = some items) :
    v.hasSourceText canShow = allHaveSourceText canShow items := by
  cases v <;> cases h <;> rw [hasSourceText]

end Value

namespace Formatter

lemma formatAt_of_items (h : v.shownItems? = some items) :
    f.formatAt used v = "[" ++ f.formatItems (used + 1) "" items ++ "]" := by
  cases v <;> cases h <;> rw [formatAt]

lemma canFormatAt_of_items (h : v.shownItems? = some items) :
    f.canFormatAt used v = f.canFormatItems (used + 1) "" items := by
  cases v <;> cases h <;> rw [canFormatAt]

/-- Forms one after the other, when `used` characters are already out and `separator` has to come first: this is how
the elements of a container and the entries of a map are shown. -/
def sequence {α : Type} (f : Formatter) (form : Nat → α → String) (used : Nat) (separator : String) : List α → String
  | [] => ""
  | x :: rest =>
    let begun := used + separator.length
    if f.budget < begun then separator ++ "..."
    else separator ++ form begun x ++ sequence f form (begun + (form begun x).length) ", " rest

lemma formatItems_eq : f.formatItems used separator items = f.sequence f.formatAt used separator items := by
  induction items generalizing used separator with
  | nil => rw [formatItems, sequence]
  | cons item rest ih => simp only [formatItems, sequence, ih]

lemma formatEntries_eq {entries : List (Value × Value)} : f.formatEntries used separator entries =
    f.sequence (fun begun entry => f.cut begun (f.entryText entry)) used separator entries := by
  induction entries generalizing used separator with
  | nil => rw [formatEntries, sequence]
  | cons entry rest ih => simp only [formatEntries, sequence, ih]

/-- Whether what `sequence` shows can be shown, if `can` tells it of a single form. -/
def canSequence {α : Type} (f : Formatter) (can : Nat → α → Bool) (form : Nat → α → String) (used : Nat)
    (separator : String) : List α → Bool
  | [] => true
  | x :: rest =>
    let begun := used + separator.length
    if f.budget < begun then true
    else can begun x && canSequence f can form (begun + (form begun x).length) ", " rest

lemma canFormatItems_eq :
    f.canFormatItems used separator items = f.canSequence f.canFormatAt f.formatAt used separator items := by
  induction items generalizing used separator with
  | nil => rw [canFormatItems, canSequence]
  | cons item rest ih => simp only [canFormatItems, canSequence, ih]

lemma canFormatEntries_eq {entries : List (Value × Value)} : f.canFormatEntries used separator entries =
    f.canSequence (fun _ => f.hasEntryText) (fun begun entry => f.cut begun (f.entryText entry)) used separator
      entries := by
  induction entries generalizing used separator with
  | nil => rw [canFormatEntries, canSequence]
  | cons entry rest ih => simp only [canFormatEntries, canSequence, ih]

end Formatter

/-! ### Forms without a budget -/

namespace Value

mutual

/-- The form of a value that no budget cuts. -/
def inFull (showObject : Nat → String) : Value → String
  | .null => "null"
  | .bool b => if b then "true" else "false"
  | .char code => Formatter.charLiteral code
  | .integral .long n => toString n ++ "L"
  | .integral _ n | .hostInt n => toString n
  | .floating .float x _ => Formatter.singleLiteral x
  | .floating .double x _ | .hostFloat x _ => Formatter.doubleLiteral x
  | .str text => Text.ofCodes (wholeLiteral (Text.codes text))
  | .units codes => Text.ofCodes (wholeLiteral codes)
  | .map entries =>
    "[" ++ commaSeparated (entries.map fun entry =>
      entry.1.sourceText showObject ++ "=" ++ entry.2.sourceText showObject) ++ "]"
  | .array _ _ items | .list items | .tuple items | .set items | .frozenset items =>
    "[" ++ commaSeparated (allInFull showObject items) ++ "]"
  | v => v.sourceText showObject

/-- The forms of some values that no budget cuts. -/
def allInFull (showObject : Nat → String) : List Value → List String
  | [] => []
  | v :: rest => inFull showObject v :: allInFull showObject rest

end

lemma allInFull_eq_map {showObject : Nat → String} : allInFull showObject items = items.map (inFull showObject) := by
  induction items with
  | nil => rw [allInFull, List.map_nil]
  | cons item rest ih => rw [allInFull, List.map_cons, ih]

lemma inFull_of_items {showObject : Nat → String} (h : v.shownItems? = some items) :
    v.inFull showObject = "[" ++ commaSeparated (items.map (inFull showObject)) ++ "]" := by
  cases v <;> cases h <;> rw [inFull, allInFull_eq_map]

/-- The codes of the form of a value that no budget cuts. -/
def codesInFull (showObject : Nat → String) : Value → List Nat
  | .char code => Formatter.quotedLiteral '\x27' [code] Formatter.charBudget
  | .units codes => wholeLiteral codes
  | v => Text.codes (v.inFull showObject)

lemma commaSeparated_cons_cons (first second : String) (rest : List String) :
    commaSeparated (first :: second :: rest) = first ++ (", " ++ commaSeparated (second :: rest)) := by
  rw [commaSeparated, String.intercalate_cons_cons, String.append_assoc, commaSeparated]

lemma commaSeparated_singleton (text : String) : commaSeparated [text] = text :=
  String.intercalate_singleton

end Value

/-! ### Forms that fit -/

namespace Formatter

lemma escapeWithin_of_fits {budget : Nat} {literal : List Nat}
    (h : used + (literal.flatMap sourcePieceCodes).length < budget) :
    escapeWithin budget used literal = literal.flatMap sourcePieceCodes := by
  induction literal generalizing used with
  | nil => rfl
  | cons code rest ih =>
    rw [List.flatMap_cons, List.length_append] at h
    rw [escapeWithin, if_neg (by omega), ih (by omega), List.flatMap_cons]

lemma quotedLiteral_of_fits {literal : List Nat} (h : used + (wholeLiteral literal).length ≤ f.budget) :
    quotedLiteral '"' literal (f.textBudget used) = wholeLiteral literal := by
  rw [wholeLiteral, List.cons_append, List.length_cons, List.length_append, List.length_singleton] at h
  have hroom : 0 + (literal.flatMap sourcePieceCodes).length < f.textBudget used := by
    rw [textBudget]
    omega
  rw [quotedLiteral, escapeWithin_of_fits hroom, wholeLiteral]

lemma length_ofCodes (literal : List Nat) : (Text.ofCodes literal).length = literal.length := by
  rw [Text.ofCodes, String.length_ofList, List.length_map]

lemma stringLiteral_of_fits {literal : List Nat}
    (h : used + (Text.ofCodes (wholeLiteral literal)).length ≤ f.budget) :
    f.stringLiteral used literal = Text.ofCodes (wholeLiteral literal) := by
  rw [length_ofCodes] at h
  rw [stringLiteral, quotedLiteral_of_fits h]

lemma cut_of_fits {text : String} (h : used + text.length ≤ f.budget) : f.cut used text = text := by
  rw [cut, Text.abbreviate, if_neg]
  rw [objectBudget]
  omega

section Sequence

variable {α : Type} {form : Nat → α → String} {can : Nat → α → Bool} {full : α → String} {has : α → Bool}

/-- Forms that fit one after the other are shown in full, and none is left out. -/
lemma sequence_of_fits {first : α} {rest : List α}
    (hone : ∀ x ∈ first :: rest, ∀ used, used + (full x).length ≤ f.budget → form used x = full x ∧ can used x = has x)
    (used : Nat) (separator : String)
    (hfits : used + separator.length + (commaSeparated ((first :: rest).map full)).length ≤ f.budget) :
    f.sequence form used separator (first :: rest) =
        separator ++ commaSeparated ((first :: rest).map full) ∧
      f.canSequence can form used separator (first :: rest) = (first :: rest).all has := by
  induction rest generalizing used separator first with
  | nil =>
    have hlast : commaSeparated ([first].map full) = full first := Value.commaSeparated_singleton _
    rw [hlast] at hfits ⊢
    obtain ⟨hform, hcan⟩ := hone first List.mem_cons_self _ hfits
    rw [sequence, canSequence, if_neg (by omega), if_neg (by omega), hform, hcan, sequence, canSequence]
    exact ⟨String.append_empty, rfl⟩
  | cons second rest ih =>
    have hmore : commaSeparated ((first :: second :: rest).map full) =
        full first ++ (", " ++ commaSeparated ((second :: rest).map full)) :=
      Value.commaSeparated_cons_cons _ _ _
    rw [hmore, String.length_append, String.length_append] at hfits
    obtain ⟨hform, hcan⟩ := hone first List.mem_cons_self (used + separator.length) (by omega)
    obtain ⟨hforms, hcans⟩ := ih (fun x hx => hone x (List.mem_cons_of_mem _ hx))
      (used + separator.length + (full first).length) ", " (by omega)
    rw [sequence, canSequence, if_neg (by omega), if_neg (by omega), hform, hcan, hforms, hcans, hmore,
      String.append_assoc]
    exact ⟨rfl, rfl⟩

lemma bracketed_of_fits {xs : List α}
    (hone : ∀ x ∈ xs, ∀ used, used + (full x).length ≤ f.budget → form used x = full x ∧ can used x = has x)
    (hfits : used + ("[" ++ commaSeparated (xs.map full) ++ "]").length ≤ f.budget) :
    "[" ++ f.sequence form (used + 1) "" xs ++ "]" = "[" ++ commaSeparated (xs.map full) ++ "]" ∧
      f.canSequence can form (used + 1) "" xs = xs.all has := by
  have hbrackets : "[".length = 1 ∧ "]".length = 1 ∧ "".length = 0 := by decide
  cases xs with
  | nil => exact ⟨rfl, rfl⟩
  | cons first rest =>
    rw [String.length_append, String.length_append] at hfits
    obtain ⟨hforms, hcans⟩ := sequence_of_fits hone (used + 1) "" (by omega)
    exact ⟨by rw [hforms, String.empty_append], hcans⟩

end Sequence

/-- A value whose whole form fits is shown by it. -/
theorem formatAt_of_fits (h : used + (v.inFull f.showObject).length ≤ f.budget) :
    f.formatAt used v = v.inFull f.showObject ∧ f.canFormatAt used v = v.hasSourceText f.canShow := by
  induction v using Value.induction_on_items generalizing used with
  | step v ih =>
    cases hitems : v.shownItems? with
    | some items =>
      rw [Value.inFull_of_items hitems] at h ⊢
      rw [formatAt_of_items hitems, canFormatAt_of_items hitems, formatItems_eq, canFormatItems_eq,
        Value.hasSourceText_of_items hitems, Value.allHaveSourceText_eq_all]
      exact bracketed_of_fits (fun i hi _ hfits => ih items hitems i hi hfits) h
    | none =>
      cases v with
      | array | list | tuple | set | frozenset => cases hitems
      | null | bool | char | hostInt | hostFloat => rw [formatAt, Value.inFull, canFormatAt] <;> simp
      | integral kind n => cases kind <;> rw [formatAt, Value.inFull, canFormatAt] <;> simp
      | floating kind x id => cases kind <;> rw [formatAt, Value.inFull, canFormatAt] <;> simp
      | str text =>
        rw [Value.inFull] at h ⊢
        rw [formatAt, stringLiteral_of_fits h, canFormatAt] <;> simp
      | units codes =>
        rw [Value.inFull] at h ⊢
        rw [formatAt, stringLiteral_of_fits h, canFormatAt] <;> simp
      | map entries =>
        rw [Value.inFull] at h ⊢
        rw [formatAt, canFormatAt, formatEntries_eq, canFormatEntries_eq, Value.hasSourceText,
          Value.entriesHaveSourceText_eq_all]
        exact bracketed_of_fits (fun entry _ _ hfits => ⟨cut_of_fits hfits, rfl⟩) h
      | _ =>
        rw [Value.inFull] at h ⊢
        · rw [formatAt, cut_of_fits h, canFormatAt]
          all_goals simp
        all_goals simp

lemma formatted_of_fits (h : (v.inFull f.showObject).length ≤ f.budget) :
    f.formatted v = if v.hasSourceText f.canShow then .ok (v.inFull f.showObject) else .error .type := by
  rw [← Nat.zero_add (String.length _)] at h
  obtain ⟨hform, hcan⟩ := formatAt_of_fits h
  rw [formatted, format, hform, hcan]

lemma formatCodes_of_fits (h : (v.inFull f.showObject).length ≤ f.budget) :
    f.formatCodes v = v.codesInFull f.showObject := by
  rw [← Nat.zero_add (String.length _)] at h
  have hform := (formatAt_of_fits h).1
  cases v with
  | units codes =>
    rw [Value.inFull, length_ofCodes] at h
    exact quotedLiteral_of_fits h
  | char => rfl
  | _ =>
    rw [Value.codesInFull, formatCodes, format, hform]
    all_goals simp

end Formatter

/-- From some budget on all budgets show a value in the same form. Every budget that has room for this form shows the
value in it. -/
theorem fitting_value_shown_in_full (f : Formatter) (v : Value) :
    ∃ enough shown literal,
      (∀ budget ≥ enough,
        { f with budget := budget }.formatted v = shown ∧ { f with budget := budget }.formatCodes v = literal) ∧
      ∀ text, shown = .ok text → text.length ≤ f.budget → f.formatted v = .ok text ∧ f.formatCodes v = literal := by
  refine ⟨(v.inFull f.showObject).length,
    if v.hasSourceText f.canShow then .ok (v.inFull f.showObject) else .error .type, v.codesInFull f.showObject,
    fun budget hbudget => ?_, fun text htext hfits => ?_⟩
  · have hroom : (v.inFull f.showObject).length ≤ { f with budget := budget }.budget := hbudget
    exact ⟨Formatter.formatted_of_fits hroom, Formatter.formatCodes_of_fits hroom⟩
  · split at htext
    · cases htext
      rw [Formatter.formatted_of_fits hfits, Formatter.formatCodes_of_fits hfits, if_pos ‹_›]
      exact ⟨rfl, rfl⟩
    · cases htext

/-- The whole budget can be used. -/
example : (Host.Heap.empty.formatter 15).format (.list [.str "a\n", .tuple [.null]]) = "[\"a\\n\", [null]]" := by
  decide

end PredicateTrace
