import PredicateTrace.Proofs.ShownForms

/-!
# The length of shown values

However large a value is, the form in which it is shown exceeds the budget only by a bounded number of characters:
by what one number, or the least that a text is cut to, takes once the budget is spent, and by an ellipsis with its
separator and a bracket for every container around it.
-/

namespace PredicateTrace

open Text (sourcePieceCodes escapeWithin)

variable {f : Formatter} {used : Nat} {separator : String} {v : Value} {items : List Value}

/-! ### Depths and leaves -/

namespace Value

mutual

/-- How deep the containers of a value nest. The entries of a map are shown as texts, whatever they hold. -/
def nesting : Value → Nat
  | .map _ => 1
  | .array _ _ items | .list items | .tuple items | .set items | .frozenset items => 1 + nestingOfAll items
  | _ => 0

/-- How deep the containers of some values nest. -/
def nestingOfAll : List Value → Nat
  | [] => 0
  | v :: rest => max (nesting v) (nestingOfAll rest)

end

lemma nesting_of_items (h : v.shownItems? = some items) : v.nesting = 1 + nestingOfAll items := by
  cases v <;> cases h <;> rw [nesting]

lemma nesting_le_nestingOfAll {i : Value} (hi : i ∈ items) : i.nesting ≤ nestingOfAll items := by
  induction items with
  | nil => cases hi
  | cons first rest ih =>
    rw [nestingOfAll]
    cases hi with
    | head => exact Nat.le_max_left _ _
    | tail _ hi => exact (ih hi).trans (Nat.le_max_right _ _)

mutual

/-- What a value shows by itself: the value, or the leaves of the elements that it shows. -/
def leaves : Value → List Value
  | .array _ _ items | .list items | .tuple items | .set items | .frozenset items => leavesOfAll items
  | v => [v]

/-- What some values show by themselves. -/
def leavesOfAll : List Value → List Value
  | [] => []
  | v :: rest => leaves v ++ leavesOfAll rest

end

lemma leaves_of_items (h : v.shownItems? = some items) : v.leaves = leavesOfAll items := by
  cases v <;> cases h <;> rw [leaves]

lemma leaves_of_none (h : v.shownItems? = none) : v.leaves = [v] := by
  cases v with
  | array | list | tuple | set | frozenset => cases h
  | _ => rw [leaves] <;> simp

lemma mem_leavesOfAll {x i : Value} (hi : i ∈ items) (hx : x ∈ i.leaves) : x ∈ leavesOfAll items := by
  induction items with
  | nil => cases hi
  | cons first rest ih =>
    rw [leavesOfAll, List.mem_append]
    cases hi with
    | head => exact Or.inl hx
    | tail _ hi => exact Or.inr (ih hi)

/-- Whether a value is a number, with a kind or without. -/
def isNumber : Value → Bool
  | .integral .. | .floating .. | .hostInt _ | .hostFloat .. => true
  | _ => false

end Value

/-! ### Leaves -/

namespace Formatter

/-- The number of characters that a leaf may have beyond the budget. -/
def leafExcess : Nat := 24

/-- The number of characters that a container adds to those that its elements have beyond the budget: a separator, an
ellipsis and a bracket. -/
def levelExcess : Nat := 6

/-- Escaping stops with the piece that uses up the budget and an ellipsis. -/
lemma length_escapeWithin_le {budget : Nat} (h : used < budget) (literal : List Nat) :
    used + (escapeWithin budget used literal).length ≤ budget + 8 := by
  induction literal generalizing used with
  | nil =>
    rw [escapeWithin, List.length_nil]
    omega
  | cons code rest ih =>
    have hpiece := Token.length_sourcePieceCodes_le code
    have hellipsis : (Text.codes "...").length = 3 := by decide
    rw [escapeWithin]
    split
    · rw [List.length_append, hellipsis]
      omega
    · have hroom : used + (sourcePieceCodes code).length < budget := by omega
      have hrest := ih hroom
      rw [List.length_append]
      omega

lemma length_stringLiteral_le (hused : used ≤ f.budget) (literal : List Nat) :
    used + (f.stringLiteral used literal).length ≤ f.budget + leafExcess := by
  have hbudget : 0 < f.textBudget used := by
    rw [textBudget, floor]
    omega
  have hescaped := length_escapeWithin_le hbudget literal
  rw [stringLiteral, length_ofCodes, quotedLiteral, List.cons_append, List.length_cons, List.length_append,
    List.length_singleton, leafExcess]
  rw [textBudget, floor] at hescaped
  rw [textBudget, floor]
  omega

lemma length_cut_le (hused : used ≤ f.budget) (text : String) :
    used + (f.cut used text).length ≤ f.budget + leafExcess := by
  have hellipsis : "...".length = 3 := by decide
  rw [cut, Text.abbreviate, objectBudget, floor, leafExcess]
  split
  · rw [if_neg (by omega), String.length_append, String.length_ofList, List.length_take, hellipsis]
    omega
  · omega

lemma length_charLiteral_le (code : Nat) : (charLiteral code).length ≤ 8 := by
  have hpiece := Token.length_sourcePieceCodes_le code
  rw [charLiteral, length_ofCodes, Token.quotedLiteral_single, List.length_cons, List.length_append,
    List.length_singleton]
  omega

/-- A number has the same form wherever it stands. -/
lemma formatAt_of_isNumber (h : v.isNumber = true) : f.formatAt used v = f.format v := by
  cases v with
  | integral kind => cases kind <;> rw [format, formatAt, formatAt] <;> simp
  | floating kind => cases kind <;> rw [format, formatAt, formatAt]
  | hostInt | hostFloat => rw [format, formatAt, formatAt]
  | _ => cases h

/-! ### Containers -/

/-- Forms that keep to a limit one by one exceed it together only by a separator and an ellipsis. -/
lemma length_sequence_le {α : Type} {form : Nat → α → String} {xs : List α} {limit : Nat}
    (hone : ∀ x ∈ xs, ∀ used ≤ f.budget, used + (form used x).length ≤ limit) (used : Nat) (hused : used ≤ limit)
    (separator : String) (hseparator : separator.length ≤ 2) :
    used + (f.sequence form used separator xs).length ≤ limit + 5 := by
  induction xs generalizing used separator with
  | nil =>
    rw [sequence, String.length_empty]
    omega
  | cons x rest ih =>
    have hellipsis : "...".length = 3 ∧ ", ".length = 2 := by decide
    rw [sequence]
    split
    · rw [String.length_append]
      omega
    · have hx := hone x List.mem_cons_self (used + separator.length) (by omega)
      have hrest := ih (fun y hy => hone y (List.mem_cons_of_mem _ hy)) (used + separator.length + _) hx ", " (by omega)
      rw [String.length_append, String.length_append]
      omega

lemma length_bracketed_le {α : Type} {form : Nat → α → String} {xs : List α} {excess : Nat} (hpos : 0 < excess)
    (hused : used ≤ f.budget) (hone : ∀ x ∈ xs, ∀ used ≤ f.budget, used + (form used x).length ≤ f.budget + excess) :
    used + ("[" ++ f.sequence form (used + 1) "" xs ++ "]").length ≤ f.budget + (excess + levelExcess) := by
  have hsequence := length_sequence_le hone (used + 1) (by omega) "" (by decide)
  have hbrackets : "[".length = 1 ∧ "]".length = 1 := by decide
  rw [String.length_append, String.length_append, levelExcess]
  omega

/-- What is begun within the budget exceeds it by the excess of a leaf and of each level of containers at most. -/
theorem length_formatAt_le (hused : used ≤ f.budget)
    (hnumbers : ∀ x ∈ v.leaves, x.isNumber = true → (f.format x).length ≤ leafExcess) :
    used + (f.formatAt used v).length ≤ f.budget + (leafExcess + levelExcess * v.nesting) := by
  induction v using Value.induction_on_items generalizing used with
  | step v ih =>
    cases hitems : v.shownItems? with
    | some items =>
      rw [Value.leaves_of_items hitems] at hnumbers
      have hone (i : Value) (hi : i ∈ items) (begun : Nat) (hbegun : begun ≤ f.budget) :
          begun + (f.formatAt begun i).length ≤
            f.budget + (leafExcess + levelExcess * Value.nestingOfAll items) := by
        have hi' := ih items hitems i hi hbegun fun x hx => hnumbers x (Value.mem_leavesOfAll hi hx)
        have hnesting := Nat.mul_le_mul_left levelExcess (Value.nesting_le_nestingOfAll hi)
        omega
      have hall := length_bracketed_le (by simp [leafExcess]) hused hone
      rw [formatAt_of_items hitems, formatItems_eq, Value.nesting_of_items hitems, Nat.mul_add]
      omega
    | none =>
      rw [Value.leaves_of_none hitems] at hnumbers
      have hfixed {text : String} (h : text.length ≤ leafExcess) : used + text.length ≤ f.budget + leafExcess := by
        omega
      have hnumber (h : v.isNumber = true) : used + (f.formatAt used v).length ≤ f.budget + leafExcess := by
        rw [formatAt_of_isNumber h]
        exact hfixed (hnumbers v List.mem_cons_self h)
      have hleaf (h : used + (f.formatAt used v).length ≤ f.budget + leafExcess) :
          used + (f.formatAt used v).length ≤ f.budget + (leafExcess + levelExcess * v.nesting) := by
        omega
      cases v with
      | array | list | tuple | set | frozenset => cases hitems
      | map entries =>
        rw [formatAt, formatEntries_eq, Value.nesting]
        exact length_bracketed_le (by simp [leafExcess]) hused fun _ _ _ hbegun => length_cut_le hbegun _
      | integral | floating | hostInt | hostFloat => exact hleaf (hnumber rfl)
      | null =>
        rw [formatAt] at hleaf ⊢
        exact hleaf (hfixed (by decide))
      | bool b =>
        rw [formatAt] at hleaf ⊢
        exact hleaf (hfixed (by cases b <;> decide))
      | char code =>
        rw [formatAt] at hleaf ⊢
        exact hleaf (hfixed ((length_charLiteral_le code).trans (by decide)))
      | str | units =>
        rw [formatAt] at hleaf ⊢
        exact hleaf (length_stringLiteral_le hused _)
      | _ =>
        rw [formatAt] at hleaf ⊢
        · exact hleaf (length_cut_le hused _)
        all_goals simp

/-! ### Values that have a text -/

lemma canSequence_of_all {α : Type} {can : Nat → α → Bool} {form : Nat → α → String} {xs : List α}
    (h : ∀ x ∈ xs, ∀ used, can used x = true) : f.canSequence can form used separator xs = true := by
  induction xs generalizing used separator with
  | nil => rw [canSequence]
  | cons x rest ih =>
    rw [canSequence, h x List.mem_cons_self, ih fun y hy => h y (List.mem_cons_of_mem _ hy)]
    simp

lemma canFormatAt_of_hasSourceText (h : v.hasSourceText f.canShow = true) : f.canFormatAt used v = true := by
  induction v using Value.induction_on_items generalizing used with
  | step v ih =>
    cases hitems : v.shownItems? with
    | some items =>
      rw [Value.hasSourceText_of_items hitems, Value.allHaveSourceText_eq_all, List.all_eq_true] at h
      rw [canFormatAt_of_items hitems, canFormatItems_eq]
      exact canSequence_of_all fun i hi used => ih items hitems i hi (h i hi)
    | none =>
      cases v with
      | array | list | tuple | set | frozenset => cases hitems
      | map entries =>
        rw [Value.hasSourceText, Value.entriesHaveSourceText_eq_all, List.all_eq_true] at h
        rw [canFormatAt, canFormatEntries_eq]
        exact canSequence_of_all fun entry hentry _ => h entry hentry
      | _ =>
        rw [canFormatAt]
        · exact h
        all_goals simp

end Formatter

/-- A value whose containers nest at most `d` deep, and whose numbers take at most 24 characters each, exceeds the
budget by at most 24 characters and 6 for each level, however many elements it has and however long its texts are. -/
theorem shown_length_bounded (f : Formatter) (v : Value) (d : Nat) (hdepth : v.nesting ≤ d)
    (hnumbers : ∀ x ∈ v.leaves, x.isNumber = true → (f.format x).length ≤ 24) :
    (v.hasSourceText f.canShow = true → f.formatted v = .ok (f.format v)) ∧
      ∀ text, f.formatted v = .ok text → text.length ≤ f.budget + 24 + 6 * d := by
  refine ⟨fun htext => ?_, fun text htext => ?_⟩
  · rw [Formatter.formatted, if_pos (Formatter.canFormatAt_of_hasSourceText htext)]
  · have hlength := Formatter.length_formatAt_le (Nat.zero_le f.budget) hnumbers
    have hlevels := Nat.mul_le_mul_left Formatter.levelExcess hdepth
    rw [Formatter.formatted, Formatter.format] at htext
    rw [Formatter.leafExcess] at hlength
    rw [Formatter.levelExcess] at hlength hlevels
    split at htext
    · cases htext
      omega
    · cases htext

/-- A text that begins where the budget ends is cut to ten characters, and the lists around it are closed. -/
theorem shown_length_bounded_of_lists :
    let f := Host.Heap.empty.formatter 10
    let v := Value.list [.integral .int 123456, .list [.str "0123456789\n", .null], .null]
    v.nesting ≤ 2 ∧ (∀ x ∈ v.leaves, x.isNumber = true → (f.format x).length ≤ 24) ∧
      f.formatted v = .ok "[123456, [\"0123456789...\", ...], ...]" ∧
      ∀ text, f.formatted v = .ok text → text.length ≤ 10 + 24 + 6 * 2 := by
  intro f v
  have hdepth : v.nesting ≤ 2 := by decide
  have hnumbers : ∀ x ∈ v.leaves, x.isNumber = true → (f.format x).length ≤ 24 := by decide
  have hform : f.format v = "[123456, [\"0123456789...\", ...], ...]" := by decide
  have htext : v.hasSourceText f.canShow = true := by
    simp [v, Value.hasSourceText, Value.allHaveSourceText, Value.hasHostText, Value.hasLiteral]
  obtain ⟨hok, hlength⟩ := shown_length_bounded f v 2 hdepth hnumbers
  exact ⟨hdepth, hnumbers, (hok htext).trans (congrArg Except.ok hform), hlength⟩

end PredicateTrace
