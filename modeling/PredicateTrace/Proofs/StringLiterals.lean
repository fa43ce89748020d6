import PredicateTrace.Proofs.SourceReading
import PredicateTrace.Report

/-!
# Texts in the form of literals

A text is shown as a literal that is read as one token. The value of the token is the whole text if its escaped form
fits into the budget. Otherwise it is the shortest beginning that uses up the budget, with an ellipsis behind it, so
that a cut never falls inside an escape.
-/

namespace PredicateTrace

open Text (codes shown sourcePiece sourcePieceCodes)

variable {budget used : Nat}

/-! ### Escaped texts -/

/-- A text with its escapes, however long. -/
def Text.escaped (text : String) : String :=
  String.join (text.toList.map sourcePiece)

namespace Text

lemma escaped_append (s t : String) : escaped (s ++ t) = escaped s ++ escaped t := by
  rw [escaped, String.toList_append, List.map_append, String.join_append]
  rfl

lemma escaped_cons (c : Char) (cs : List Char) :
    escaped (String.ofList (c :: cs)) = sourcePiece c ++ escaped (String.ofList cs) := by
  rw [escaped, String.toList_ofList, List.map_cons, String.join_cons, escaped, String.toList_ofList]

lemma escaped_nil : escaped (String.ofList []) = "" :=
  rfl

lemma escaped_ellipsis : escaped "..." = "..." := by
  decide

lemma sourcePieceCodes_toNat (c : Char) : sourcePieceCodes c.toNat = codes (sourcePiece c) := by
  have hvalid : c.toNat.isValidChar := c.valid
  rw [sourcePieceCodes, if_pos hvalid, Char.ofNat_toNat]

lemma codes_empty : codes "" = [] :=
  rfl

lemma codes_escaped_cons (c : Char) (cs : List Char) :
    codes (escaped (String.ofList (c :: cs))) = sourcePieceCodes c.toNat ++ codes (escaped (String.ofList cs)) := by
  rw [escaped_cons, codes_append, sourcePieceCodes_toNat]

lemma length_codes (text : String) : (codes text).length = text.length := by
  rw [codes, List.length_map, String.length_toList]

/-- The shortest beginning of a text whose escaped form has at least a number of characters. -/
structure IsCut (budget : Nat) (text p : String) : Prop where
  isPrefix : p.toList <+: text.toList
  reaches : budget ≤ (escaped p).length
  shortest : ∀ q : String, q.toList <+: text.toList → budget ≤ (escaped q).length → p.length ≤ q.length

/-- Escaping goes on to the end of a text that fits. Otherwise it stops with the shortest beginning that does not. -/
lemma escapeWithin_cases (cs : List Char) (h : used < budget) :
    (used + (escaped (String.ofList cs)).length < budget ∧
      escapeWithin budget used (cs.map Char.toNat) = codes (escaped (String.ofList cs))) ∨
    (budget ≤ used + (escaped (String.ofList cs)).length ∧ ∃ p, p <+: cs ∧
      budget ≤ used + (escaped (String.ofList p)).length ∧
      (∀ q, q <+: cs → budget ≤ used + (escaped (String.ofList q)).length → p.length ≤ q.length) ∧
      escapeWithin budget used (cs.map Char.toNat) = codes (escaped (String.ofList p) ++ "...")) := by
  induction cs generalizing used with
  | nil => exact Or.inl ⟨h, rfl⟩
  | cons c cs ih =>
    have hpiece : (sourcePieceCodes c.toNat).length = (sourcePiece c).length := by
      rw [sourcePieceCodes_toNat, length_codes]
    have hlength (more : List Char) : (escaped (String.ofList (c :: more))).length =
        (sourcePiece c).length + (escaped (String.ofList more)).length := by
      rw [escaped_cons, String.length_append]
    by_cases hcut : budget ≤ used + (sourcePiece c).length
    · refine Or.inr ⟨by rw [hlength]; omega, [c], by simp, by rw [hlength]; omega, fun q _ hq => ?_, ?_⟩
      · cases q with
        | nil =>
          rw [escaped_nil, String.length_empty] at hq
          omega
        | cons => simp
      · rw [List.map_cons, escapeWithin, hpiece, if_pos hcut, codes_append, codes_escaped_cons, escaped_nil,
          codes_empty, List.append_nil]
    · have hgoes (more : List Char) : escapeWithin budget used ((c :: more).map Char.toNat) =
          sourcePieceCodes c.toNat ++ escapeWithin budget (used + (sourcePiece c).length) (more.map Char.toNat) := by
        rw [List.map_cons, escapeWithin, hpiece, if_neg hcut]
      have hnext : used + (sourcePiece c).length < budget := by omega
      rcases ih hnext with ⟨hfits, hwritten⟩ | ⟨hreaches, p, hp, hlong, hshortest, hwritten⟩
      · exact Or.inl ⟨by rw [hlength]; omega, by rw [hgoes, hwritten, codes_escaped_cons]⟩
      · refine Or.inr ⟨by rw [hlength]; omega, c :: p, (List.prefix_cons_inj c).mpr hp, by rw [hlength]; omega,
          fun q hq hlongq => ?_, ?_⟩
        · cases q with
          | nil =>
            rw [escaped_nil, String.length_empty] at hlongq
            omega
          | cons d q =>
            obtain ⟨rfl, hmore⟩ := List.cons_prefix_cons.mp hq
            rw [hlength] at hlongq
            exact Nat.succ_le_succ (hshortest q hmore (by omega))
        · rw [hgoes, hwritten, codes_append, codes_append, codes_escaped_cons, List.append_assoc]

end Text

/-! ### Reading escaped texts -/

namespace Token

lemma readQuoted_escaped (unclosed : SyntaxCause) (offset : Nat) (cs : List Char) (rest : List Nat) :
    readQuoted '"' unclosed offset 0 (codes (Text.escaped (String.ofList cs)) ++ 34 :: rest) =
      .ok (cs.map Char.toNat, offset + (codes (Text.escaped (String.ofList cs))).length + 1) := by
  induction cs generalizing offset with
  | nil => rfl
  | cons c cs ih =>
    rw [Text.codes_escaped_cons, List.append_assoc, readQuoted_piece_append (Or.inr rfl), ih, List.length_append,
      List.map_cons]
    simp only [bind, Except.bind, pure, Except.pure]
    congr 2
    omega

lemma ofCodes_codes (text : String) : Lexeme.ofCodes (codes text) = .string text := by
  have hproper : Text.isProper (codes text) = true := by
    refine List.all_eq_true.mpr fun code hcode => ?_
    obtain ⟨c, -, rfl⟩ := List.mem_map.mp hcode
    exact decide_eq_true c.valid
  rw [Lexeme.ofCodes, if_pos hproper, Text.ofCodes_codes]

/-- An escaped text between quotes is one token, whatever follows it. -/
lemma reads_string (text : String) :
    Reads (fun _ => True) (codes ("\"" ++ Text.escaped text ++ "\""))
      (Only (.string text) ("\"" ++ Text.escaped text ++ "\"")) := by
  have hcodes : codes ("\"" ++ Text.escaped text ++ "\"") = 34 :: (codes (Text.escaped text) ++ [34]) := by
    rw [Text.codes_append, Text.codes_append]
    rfl
  have hliteral : Reads (fun _ => True) (34 :: (codes (Text.escaped text) ++ [34])) (Only (.string text) _) :=
    reads_token fun rest _ => by
      have hread := readQuoted_escaped .unclosedString 1 text.toList rest
      rw [String.ofList_toList] at hread
      have hquote : shown 34 = '"' := by decide
      rw [readPiece, hquote, if_neg (by decide), if_pos rfl, readString, List.append_assoc, List.singleton_append,
        hread]
      have hvalue : text.toList.map Char.toNat = codes text := rfl
      simp only [hvalue, ofCodes_codes, Piece.ofResult, bind, Except.bind, pure, Except.pure]
      congr 1
      simp
      omega
  rwa [← hcodes, Text.ofCodes_codes] at hliteral

end Token

/-! ### Shown texts -/

/-- What a text is shown as within a budget: itself, or a beginning of it with an ellipsis. -/
def Text.IsShown (budget : Nat) (text v : String) : Prop :=
  if (escaped text).length < budget then v = text else ∃ p, IsCut budget text p ∧ v = p ++ "..."

lemma exists_isShown (hbudget : 0 < budget) (text : String) :
    ∃ v, Text.IsShown budget text v ∧
      Formatter.quotedLiteral '"' (codes text) budget = codes ("\"" ++ Text.escaped v ++ "\"") := by
  have hquoted {v : String} (h : Text.escapeWithin budget 0 (codes text) = codes (Text.escaped v)) :
      Formatter.quotedLiteral '"' (codes text) budget = codes ("\"" ++ Text.escaped v ++ "\"") := by
    rw [Formatter.quotedLiteral, h, Text.codes_append, Text.codes_append]
    rfl
  have hcases := Text.escapeWithin_cases text.toList hbudget
  rw [String.ofList_toList] at hcases
  rcases hcases with ⟨hfits, hwritten⟩ | ⟨hlong, p, hp, hreaches, hshortest, hwritten⟩
  · refine ⟨text, ?_, hquoted hwritten⟩
    rw [Text.IsShown, if_pos (by omega)]
  · refine ⟨String.ofList p ++ "...", ?_, hquoted ?_⟩
    · rw [Text.IsShown, if_neg (by omega)]
      refine ⟨String.ofList p, ⟨by rwa [String.toList_ofList], by omega, fun q hq hqlong => ?_⟩, rfl⟩
      rw [String.length_ofList, ← String.length_toList]
      exact hshortest q.toList hq (by rw [String.ofList_toList]; omega)
    · rw [Text.escaped_append, Text.escaped_ellipsis]
      exact hwritten

/-- A shown text is a literal of one token. Its value is the text if the escaped form fits into the budget, and
otherwise the shortest beginning that does not, with an ellipsis; the form of that value is what is shown. -/
theorem string_literal_shown (f : Formatter) (s : String) :
    f.formatted (.str s) = .ok (f.format (.str s)) ∧
      ∃ v, Text.IsShown (max 10 (f.budget - 1)) s v ∧ f.format (.str s) = "\"" ++ Text.escaped v ++ "\"" ∧
        ∃ t finish, Token.tokenize (f.format (.str s)) = .ok ⟨[t], finish⟩ ∧ t.lexeme = .string v := by
  have hbudget : 0 < f.textBudget 0 := by simp [Formatter.textBudget, Formatter.floor]
  obtain ⟨v, hv, hliteral⟩ := exists_isShown hbudget s
  have hformat : f.format (.str s) = "\"" ++ Text.escaped v ++ "\"" := by
    have hshown : f.format (.str s) = Text.ofCodes (Formatter.quotedLiteral '"' (codes s) (f.textBudget 0)) := rfl
    rw [hshown, hliteral, Text.ofCodes_codes]
  obtain ⟨w, finish, ⟨t, rfl, hlexeme, -⟩, htokens⟩ := (Token.reads_string v).tokenize trivial
  refine ⟨?_, v, hv, hformat, t, finish, by rw [hformat]; exact htokens, hlexeme⟩
  simp [Formatter.formatted, Formatter.canFormatAt, Value.hasSourceText, Value.hasHostText, Value.hasLiteral]

/-- The escape that uses up the budget is shown as a whole. -/
example : (Host.Heap.empty.formatter 11).format (.str "123456789\n0") = "\"123456789\\n...\"" := by decide

end PredicateTrace
