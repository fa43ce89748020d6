import Mathlib.Data.List.Forall2
import PredicateTrace.Proofs.Pieces

/-!
# Tokens apart from their gaps

The tokens of a source depend on nothing but their own characters: with single spaces between them, or each of them
alone, they are read again.
-/

namespace PredicateTrace.Token

open Text (codes shown)

variable {code : Nat} {piece : List Nat} {pieces : List (List Nat)} {position : Position} {t : Token} {ts : List Token}

/-- What a token is and how it is written, without its place. -/
def content (t : Token) : Lexeme × String :=
  (t.lexeme, t.text)

/-- Some codes are read as a token wherever they are separated from what follows. -/
def Detached (t : Token) (piece : List Nat) : Prop :=
  Text.ofCodes piece = t.text ∧ Reads Separated piece (Only t.lexeme t.text)

lemma detached_of_readPiece {body rest : List Nat} {l : Lexeme}
    (h : readPiece code (body ++ rest) = .token l (body.length + 1)) (position : Position) :
    Detached ⟨l, position, Text.ofCodes (code :: body)⟩ (code :: body) := by
  obtain ⟨body', tail, hsplit, hn, hagain⟩ := readPiece_token h
  obtain rfl : body = body' := (List.append_inj hsplit (by omega)).1
  exact ⟨rfl, reads_token hagain⟩

lemma detached_of_scanned {source : List Nat} {result : Except SyntaxError Tokens} {found : Tokens}
    (h : Scanned position source result) (hfound : result = .ok found) :
    ∃ pieces, List.Forall₂ (fun t piece => Detached t piece ∧ piece <:+: source) found.tokens pieces := by
  have hbehind (before : List Nat) {rest : List Nat} {ts : List Token} {pieces : List (List Nat)}
      (hrest : List.Forall₂ (fun t piece => Detached t piece ∧ piece <:+: rest) ts pieces) :
      List.Forall₂ (fun t piece => Detached t piece ∧ piece <:+: before ++ rest) ts pieces :=
    hrest.imp fun t piece h => ⟨h.1, h.2.trans (List.suffix_append before rest).isInfix⟩
  induction h generalizing found with
  | finish =>
    obtain rfl := Except.ok.inj hfound
    exact ⟨[], .nil⟩
  | @skipped position code body rest result hpiece h ih =>
    obtain ⟨pieces, hrest⟩ := ih hfound
    exact ⟨pieces, hbehind (code :: body) hrest⟩
  | @token position code body rest l result hpiece h ih =>
    obtain ⟨following, rfl, rfl⟩ := map_eq_ok.mp hfound
    obtain ⟨pieces, hrest⟩ := ih rfl
    have hfirst : code :: body <:+: code :: body ++ rest := (List.prefix_append _ _).isInfix
    exact ⟨(code :: body) :: pieces, .cons ⟨detached_of_readPiece hpiece position, hfirst⟩
      (hbehind (code :: body) hrest)⟩
  | mistake hpiece => cases hfound
  | unreadable hpiece => cases hfound

lemma reads_nothing : Reads Separated [] (· = []) := by
  intro position
  refine ⟨[], rfl, fun rest _ => ?_⟩
  have hafter : after position [] = position := rfl
  rw [hafter, List.nil_append]
  cases scan position 0 rest <;> rfl

/-- Tokens with spaces between them are read one by one. -/
lemma reads_joined (h : List.Forall₂ Detached ts pieces) :
    Reads Separated ((codes " ").intercalate pieces) fun w => w.map content = ts.map content := by
  induction h with
  | nil => exact reads_nothing.imp fun w hw => by rw [hw]
  | @cons t piece ts pieces hpiece hrest ih =>
    cases pieces with
    | nil =>
      cases hrest
      rw [List.intercalate_singleton]
      refine hpiece.2.imp fun w hw => ?_
      obtain ⟨t', rfl, hlexeme, htext⟩ := hw
      simp [content, hlexeme, htext]
    | cons next more =>
      have hspace : Reads (fun _ => True) (codes " ") (· = []) := reads_blank
      have hfirst := hpiece.2.append hspace fun rest _ => separated_space rest
      have hall := hfirst.append ih fun rest _ => trivial
      rw [List.intercalate_cons_cons]
      refine hall.imp fun w hw => ?_
      obtain ⟨_, v, rfl, ⟨u, _, rfl, ⟨t', rfl, hlexeme, htext⟩, rfl⟩, hv⟩ := hw
      simp [content, hlexeme, htext] at hv ⊢
      exact hv

/-- Tokenizing a text gives tokens of the same kinds, values and texts. -/
def Regains {α : Type} [Text.Coded α] (source : α) (ts : List Token) : Prop :=
  ∃ found, tokenize source = .ok found ∧ found.tokens.map content = ts.map content

lemma regains_of_reads {source : List Nat} (h : Reads Separated source fun w => w.map content = ts.map content) :
    Regains source ts := by
  obtain ⟨w, finish, hw, hread⟩ := h.tokenize separated_nil
  exact ⟨⟨w, finish⟩, hread, hw⟩

lemma Detached.regains (h : Detached t piece) : Regains piece [t] := by
  have hjoined := reads_joined (List.Forall₂.cons h .nil)
  rw [List.intercalate_singleton] at hjoined
  exact regains_of_reads hjoined

/-- A stretch of a text of characters is told by the characters that show it. -/
lemma codes_ofCodes_of_infix {source : String} (h : piece <:+: codes source) : codes (Text.ofCodes piece) = piece := by
  have hvalid : ∀ code ∈ piece, (shown code).toNat = code := by
    intro code hcode
    obtain ⟨c, -, rfl⟩ := List.mem_map.mp (h.subset hcode)
    rw [Text.shown_toNat]
  rw [codes, Text.ofCodes, String.toList_ofList, List.map_map]
  exact (List.map_congr_left hvalid).trans (List.map_id piece)

/-- The tokens of a source are read again with single spaces between them, and each of them alone. In a source with
codes that are no characters, they are the codes of the tokens that are read again. -/
theorem tokens_respaced :
    (∀ (source : String) (found : Tokens), tokenize source = .ok found →
      Regains (String.intercalate " " (found.tokens.map Token.text)) found.tokens ∧
        ∀ t ∈ found.tokens, Regains t.text [t]) ∧
    ∀ (source : List Nat) (found : Tokens), tokenize source = .ok found → ∃ pieces,
      List.Forall₂ (fun t piece => piece <:+: source ∧ Text.ofCodes piece = t.text ∧ Regains piece [t])
        found.tokens pieces ∧
      Regains ((codes " ").intercalate pieces) found.tokens := by
  have hpieces (source : List Nat) (found : Tokens) (h : tokenize source = .ok found) :
      ∃ pieces, List.Forall₂ (fun t piece => Detached t piece ∧ piece <:+: source) found.tokens pieces :=
    detached_of_scanned (scanned .start source) h
  constructor
  · intro source found h
    obtain ⟨pieces, hdetached⟩ := hpieces (codes source) found h
    have htext : List.Forall₂ (fun t piece => codes t.text = piece) found.tokens pieces :=
      hdetached.imp fun t piece h => by rw [← h.1.1, codes_ofCodes_of_infix h.2]
    obtain rfl : found.tokens.map (fun t => codes t.text) = pieces :=
      List.forall₂_eq_eq_eq ▸ List.forall₂_map_left_iff.mpr htext
    have hjoined := regains_of_reads (reads_joined (hdetached.imp fun t piece h => h.1))
    have hcodes : found.tokens.map (fun t => codes t.text) = (found.tokens.map Token.text).map codes := by
      rw [List.map_map]
      rfl
    rw [hcodes, ← Text.codes_intercalate] at hjoined
    refine ⟨hjoined, fun t ht => ?_⟩
    exact (List.forall₂_same.mp (List.forall₂_map_right_iff.mp hdetached) t ht).1.regains
  · intro source found h
    obtain ⟨pieces, hdetached⟩ := hpieces source found h
    refine ⟨pieces, hdetached.imp fun t piece h => ⟨h.2, h.1.1, h.1.regains⟩, ?_⟩
    exact regains_of_reads (reads_joined (hdetached.imp fun t piece h => h.1))

/-- The point of an access and the slash before a comment keep their meaning. -/
theorem tokens_respaced_of_access :
    ∃ found, tokenize "1.x/ // y\n-2L" = .ok found ∧
      Regains "1 . x / - 2L" found.tokens ∧ ∀ t ∈ found.tokens, Regains t.text [t] := by
  have htokens : tokenize "1.x/ // y\n-2L" = .ok ⟨[⟨.int 1, ⟨1, 1⟩, "1"⟩, ⟨.symbol .dot, ⟨1, 2⟩, "."⟩,
      ⟨.ident "x", ⟨1, 3⟩, "x"⟩, ⟨.symbol .slash, ⟨1, 4⟩, "/"⟩, ⟨.symbol .minus, ⟨2, 1⟩, "-"⟩,
      ⟨.long 2, ⟨2, 2⟩, "2L"⟩], ⟨2, 4⟩⟩ := rfl
  obtain ⟨hjoined, halone⟩ := tokens_respaced.1 _ _ htokens
  exact ⟨_, htokens, hjoined, halone⟩

end PredicateTrace.Token
