import PredicateTrace.Proofs.ParserDepth
import PredicateTrace.Proofs.ParserPlaces
import PredicateTrace.Proofs.TokenLayout
import PredicateTrace.Proofs.UnreadableNumbers

/-!
# How sources are rejected

Scanning and parsing end for every source, with a result or with a syntax error at a character or at the end of the
source. The one exception is a number literal whose value the host refuses.
-/

namespace PredicateTrace

open Text (shown)

namespace Token

variable {codes rest : List Nat} {code : Nat} {position : Position} {literal : List Char}

/-- The scanner comes to a number literal. -/
inductive MeetsNumber (literal : List Char) : List Nat → Prop
  | here {codes : List Nat} (hbegins : beginsNumber (codes.map shown) = true)
    (hliteral : numberLiteral (codes.map shown) = literal) : MeetsNumber literal codes
  | skipped {code : Nat} {body rest : List Nat} (hpiece : readPiece code (body ++ rest) = .skipped (body.length + 1))
    (h : MeetsNumber literal rest) : MeetsNumber literal (code :: (body ++ rest))
  | token {code : Nat} {body rest : List Nat} {l : Lexeme}
    (hpiece : readPiece code (body ++ rest) = .token l (body.length + 1)) (h : MeetsNumber literal rest) :
    MeetsNumber literal (code :: (body ++ rest))

/-- What is read between quotes is never a number. -/
lemma not_unreadable_of_quoted {mark : Char} {unclosed : SyntaxCause}
    {next : List Nat × Nat → Except Mistake (Lexeme × Nat)}
    (hnext : ∀ found, next found ≠ .error .unreadableNumber) :
    (readQuoted mark unclosed 1 0 rest >>= next) ≠ .error .unreadableNumber := by
  intro h
  cases hread : readQuoted mark unclosed 1 0 rest with
  | ok found =>
    rw [hread] at h
    exact hnext found h
  | error m =>
    obtain ⟨k, cause, rfl, -⟩ := readQuoted_error (by simp) hread
    rw [hread] at h
    cases h

lemma readPlain_unreadable {c : Char} {text : List Char} (h : readPlain c text = .mistake .unreadableNumber) :
    beginsNumber (c :: text) = true ∧ IsUnreadable (numberLiteral (c :: text)) := by
  cases plainPiece_of_readPlain h with
  | wrongNumber hbegins hread =>
    obtain ⟨hvalue, -⟩ | ⟨_, hm⟩ := readNumber_error hread
    · exact ⟨hbegins, isUnreadable_of_scanNumber hbegins hvalue⟩
    · cases hm

lemma readPiece_unreadable (h : readPiece code rest = .mistake .unreadableNumber) :
    beginsNumber ((code :: rest).map shown) = true ∧ IsUnreadable (numberLiteral ((code :: rest).map shown)) := by
  unfold readPiece at h
  split at h
  · refine absurd (ofResult_mistake h) (not_unreadable_of_quoted fun found => ?_)
    dsimp only
    split <;> simp [pure, Except.pure, throw, throwThe, MonadExceptOf.throw]
  split at h
  · exact absurd (ofResult_mistake h) (not_unreadable_of_quoted fun found => by simp [pure, Except.pure])
  exact readPlain_unreadable h

/-- A source is refused without a place because of a number literal. -/
lemma meetsNumber_of_scanned {result : Except SyntaxError Tokens} (h : Scanned position codes result)
    (hresult : result = .error .unreadableNumber) : ∃ literal, MeetsNumber literal codes ∧ IsUnreadable literal := by
  induction h with
  | finish => cases hresult
  | skipped hpiece h ih =>
    obtain ⟨literal, hmeets, hliteral⟩ := ih hresult
    exact ⟨literal, .skipped hpiece hmeets, hliteral⟩
  | @token _ _ _ _ _ result hpiece h ih =>
    cases result with
    | ok ts => cases hresult
    | error e =>
      obtain ⟨literal, hmeets, hliteral⟩ := ih hresult
      exact ⟨literal, .token hpiece hmeets, hliteral⟩
  | mistake => cases hresult
  | unreadable hpiece =>
    obtain ⟨hbegins, hliteral⟩ := readPiece_unreadable hpiece
    exact ⟨_, .here hbegins rfl, hliteral⟩

end Token

/-- A syntax error has the place of a character or of the end of the source. -/
def SyntaxError.IsPlaced (chars : List Char) (e : SyntaxError) : Prop :=
  ∃ offset ≤ chars.length, ∃ cause, e = .at (Position.ofOffset chars offset) cause

/-- Every source is scanned and parsed to a result or to a syntax error with a place, except if the scanner comes to a
number literal that has a digit of no decimal series or more digits than the host reads. The parser never uses up the
depth that it is given. -/
theorem rejected_with_place {α : Type} [Text.Coded α] (source : α) :
    (∀ e, Token.tokenize source = .error e ∨ Parser.parse source = .error e →
      e.IsPlaced (Text.charsOf source) ∨
        e = .unreadableNumber ∧
          ∃ literal, Token.MeetsNumber literal (Text.Coded.codesOf source) ∧ Token.IsUnreadable literal) ∧
    ∀ ts, Token.tokenize source = .ok ts → ∀ depth ≥ Parser.depthFor ts.tokens.length,
      Parser.expression ts.finish depth ts.tokens =
        Parser.expression ts.finish (Parser.depthFor ts.tokens.length) ts.tokens := by
  have hplaced := Token.placed_tokenize source
  have hscan : ∀ e, Token.tokenize source = .error e → e.IsPlaced (Text.charsOf source) ∨ e = .unreadableNumber ∧
      ∃ literal, Token.MeetsNumber literal (Text.Coded.codesOf source) ∧ Token.IsUnreadable literal := by
    intro e he
    rw [he] at hplaced
    cases e with
    | unreadableNumber => exact Or.inr ⟨rfl, Token.meetsNumber_of_scanned (Token.scanned _ _) he⟩
    | «at» p cause =>
      obtain ⟨offset, hoffset, rfl⟩ := hplaced
      exact Or.inl ⟨offset, hoffset, cause, rfl⟩
  refine ⟨fun e he => ?_, fun ts _ depth hdepth => Parser.expression_of_depth ts.finish ts.tokens hdepth⟩
  rcases he with he | he
  · exact hscan e he
  · unfold Parser.parse at he
    cases hread : Token.tokenize source with
    | error e' =>
      rw [hread] at he
      obtain rfl := Except.error.inj he
      exact hscan e' hread
    | ok ts =>
      rw [hread] at he hplaced
      obtain ⟨p, cause, rfl, hknown⟩ := Parser.known_of_parseTokens he
      obtain ⟨offset, hoffset, rfl⟩ := hplaced.exists_offset hknown
      exact Or.inl ⟨offset, hoffset, cause, rfl⟩

/-- The superscript of one digit is a number for the scanner, and none for the host: the source is refused, but not
with a place. -/
theorem superscript_refused_without_place :
    Token.tokenize "²" = .error .unreadableNumber ∧ Parser.parse "²" = .error .unreadableNumber ∧
      ¬∃ e : SyntaxError, Parser.parse "²" = .error e ∧ e.IsPlaced "²".toList := by
  have htokens : Token.tokenize "²" = .error .unreadableNumber := rfl
  have hparse : Parser.parse "²" = .error .unreadableNumber := rfl
  refine ⟨htokens, hparse, ?_⟩
  rintro ⟨e, he, offset, -, cause, rfl⟩
  rw [hparse] at he
  cases he

end PredicateTrace
