import Mathlib.Tactic.Lemma
import PredicateTrace.Token.Lexer

/-!
# What is read at a place of a source

A number literal is what its scan gives, if no word goes on behind it. What is read outside of quotes has one of a few
forms, each given by how the text begins. What holds of all pieces is proved by going through these forms.
-/

namespace PredicateTrace.Token

open Text (isDigit)

variable {c : Char} {rest text : List Char} {l : Lexeme} {n : Nat} {m : Mistake} {piece : Piece}
  {result : Except Mistake (Lexeme × Nat)}

/-! ### Results -/

lemma ofResult_ne_skipped (result : Except Mistake (Lexeme × Nat)) : Piece.ofResult result ≠ .skipped n := by
  cases result <;> simp [Piece.ofResult]

lemma ofResult_token (h : Piece.ofResult result = .token l n) : result = .ok (l, n) := by
  cases result with
  | ok found =>
    obtain ⟨rfl, rfl⟩ := Piece.token.inj h
    rfl
  | error m => cases h

lemma ofResult_mistake (h : Piece.ofResult result = .mistake m) : result = .error m := by
  cases result with
  | ok found => cases h
  | error m' => rw [Piece.mistake.inj h]

/-! ### Numbers -/

lemma readNumber_eq_ok : readNumber text = .ok (l, n) ↔
    (scanNumber text).value = .lexeme l ∧ (scanNumber text).length = n ∧
      ((scanNumber text).rest.head?.any fun c => Text.isLetterOrNumeral c || c = '_') = false := by
  unfold readNumber
  dsimp only
  split
  · next hvalue => simp [hvalue]
  · next hvalue => split <;> simp_all
  · next hvalue => split <;> simp [hvalue]

/-- A number literal that is not read is wrong where it begins, unless the host refuses it. -/
lemma readNumber_error (h : readNumber text = .error m) :
    (scanNumber text).value = .unreadable ∧ m = .unreadableNumber ∨ ∃ cause, m = .at 0 cause := by
  unfold readNumber at h
  dsimp only at h
  split at h
  · next hvalue => exact .inl ⟨hvalue, (Except.error.inj h).symm⟩
  · split at h
    · exact .inr ⟨_, (Except.error.inj h).symm⟩
    · cases h
  · split at h <;> exact .inr ⟨_, (Except.error.inj h).symm⟩

/-! ### Pieces outside of quotes -/

lemma isNamePart_of_isNameStart (h : isNameStart c = true) : isNamePart c = true := by
  unfold isNameStart at h
  unfold isNamePart Text.isLetterOrNumeral
  simp only [Bool.or_eq_true] at h ⊢
  rcases h with (h | h) | h <;> simp [h]

lemma readPlain_number (h : (isDigit c || (c = '.' && rest.head?.any isDigit)) = true) :
    readPlain c rest = .ofResult (readNumber (c :: rest)) := by
  have hc : isBlank c = false ∧ c ≠ '/' := by
    simp only [Bool.or_eq_true, Bool.and_eq_true, decide_eq_true_eq] at h
    rcases h with hdigit | ⟨rfl, -⟩
    · have hother {d : Char} (hd : isDigit d = false) : c ≠ d := by
        rintro rfl
        rw [hdigit] at hd
        cases hd
      refine ⟨?_, hother rfl⟩
      simp [isBlank, hother (d := ' ') rfl, hother (d := '\t') rfl, hother (d := '\r') rfl,
        hother (d := '\x0c') rfl, hother (d := '\n') rfl]
    · decide
  unfold readPlain
  simp [hc, h]

/-- What may be read outside of quotes: of a character and the text behind it. -/
inductive PlainPiece : Char → List Char → Piece → Prop
  | blank {c : Char} {rest : List Char} (hc : isBlank c = true) : PlainPiece c rest (.skipped 1)
  | line {rest : List Char} :
    PlainPiece '/' ('/' :: rest) (.skipped ((rest.takeWhile (· ≠ '\n')).length + 2))
  | block {rest : List Char} {n : Nat} (hlength : commentLength? rest = some n) :
    PlainPiece '/' ('*' :: rest) (.skipped (n + 2))
  | unclosed {rest : List Char} (hlength : commentLength? rest = none) :
    PlainPiece '/' ('*' :: rest) (.mistake (.at 0 .unclosedComment))
  | number {c : Char} {rest : List Char} {l : Lexeme} {n : Nat}
    (hbegins : (isDigit c || (c = '.' && rest.head?.any isDigit)) = true)
    (hread : readNumber (c :: rest) = .ok (l, n)) : PlainPiece c rest (.token l n)
  | wrongNumber {c : Char} {rest : List Char} {m : Mistake}
    (hbegins : (isDigit c || (c = '.' && rest.head?.any isDigit)) = true)
    (hread : readNumber (c :: rest) = .error m) : PlainPiece c rest (.mistake m)
  | word {c : Char} {rest : List Char} {l : Lexeme} (hdigit : isDigit c = false) (hstart : isNameStart c = true)
    (hl : wordLexeme (String.ofList (c :: rest.takeWhile isNamePart)) = l) :
    PlainPiece c rest (.token l ((rest.takeWhile isNamePart).length + 1))
  | symbol {s : Symbol} {c : Char} {body rest : List Char} (hs : s.text.toList = c :: body) :
    PlainPiece c (body ++ rest) (.token (.symbol s) (body.length + 1))
  | unexpected {c : Char} {rest : List Char} : PlainPiece c rest (.mistake (.at 0 (.unexpectedCharacter c)))

/-- A symbol that fits is the text where it was found. -/
lemma plainPiece_of_fits {s : Symbol} (h : Symbol.fits s (c :: rest) = true) :
    PlainPiece c rest (.token (.symbol s) s.text.length) := by
  have htext := List.take_append_drop s.text.length (c :: rest)
  rw [← eq_of_beq h] at htext
  cases hs : s.text.toList with
  | nil => cases s <;> cases hs
  | cons d body =>
    rw [hs] at htext
    obtain ⟨rfl, hrest⟩ := List.cons.inj htext
    rw [← String.length_toList, hs, List.length_cons, ← hrest]
    exact .symbol hs

lemma plainPiece_of_readPlain (h : readPlain c rest = piece) : PlainPiece c rest piece := by
  subst h
  unfold readPlain
  dsimp only
  split
  · next hblank => exact .blank hblank
  split
  · next hline =>
    obtain ⟨rfl, more, rfl⟩ : c = '/' ∧ ∃ more, rest = '/' :: more := by
      simpa [List.head?_eq_some_iff] using hline
    exact .line
  split
  · next hblock =>
    obtain ⟨rfl, more, rfl⟩ : c = '/' ∧ ∃ more, rest = '*' :: more := by
      simpa [List.head?_eq_some_iff] using hblock
    rw [List.tail_cons]
    split
    · next n hlength => exact .block hlength
    · next hlength => exact .unclosed hlength
  split
  · next hbegins =>
    cases hread : readNumber (c :: rest) with
    | ok found => exact .number hbegins hread
    | error m => exact .wrongNumber hbegins hread
  next hbegins =>
  split
  · next hstart =>
    have hdigit : isDigit c = false := by
      cases hdigit : isDigit c with
      | false => rfl
      | true => simp [hdigit] at hbegins
    have htake : (c :: rest).takeWhile isNamePart = c :: rest.takeWhile isNamePart := by
      rw [List.takeWhile_cons, if_pos (isNamePart_of_isNameStart hstart)]
    rw [htake, String.length_ofList]
    exact .word hdigit hstart rfl
  · cases hfind : Symbol.all.find? fun s => Symbol.fits s (c :: rest) with
    | none => exact .unexpected
    | some s => exact plainPiece_of_fits (List.find?_some (p := fun s => Symbol.fits s (c :: rest)) hfind)

end PredicateTrace.Token
