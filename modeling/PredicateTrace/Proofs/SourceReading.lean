import Mathlib.Data.List.Basic
import Mathlib.Tactic.IntervalCases
import Mathlib.Tactic.Lemma
import PredicateTrace.Expr.Parser
import PredicateTrace.Proofs.PieceForms
import PredicateTrace.Value.Format

/-!
# Reading written tokens

The texts of symbols, words, numbers and characters, and the tokens that they are read as. A text is read in
the same way whatever follows it, as long as this begins as the text needs it.
-/

namespace PredicateTrace

open Text (codes shown isDigit)

variable {follows follows' : List Char → Prop} {text text' : List Nat} {P P' : List Token → Prop}

lemma Text.shown_toNat (c : Char) : shown c.toNat = c := by
  have hvalid : c.toNat.isValidChar := c.valid
  rw [shown, if_pos hvalid, Char.ofNat_toNat]

lemma Text.map_shown_codes (s : String) : (codes s).map shown = s.toList := by
  simp [codes, Function.comp_def, shown_toNat]

lemma Text.ofCodes_codes (s : String) : ofCodes (codes s) = s := by
  rw [ofCodes, map_shown_codes, String.ofList_toList]

lemma Text.codes_append (s t : String) : codes (s ++ t) = codes s ++ codes t := by
  simp [codes]

lemma Text.codes_intercalate (separator : String) (texts : List String) :
    codes (String.intercalate separator texts) = (codes separator).intercalate (texts.map codes) := by
  induction texts with
  | nil => rfl
  | cons first texts ih =>
    cases texts with
    | nil => simp
    | cons second texts =>
      rw [String.intercalate_cons_cons, Text.codes_append, Text.codes_append, ih, List.map_cons, List.map_cons,
        List.map_cons, List.intercalate_cons_cons]

/-- A property of some characters is decided for one after the other. -/
lemma Text.forall_mem_of_all {P : Char → Prop} [DecidablePred P] {cs : List Char}
    (h : (cs.all fun c => P c) = true) : ∀ c ∈ cs, P c := by
  simpa using h

lemma Text.toNat_ofNat {code : Nat} (hvalid : code.isValidChar) : (Char.ofNat code).toNat = code := by
  rw [Char.ofNat, dif_pos hvalid]
  rfl

lemma Text.shown_ne {code : Nat} {c : Char} (hcode : code ≠ c.toNat) (hc : '\ufffd' ≠ c) : shown code ≠ c := by
  unfold shown
  split
  · next hvalid =>
    rintro rfl
    exact hcode (toNat_ofNat hvalid).symm
  · exact hc

lemma Text.trim_eq_self {p : Char → Bool} {cs : List Char} (hcs : ∀ c ∈ cs, p c = false) : trim p cs = cs := by
  have hdrop {cs : List Char} (hcs : ∀ c ∈ cs, p c = false) : cs.dropWhile p = cs := by
    cases cs with
    | nil => rfl
    | cons c cs => simp [hcs c]
  rw [trim, hdrop hcs, hdrop fun c hc => hcs c (List.mem_reverse.mp hc), List.reverse_reverse]

/-- Codes other than those that are escaped stand for themselves. -/
lemma Text.sourcePieceCodes_plain {code : Nat} (hcontrol : 32 ≤ code)
    (hescape : code ≠ 34 ∧ code ≠ 39 ∧ code ≠ 92) : sourcePieceCodes code = [code] := by
  unfold sourcePieceCodes
  split
  · next hvalid =>
    have hnone : sourceEscape? (Char.ofNat code) = none := by
      unfold sourceEscape?
      split
      all_goals
        first
        | rfl
        | next hc =>
          have hcode := congrArg Char.toNat hc
          rw [toNat_ofNat hvalid] at hcode
          simp at hcode
          omega
    rw [sourcePiece, hnone]
    simp [toNat_ofNat hvalid, Nat.not_lt.mpr hcontrol, codes]
  · rfl

namespace Token

/-- The place after a text. -/
def after (position : Position) (text : List Nat) : Position :=
  text.foldl (fun p code => p.advance (shown code)) position

/-- A text is read to tokens with a property, and what follows it is read from the place after it. -/
def Reads (follows : List Char → Prop) (text : List Nat) (P : List Token → Prop) : Prop :=
  ∀ position, ∃ w, P w ∧ ∀ rest, follows (rest.map shown) →
    scan position 0 (text ++ rest) = (scan (after position text) 0 rest).map fun following =>
      { following with tokens := w ++ following.tokens }

lemma Reads.mono (h : Reads follows text P) (hP : ∀ w, P w → P' w) (hfollows : ∀ rest, follows' rest → follows rest) :
    Reads follows' text P' := by
  intro position
  obtain ⟨w, hw, hscan⟩ := h position
  exact ⟨w, hP w hw, fun rest hrest => hscan rest (hfollows _ hrest)⟩

lemma Reads.imp (h : Reads follows text P) (hP : ∀ w, P w → P' w) : Reads follows text P' :=
  h.mono hP fun _ hrest => hrest

lemma Reads.append (h : Reads follows text P) (h' : Reads follows' text' P')
    (hnext : ∀ rest, follows' rest → follows (text'.map shown ++ rest)) :
    Reads follows' (text ++ text') fun w => ∃ u v, w = u ++ v ∧ P u ∧ P' v := by
  intro position
  obtain ⟨u, hu, hscan⟩ := h position
  obtain ⟨v, hv, hscan'⟩ := h' (after position text)
  refine ⟨u ++ v, ⟨u, v, rfl, hu, hv⟩, fun rest hrest => ?_⟩
  have hfirst := hscan (text' ++ rest) (by simpa using hnext _ hrest)
  have hafter : after position (text ++ text') = after (after position text) text' := by
    simp [after]
  rw [List.append_assoc, hfirst, hscan' rest hrest, hafter]
  cases scan (after (after position text) text') 0 rest <;> simp [Except.map]

/-- A text with nothing behind it is read to its tokens. -/
lemma Reads.tokenize (h : Reads follows text P) (hend : follows []) :
    ∃ w finish, P w ∧ Token.tokenize text = .ok ⟨w, finish⟩ := by
  obtain ⟨w, hw, hscan⟩ := h .start
  refine ⟨w, after .start text, hw, ?_⟩
  have hread := hscan [] hend
  rw [List.append_nil] at hread
  have hcodes : Text.Coded.codesOf text = text := rfl
  rw [Token.tokenize, hcodes, hread]
  simp [scan, Except.map]

lemma scan_skip (position : Position) (text rest : List Nat) :
    scan position text.length (text ++ rest) = scan (after position text) 0 rest := by
  induction text generalizing position with
  | nil => rfl
  | cons code text ih => exact ih (position.advance (shown code))

/-- The only token is a given lexeme, written by the whole text. -/
def Only (lexeme : Lexeme) (text : String) (w : List Token) : Prop :=
  ∃ t, w = [t] ∧ t.lexeme = lexeme ∧ t.text = text

lemma reads_token {code : Nat} {lexeme : Lexeme}
    (h : ∀ rest, follows (rest.map shown) → readPiece code (text ++ rest) = .token lexeme (text.length + 1)) :
    Reads follows (code :: text) (Only lexeme (Text.ofCodes (code :: text))) := by
  intro position
  refine ⟨_, ⟨⟨lexeme, position, Text.ofCodes (code :: text)⟩, rfl, rfl, rfl⟩, fun rest hrest => ?_⟩
  have htake : (code :: (text ++ rest)).take (text.length + 1) = code :: text := by simp
  have hafter : after position (code :: text) = after (position.advance (shown code)) text := rfl
  rw [List.cons_append, scan, h rest hrest, hafter]
  simp only [Nat.add_sub_cancel, scan_skip, htake]
  cases scan (after (position.advance (shown code)) text) 0 rest <;> rfl

/-- A text without quotes is read by its characters. -/
lemma reads_plain {s : String} {c : Char} {cs : List Char} {lexeme : Lexeme} (hs : s.toList = c :: cs)
    (hquote : c ≠ '\x27' ∧ c ≠ '"')
    (h : ∀ rest, follows rest → readPlain c (cs ++ rest) = .token lexeme s.toList.length) :
    Reads follows (codes s) (Only lexeme s) := by
  have hcodes : codes s = c.toNat :: cs.map Char.toNat := by rw [codes, hs, List.map_cons]
  have hshown : (cs.map Char.toNat).map shown = cs := by simp [Function.comp_def, Text.shown_toNat]
  have hread : Reads follows (c.toNat :: cs.map Char.toNat)
      (Only lexeme (Text.ofCodes (c.toNat :: cs.map Char.toNat))) := reads_token fun rest hrest => by
    have hlength : (cs.map Char.toNat).length + 1 = s.toList.length := by simp [hs]
    rw [readPiece, Text.shown_toNat, if_neg hquote.1, if_neg hquote.2, List.map_append, hshown, h _ hrest, hlength]
  rwa [← hcodes, Text.ofCodes_codes] at hread

/-- A code that is skipped alone is read to no token. -/
lemma reads_skipped {code : Nat} (h : ∀ rest, readPiece code rest = .skipped 1) :
    Reads (fun _ => True) [code] (· = []) := by
  intro position
  refine ⟨[], rfl, fun rest _ => ?_⟩
  have hscan : scan position 0 ([code] ++ rest) = scan (after position [code]) 0 rest := by
    rw [List.cons_append, List.nil_append, scan, h]
    rfl
  rw [hscan]
  cases scan (after position [code]) 0 rest <;> rfl

lemma reads_blank : Reads (fun _ => True) (codes " ") (· = []) :=
  reads_skipped fun _ => rfl

/-! ### Symbols -/

lemma reads_opening : Reads (fun _ => True) (codes "(") (Only (.symbol .leftParen) "(") :=
  reads_plain rfl (by decide) fun _ _ => rfl

lemma reads_closing : Reads (fun _ => True) (codes ")") (Only (.symbol .rightParen) ")") :=
  reads_plain rfl (by decide) fun _ _ => rfl

lemma fits_eq_false {s : Symbol} {c d e : Char} {more : List Char} (hs : s.text.toList = [c, d]) (hd : d ≠ e) :
    Symbol.fits s (c :: e :: more) = false := by
  have hlength : s.text.length = 2 := by rw [← String.length_toList, hs]; rfl
  rw [Symbol.fits, hs, hlength]
  simp [hd]

/-- A symbol that a longer one begins with is read by itself if the longer one does not follow. -/
lemma reads_short {s longer : Symbol} {c d : Char} (hs : s.text.toList = [c]) (hlonger : longer.text.toList = [c, d])
    (hquote : c ≠ '\x27' ∧ c ≠ '"') (hend : readPlain c [] = .token (.symbol s) 1)
    (hread : ∀ e more, readPlain c (e :: more) =
      .ofSymbol c (bif Symbol.fits longer (c :: e :: more) then some longer else some s)) :
    Reads (fun rest => rest.head? ≠ some d) (codes s.text) (Only (.symbol s) s.text) := by
  have hlength : s.text.toList.length = 1 := by rw [hs]; rfl
  refine reads_plain hs hquote fun rest hrest => ?_
  rw [hlength]
  rcases rest with _ | ⟨e, more⟩
  · exact hend
  · have he : d ≠ e := fun h => hrest (by rw [h]; rfl)
    rw [List.nil_append, hread, fits_eq_false hlonger he]
    have hsize : s.text.length = 1 := by rw [← String.length_toList, hlength]
    simp [Piece.ofSymbol, hsize]

lemma reads_minus : Reads (fun rest => rest.head? ≠ some '-') (codes "-") (Only (.symbol .minus) "-") :=
  reads_short (s := .minus) (d := '-') rfl rfl (by decide) rfl fun _ _ => rfl

lemma reads_bang : Reads (fun rest => rest.head? ≠ some '=') (codes "!") (Only (.symbol .bang) "!") :=
  reads_short (s := .bang) (d := '=') rfl rfl (by decide) rfl fun _ _ => rfl

/-- Symbols between blanks. -/
lemma reads_spaced (s : Symbol) :
    Reads (fun _ => True) (codes (" " ++ s.text ++ " ")) (Only (.symbol s) s.text) := by
  have hsymbol : Reads (fun rest => ∃ more, rest = ' ' :: more) (codes s.text) (Only (.symbol s) s.text) := by
    cases s
    all_goals
      refine reads_plain rfl (by decide) fun rest hrest => ?_
      obtain ⟨more, rfl⟩ := hrest
      rfl
  have hread := (reads_blank.append hsymbol fun _ _ => trivial).append reads_blank fun rest _ => ⟨rest, rfl⟩
  rw [Text.codes_append, Text.codes_append]
  refine hread.imp fun w hw => ?_
  obtain ⟨u, v, rfl, ⟨u', v', rfl, rfl, hsym⟩, rfl⟩ := hw
  simpa using hsym

/-! ### Words -/

/-- The rest of a text does not continue a word. -/
def EndsWord (rest : List Char) : Prop :=
  ∀ c ∈ rest.head?, isNamePart c = false

lemma takeWhile_append {p : Char → Bool} {cs rest : List Char} (hcs : ∀ c ∈ cs, p c = true)
    (hrest : ∀ c ∈ rest.head?, p c = false) : (cs ++ rest).takeWhile p = cs := by
  rw [List.takeWhile_append_of_pos hcs]
  cases rest with
  | nil => simp
  | cons c more => simp [hrest c rfl]

lemma ne_of_isNameStart {c d : Char} (hc : isNameStart c = true) (hd : isNameStart d = false) : c ≠ d := by
  rintro rfl
  rw [hc] at hd
  cases hd

lemma readPlain_word {c : Char} {cs rest : List Char} (hdigit : isDigit c = false) (hstart : isNameStart c = true)
    (hcs : ∀ d ∈ cs, isNamePart d = true) (hrest : EndsWord rest) :
    readPlain c (cs ++ rest) = .token (wordLexeme (String.ofList (c :: cs))) (c :: cs).length := by
  have hother {d : Char} (hd : isNameStart d = false) : c ≠ d := ne_of_isNameStart hstart hd
  have hblank : isBlank c = false := by
    simp [isBlank, hother (d := ' ') rfl, hother (d := '\t') rfl, hother (d := '\r') rfl,
      hother (d := '\x0c') rfl, hother (d := '\n') rfl]
  have hparts : ∀ d ∈ c :: cs, isNamePart d = true :=
    List.forall_mem_cons.mpr ⟨isNamePart_of_isNameStart hstart, hcs⟩
  have hword : (c :: (cs ++ rest)).takeWhile isNamePart = c :: cs := takeWhile_append hparts hrest
  unfold readPlain
  simp [hblank, hother (d := '/') rfl, hother (d := '.') rfl, hdigit, hstart, hword, Nat.add_comm]

lemma reads_word {s : String} {c : Char} {cs : List Char} (hs : s.toList = c :: cs) (hdigit : isDigit c = false)
    (hstart : isNameStart c = true) (hcs : ∀ d ∈ cs, isNamePart d = true) :
    Reads EndsWord (codes s) (Only (wordLexeme s) s) := by
  refine reads_plain hs ⟨ne_of_isNameStart hstart rfl, ne_of_isNameStart hstart rfl⟩ fun rest hrest => ?_
  rw [readPlain_word hdigit hstart hcs hrest, ← hs, String.ofList_toList]

lemma reads_keyword {s : String} {c : Char} {cs : List Char} {k : Keyword} (hs : s.toList = c :: cs)
    (hdigit : isDigit c = false) (hstart : isNameStart c = true) (hcs : cs.all isNamePart = true)
    (hk : wordLexeme s = .keyword k) : Reads EndsWord (codes s) (Only (.keyword k) s) := by
  rw [← hk]
  exact reads_word hs hdigit hstart (List.all_eq_true.mp hcs)

/-! ### Numbers -/

lemma exists_digitChar {n : Nat} {c : Char} (hc : c ∈ Nat.toDigits 10 n) : ∃ d < 10, c = Nat.digitChar d := by
  have hrange : 48 ≤ c.toNat ∧ c.toNat ≤ 57 := by
    have hdigit : c.isDigit = true := Nat.isDigit_of_mem_toDigits (by decide) (by decide) hc
    simpa [Char.isDigit, Char.le_def, UInt32.le_iff_toNat_le, Bool.and_eq_true] using hdigit
  have hchar : ∀ d < 10, Char.ofNat (d + 48) = Nat.digitChar d := by decide
  refine ⟨c.toNat - 48, by omega, ?_⟩
  rw [← hchar _ (by omega), Nat.sub_add_cancel hrange.1, Char.ofNat_toNat]

/-- A property of the ten digits holds for the digits of a number. -/
lemma forall_digits {p : Char → Prop} (h : ∀ d < 10, p (Nat.digitChar d)) (n : Nat) : ∀ c ∈ Nat.toDigits 10 n, p c := by
  intro c hc
  obtain ⟨d, hd, rfl⟩ := exists_digitChar hc
  exact h d hd

lemma head?_toDigits_ne_zero {n : Nat} (hn : 0 < n) : (Nat.toDigits 10 n).head? ≠ some '0' := by
  induction n using Nat.strongRecOn with
  | ind n ih =>
    rw [Nat.toDigits_eq_if (by decide)]
    split
    · next hsmall =>
      have hdigit : ∀ d < 10, 0 < d → Nat.digitChar d ≠ '0' := by decide
      simpa using hdigit n hsmall hn
    · next hlarge =>
      rw [List.head?_append_of_ne_nil _ Nat.toDigits_ne_nil]
      exact ih (n / 10) (by omega) (by omega)

/-- Only the number zero is written with a zero in front. -/
lemma toDigits_eq_zero_cons {n : Nat} {more : List Char} (h : Nat.toDigits 10 n = '0' :: more) : more = [] := by
  rcases Nat.eq_zero_or_pos n with rfl | hn
  · have hzero : Nat.toDigits 10 0 = ['0'] := rfl
    rw [hzero] at h
    exact (List.cons.inj h).2.symm
  · exact absurd (by rw [h]; rfl) (head?_toDigits_ne_zero hn)

lemma spanDigits_digits {cs : List Char} (hcs : ∀ c ∈ cs, c ≠ '_' ∧ Text.decimalValue? c = some (c.toNat - 48))
    (joined : Bool) : Number.spanDigits joined cs = (cs.map fun c => c.toNat - 48, []) := by
  induction cs generalizing joined with
  | nil => rfl
  | cons c cs ih =>
    obtain ⟨⟨hc, hvalue⟩, hcs⟩ := List.forall_mem_cons.mp hcs
    rw [Number.spanDigits]
    · simp [hvalue, ih hcs]
    · rintro _ _ rfl
      exact absurd rfl hc

lemma ofDigits_toDigits (n : Nat) : Number.ofDigits ((Nat.toDigits 10 n).map fun c => c.toNat - 48) = n := by
  have hdigits := Nat.ofDigitChars_toDigits (b := 10) (n := n) (by decide) (by decide)
  rw [Number.ofDigits, List.foldl_map]
  exact hdigits

/-- The host reads digits of the first series, if these are not too many. -/
lemma wholeNumber?_digits {cs : List Char} (hne : cs ≠ []) (hcs : ∀ c ∈ cs, Text.isNumeralSpace c = false ∧ c ≠ '-' ∧
    c ≠ '+' ∧ c ≠ '_' ∧ Text.decimalValue? c = some (c.toNat - 48)) :
    Number.wholeNumber? (String.ofList cs) =
      if Number.maxDigits < cs.length then none else some (Number.ofDigits (cs.map fun c => c.toNat - 48) : Int) := by
  have htrim : Text.trim Text.isNumeralSpace cs = cs := Text.trim_eq_self fun c hc => (hcs c hc).1
  have hsign : Number.splitSign cs = (false, cs) := by
    unfold Number.splitSign
    split
    · exact absurd rfl (hcs '-' List.mem_cons_self).2.1
    · exact absurd rfl (hcs '+' List.mem_cons_self).2.2.1
    · rfl
  rw [Number.wholeNumber?, String.toList_ofList, htrim, hsign]
  simp [spanDigits_digits fun c hc => (hcs c hc).2.2.2, hne]

lemma wholeNumber?_toDigits {n : Nat} (hn : n < 2 ^ 64) :
    Number.wholeNumber? (String.ofList (Nat.toDigits 10 n)) = some (n : Int) := by
  have hdigits := forall_digits (n := n) (p := fun c =>
    Text.isNumeralSpace c = false ∧ c ≠ '-' ∧ c ≠ '+' ∧ c ≠ '_' ∧ Text.decimalValue? c = some (c.toNat - 48))
    (by decide)
  have hlength : (Nat.toDigits 10 n).length ≤ 20 :=
    (Nat.length_toDigits_le_iff (by decide) (by decide)).mpr (Nat.lt_trans hn (by decide))
  have hbound : ¬Number.maxDigits < (Nat.toDigits 10 n).length := by
    have hmax : Number.maxDigits = 4300 := rfl
    omega
  rw [wholeNumber?_digits Nat.toDigits_ne_nil hdigits, if_neg hbound, ofDigits_toDigits]

lemma integerValue_toDigits (isLong : Bool) {n : Nat} (hn : n < 2 ^ 64) :
    integerValue isLong (Nat.toDigits 10 n) = integerLexeme isLong n := by
  unfold integerValue
  split
  · next h => cases toDigits_eq_zero_cons h
  · rw [wholeNumber?_toDigits hn]
    rfl

/-- The rest of a text ends an operand. -/
def Ends (rest : List Char) : Prop :=
  ∀ c ∈ rest.head?, c = ' ' ∨ c = ')'

lemma ends_blank (rest : List Char) : Ends (' ' :: rest) :=
  fun _ hc => Or.inl (Option.some.inj hc).symm

lemma ends_closing (rest : List Char) : Ends (')' :: rest) :=
  fun _ hc => Or.inr (Option.some.inj hc).symm

lemma Ends.endsWord {rest : List Char} (h : Ends rest) : EndsWord rest := by
  intro c hc
  rcases h c hc with rfl | rfl <;> decide

lemma hasStrayUnderscore_eq_false {cs : List Char} (h : ∀ c ∈ cs, c ≠ '_' ∧ c ≠ '.') :
    hasStrayUnderscore cs = false := by
  induction cs with
  | nil => rfl
  | cons c cs ih =>
    obtain ⟨⟨hc, hpoint⟩, hcs⟩ := List.forall_mem_cons.mp h
    rw [hasStrayUnderscore]
    · exact ih hcs
    · exact fun h => hc h
    · exact fun _ h => absurd h hpoint

lemma fractionPart_eq_nil {tail : List Char} (h : ∀ c ∈ tail.head?, c ≠ '.') : fractionPart tail = [] := by
  unfold fractionPart
  split
  · exact absurd rfl (h '.' rfl)
  · exact absurd rfl (h '.' rfl)
  · rfl

lemma scanExponent_eq_absent {tail : List Char} (h : ∀ c ∈ tail.head?, c ≠ 'e' ∧ c ≠ 'E') :
    scanExponent tail = .absent := by
  cases tail with
  | nil => rfl
  | cons c more => simp [scanExponent, h c rfl]

/-- The digits of a number, with the mark of a long one. -/
def numeral (isLong : Bool) (n : Nat) : List Char :=
  Nat.toDigits 10 n ++ bif isLong then ['L'] else []

lemma mem_head?_mark {isLong : Bool} {rest : List Char} (hrest : Ends rest) :
    ∀ c ∈ ((bif isLong then ['L'] else []) ++ rest).head?, c = 'L' ∨ c = ' ' ∨ c = ')' := by
  cases isLong
  · exact fun c hc => Or.inr (hrest c hc)
  · exact fun c hc => Or.inl (Option.some.inj hc).symm

lemma scanDecimal_numeral (isLong : Bool) (n : Nat) {rest : List Char} (hrest : Ends rest) :
    scanDecimal (numeral isLong n ++ rest) =
      ⟨integerValue isLong (Nat.toDigits 10 n), (numeral isLong n).length, rest⟩ := by
  obtain ⟨tail, htail⟩ : ∃ tail, tail = (bif isLong then ['L'] else []) ++ rest := ⟨_, rfl⟩
  have hhead : ∀ c ∈ tail.head?, isDigitOrUnderscore c = false ∧ c ≠ '.' ∧ c ≠ 'e' ∧ c ≠ 'E' := by
    intro c hc
    rcases mem_head?_mark hrest c (htail ▸ hc) with rfl | rfl | rfl <;> decide
  have hdigits := forall_digits (n := n) (p := fun c => isDigitOrUnderscore c = true ∧ c ≠ '_' ∧ c ≠ '.') (by decide)
  have hwhole : (Nat.toDigits 10 n ++ tail).takeWhile isDigitOrUnderscore = Nat.toDigits 10 n :=
    takeWhile_append (fun c hc => (hdigits c hc).1) fun c hc => (hhead c hc).1
  have hfraction : fractionPart tail = [] := fractionPart_eq_nil fun c hc => (hhead c hc).2.1
  have hexponent : scanExponent tail = .absent := scanExponent_eq_absent fun c hc => (hhead c hc).2.2
  have hstray : hasStrayUnderscore (Nat.toDigits 10 n) = false :=
    hasStrayUnderscore_eq_false fun c hc => (hdigits c hc).2
  have hedge : hasEdgeUnderscore (Nat.toDigits 10 n) = false := by
    have hnot : '_' ∉ Nat.toDigits 10 n := fun h => (hdigits _ h).2.1 rfl
    simp only [hasEdgeUnderscore, Bool.or_eq_false_iff, beq_eq_false_iff_ne]
    exact ⟨fun h => hnot (List.mem_of_head? h), fun h => hnot (List.mem_of_getLast? h)⟩
  have hfilter : (Nat.toDigits 10 n).filter (· ≠ '_') = Nat.toDigits 10 n :=
    List.filter_eq_self.mpr fun c hc => by simpa using (hdigits c hc).2.1
  unfold numeral scanDecimal
  rw [List.append_assoc, ← htail]
  simp only [hwhole, List.drop_left, hfraction, List.append_nil, hexponent, hedge, hstray, hfilter]
  subst htail
  cases isLong with
  | true => simp [isLongMark]
  | false =>
    cases rest with
    | nil => simp
    | cons c rest =>
      have hc : c = ' ' ∨ c = ')' := hrest c rfl
      rcases hc with rfl | rfl <;> simp [isLongMark]

lemma scanNumber_numeral (isLong : Bool) (n : Nat) {rest : List Char} (hrest : Ends rest) :
    scanNumber (numeral isLong n ++ rest) =
      ⟨integerValue isLong (Nat.toDigits 10 n), (numeral isLong n).length, rest⟩ := by
  rw [← scanDecimal_numeral isLong n hrest]
  unfold scanNumber
  split
  · next c more htext =>
    -- The zero is the whole number, so that what follows it is no letter of a base.
    obtain ⟨d, ds, hds⟩ := List.exists_cons_of_ne_nil (Nat.toDigits_ne_nil (b := 10) (n := n))
    rw [numeral, List.append_assoc, hds, List.cons_append] at htext
    obtain ⟨rfl, htail⟩ := List.cons.inj htext
    obtain rfl := toDigits_eq_zero_cons hds
    rcases mem_head?_mark hrest c (by rw [← List.nil_append (_ ++ rest), htail]; rfl) with rfl | rfl | rfl <;> rfl
  · rfl

lemma readNumber_numeral (isLong : Bool) {n : Nat} (hn : n < 2 ^ 64) {rest : List Char} (hrest : Ends rest) :
    readNumber (numeral isLong n ++ rest) =
      .ok (if isLong then .long n else .int n, (numeral isLong n).length) := by
  have hafter : (rest.head?.any fun c => Text.isLetterOrNumeral c || c = '_') = false := by
    cases rest with
    | nil => rfl
    | cons c rest =>
      have hc : c = ' ' ∨ c = ')' := hrest c rfl
      rw [List.head?_cons, Option.any_some]
      rcases hc with rfl | rfl <;> decide
  rw [readNumber_eq_ok, scanNumber_numeral isLong n hrest, integerValue_toDigits isLong hn]
  exact ⟨rfl, rfl, hafter⟩

lemma reads_number (isLong : Bool) {n : Nat} (hn : n < 2 ^ 64) :
    Reads Ends (codes (String.ofList (numeral isLong n)))
      (Only (if isLong then .long n else .int n) (String.ofList (numeral isLong n))) := by
  obtain ⟨c, ds, hds⟩ := List.exists_cons_of_ne_nil (Nat.toDigits_ne_nil (b := 10) (n := n))
  obtain ⟨cs, hnumeral⟩ : ∃ cs, numeral isLong n = c :: cs := ⟨_, by rw [numeral, hds, List.cons_append]⟩
  have hc : isBlank c = false ∧ c ≠ '/' ∧ isDigit c = true ∧ c ≠ '\x27' ∧ c ≠ '"' :=
    forall_digits (n := n) (p := fun c => isBlank c = false ∧ c ≠ '/' ∧ isDigit c = true ∧ c ≠ '\x27' ∧ c ≠ '"')
      (by decide) c (by simp [hds])
  refine reads_plain (by rw [String.toList_ofList, hnumeral]) hc.2.2.2 fun rest hrest => ?_
  have hread := readNumber_numeral isLong hn hrest
  rw [hnumeral, List.cons_append] at hread
  rw [readPlain_number (by rw [hc.2.2.1, Bool.true_or]), hread, hnumeral, String.toList_ofList]
  rfl

/-- A number that is not written with a base is decimal. -/
lemma isDecimal_numeral (isLong : Bool) (n : Nat) : Parser.isDecimal (String.ofList (numeral isLong n)) = true := by
  unfold Parser.isDecimal
  rw [String.toList_ofList]
  split
  · next c more htext =>
    obtain ⟨d, ds, hds⟩ := List.exists_cons_of_ne_nil (Nat.toDigits_ne_nil (b := 10) (n := n))
    rw [numeral, hds, List.cons_append] at htext
    obtain ⟨rfl, htail⟩ := List.cons.inj htext
    obtain rfl := toDigits_eq_zero_cons hds
    cases isLong
    · cases htail
    · obtain ⟨rfl, -⟩ := List.cons.inj htail
      decide
  · rfl

/-! ### Characters -/

/-- The piece of a source literal that stands for a code is read as the code, and the literal goes on behind it. -/
lemma readQuoted_piece_append {mark : Char} (hmark : mark = '\x27' ∨ mark = '"') (unclosed : SyntaxCause)
    (offset code : Nat) (more : List Nat) :
    readQuoted mark unclosed offset 0 (Text.sourcePieceCodes code ++ more) = do
      let (codes, stop) ← readQuoted mark unclosed (offset + (Text.sourcePieceCodes code).length) 0 more
      return (code :: codes, stop) := by
  by_cases hcontrol : code < 32
  · rcases hmark with rfl | rfl <;> interval_cases code <;> rfl
  by_cases hescape : code = 34 ∨ code = 39 ∨ code = 92
  · rcases hmark with rfl | rfl <;> rcases hescape with rfl | rfl | rfl <;> rfl
  have hpiece : Text.sourcePieceCodes code = [code] := Text.sourcePieceCodes_plain (by omega) (by omega)
  have hcodes : '\n'.toNat = 10 ∧ '\x27'.toNat = 39 ∧ '"'.toNat = 34 ∧ '\\'.toNat = 92 := by decide
  have hend : shown code ≠ '\n' := Text.shown_ne (by omega) (by decide)
  have hquote : shown code ≠ mark := by
    rcases hmark with rfl | rfl
    · exact Text.shown_ne (by omega) (by decide)
    · exact Text.shown_ne (by omega) (by decide)
  have hslash : shown code ≠ '\\' := Text.shown_ne (by omega) (by decide)
  rw [hpiece, List.cons_append, List.nil_append, readQuoted, if_neg hend, if_neg hquote, if_neg hslash]
  rfl

/-- The piece of a single code is read up to the closing quote. -/
lemma readQuoted_piece (code : Nat) (rest : List Nat) :
    readQuoted '\x27' .unclosedCharacter 1 0 (Text.sourcePieceCodes code ++ 39 :: rest) =
      .ok ([code], (Text.sourcePieceCodes code).length + 2) := by
  rw [readQuoted_piece_append (Or.inl rfl), Nat.add_comm 1]
  rfl

lemma length_sourcePieceCodes_le (code : Nat) : (Text.sourcePieceCodes code).length ≤ 6 := by
  by_cases hcontrol : code < 32
  · interval_cases code <;> decide
  by_cases hescape : code = 34 ∨ code = 39 ∨ code = 92
  · rcases hescape with rfl | rfl | rfl <;> decide
  rw [Text.sourcePieceCodes_plain (by omega) (by omega), List.length_singleton]
  decide

lemma quotedLiteral_single (code : Nat) :
    Formatter.quotedLiteral '\x27' [code] Formatter.charBudget = 39 :: (Text.sourcePieceCodes code ++ [39]) := by
  have hlength : (Text.sourcePieceCodes code).length < Formatter.charBudget :=
    (length_sourcePieceCodes_le code).trans_lt (by decide)
  simp [Formatter.quotedLiteral, Text.escapeWithin, Nat.not_le.mpr hlength]

/-- Every code is read back from its literal. -/
lemma reads_character (code : Nat) :
    Reads (fun _ => True) (Formatter.quotedLiteral '\x27' [code] Formatter.charBudget)
      (fun w => ∃ t, w = [t] ∧ t.lexeme = .char code) := by
  have hliteral : Reads (fun _ => True) (39 :: (Text.sourcePieceCodes code ++ [39])) (Only (.char code) _) :=
    reads_token fun rest _ => by
      have hquote : shown 39 = '\x27' := by decide
      rw [readPiece, if_pos hquote, readCharacter, List.append_assoc, List.singleton_append, readQuoted_piece]
      simp [Piece.ofResult, bind, Except.bind, pure, Except.pure]
  rw [quotedLiteral_single]
  refine hliteral.imp fun w hw => ?_
  obtain ⟨t, ht, hlexeme, -⟩ := hw
  exact ⟨t, ht, hlexeme⟩

end Token

end PredicateTrace
