import PredicateTrace.Proofs.NumberReading
import PredicateTrace.Proofs.Running

/-!
# The pieces of a source

What is skipped at a place is blank or a comment. A token is its own characters, whatever separates them from what
follows. A mistake lies on the line where its piece begins.
-/

namespace PredicateTrace.Token

open Text (shown isDigit)

variable {c mark : Char} {l : Lexeme} {n code skip offset : Nat} {text body rest tail : List Char}

/-! ### Blanks and comments -/

/-- From the first text on there are only blanks and complete comments up to the second one. -/
inductive Gap : List Char → List Char → Prop
  | nil {tail : List Char} : Gap tail tail
  | blank {c : Char} {rest tail : List Char} (hc : c ∈ [' ', '\t', '\r', '\x0c', '\n']) (h : Gap rest tail) :
    Gap (c :: rest) tail
  | line {body rest tail : List Char} (hbody : '\n' ∉ body) (hend : ∀ c ∈ rest.head?, c = '\n') (h : Gap rest tail) :
    Gap ('/' :: '/' :: (body ++ rest)) tail
  | block {body rest tail : List Char} (hbody : ¬['*', '/'] <:+: body) (h : Gap rest tail) :
    Gap ('/' :: '*' :: (body ++ '*' :: '/' :: rest)) tail

lemma commentLength?_eq_some (h : commentLength? text = some n) :
    ∃ body rest, text = body ++ '*' :: '/' :: rest ∧ n = body.length + 2 ∧ ¬['*', '/'] <:+: body := by
  fun_induction commentLength? text generalizing n with
  | case1 rest =>
    obtain rfl := Option.some.inj h
    exact ⟨[], rest, rfl, rfl, by simp⟩
  | case2 c more hnone ih =>
    obtain ⟨m, hm, rfl⟩ := Option.map_eq_some_iff.mp h
    obtain ⟨body, rest, rfl, rfl, hbody⟩ := ih hm
    refine ⟨c :: body, rest, rfl, rfl, fun hinfix => ?_⟩
    rcases List.infix_cons_iff.mp hinfix with hprefix | hinfix
    · obtain ⟨after, hafter⟩ := hprefix
      obtain ⟨rfl, hbody⟩ := List.cons.inj hafter
      exact hnone _ rfl (by rw [← hbody]; rfl)
    · exact hbody hinfix
  | case3 => cases h

lemma readPlain_skipped (h : readPlain c rest = .skipped n) :
    ∃ k, n = k + 1 ∧ k ≤ rest.length ∧ ∀ tail, Gap (rest.drop k) tail → Gap (c :: rest) tail := by
  cases plainPiece_of_readPlain h with
  | blank hblank =>
    have hc : c ∈ [' ', '\t', '\r', '\x0c', '\n'] := by
      simpa [isBlank, or_assoc] using hblank
    exact ⟨0, rfl, Nat.zero_le _, fun tail htail => .blank hc htail⟩
  | @line more =>
    have hsplit := List.takeWhile_append_dropWhile (p := fun c => decide (c ≠ '\n')) (l := more)
    refine ⟨(more.takeWhile (· ≠ '\n')).length + 1, rfl, ?_, fun tail htail => ?_⟩
    · have hlength := congrArg List.length hsplit
      rw [List.length_append] at hlength
      rw [List.length_cons]
      omega
    · rw [List.drop_succ_cons, drop_length_takeWhile] at htail
      rw [← hsplit]
      refine .line (fun hmem => ?_) (fun c hc => ?_) htail
      · simpa using List.all_eq_true.mp List.all_takeWhile _ hmem
      · simpa using head?_dropWhile_eq_false _ _ c hc
  | block hlength =>
    obtain ⟨body, rest, rfl, rfl, hbody⟩ := commentLength?_eq_some hlength
    refine ⟨body.length + 3, rfl, by simp, fun tail htail => .block hbody ?_⟩
    have hdrop : ('*' :: (body ++ '*' :: '/' :: rest)).drop (body.length + 3) = rest := by
      rw [List.drop_succ_cons, ← List.drop_drop, List.drop_left]
      rfl
    rwa [hdrop] at htail

/-! ### Words, numbers and symbols -/

lemma readPlain_symbol {s : Symbol} (hs : s.text.toList = c :: body) (hrest : Separated rest) :
    readPlain c (body ++ rest) = .token (.symbol s) (body.length + 1) := by
  rcases rest with _ | ⟨d, more⟩
  · cases s <;> cases hs <;> rfl
  · obtain rfl := hrest d rfl
    cases s <;> cases hs <;> rfl

/-- A token without quotes is read again wherever it is separated from what follows. -/
lemma readPlain_token (h : readPlain c rest = .token l n) :
    ∃ body tail, rest = body ++ tail ∧ n = body.length + 1 ∧
      ∀ rest', Separated rest' → readPlain c (body ++ rest') = .token l n := by
  cases plainPiece_of_readPlain h with
  | number hbegins hread =>
    obtain ⟨body, tail, htext, rfl, hnil, hpoint, hagain⟩ := readNumber_detaches hread
    obtain ⟨d, body, rfl⟩ := List.exists_cons_of_ne_nil hnil
    obtain ⟨rfl, rfl⟩ := List.cons.inj htext
    refine ⟨body, tail, rfl, rfl, fun rest' hrest' => ?_⟩
    have hbegins' : (isDigit c || (c = '.' && (body ++ rest').head?.any isDigit)) = true := by
      cases body with
      | cons e more => exact hbegins
      | nil =>
        have hc : c ≠ '.' := fun hc => hpoint (by rw [hc])
        simpa [hc] using hbegins
    rw [readPlain_number hbegins', ← List.cons_append, hagain rest' hrest']
    rfl
  | word hdigit hstart hl =>
    refine ⟨rest.takeWhile isNamePart, _, List.takeWhile_append_dropWhile.symm, rfl, fun rest' hrest' => ?_⟩
    have hends : EndsWord rest' := fun d hd => hrest' d hd ▸ (by decide)
    rw [readPlain_word hdigit hstart (fun d hd => List.all_eq_true.mp List.all_takeWhile d hd) hends, hl,
      List.length_cons]
  | symbol hs => exact ⟨_, _, rfl, rfl, fun rest' hrest' => readPlain_symbol hs hrest'⟩

lemma readPlain_mistake {cause : SyntaxCause} (h : readPlain c rest = .mistake (.at n cause)) : n = 0 := by
  cases plainPiece_of_readPlain h with
  | unclosed | unexpected => rfl
  | wrongNumber _ hread =>
    obtain ⟨-, hm⟩ | ⟨cause, hm⟩ := readNumber_error hread
    · cases hm
    · exact (Mistake.at.inj hm).1

/-! ### Escapes -/

lemma takeWhile_append_of_lt {p : Char → Bool} (body rest rest' : List Char)
    (h : ((body ++ rest).takeWhile p).length < body.length) :
    (body ++ rest').takeWhile p = (body ++ rest).takeWhile p := by
  rw [List.takeWhile_append] at h ⊢
  rw [List.takeWhile_append]
  split at h
  · rw [List.length_append] at h
    omega
  · next hpart => rw [if_neg hpart, if_neg hpart]

lemma take_append_of_le {k : Nat} (h : k ≤ body.length) (rest rest' : List Char) :
    (body ++ rest').take k = (body ++ rest).take k := by
  rw [List.take_append_of_le_length h, List.take_append_of_le_length h]

/-- The hexadecimal digits of an escape, after its letters `u`. -/
def unicodeDigits (text : List Char) : List Char :=
  (text.drop (text.takeWhile (· = 'u')).length).take 4

/-- The octal digits of an escape that begins with the character `c`. -/
def octalDigits (c : Char) (text : List Char) : List Char :=
  (text.take (if isBaseDigit 4 c then 3 else 2)).takeWhile (isBaseDigit 8)

lemma readEscape_cons (c : Char) (text : List Char) :
    readEscape (c :: text) =
      match simpleEscape? c with
      | some code => .ok (code, 1)
      | none =>
        if c = 'u' then
          if (unicodeDigits (c :: text)).length = 4 ∧ (unicodeDigits (c :: text)).all (isBaseDigit 16) then
            .ok (ofBase 16 (unicodeDigits (c :: text)), ((c :: text).takeWhile (· = 'u')).length + 4)
          else .error .badUnicodeEscape
        else if isBaseDigit 8 c then .ok (ofBase 8 (octalDigits c (c :: text)), (octalDigits c (c :: text)).length)
        else .error (.badEscape c) :=
  rfl

lemma octalDigits_append (c : Char) (body rest rest' : List Char)
    (hn : (octalDigits c (body ++ rest)).length < body.length) :
    octalDigits c (body ++ rest') = octalDigits c (body ++ rest) := by
  unfold octalDigits at hn ⊢
  generalize (if isBaseDigit 4 c then 3 else 2) = limit at hn ⊢
  by_cases hlimit : limit ≤ body.length
  · rw [take_append_of_le hlimit rest rest']
  · have htake (more : List Char) : (body ++ more).take limit = body ++ more.take (limit - body.length) := by
      rw [List.take_append, List.take_of_length_le (by omega)]
    rw [htake] at hn ⊢
    rw [htake]
    exact takeWhile_append_of_lt _ _ _ hn

lemma unicodeDigits_append (body rest rest' : List Char)
    (hn : ((body ++ rest).takeWhile (· = 'u')).length + 4 < body.length) :
    unicodeDigits (body ++ rest') = unicodeDigits (body ++ rest) := by
  have hmarks := takeWhile_append_of_lt (p := (· = 'u')) body rest rest' (by omega)
  unfold unicodeDigits
  rw [hmarks, List.drop_append_of_le_length (by omega), List.drop_append_of_le_length (by omega)]
  exact take_append_of_le (by rw [List.length_drop]; omega) rest rest'

/-- An escape is read from its characters and the one behind it. -/
lemma readEscape_append (h : readEscape (body ++ rest) = .ok (code, n)) (hn : n < body.length) (rest' : List Char) :
    readEscape (body ++ rest') = .ok (code, n) := by
  cases body with
  | nil => cases hn
  | cons c more =>
    rw [List.cons_append, readEscape_cons] at h ⊢
    cases hsimple : simpleEscape? c with
    | some code' =>
      rw [hsimple] at h
      exact h
    | none =>
      rw [hsimple] at h
      dsimp only at h ⊢
      split at h
      · next hu =>
        rw [if_pos hu]
        split at h
        · next hdigits =>
          obtain ⟨hcode, hlength⟩ := Prod.mk.inj (Except.ok.inj h)
          rw [← List.cons_append] at hdigits hcode hlength ⊢
          have hmarks := takeWhile_append_of_lt (p := (· = 'u')) (c :: more) rest rest' (by omega)
          have hsame := unicodeDigits_append (c :: more) rest rest' (by omega)
          rw [hsame, hmarks, if_pos hdigits, hcode, hlength]
        · cases h
      · next hu =>
        rw [if_neg hu]
        split at h
        · next hoctal =>
          obtain ⟨hcode, hlength⟩ := Prod.mk.inj (Except.ok.inj h)
          rw [← List.cons_append] at hcode hlength ⊢
          have hsame := octalDigits_append c (c :: more) rest rest' (by omega)
          rw [if_pos hoctal, hsame, hcode, hlength]
        · cases h

/-- An escape does not go on to the next line. -/
lemma newline_notMem_escape (h : readEscape text = .ok (code, n)) : '\n' ∉ text.take n := by
  cases text with
  | nil => cases h
  | cons c more =>
    rw [readEscape_cons] at h
    cases hsimple : simpleEscape? c with
    | some code' =>
      rw [hsimple] at h
      obtain ⟨-, rfl⟩ := Prod.mk.inj (Except.ok.inj h)
      have hc : '\n' ≠ c := by
        rintro rfl
        cases hsimple
      simpa using hc
    | none =>
      rw [hsimple] at h
      dsimp only at h
      split at h
      · split at h
        · next hdigits =>
          obtain ⟨-, rfl⟩ := Prod.mk.inj (Except.ok.inj h)
          have hmarks := List.prefix_iff_eq_take.mp (List.takeWhile_prefix (p := (· = 'u')) (l := c :: more))
          rw [List.take_add, ← hmarks]
          intro hmem
          rcases List.mem_append.mp hmem with hmem | hmem
          · cases List.all_eq_true.mp List.all_takeWhile _ hmem
          · cases List.all_eq_true.mp hdigits.2 _ hmem
        · cases h
      · split at h
        · next hoctal =>
          obtain ⟨-, rfl⟩ := Prod.mk.inj (Except.ok.inj h)
          have hprefix : octalDigits c (c :: more) <+: c :: more :=
            (List.takeWhile_prefix _).trans (List.take_prefix _ _)
          rw [← List.prefix_iff_eq_take.mp hprefix]
          intro hmem
          cases List.all_eq_true.mp List.all_takeWhile _ hmem
        · cases h

/-! ### Literals between quotes -/

/-- A literal is read from its own codes, which go beyond the escape that they begin with. -/
lemma readQuoted_ok {unclosed : SyntaxCause} {codes found : List Nat}
    (h : readQuoted mark unclosed offset skip codes = .ok (found, n)) :
    ∃ body tail, codes = body ++ tail ∧ n = offset + body.length ∧ skip < body.length ∧
      ∀ rest, readQuoted mark unclosed offset skip (body ++ rest) = .ok (found, n) := by
  induction codes generalizing offset skip found n with
  | nil => cases skip <;> cases h
  | cons code rest ih =>
    cases skip with
    | succ skip =>
      rw [readQuoted] at h
      obtain ⟨body, tail, rfl, rfl, hskip, hread⟩ := ih h
      refine ⟨code :: body, tail, rfl, ?_, ?_, fun rest' => ?_⟩
      · rw [List.length_cons]
        omega
      · rw [List.length_cons]
        omega
      · rw [List.cons_append, readQuoted, hread rest']
    | zero =>
      rw [readQuoted] at h
      split at h
      · cases h
      next hline =>
      split at h
      · next hmark =>
        obtain ⟨rfl, rfl⟩ := Prod.mk.inj (Except.ok.inj h)
        refine ⟨[code], rest, rfl, rfl, Nat.zero_lt_one, fun rest' => ?_⟩
        rw [List.singleton_append, readQuoted, if_neg hline, if_pos hmark]
      next hmark =>
      -- What is left is a code or an escape, with the rest of the literal behind it.
      have hmore {skip code' : Nat} {found' : List Nat} {n' : Nat}
          (hread : readQuoted mark unclosed (offset + 1) skip rest = .ok (found', n'))
          (hagain : ∀ body tail rest', rest = body ++ tail → skip < body.length →
            readQuoted mark unclosed (offset + 1) skip (body ++ rest') = .ok (found', n') →
            readQuoted mark unclosed offset 0 (code :: (body ++ rest')) = .ok (code' :: found', n')) :
          ∃ body tail, code :: rest = body ++ tail ∧ n' = offset + body.length ∧ 0 < body.length ∧
            ∀ rest', readQuoted mark unclosed offset 0 (body ++ rest') = .ok (code' :: found', n') := by
        obtain ⟨body, tail, hrest, rfl, hskip, hbody⟩ := ih hread
        refine ⟨code :: body, tail, by rw [hrest, List.cons_append], ?_, ?_, fun rest' => ?_⟩
        · rw [List.length_cons]
          omega
        · rw [List.length_cons]
          omega
        · exact hagain body tail rest' hrest hskip (hbody rest')
      split at h
      · next hslash =>
        split at h
        · cases h
        · next code' length hescape =>
          obtain ⟨⟨found', n'⟩, hread, h⟩ := bind_eq_ok.mp h
          obtain ⟨rfl, rfl⟩ := Prod.mk.inj (Except.ok.inj h)
          refine hmore hread fun body tail rest' hrest hskip hbody => ?_
          rw [hrest, List.map_append] at hescape
          have hagain := readEscape_append hescape (by rwa [List.length_map]) (rest'.map shown)
          rw [readQuoted, if_neg hline, if_neg hmark, if_pos hslash, List.map_append, hagain]
          dsimp only
          rw [hbody]
          rfl
      · next hslash =>
        obtain ⟨⟨found', n'⟩, hread, h⟩ := bind_eq_ok.mp h
        obtain ⟨rfl, rfl⟩ := Prod.mk.inj (Except.ok.inj h)
        refine hmore hread fun body tail rest' hrest hskip hbody => ?_
        rw [readQuoted, if_neg hline, if_neg hmark, if_neg hslash, hbody]
        rfl

/-- A mistake lies on the line of a place of a text, at a distance from it. -/
def OnLine (text : List Char) : Mistake → Prop
  | .at distance _ => distance ≤ text.length ∧ '\n' ∉ text.take distance
  | .unreadableNumber => True

lemma onLine_zero (text : List Char) (cause : SyntaxCause) : OnLine text (.at 0 cause) :=
  ⟨Nat.zero_le _, by simp⟩

/-- A literal that is begun on a line is wrong on this line. -/
lemma readQuoted_error {unclosed : SyntaxCause} {codes : List Nat} {m : Mistake}
    (hskip : '\n' ∉ (codes.map shown).take skip) (h : readQuoted mark unclosed offset skip codes = .error m) :
    ∃ k cause, m = .at k cause ∧ k ≤ offset + codes.length ∧ '\n' ∉ (codes.map shown).take (k - offset) := by
  induction codes generalizing offset skip with
  | nil =>
    refine ⟨0, unclosed, ?_, Nat.zero_le _, by simp⟩
    cases skip <;> exact (Except.error.inj h).symm
  | cons code rest ih =>
    have hmore {skip : Nat} (hcode : '\n' ≠ shown code) (hskip : '\n' ∉ (rest.map shown).take skip)
        (hread : readQuoted mark unclosed (offset + 1) skip rest = .error m) :
        ∃ k cause, m = .at k cause ∧ k ≤ offset + (code :: rest).length ∧
          '\n' ∉ ((code :: rest).map shown).take (k - offset) := by
      obtain ⟨k, cause, rfl, hk, hline⟩ := ih hskip hread
      refine ⟨k, cause, rfl, by rw [List.length_cons]; omega, ?_⟩
      by_cases hoffset : k ≤ offset
      · rw [Nat.sub_eq_zero_of_le hoffset]
        simp
      · have hdistance : k - offset = k - (offset + 1) + 1 := by omega
        rw [hdistance, List.map_cons, List.take_succ_cons, List.mem_cons, not_or]
        exact ⟨hcode, hline⟩
    cases skip with
    | succ skip =>
      rw [List.map_cons, List.take_succ_cons, List.mem_cons, not_or] at hskip
      exact hmore hskip.1 hskip.2 h
    | zero =>
      rw [readQuoted] at h
      split at h
      · exact ⟨0, unclosed, (Except.error.inj h).symm, Nat.zero_le _, by simp⟩
      next hline =>
      split at h
      · cases h
      split at h
      · split at h
        · next cause hcause =>
          refine ⟨offset, cause, (Except.error.inj h).symm, by omega, ?_⟩
          rw [Nat.sub_self]
          simp
        · next code' length hescape =>
          cases hread : readQuoted mark unclosed (offset + 1) length rest with
          | ok found =>
            rw [hread] at h
            cases h
          | error m' =>
            rw [hread] at h
            obtain rfl := Except.error.inj h
            exact hmore (Ne.symm hline) (newline_notMem_escape hescape) hread
      · cases hread : readQuoted mark unclosed (offset + 1) 0 rest with
        | ok found =>
          rw [hread] at h
          cases h
        | error m' =>
          rw [hread] at h
          obtain rfl := Except.error.inj h
          exact hmore (Ne.symm hline) (by simp) hread

/-! ### All pieces -/

/-- What is read of some codes is found again from its own codes. -/
def Rereads (read : List Nat → Except Mistake (Lexeme × Nat)) : Prop :=
  ∀ codes l n, read codes = .ok (l, n) →
    ∃ body tail, codes = body ++ tail ∧ n = body.length + 1 ∧ ∀ rest, read (body ++ rest) = .ok (l, n)

lemma rereads_character : Rereads readCharacter := by
  intro codes l n h
  obtain ⟨⟨found, length⟩, hread, hresult⟩ := bind_eq_ok.mp h
  obtain ⟨body, tail, rfl, hlength, -, hagain⟩ := readQuoted_ok hread
  dsimp only at hresult
  split at hresult
  · next code =>
    obtain ⟨rfl, rfl⟩ := Prod.mk.inj (Except.ok.inj hresult)
    refine ⟨body, tail, rfl, by omega, fun rest => ?_⟩
    rw [readCharacter, hagain rest]
    rfl
  · cases hresult

lemma rereads_string : Rereads readString := by
  intro codes l n h
  obtain ⟨⟨found, length⟩, hread, hresult⟩ := bind_eq_ok.mp h
  obtain ⟨body, tail, rfl, hlength, -, hagain⟩ := readQuoted_ok hread
  obtain ⟨rfl, rfl⟩ := Prod.mk.inj (Except.ok.inj hresult)
  refine ⟨body, tail, rfl, by omega, fun rest => ?_⟩
  rw [readString, hagain rest]
  rfl

/-- A token is read again wherever its codes are separated from what follows. -/
lemma readPiece_token {rest : List Nat} (h : readPiece code rest = .token l n) :
    ∃ body tail, rest = body ++ tail ∧ n = body.length + 1 ∧
      ∀ rest', Separated (rest'.map shown) → readPiece code (body ++ rest') = .token l n := by
  have hquoted {read : List Nat → Except Mistake (Lexeme × Nat)} (hread : Rereads read)
      (hpiece : ∀ rest, readPiece code rest = .ofResult (read rest)) :
      ∃ body tail, rest = body ++ tail ∧ n = body.length + 1 ∧
        ∀ rest', Separated (rest'.map shown) → readPiece code (body ++ rest') = .token l n := by
    rw [hpiece] at h
    obtain ⟨body, tail, hrest, hn, hagain⟩ := hread rest l n (ofResult_token h)
    refine ⟨body, tail, hrest, hn, fun rest' _ => ?_⟩
    rw [hpiece, hagain rest']
    rfl
  by_cases hcharacter : shown code = '\x27'
  · exact hquoted rereads_character fun rest => by rw [readPiece, if_pos hcharacter]
  by_cases hstring : shown code = '"'
  · exact hquoted rereads_string fun rest => by rw [readPiece, if_neg hcharacter, if_pos hstring]
  have hplain (rest : List Nat) : readPiece code rest = readPlain (shown code) (rest.map shown) := by
    rw [readPiece, if_neg hcharacter, if_neg hstring]
  rw [hplain] at h
  obtain ⟨body, tail, hrest, rfl, hagain⟩ := readPlain_token h
  obtain ⟨body, tail, rfl, rfl, rfl⟩ := List.map_eq_append_iff.mp hrest
  refine ⟨body, tail, rfl, by rw [List.length_map], fun rest' hrest' => ?_⟩
  rw [hplain, List.map_append, hagain _ hrest']

lemma readPiece_skipped {rest : List Nat} (h : readPiece code rest = .skipped n) :
    ∃ body tail, rest = body ++ tail ∧ n = body.length + 1 ∧
      ∀ after, Gap (tail.map shown) after → Gap ((code :: rest).map shown) after := by
  unfold readPiece at h
  split at h
  · exact absurd h (ofResult_ne_skipped _)
  split at h
  · exact absurd h (ofResult_ne_skipped _)
  obtain ⟨k, rfl, hk, hgap⟩ := readPlain_skipped h
  rw [List.length_map] at hk
  refine ⟨rest.take k, rest.drop k, (List.take_append_drop k rest).symm, ?_, fun after hafter => hgap after ?_⟩
  · rw [List.length_take_of_le hk]
  · rwa [← List.map_drop]

/-- What is read after a quote is wrong on the line of the quote. -/
lemma onLine_of_quoted {unclosed : SyntaxCause} {rest : List Nat} {m : Mistake}
    {next : List Nat × Nat → Except Mistake (Lexeme × Nat)} (hcode : '\n' ≠ shown code)
    (hnext : ∀ found m, next found = .error m → ∃ cause, m = .at 0 cause)
    (h : (readQuoted mark unclosed 1 0 rest >>= next) = .error m) : OnLine ((code :: rest).map shown) m := by
  cases hread : readQuoted mark unclosed 1 0 rest with
  | ok found =>
    rw [hread] at h
    obtain ⟨cause, rfl⟩ := hnext found m h
    exact onLine_zero _ cause
  | error m' =>
    rw [hread] at h
    obtain rfl := Except.error.inj h
    obtain ⟨k, cause, rfl, hk, hline⟩ := readQuoted_error (by simp) hread
    refine ⟨by simpa [Nat.add_comm] using hk, ?_⟩
    cases k with
    | zero => simp
    | succ k =>
      rw [List.map_cons, List.take_succ_cons, List.mem_cons, not_or]
      exact ⟨hcode, hline⟩

lemma readPiece_mistake {rest : List Nat} {m : Mistake} (h : readPiece code rest = .mistake m) :
    OnLine ((code :: rest).map shown) m := by
  unfold readPiece at h
  split at h
  · next hcharacter =>
    refine onLine_of_quoted (by rw [hcharacter]; decide) (fun found m hm => ?_) (ofResult_mistake h)
    dsimp only at hm
    split at hm
    · cases hm
    · exact ⟨_, (Except.error.inj hm).symm⟩
  split at h
  · next hstring =>
    refine onLine_of_quoted (by rw [hstring]; decide) (fun found m hm => ?_) (ofResult_mistake h)
    cases hm
  cases m with
  | unreadableNumber => trivial
  | «at» k cause =>
    obtain rfl := readPlain_mistake h
    exact onLine_zero _ cause

/-! ### The scanner -/

/-- What the scanner makes of some codes, piece by piece. -/
inductive Scanned : Position → List Nat → Except SyntaxError Tokens → Prop
  | finish {position : Position} : Scanned position [] (.ok ⟨[], position⟩)
  | skipped {position : Position} {code : Nat} {body rest : List Nat} {result : Except SyntaxError Tokens}
    (hpiece : readPiece code (body ++ rest) = .skipped (body.length + 1))
    (h : Scanned (after position (code :: body)) rest result) : Scanned position (code :: (body ++ rest)) result
  | token {position : Position} {code : Nat} {body rest : List Nat} {l : Lexeme} {result : Except SyntaxError Tokens}
    (hpiece : readPiece code (body ++ rest) = .token l (body.length + 1))
    (h : Scanned (after position (code :: body)) rest result) :
    Scanned position (code :: (body ++ rest)) (result.map fun following =>
      { following with tokens := ⟨l, position, Text.ofCodes (code :: body)⟩ :: following.tokens })
  | mistake {position : Position} {code : Nat} {rest : List Nat} {offset : Nat} {cause : SyntaxCause}
    (hpiece : readPiece code rest = .mistake (.at offset cause)) :
    Scanned position (code :: rest) (.error (.at (position.shift offset) cause))
  | unreadable {position : Position} {code : Nat} {rest : List Nat}
    (hpiece : readPiece code rest = .mistake .unreadableNumber) :
    Scanned position (code :: rest) (.error .unreadableNumber)

lemma scanned (position : Position) (codes : List Nat) : Scanned position codes (scan position 0 codes) := by
  induction hn : codes.length using Nat.strongRecOn generalizing position codes with
  | ind n ih =>
    subst hn
    cases codes with
    | nil => exact .finish
    | cons code rest =>
      -- The scanner steps over the codes of the piece.
      have hbehind (body tail : List Nat) (hrest : rest = body ++ tail) :
          scan (position.advance (shown code)) body.length rest = scan (after position (code :: body)) 0 tail ∧
            Scanned (after position (code :: body)) tail (scan (after position (code :: body)) 0 tail) := by
        subst hrest
        refine ⟨scan_skip _ body tail, ih tail.length ?_ _ tail rfl⟩
        rw [List.length_cons, List.length_append]
        omega
      rw [scan]
      cases hpiece : readPiece code rest with
      | skipped n =>
        obtain ⟨body, tail, rfl, rfl, -⟩ := readPiece_skipped hpiece
        obtain ⟨hscan, htail⟩ := hbehind body tail rfl
        dsimp only
        rw [Nat.add_sub_cancel, hscan]
        exact .skipped hpiece htail
      | token l n =>
        obtain ⟨body, tail, rfl, rfl, -⟩ := readPiece_token hpiece
        obtain ⟨hscan, htail⟩ := hbehind body tail rfl
        dsimp only
        rw [Nat.add_sub_cancel, hscan, List.take_succ_cons, List.take_left]
        exact .token hpiece htail
      | mistake m =>
        cases m with
        | unreadableNumber => exact .unreadable hpiece
        | «at» offset cause => exact .mistake hpiece

end PredicateTrace.Token
