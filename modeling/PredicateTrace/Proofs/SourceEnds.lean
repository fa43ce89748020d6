import PredicateTrace.Proofs.Pieces

/-!
# What stands behind a source

Where a closing bracket or a line feed stands behind a source, its pieces are those that it has alone. Only a comment
up to the end of its line goes on. The proof goes by the parts of the pieces, since a number may look several
characters ahead.
-/

namespace PredicateTrace.Token

open Text (shown)

variable {c : Char} {p : Char → Bool} {l : Lexeme} {n code : Nat} {text rest : List Char} {position : Position}

/-- The characters that no token goes on with. -/
def closing : List Char :=
  [')', ']', '\n']

/-- A text is at its end, or goes on with a closing bracket or a line feed. -/
def Closes (rest : List Char) : Prop :=
  ∀ c ∈ rest.head?, c ∈ closing

lemma Closes.forall_head? (hp : closing.any p = false) (h : Closes rest) : ∀ c ∈ rest.head?, p c = false :=
  fun c hc => Bool.eq_false_iff.mpr (List.any_eq_false.mp hp c (h c hc))

lemma Closes.any_head?_append (hp : closing.any p = false) (h : Closes rest) (text : List Char) :
    (text ++ rest).head?.any p = text.head?.any p := by
  rcases text with _ | ⟨c, more⟩
  · cases rest with
    | nil => rfl
    | cons c more => exact h.forall_head? hp c rfl
  · rfl

lemma Closes.takeWhile_append (hp : closing.any p = false) (h : Closes rest) (text : List Char) :
    (text ++ rest).takeWhile p = text.takeWhile p := by
  have hrest : rest.takeWhile p = [] := by
    cases rest with
    | nil => rfl
    | cons c more => rw [List.takeWhile_cons, h.forall_head? hp c rfl, if_neg Bool.false_ne_true]
  rw [List.takeWhile_append, hrest, List.append_nil]
  split
  · next hall => rw [(List.takeWhile_prefix p).eq_of_length hall]
  · rfl

lemma Closes.dropWhile_append (hp : closing.any p = false) (h : Closes rest) (text : List Char) :
    (text ++ rest).dropWhile p = text.dropWhile p ++ rest := by
  rw [← drop_length_takeWhile, h.takeWhile_append hp, ← drop_length_takeWhile,
    List.drop_append_of_le_length (List.takeWhile_prefix p).length_le]

lemma Closes.leadingMark_append (hp : closing.any p = false) (h : Closes rest) (text : List Char) :
    leadingMark p (text ++ rest) = leadingMark p text := by
  rcases text with _ | ⟨c, more⟩
  · cases rest with
    | nil => rfl
    | cons c more =>
      rw [List.nil_append, leadingMark, h.forall_head? hp c rfl]
      rfl
  · rfl

/-! ### Numbers -/

lemma fractionPart_append (h : Closes rest) (text : List Char) : fractionPart (text ++ rest) = fractionPart text := by
  have hdigits : closing.any isDigitOrUnderscore = false := by decide
  rcases text with _ | ⟨d, more⟩
  · exact fractionPart_eq_nil fun c hc => by
      rintro rfl
      exact absurd (h '.' hc) (by decide)
  by_cases hd : d = '.'
  · subst hd
    rcases more with _ | ⟨e, more⟩
    · rcases rest with _ | ⟨c, more⟩
      · rfl
      · have hc : c = ')' ∨ c = ']' ∨ c = '\n' := by simpa [closing] using h c rfl
        rcases hc with rfl | rfl | rfl <;> rfl
    · have htake := h.takeWhile_append hdigits (e :: more)
      rw [List.cons_append] at htake
      rw [List.cons_append, List.cons_append, fractionPart, fractionPart, htake]
  · have hpoint (tail : List Char) : fractionPart (d :: tail) = [] :=
      fractionPart_eq_nil fun c hc => Option.some.inj hc ▸ hd
    rw [List.cons_append, hpoint, hpoint]

lemma leadingMark_length_le (isMark : Char → Bool) (text : List Char) :
    (leadingMark isMark text).length ≤ text.length := by
  have hparts := congrArg List.length (append_drop_leadingMark isMark text)
  rw [List.length_append] at hparts
  omega

lemma exponentSign_eq (text : List Char) : exponentSign text = leadingMark (fun c => c = '+' || c = '-') text := by
  unfold exponentSign
  split
  · rfl
  · rfl
  · next hplus hminus =>
    rcases text with _ | ⟨c, more⟩
    · rfl
    · have hc : c ≠ '+' ∧ c ≠ '-' := ⟨fun h => hplus more (h ▸ rfl), fun h => hminus more (h ▸ rfl)⟩
      simp [leadingMark, hc]

lemma scanExponent_append (h : Closes rest) (text : List Char) : scanExponent (text ++ rest) = scanExponent text := by
  rcases text with _ | ⟨e, more⟩
  · exact scanExponent_absent (h.forall_head? (by decide))
  · have hsign : exponentSign (more ++ rest) = exponentSign more := by
      rw [exponentSign_eq, exponentSign_eq, h.leadingMark_append (by decide)]
    have hdrop : (more ++ rest).drop (exponentSign more).length = more.drop (exponentSign more).length ++ rest := by
      rw [exponentSign_eq, List.drop_append_of_le_length (leadingMark_length_le _ more)]
    rw [List.cons_append, scanExponent_cons, scanExponent_cons, hsign, hdrop,
      h.any_head?_append (by decide), h.takeWhile_append (by decide)]

/-- A number with more behind it. -/
def NumberScan.before (rest : List Char) (scan : NumberScan) : NumberScan :=
  { scan with rest := scan.rest ++ rest }

lemma finishDecimal_append (h : Closes rest) (isFloating : Bool) (body tail : List Char) :
    finishDecimal isFloating body (tail ++ rest) = (finishDecimal isFloating body tail).before rest := by
  have hmark : closing.any (isTypeMark isFloating) = false := by
    cases isFloating <;> decide
  rw [finishDecimal_eq, finishDecimal_eq, h.leadingMark_append hmark,
    List.drop_append_of_le_length (leadingMark_length_le _ tail)]
  split <;> rfl

lemma le_length_of_malformed (h : scanExponent text = .malformed n) : n ≤ text.length := by
  rcases text with _ | ⟨e, more⟩
  · cases h
  · rw [scanExponent_cons, exponentSign_eq] at h
    have hsign := leadingMark_length_le (fun c => c = '+' || c = '-') more
    split at h
    · split at h
      · cases h
      · obtain rfl := ExponentScan.malformed.inj h
        rw [List.length_cons]
        omega
    · cases h

/-- A decimal number ends where it ends alone. -/
lemma scanDecimal_append (h : Closes rest) (text : List Char) :
    scanDecimal (text ++ rest) = (scanDecimal text).before rest := by
  obtain ⟨whole, fraction, tail, rfl, hdigits, hhead, hfraction⟩ := exists_parts text
  have hfraction' : fractionPart (fraction ++ (tail ++ rest)) = fraction := by
    rw [← List.append_assoc, fractionPart_append h, hfraction]
  have hhead' : ∀ c ∈ (fraction ++ (tail ++ rest)).head?, isDigitOrUnderscore c = false := by
    rw [← List.append_assoc]
    cases hpart : fraction ++ tail with
    | nil => exact h.forall_head? (by decide)
    | cons d more => rwa [hpart] at hhead
  have hlong := scanDecimal_parts hdigits hhead' hfraction'
  have hshort := scanDecimal_parts hdigits hhead hfraction
  rw [scanExponent_append h] at hlong
  rw [List.append_assoc, List.append_assoc, hlong, hshort]
  cases hscan : scanExponent tail with
  | absent => exact finishDecimal_append h _ _ _
  | present exponent =>
    obtain ⟨-, -, after', rfl, -⟩ := scanExponent_present hscan
    dsimp only
    rw [List.append_assoc exponent, List.drop_left, List.drop_left, finishDecimal_append h]
  | malformed n =>
    dsimp only
    rw [List.drop_append_of_le_length (le_length_of_malformed hscan)]
    rfl

lemma scanBased_append (h : Closes rest) (base : Nat) (text : List Char) :
    scanBased base (text ++ rest) = (scanBased base text).before rest := by
  have hpart : closing.any (isBasePart base) = false := rfl
  have hmark := h.leadingMark_append (p := isLongMark) (by decide) (text.dropWhile (isBasePart base))
  rw [scanBased_eq, scanBased_eq, h.takeWhile_append hpart, h.dropWhile_append hpart]
  dsimp only
  rw [hmark, List.drop_append_of_le_length (leadingMark_length_le _ _)]
  unfold finishBased
  split <;> rfl

lemma scanNumber_append (h : Closes rest) (hne : text ≠ []) :
    scanNumber (text ++ rest) = (scanNumber text).before rest := by
  rcases based_or_decimal text with ⟨c, more, rfl, hc⟩ | hshort
  · obtain ⟨base, hscan⟩ := scanNumber_based hc
    rw [List.cons_append, List.cons_append, hscan, hscan, scanBased_append h]
  · have hlong : ∀ c more, text ++ rest = '0' :: c :: more → isBaseMark c = false := by
      intro c more htext
      rcases text with _ | ⟨d, _ | ⟨e, ds⟩⟩
      · exact absurd rfl hne
      · obtain rfl : rest = c :: more := (List.cons.inj htext).2
        exact h.forall_head? (p := isBaseMark) (by decide) c rfl
      · obtain ⟨hd, htext⟩ := List.cons.inj htext
        obtain rfl : e = c := (List.cons.inj htext).1
        exact hshort e ds (by rw [hd])
    rw [scanNumber_decimal hlong, scanNumber_decimal hshort, scanDecimal_append h]

/-- A number is read as it is alone. -/
lemma readNumber_append (h : Closes rest) (hne : text ≠ []) (hread : readNumber text = .ok (l, n)) :
    readNumber (text ++ rest) = .ok (l, n) := by
  rw [readNumber_eq_ok] at hread ⊢
  rw [scanNumber_append h hne, NumberScan.before]
  dsimp only
  rwa [h.any_head?_append (by decide)]

/-! ### Words, symbols and comments -/

lemma Closes.head?_append_beq (hc : c ∉ closing) (h : Closes rest) (text : List Char) :
    ((text ++ rest).head? == some c) = (text.head? == some c) := by
  rcases text with _ | ⟨d, more⟩
  · rcases rest with _ | ⟨d, more⟩
    · rfl
    · have hd : d ≠ c := fun hd => hc (hd ▸ h d rfl)
      simp [hd]
  · rfl

lemma Closes.beq_take_append {body : List Char} (hbody : closing.any body.contains = false) (h : Closes rest)
    (text : List Char) : (body == (text ++ rest).take body.length) = (body == text.take body.length) := by
  induction body generalizing text with
  | nil => rfl
  | cons d body ih =>
    simp only [List.any_eq_false, List.contains_cons, Bool.or_eq_true, beq_iff_eq, not_or] at hbody
    have hmore := ih (List.any_eq_false.mpr fun c hc => (hbody c hc).2)
    rcases text with _ | ⟨c, more⟩
    · rcases rest with _ | ⟨c, more⟩
      · rfl
      · have hc : d ≠ c := Ne.symm (hbody c (h c rfl)).1
        simp [hc]
    · simp [hmore more]

lemma fits_append (h : Closes rest) (s : Symbol) (c : Char) (text : List Char) :
    Symbol.fits s (c :: (text ++ rest)) = Symbol.fits s (c :: text) := by
  have hbody : closing.any s.text.toList.tail.contains = false := by
    cases s <;> decide
  unfold Symbol.fits
  rw [← String.length_toList]
  cases hs : s.text.toList with
  | nil => rfl
  | cons d body =>
    rw [hs] at hbody
    have hbeq : (body == (text ++ rest).take body.length) = (body == text.take body.length) :=
      h.beq_take_append hbody text
    rw [List.length_cons, List.take_succ_cons, List.take_succ_cons, List.cons_beq_cons, List.cons_beq_cons, hbeq]

lemma commentLength?_append (h : commentLength? text = some n) (rest : List Char) :
    commentLength? (text ++ rest) = some n := by
  fun_induction commentLength? text generalizing n with
  | case1 more => exact h
  | case2 d more hnone ih =>
    obtain ⟨m, hm, rfl⟩ := Option.map_eq_some_iff.mp h
    have hmore := ih hm
    rw [List.cons_append, commentLength?, hmore]
    · rfl
    · rintro after rfl hafter
      rcases more with _ | ⟨e, more⟩
      · cases hm
      · obtain ⟨rfl, -⟩ := List.cons.inj hafter
        exact hnone more rfl rfl
  | case3 => cases h

lemma takeWhile_line_append (h : '\n' ∉ text → ∀ d ∈ rest.head?, d = '\n') :
    (text ++ rest).takeWhile (· ≠ '\n') = text.takeWhile (· ≠ '\n') := by
  rw [List.takeWhile_append]
  split
  · next hall =>
    have htext := (List.takeWhile_prefix _).eq_of_length hall
    have hrest : rest.takeWhile (· ≠ '\n') = [] := by
      have hnewline : '\n' ∉ text := fun hmem => by
        rw [← htext] at hmem
        simpa using List.all_eq_true.mp List.all_takeWhile _ hmem
      cases rest with
      | nil => rfl
      | cons d more => simp [h hnewline d rfl]
    rw [hrest, List.append_nil, htext]
  · rfl

/-- Whether a comment up to the end of its line begins with a character. -/
def opensLineComment (c : Char) (text : List Char) : Bool :=
  c = '/' && text.head? == some '/'

/-- What is no mistake is read as it is alone, unless it is a comment that goes on. -/
lemma readPlain_append (h : Closes rest) (hread : ∀ m, readPlain c text ≠ .mistake m)
    (hcomment : opensLineComment c text = true → '\n' ∉ text → ∀ d ∈ rest.head?, d = '\n') :
    readPlain c (text ++ rest) = readPlain c text := by
  unfold readPlain at hread ⊢
  dsimp only at hread ⊢
  -- No closing character is looked for behind the first one, so that both texts take the same branch.
  rw [h.head?_append_beq (by decide), h.head?_append_beq (by decide), h.any_head?_append (by decide)]
  split at hread
  · next hblank => rw [if_pos hblank, if_pos hblank]
  next hblank =>
  rw [if_neg hblank, if_neg hblank]
  split at hread
  · next hline =>
    rw [if_pos hline, if_pos hline, ← List.cons_append, takeWhile_line_append]
    intro hnewline
    exact hcomment hline fun hmem => hnewline (List.mem_cons_of_mem c hmem)
  next hline =>
  rw [if_neg hline, if_neg hline]
  split at hread
  · next hblock =>
    obtain ⟨more, rfl⟩ : ∃ more, text = '*' :: more := by
      simp only [Bool.and_eq_true, beq_iff_eq, List.head?_eq_some_iff] at hblock
      exact hblock.2
    rw [if_pos hblock, if_pos hblock]
    cases hlength : commentLength? more with
    | none =>
      rw [List.tail_cons, hlength] at hread
      exact absurd rfl (hread _)
    | some n => rw [List.cons_append, List.tail_cons, List.tail_cons, commentLength?_append hlength, hlength]
  next hblock =>
  rw [if_neg hblock, if_neg hblock]
  split at hread
  · next hnumber =>
    rw [if_pos hnumber, if_pos hnumber]
    cases hnum : readNumber (c :: text) with
    | error m =>
      rw [hnum] at hread
      exact absurd rfl (hread m)
    | ok found =>
      rw [← List.cons_append, readNumber_append h (List.cons_ne_nil c text) hnum]
  next hnumber =>
  rw [if_neg hnumber, if_neg hnumber]
  split
  · rw [← List.cons_append, h.takeWhile_append (by decide)]
  · simp only [fits_append h]

/-! ### Whole sources -/

lemma Rereads.append {read : List Nat → Except Mistake (Lexeme × Nat)} (h : Rereads read) {codes : List Nat}
    (hread : read codes = .ok (l, n)) (rest : List Nat) : read (codes ++ rest) = .ok (l, n) := by
  obtain ⟨body, tail, rfl, -, hagain⟩ := h codes l n hread
  rw [List.append_assoc]
  exact hagain (tail ++ rest)

lemma readPiece_append {body rest : List Nat} (h : Closes (rest.map shown))
    (hread : ∀ m, readPiece code body ≠ .mistake m)
    (hcomment : opensLineComment (shown code) (body.map shown) = true → '\n' ∉ body.map shown →
      ∀ d ∈ (rest.map shown).head?, d = '\n') :
    readPiece code (body ++ rest) = readPiece code body := by
  have hquoted {read : List Nat → Except Mistake (Lexeme × Nat)} (hagain : Rereads read)
      (hread : ∀ m, Piece.ofResult (read body) ≠ .mistake m) :
      Piece.ofResult (read (body ++ rest)) = .ofResult (read body) := by
    cases hresult : read body with
    | error m =>
      rw [hresult] at hread
      exact absurd rfl (hread m)
    | ok found => rw [hagain.append hresult]
  unfold readPiece at hread ⊢
  split at hread
  · next hcharacter =>
    rw [if_pos hcharacter, if_pos hcharacter, hquoted rereads_character hread]
  next hcharacter =>
  rw [if_neg hcharacter, if_neg hcharacter]
  split at hread
  · next hstring =>
    rw [if_pos hstring, if_pos hstring, hquoted rereads_string hread]
  next hstring =>
  rw [if_neg hstring, if_neg hstring, List.map_append]
  exact readPlain_append h hread hcomment

/-- Whether a comment goes on to the end of a source. The next `skip` codes belong to what was read last. -/
def endsInComment : Nat → List Nat → Bool
  | _, [] => false
  | skip + 1, _ :: rest => endsInComment skip rest
  | 0, code :: rest =>
    if opensLineComment (shown code) (rest.map shown) ∧ '\n' ∉ rest.map shown then true
    else
      match readPiece code rest with
      | .skipped length | .token _ length => endsInComment (length - 1) rest
      | .mistake _ => false

lemma endsInComment_skip (body rest : List Nat) : endsInComment body.length (body ++ rest) = endsInComment 0 rest := by
  induction body with
  | nil => rfl
  | cons code body ih => exact ih

lemma endsInComment_piece {body rest : List Nat}
    (hpiece : readPiece code (body ++ rest) = .skipped (body.length + 1) ∨
      ∃ l, readPiece code (body ++ rest) = .token l (body.length + 1))
    (h : endsInComment 0 rest = true) : endsInComment 0 (code :: (body ++ rest)) = true := by
  rw [endsInComment]
  split
  · rfl
  · rcases hpiece with hpiece | ⟨l, hpiece⟩
    all_goals
      rw [hpiece]
      dsimp only
      rw [Nat.add_sub_cancel, endsInComment_skip, h]

/-- What stands behind a source is read from its end, and the source is read as it is alone. The induction goes over
its pieces. -/
theorem scan_append {source rest : List Nat} {found : Tokens} (h : scan position 0 source = .ok found)
    (hrest : Closes (rest.map shown))
    (hcomment : endsInComment 0 source = true → ∀ d ∈ (rest.map shown).head?, d = '\n') :
    scan position 0 (source ++ rest) = (scan (after position source) 0 rest).map fun following =>
      { following with tokens := found.tokens ++ following.tokens } := by
  -- A piece is read again, and the scanner steps over it.
  have hpiece {position : Position} {code : Nat} {body tail : List Nat}
      (hcomment : endsInComment 0 (code :: (body ++ tail)) = true → ∀ d ∈ (rest.map shown).head?, d = '\n')
      (hread : ∀ m, readPiece code (body ++ tail) ≠ .mistake m) :
      readPiece code (body ++ tail ++ rest) = readPiece code (body ++ tail) ∧
        scan (position.advance (shown code)) body.length (body ++ tail ++ rest) =
          scan (after position (code :: body)) 0 (tail ++ rest) := by
    refine ⟨readPiece_append hrest hread fun hopens hnewline => hcomment ?_, ?_⟩
    · rw [endsInComment, if_pos ⟨hopens, hnewline⟩]
    · rw [List.append_assoc]
      exact scan_skip _ body (tail ++ rest)
  have hscanned := scanned position source
  generalize scan position 0 source = result at h hscanned
  induction hscanned generalizing found with
  | @finish position =>
    obtain rfl := Except.ok.inj h
    have hafter : after position [] = position := rfl
    rw [hafter, List.nil_append]
    cases scan position 0 rest <;> rfl
  | @skipped position code body tail result hskipped _ ih =>
    obtain ⟨hagain, hscan⟩ := @hpiece position code body tail hcomment (by simp [hskipped])
    have hbehind := ih (fun hends => hcomment (endsInComment_piece (Or.inl hskipped) hends)) h
    have hafter : after position (code :: (body ++ tail)) = after (after position (code :: body)) tail := by
      simp [after]
    rw [hafter, ← hbehind, List.cons_append, scan, hagain, hskipped]
    exact hscan
  | @token position code body tail l result htoken _ ih =>
    obtain ⟨following, rfl, rfl⟩ := map_eq_ok.mp h
    obtain ⟨hagain, hscan⟩ := @hpiece position code body tail hcomment (by simp [htoken])
    have hbehind := ih (fun hends => hcomment (endsInComment_piece (Or.inr ⟨l, htoken⟩) hends)) rfl
    have hafter : after position (code :: (body ++ tail)) = after (after position (code :: body)) tail := by
      simp [after]
    rw [List.cons_append, scan, hagain, htoken]
    dsimp only
    have htake : (code :: (body ++ tail ++ rest)).take (body.length + 1) = code :: body := by simp
    rw [Nat.add_sub_cancel, hscan, hbehind, hafter, htake]
    cases scan (after (after position (code :: body)) tail) 0 rest <;> rfl
  | mistake => cases h
  | unreadable => cases h

end PredicateTrace.Token
