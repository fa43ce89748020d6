import PredicateTrace.Proofs.SourceReading

/-!
# Numbers apart from what follows

How far a number reaches depends on the characters behind it. Its own characters, with a space or nothing behind
them, are the same number. The proof goes by the parts of a number: digits, fraction, exponent and suffix.
-/

namespace PredicateTrace.Token

open Text (isDigit isLetter)

variable {text body whole fraction digits exponent tail rest : List Char} {l : Lexeme} {isFloating : Bool}

/-- A text is at its end, or goes on with a space. -/
def Separated (rest : List Char) : Prop :=
  ∀ c ∈ rest.head?, c = ' '

lemma separated_nil : Separated [] :=
  fun c hc => by cases hc

lemma separated_space (rest : List Char) : Separated (' ' :: rest) :=
  fun _ hc => (Option.some.inj hc).symm

lemma head?_dropWhile_eq_false (p : Char → Bool) (text : List Char) :
    ∀ c ∈ (text.dropWhile p).head?, p c = false := by
  intro c hc
  have hhead := List.head?_dropWhile_not p text
  rw [hc] at hhead
  exact hhead

lemma drop_length_takeWhile (p : Char → Bool) (text : List Char) :
    text.drop (text.takeWhile p).length = text.dropWhile p := by
  have hparts : text.drop (text.takeWhile p).length =
      (text.takeWhile p ++ text.dropWhile p).drop (text.takeWhile p).length := by
    rw [List.takeWhile_append_dropWhile]
  rw [hparts, List.drop_left]

/-! ### Fractions -/

/-- A point before such a character belongs to an access to a member. -/
def beginsMember (c : Char) : Bool :=
  isLetter c && !"eEfFdD".toList.contains c

/-- A character ends the digits of a number, and does not take the point of a fraction away. -/
def EndsDigits (isFloating : Bool) (c : Char) : Prop :=
  isDigitOrUnderscore c = false ∧ c ≠ '.' ∧ (isFloating = true → beginsMember c = false)

lemma endsDigits_space (isFloating : Bool) : EndsDigits isFloating ' ' :=
  ⟨by decide, by decide, fun _ => by decide⟩

lemma fractionPart_point (hdigits : ∀ c ∈ digits, isDigitOrUnderscore c = true)
    (hend : ∀ c ∈ tail.head?, isDigitOrUnderscore c = false)
    (hmember : ∀ c ∈ (digits ++ tail).head?, beginsMember c = false) :
    fractionPart ('.' :: (digits ++ tail)) = '.' :: digits := by
  have htake : (digits ++ tail).takeWhile isDigitOrUnderscore = digits := takeWhile_append hdigits hend
  cases hrest : digits ++ tail with
  | nil =>
    obtain ⟨rfl, -⟩ := List.append_eq_nil_iff.mp hrest
    rfl
  | cons c more =>
    have hc : beginsMember c = false := hmember c (by rw [hrest]; rfl)
    unfold beginsMember at hc
    rw [hrest] at htake
    rw [fractionPart, hc, htake]
    rfl

/-- The fraction of a number is found again before any character that ends it. -/
lemma fractionPart_split (text : List Char) :
    ∃ tail, text = fractionPart text ++ tail ∧
      ∀ tail', (∀ c ∈ tail'.head?, EndsDigits (!(fractionPart text).isEmpty) c) →
        fractionPart (fractionPart text ++ tail') = fractionPart text := by
  have hnone (h : fractionPart text = []) : ∃ tail, text = fractionPart text ++ tail ∧
      ∀ tail', (∀ c ∈ tail'.head?, EndsDigits (!(fractionPart text).isEmpty) c) →
        fractionPart (fractionPart text ++ tail') = fractionPart text := by
    refine ⟨text, by rw [h]; rfl, fun tail' htail' => ?_⟩
    rw [h]
    exact fractionPart_eq_nil fun c hc => (htail' c hc).2.1
  rcases text with _ | ⟨point, more⟩
  · exact hnone rfl
  by_cases hpoint : point = '.'
  · subst hpoint
    by_cases hmember : ∃ c ∈ more.head?, beginsMember c = true
    · obtain ⟨c, hc, hmember⟩ := hmember
      obtain ⟨after, rfl⟩ := List.head?_eq_some_iff.mp hc
      unfold beginsMember at hmember
      exact hnone (by rw [fractionPart, hmember]; rfl)
    · have hhead : ∀ c ∈ more.head?, beginsMember c = false := fun c hc => by
        cases hb : beginsMember c with
        | false => rfl
        | true => exact absurd ⟨c, hc, hb⟩ hmember
      have hdigits : ∀ c ∈ more.takeWhile isDigitOrUnderscore, isDigitOrUnderscore c = true :=
        fun c hc => List.all_eq_true.mp List.all_takeWhile c hc
      have hparts : more.takeWhile isDigitOrUnderscore ++ more.dropWhile isDigitOrUnderscore = more :=
        List.takeWhile_append_dropWhile
      have hfraction : fractionPart ('.' :: more) = '.' :: more.takeWhile isDigitOrUnderscore := by
        have hpoint := fractionPart_point hdigits (head?_dropWhile_eq_false _ more) (by rwa [hparts])
        rwa [hparts] at hpoint
      rw [hfraction]
      refine ⟨more.dropWhile isDigitOrUnderscore, by rw [List.cons_append, hparts], fun tail' htail' => ?_⟩
      refine fractionPart_point hdigits (fun c hc => (htail' c hc).1) ?_
      cases htake : more.takeWhile isDigitOrUnderscore with
      | nil => exact fun c hc => (htail' c hc).2.2 rfl
      | cons d ds =>
        rw [htake] at hparts
        intro c hc
        exact hhead c (by rw [← hparts]; exact hc)
  · exact hnone (fractionPart_eq_nil fun c hc => Option.some.inj hc ▸ hpoint)

/-! ### Exponents -/

/-- A letter that begins an exponent. -/
def isExponentMark (c : Char) : Bool :=
  c = 'e' || c = 'E'

/-- The sign of an exponent, if it has one. -/
def exponentSign : List Char → List Char
  | '+' :: _ => ['+']
  | '-' :: _ => ['-']
  | _ => []

lemma scanExponent_cons (e : Char) (more : List Char) :
    scanExponent (e :: more) =
      if isExponentMark e then
        if (more.drop (exponentSign more).length).head?.any isDigit then
          .present (e :: exponentSign more ++ (more.drop (exponentSign more).length).takeWhile isDigitOrUnderscore)
        else .malformed (1 + (exponentSign more).length)
      else .absent :=
  rfl

lemma endsDigits_exponentMark {c : Char} (h : isExponentMark c = true) : EndsDigits isFloating c := by
  simp only [isExponentMark, Bool.or_eq_true, decide_eq_true_eq] at h
  rcases h with rfl | rfl
  · exact ⟨by decide, by decide, fun _ => by decide⟩
  · exact ⟨by decide, by decide, fun _ => by decide⟩

lemma scanExponent_absent (h : ∀ c ∈ text.head?, isExponentMark c = false) : scanExponent text = .absent :=
  scanExponent_eq_absent fun c hc => by simpa [isExponentMark] using h c hc

/-- A sign is found again whatever follows it, and none before a digit. -/
lemma exponentSign_append {more after : List Char} {d : Char} (hd : isDigit d = true)
    (h : more.drop (exponentSign more).length = d :: after) (after' : List Char) :
    more = exponentSign more ++ d :: after ∧
      exponentSign (exponentSign more ++ d :: after') = exponentSign more := by
  have hplus : d ≠ '+' := by
    rintro rfl
    exact absurd hd (by decide)
  have hminus : d ≠ '-' := by
    rintro rfl
    exact absurd hd (by decide)
  unfold exponentSign at h ⊢
  split at h
  · obtain rfl : _ = d :: after := h
    exact ⟨rfl, rfl⟩
  · obtain rfl : _ = d :: after := h
    exact ⟨rfl, rfl⟩
  · obtain rfl : _ = d :: after := h
    refine ⟨rfl, ?_⟩
    split
    · next heq => exact absurd (List.cons.inj heq).1 hplus
    · next heq => exact absurd (List.cons.inj heq).1 hminus
    · rfl

/-- An exponent reaches up to the first character that is no digit. -/
lemma scanExponent_present (h : scanExponent text = .present exponent) :
    (∀ c ∈ exponent.head?, isExponentMark c = true) ∧ exponent ≠ [] ∧ ∃ tail, text = exponent ++ tail ∧
      ∀ tail', (∀ c ∈ tail'.head?, isDigitOrUnderscore c = false) →
        scanExponent (exponent ++ tail') = .present exponent := by
  rcases text with _ | ⟨e, more⟩
  · cases h
  rw [scanExponent_cons] at h
  split at h
  · next hmark =>
    split at h
    · next hdigit =>
      obtain rfl := ExponentScan.present.inj h
      obtain ⟨d, after, hafter, hdigit⟩ : ∃ d after, more.drop (exponentSign more).length = d :: after ∧
          isDigit d = true := by
        cases hafter : more.drop (exponentSign more).length with
        | nil => simp [hafter] at hdigit
        | cons d after => exact ⟨d, after, rfl, by simpa [hafter] using hdigit⟩
      have hdou : isDigitOrUnderscore d = true := by
        unfold isDigitOrUnderscore
        rw [hdigit, Bool.true_or]
      have htake : (d :: after).takeWhile isDigitOrUnderscore = d :: after.takeWhile isDigitOrUnderscore := by
        rw [List.takeWhile_cons, if_pos hdou]
      have hmore := (exponentSign_append hdigit hafter []).1
      rw [hafter, htake]
      refine ⟨fun c hc => Option.some.inj hc ▸ hmark, List.cons_ne_nil _ _, after.dropWhile isDigitOrUnderscore, ?_, ?_⟩
      · conv_lhs => rw [hmore]
        simp [List.takeWhile_append_dropWhile]
      · intro tail' htail'
        have hdigits : ∀ c ∈ d :: after.takeWhile isDigitOrUnderscore, isDigitOrUnderscore c = true :=
          List.forall_mem_cons.mpr ⟨hdou, fun c hc => List.all_eq_true.mp List.all_takeWhile c hc⟩
        have hsign := (exponentSign_append hdigit hafter (after.takeWhile isDigitOrUnderscore ++ tail')).2
        have htext : e :: exponentSign more ++ (d :: after.takeWhile isDigitOrUnderscore) ++ tail' =
            e :: (exponentSign more ++ d :: (after.takeWhile isDigitOrUnderscore ++ tail')) := by simp
        rw [htext, scanExponent_cons, if_pos hmark, hsign, List.drop_left, List.head?_cons, Option.any_some, hdigit,
          if_pos rfl, ← List.cons_append, takeWhile_append hdigits htail']
    · cases h
  · cases h

/-! ### Suffixes -/

/-- What becomes of the digits, the fraction and the exponent of a number when its suffix is read. -/
def finishDecimal (isFloating : Bool) (body rest : List Char) : NumberScan :=
  let numeral := body.filter (· ≠ '_')
  if hasEdgeUnderscore body || hasStrayUnderscore body then
    ⟨.malformed, body.length, rest⟩
  else
    match rest with
    | c :: after =>
      if c = 'f' || c = 'F' then ⟨floatingValue .float numeral, body.length + 1, after⟩
      else if c = 'd' || c = 'D' then ⟨floatingValue .double numeral, body.length + 1, after⟩
      else if isFloating then ⟨floatingValue .double numeral, body.length, rest⟩
      else if isLongMark c then ⟨integerValue true numeral, body.length + 1, after⟩
      else ⟨integerValue false numeral, body.length, rest⟩
    | [] =>
      ⟨if isFloating then floatingValue .double numeral else integerValue false numeral, body.length, rest⟩

lemma scanDecimal_eq (text : List Char) :
    scanDecimal text =
      let whole := text.takeWhile isDigitOrUnderscore
      let fraction := fractionPart (text.drop whole.length)
      match scanExponent (text.drop (whole ++ fraction).length) with
      | .absent => finishDecimal (!fraction.isEmpty) (whole ++ fraction) (text.drop (whole ++ fraction).length)
      | .present exponent =>
        finishDecimal true (whole ++ fraction ++ exponent) (text.drop (whole ++ fraction ++ exponent).length)
      | .malformed n =>
        ⟨.malformed, (whole ++ fraction).length + n, text.drop ((whole ++ fraction).length + n)⟩ :=
  rfl

/-- The mark of some kind that a text begins with, if there is one. -/
def leadingMark (isMark : Char → Bool) : List Char → List Char
  | c :: _ => if isMark c then [c] else []
  | [] => []

lemma append_drop_leadingMark (isMark : Char → Bool) (text : List Char) :
    leadingMark isMark text ++ text.drop (leadingMark isMark text).length = text := by
  rcases text with _ | ⟨c, more⟩
  · rfl
  · rw [leadingMark]
    split <;> rfl

/-- A mark is found again before what separates it, since a space is none. -/
lemma leadingMark_append {isMark : Char → Bool} (hspace : isMark ' ' = false) (text : List Char)
    (hrest : Separated rest) : leadingMark isMark (leadingMark isMark text ++ rest) = leadingMark isMark text := by
  have hrest : leadingMark isMark rest = [] := by
    rcases rest with _ | ⟨c, after⟩
    · rfl
    · obtain rfl := hrest c rfl
      rw [leadingMark, hspace]
      rfl
  rcases text with _ | ⟨c, more⟩
  · exact hrest
  · rw [leadingMark]
    split
    · next hc => rw [List.singleton_append, leadingMark, if_pos hc]
    · exact hrest

lemma head?_leadingMark_append (isMark : Char → Bool) (text : List Char) (hrest : Separated rest) :
    ∀ c ∈ (leadingMark isMark text ++ rest).head?, isMark c = true ∨ c = ' ' := by
  rcases text with _ | ⟨d, more⟩
  · exact fun c hc => Or.inr (hrest c hc)
  · rw [leadingMark]
    split
    · next hd => exact fun c hc => Or.inl (Option.some.inj hc ▸ hd)
    · exact fun c hc => Or.inr (hrest c hc)

/-- A letter that may end a number and tells its type. -/
def isTypeMark (isFloating : Bool) (c : Char) : Bool :=
  ['f', 'F', 'd', 'D'].contains c || (!isFloating && isLongMark c)

/-- What the digits of a number and its suffix give. -/
def suffixedValue (isFloating : Bool) (numeral : List Char) : List Char → NumberValue
  | c :: _ =>
    if c = 'f' || c = 'F' then floatingValue .float numeral
    else if c = 'd' || c = 'D' then floatingValue .double numeral
    else integerValue true numeral
  | [] => if isFloating then floatingValue .double numeral else integerValue false numeral

lemma finishDecimal_eq (isFloating : Bool) (body rest : List Char) :
    finishDecimal isFloating body rest =
      if hasEdgeUnderscore body || hasStrayUnderscore body then ⟨.malformed, body.length, rest⟩
      else ⟨suffixedValue isFloating (body.filter (· ≠ '_')) (leadingMark (isTypeMark isFloating) rest),
        (body ++ leadingMark (isTypeMark isFloating) rest).length,
        rest.drop (leadingMark (isTypeMark isFloating) rest).length⟩ := by
  rcases rest with _ | ⟨c, after⟩
  · simp [finishDecimal, leadingMark, suffixedValue]
  by_cases hf : c = 'f' ∨ c = 'F'
  · rcases hf with rfl | rfl <;> simp [finishDecimal, leadingMark, isTypeMark, suffixedValue]
  by_cases hd : c = 'd' ∨ c = 'D'
  · rcases hd with rfl | rfl <;> simp [finishDecimal, leadingMark, isTypeMark, suffixedValue]
  obtain ⟨hf, hF⟩ := not_or.mp hf
  obtain ⟨hd, hD⟩ := not_or.mp hd
  cases isFloating <;> cases hlong : isLongMark c <;>
    simp [finishDecimal, leadingMark, isTypeMark, suffixedValue, hf, hF, hd, hD, hlong]

/-- A suffix is a letter that stands neither in digits nor at the beginning of a fraction or an exponent. -/
lemma endsDigits_isTypeMark {c : Char} (h : isTypeMark isFloating c = true) :
    EndsDigits isFloating c ∧ isExponentMark c = false := by
  simp only [isTypeMark, Bool.or_eq_true, Bool.and_eq_true, List.contains_eq_mem, decide_eq_true_eq, List.mem_cons,
    List.not_mem_nil, or_false, isLongMark, Bool.not_eq_true'] at h
  rcases h with (rfl | rfl | rfl | rfl) | ⟨rfl, rfl | rfl⟩
  · exact ⟨⟨by decide, by decide, fun _ => by decide⟩, by decide⟩
  · exact ⟨⟨by decide, by decide, fun _ => by decide⟩, by decide⟩
  · exact ⟨⟨by decide, by decide, fun _ => by decide⟩, by decide⟩
  · exact ⟨⟨by decide, by decide, fun _ => by decide⟩, by decide⟩
  · exact ⟨⟨by decide, by decide, fun h => by cases h⟩, by decide⟩
  · exact ⟨⟨by decide, by decide, fun h => by cases h⟩, by decide⟩

lemma endsDigits_suffix_append (isFloating : Bool) (text : List Char) (hrest : Separated rest) :
    ∀ c ∈ (leadingMark (isTypeMark isFloating) text ++ rest).head?,
      EndsDigits isFloating c ∧ isExponentMark c = false := by
  intro c hc
  rcases head?_leadingMark_append _ text hrest c hc with hmark | rfl
  · exact endsDigits_isTypeMark hmark
  · exact ⟨endsDigits_space isFloating, by decide⟩

/-- A number ends with its suffix. -/
lemma finishDecimal_detaches (h : (finishDecimal isFloating body tail).value = .lexeme l) :
    tail = leadingMark (isTypeMark isFloating) tail ++ (finishDecimal isFloating body tail).rest ∧
      (finishDecimal isFloating body tail).length = (body ++ leadingMark (isTypeMark isFloating) tail).length ∧
      ∀ rest, Separated rest → finishDecimal isFloating body (leadingMark (isTypeMark isFloating) tail ++ rest) =
        ⟨.lexeme l, (body ++ leadingMark (isTypeMark isFloating) tail).length, rest⟩ := by
  rw [finishDecimal_eq] at h ⊢
  split at h
  · cases h
  · next hbody =>
    rw [if_neg hbody]
    have hspace : isTypeMark isFloating ' ' = false := by
      cases isFloating <;> rfl
    refine ⟨(append_drop_leadingMark _ tail).symm, rfl, fun rest hrest => ?_⟩
    rw [finishDecimal_eq, if_neg hbody, leadingMark_append hspace tail hrest, List.drop_left]
    exact congrArg (fun v => NumberScan.mk v _ rest) h

/-! ### The parts together -/

lemma scanDecimal_parts (hwhole : ∀ c ∈ whole, isDigitOrUnderscore c = true)
    (hhead : ∀ c ∈ (fraction ++ tail).head?, isDigitOrUnderscore c = false)
    (hfraction : fractionPart (fraction ++ tail) = fraction) :
    scanDecimal (whole ++ (fraction ++ tail)) =
      match scanExponent tail with
      | .absent => finishDecimal (!fraction.isEmpty) (whole ++ fraction) tail
      | .present exponent => finishDecimal true (whole ++ fraction ++ exponent) (tail.drop exponent.length)
      | .malformed n => ⟨.malformed, (whole ++ fraction).length + n, tail.drop n⟩ := by
  have htake : (whole ++ (fraction ++ tail)).takeWhile isDigitOrUnderscore = whole := takeWhile_append hwhole hhead
  have hmantissa : (whole ++ (fraction ++ tail)).drop (whole ++ fraction).length = tail := by
    rw [← List.append_assoc, List.drop_left]
  have hdrop (n : Nat) : (whole ++ (fraction ++ tail)).drop ((whole ++ fraction).length + n) = tail.drop n := by
    rw [← List.drop_drop, hmantissa]
  rw [scanDecimal_eq]
  dsimp only
  rw [htake, List.drop_left, hfraction, hmantissa]
  cases scanExponent tail with
  | absent => rfl
  | present exponent =>
    have hexponent : (whole ++ (fraction ++ tail)).drop (whole ++ fraction ++ exponent).length =
        tail.drop exponent.length := by
      rw [List.length_append]
      exact hdrop exponent.length
    dsimp only
    rw [hexponent]
  | malformed n =>
    dsimp only
    rw [hdrop]

/-- Every text begins with digits and a fraction, possibly with none. -/
lemma exists_parts (text : List Char) : ∃ whole fraction tail, text = whole ++ (fraction ++ tail) ∧
    (∀ c ∈ whole, isDigitOrUnderscore c = true) ∧
    (∀ c ∈ (fraction ++ tail).head?, isDigitOrUnderscore c = false) ∧ fractionPart (fraction ++ tail) = fraction := by
  obtain ⟨after, hafter⟩ : ∃ after, after = text.dropWhile isDigitOrUnderscore := ⟨_, rfl⟩
  obtain ⟨tail, htail, -⟩ := fractionPart_split after
  refine ⟨text.takeWhile isDigitOrUnderscore, fractionPart after, tail, ?_, ?_, ?_, ?_⟩
  · rw [← htail, hafter, List.takeWhile_append_dropWhile]
  · exact fun c hc => List.all_eq_true.mp List.all_takeWhile c hc
  · rw [← htail, hafter]
    exact head?_dropWhile_eq_false _ text
  · rw [← htail]

/-- The characters of a number give the number again, wherever they are separated from what follows. -/
def Detaches (scan : List Char → NumberScan) (text : List Char) (l : Lexeme) : Prop :=
  ∃ body, text = body ++ (scan text).rest ∧ (scan text).length = body.length ∧
    ∀ rest, Separated rest → scan (body ++ rest) = ⟨.lexeme l, body.length, rest⟩

lemma scanDecimal_detaches (h : (scanDecimal text).value = .lexeme l) : Detaches scanDecimal text l := by
  obtain ⟨whole, fraction, tail, rfl, hdigits, hhead, hfraction⟩ := exists_parts text
  obtain ⟨-, -, hagain⟩ := fractionPart_split (fraction ++ tail)
  rw [hfraction] at hagain
  -- What is found before a character that ends the digits: the same digits and the same fraction.
  have hparts (tail' : List Char) (htail' : ∀ c ∈ tail'.head?, EndsDigits (!fraction.isEmpty) c) :
      (∀ c ∈ (fraction ++ tail').head?, isDigitOrUnderscore c = false) ∧
        fractionPart (fraction ++ tail') = fraction := by
    refine ⟨?_, hagain tail' htail'⟩
    cases hf : fraction with
    | nil => exact fun c hc => (htail' c hc).1
    | cons d ds =>
      rw [hf] at hhead
      exact hhead
  have hscan := scanDecimal_parts hdigits hhead hfraction
  rw [hscan] at h
  cases hexponent : scanExponent tail with
  | malformed n =>
    rw [hexponent] at h
    cases h
  | absent =>
    rw [hexponent] at h hscan
    obtain ⟨hrest, hlength, hseparated⟩ := finishDecimal_detaches h
    refine ⟨whole ++ fraction ++ leadingMark (isTypeMark (!fraction.isEmpty)) tail, ?_,
      by rw [hscan]; exact hlength, ?_⟩
    · rw [hscan, List.append_assoc, ← hrest, List.append_assoc]
    · intro rest hrest
      have hnext := endsDigits_suffix_append (!fraction.isEmpty) tail hrest
      obtain ⟨hhead, hfraction⟩ := hparts _ fun c hc => (hnext c hc).1
      have habsent := scanExponent_absent fun c hc => (hnext c hc).2
      rw [List.append_assoc, List.append_assoc, scanDecimal_parts hdigits hhead hfraction, habsent]
      exact hseparated rest hrest
  | present exponent =>
    rw [hexponent] at h hscan
    obtain ⟨hmark, hne, after', htail', hexponent'⟩ := scanExponent_present hexponent
    have hdrop : tail.drop exponent.length = after' := by rw [htail', List.drop_left]
    dsimp only at h hscan
    rw [hdrop] at h hscan
    obtain ⟨hrest, hlength, hseparated⟩ := finishDecimal_detaches h
    refine ⟨whole ++ fraction ++ exponent ++ leadingMark (isTypeMark true) after', ?_, by rw [hscan]; exact hlength, ?_⟩
    · rw [hscan, List.append_assoc, ← hrest, List.append_assoc, ← htail', List.append_assoc]
    · intro rest hrest
      have hnext := endsDigits_suffix_append true after' hrest
      have hexponent'' := hexponent' _ fun c hc => (hnext c hc).1.1
      have hends : ∀ c ∈ (exponent ++ (leadingMark (isTypeMark true) after' ++ rest)).head?,
          EndsDigits (!fraction.isEmpty) c := by
        rw [List.head?_append_of_ne_nil _ hne]
        exact fun c hc => endsDigits_exponentMark (hmark c hc)
      obtain ⟨hhead, hfraction⟩ := hparts _ hends
      have htext' : whole ++ fraction ++ exponent ++ leadingMark (isTypeMark true) after' ++ rest =
          whole ++ (fraction ++ (exponent ++ (leadingMark (isTypeMark true) after' ++ rest))) := by simp
      rw [htext', scanDecimal_parts hdigits hhead hfraction, hexponent'']
      dsimp only
      rw [List.drop_left]
      exact hseparated rest hrest

/-! ### Numbers with a base -/

lemma splitLongMark_eq (text : List Char) :
    splitLongMark text = (!(leadingMark isLongMark text).isEmpty, text.drop (leadingMark isLongMark text).length) := by
  rcases text with _ | ⟨c, more⟩
  · rfl
  · rw [splitLongMark, leadingMark]
    split <;> rfl

/-- A digit of a base, or an underscore between such digits. -/
def isBasePart (base : Nat) (c : Char) : Bool :=
  isBaseDigit base c || c = '_'

/-- What becomes of the digits of a number with a base and of the mark of a long one. -/
def finishBased (base : Nat) (body mark rest : List Char) : NumberScan :=
  if body.isEmpty || hasEdgeUnderscore body then ⟨.malformed, 2 + body.length + mark.length, rest⟩
  else ⟨integerLexeme (!mark.isEmpty) (ofBase base body), 2 + body.length + mark.length, rest⟩

lemma scanBased_eq (base : Nat) (text : List Char) :
    scanBased base text =
      let after := text.dropWhile (isBasePart base)
      finishBased base (text.takeWhile (isBasePart base)) (leadingMark isLongMark after)
        (after.drop (leadingMark isLongMark after).length) := by
  have hdrop := drop_length_takeWhile (isBasePart base) text
  have hlength (after : List Char) :
      (if !(leadingMark isLongMark after).isEmpty then 1 else 0) = (leadingMark isLongMark after).length := by
    rcases after with _ | ⟨c, more⟩
    · rfl
    · rw [leadingMark]
      split <;> rfl
  unfold isBasePart at hdrop ⊢
  unfold scanBased
  dsimp only
  rw [hdrop, splitLongMark_eq]
  dsimp only
  rw [hlength]
  rfl

lemma isBasePart_longMark (base : Nat) {c : Char} (h : isLongMark c = true ∨ c = ' ') : isBasePart base c = false := by
  simp only [isLongMark, Bool.or_eq_true, decide_eq_true_eq] at h
  rcases h with (rfl | rfl) | rfl <;> rfl

lemma finishBased_value {base : Nat} {mark rest' : List Char}
    (h : (finishBased base body mark rest).value = .lexeme l) :
    finishBased base body mark rest' = ⟨.lexeme l, 2 + body.length + mark.length, rest'⟩ := by
  unfold finishBased at h ⊢
  split at h
  · cases h
  · next hbody =>
    rw [if_neg hbody]
    exact congrArg (fun v => NumberScan.mk v _ rest') h

/-- The digits of a number with a base and its mark give the number again. -/
lemma scanBased_detaches {base : Nat} (h : (scanBased base text).value = .lexeme l) :
    ∃ body, text = body ++ (scanBased base text).rest ∧ (scanBased base text).length = 2 + body.length ∧
      ∀ rest, Separated rest → scanBased base (body ++ rest) = ⟨.lexeme l, 2 + body.length, rest⟩ := by
  rw [scanBased_eq] at h ⊢
  dsimp only at h ⊢
  obtain ⟨after, hafter⟩ : ∃ after, after = text.dropWhile (isBasePart base) := ⟨_, rfl⟩
  obtain ⟨digits, hdigits⟩ : ∃ digits, digits = text.takeWhile (isBasePart base) := ⟨_, rfl⟩
  have htext : text = digits ++ after := by rw [hafter, hdigits, List.takeWhile_append_dropWhile]
  rw [← hafter, ← hdigits] at h ⊢
  refine ⟨digits ++ leadingMark isLongMark after, ?_, ?_, fun rest hrest => ?_⟩
  · rw [finishBased_value h, List.append_assoc, append_drop_leadingMark, ← htext]
  · rw [finishBased_value h, List.length_append, Nat.add_assoc]
  · have hall : ∀ c ∈ digits, isBasePart base c = true :=
      hdigits ▸ fun c hc => List.all_eq_true.mp List.all_takeWhile c hc
    have hend : ∀ c ∈ (leadingMark isLongMark after ++ rest).head?, isBasePart base c = false :=
      fun c hc => isBasePart_longMark base (head?_leadingMark_append _ after hrest c hc)
    have htake := takeWhile_append hall hend
    have hdrop : (digits ++ (leadingMark isLongMark after ++ rest)).dropWhile (isBasePart base) =
        leadingMark isLongMark after ++ rest := by
      rw [← drop_length_takeWhile, htake, List.drop_left]
    rw [scanBased_eq, List.append_assoc]
    dsimp only
    rw [htake, hdrop, leadingMark_append rfl after hrest, List.drop_left, finishBased_value h, List.length_append,
      Nat.add_assoc]

/-! ### All numbers -/

/-- A letter after a zero that begins a number with a base. -/
def isBaseMark (c : Char) : Bool :=
  ['x', 'X', 'b', 'B'].contains c

lemma scanNumber_based {c : Char} (h : isBaseMark c = true) :
    ∃ base, ∀ text, scanNumber ('0' :: c :: text) = scanBased base text := by
  simp only [isBaseMark, List.contains_eq_mem, decide_eq_true_eq, List.mem_cons, List.not_mem_nil, or_false] at h
  rcases h with rfl | rfl | rfl | rfl
  · exact ⟨16, fun _ => rfl⟩
  · exact ⟨16, fun _ => rfl⟩
  · exact ⟨2, fun _ => rfl⟩
  · exact ⟨2, fun _ => rfl⟩

lemma scanNumber_decimal (h : ∀ c more, text = '0' :: c :: more → isBaseMark c = false) :
    scanNumber text = scanDecimal text := by
  unfold scanNumber
  split
  · next c more =>
    have hc := h c more rfl
    simp only [isBaseMark, List.contains_eq_mem, decide_eq_false_iff_not, List.mem_cons, List.not_mem_nil,
      or_false, not_or] at hc
    simp [hc]
  · rfl

lemma based_or_decimal (text : List Char) :
    (∃ c more, text = '0' :: c :: more ∧ isBaseMark c = true) ∨
      ∀ c more, text = '0' :: c :: more → isBaseMark c = false := by
  by_cases hbase : ∃ c more, text = '0' :: c :: more ∧ isBaseMark c = true
  · exact Or.inl hbase
  · exact Or.inr fun c more htext => Bool.eq_false_iff.mpr fun hc => hbase ⟨c, more, htext, hc⟩

lemma scanNumber_detaches (h : (scanNumber text).value = .lexeme l) : Detaches scanNumber text l := by
  rcases based_or_decimal text with ⟨c, more, rfl, hc⟩ | hnone
  · obtain ⟨base, hscan⟩ := scanNumber_based hc
    rw [hscan] at h
    obtain ⟨body, hmore, hlength, hseparated⟩ := scanBased_detaches h
    refine ⟨'0' :: c :: body, ?_, ?_, fun rest hrest => ?_⟩
    · rw [hscan, List.cons_append, List.cons_append, ← hmore]
    · rw [hscan, hlength, List.length_cons, List.length_cons]
      omega
    · rw [List.cons_append, List.cons_append, hscan, hseparated rest hrest, List.length_cons, List.length_cons]
      congr 1
      omega
  · have hscan := scanNumber_decimal hnone
    rw [hscan] at h
    obtain ⟨body, htext, hlength, hseparated⟩ := scanDecimal_detaches h
    refine ⟨body, by rw [hscan]; exact htext, by rw [hscan]; exact hlength, fun rest hrest => ?_⟩
    rw [← hseparated rest hrest]
    refine scanNumber_decimal fun c more hbody => ?_
    -- A letter of a base would follow the zero within the body, and so in the text.
    rcases body with _ | ⟨d, _ | ⟨e, ds⟩⟩
    · have hzero := hrest '0' (by rw [← List.nil_append rest, hbody]; rfl)
      cases hzero
    · obtain rfl : rest = c :: more := (List.cons.inj hbody).2
      obtain rfl := hrest c rfl
      rfl
    · obtain ⟨hd, hbody⟩ := List.cons.inj hbody
      obtain rfl : e = c := (List.cons.inj hbody).1
      rw [hd] at htext
      exact hnone e _ htext

/-- A number is read again wherever it is separated from what follows, and it has other characters than a point. -/
lemma readNumber_detaches {n : Nat} (h : readNumber text = .ok (l, n)) :
    ∃ body rest, text = body ++ rest ∧ n = body.length ∧ body ≠ [] ∧ body ≠ ['.'] ∧
      ∀ rest, Separated rest → readNumber (body ++ rest) = .ok (l, n) := by
  obtain ⟨hvalue, hn, -⟩ := readNumber_eq_ok.mp h
  obtain ⟨body, htext, hlength, hseparated⟩ := scanNumber_detaches hvalue
  have hread : ∀ rest, Separated rest → readNumber (body ++ rest) = .ok (l, n) := by
    intro rest hrest
    have hafter : (rest.head?.any fun c => Text.isLetterOrNumeral c || c = '_') = false := by
      rcases rest with _ | ⟨c, more⟩
      · rfl
      · obtain rfl := hrest c rfl
        rw [List.head?_cons, Option.any_some]
        decide
    rw [readNumber_eq_ok, hseparated rest hrest]
    exact ⟨rfl, hlength.symm.trans hn, hafter⟩
  have hshort := hread [] separated_nil
  rw [List.append_nil] at hshort
  refine ⟨body, _, htext, hn.symm.trans hlength, ?_, ?_, hread⟩
  · rintro rfl
    have hnone : readNumber [] = .error .unreadableNumber := rfl
    rw [hnone] at hshort
    cases hshort
  · rintro rfl
    have hnone : readNumber ['.'] = .error .unreadableNumber := rfl
    rw [hnone] at hshort
    cases hshort

end PredicateTrace.Token
