import Mathlib.Data.String.Basic
import PredicateTrace.Op.Source
import PredicateTrace.Proofs.SourceReading

/-!
# Texts on one line

Quoting and escaping leave no line feed in a text, and numbers are written without one. The name of a type has one
only if the name of the class does.
-/

namespace PredicateTrace

namespace Text

/-- No line feed is among some codes. -/
def OneLine (codes : List Nat) : Prop :=
  '\n'.toNat ∉ codes

instance (codes : List Nat) : Decidable (OneLine codes) :=
  inferInstanceAs (Decidable (_ ∉ _))

variable {left right : List Nat} {s t text : String} {cs : List Char}

/-! ### Texts put together -/

@[simp] lemma oneLine_append : OneLine (left ++ right) ↔ OneLine left ∧ OneLine right := by
  simp [OneLine]

@[simp] lemma oneLine_cons {code : Nat} : OneLine (code :: right) ↔ '\n'.toNat ≠ code ∧ OneLine right := by
  simp [OneLine]

@[simp] lemma oneLine_codes_append : OneLine (codes (s ++ t)) ↔ OneLine (codes s) ∧ OneLine (codes t) := by
  rw [codes_append, oneLine_append]

lemma oneLine_between {opening closing : String} (hopening : OneLine (codes opening)) (hclosing : OneLine (codes closing)) :
    OneLine (codes (opening ++ text ++ closing)) ↔ OneLine (codes text) := by
  rw [oneLine_codes_append, oneLine_codes_append, and_iff_right hopening, and_iff_left hclosing]

lemma oneLine_codes : OneLine (codes text) ↔ '\n' ∉ text.toList := by
  rw [OneLine, codes, List.mem_map_of_injective fun c d h => Char.toNat_inj.mp h]

lemma oneLine_ofList : OneLine (codes (String.ofList cs)) ↔ '\n' ∉ cs := by
  rw [oneLine_codes, String.toList_ofList]

lemma oneLine_of_subset (h : s.toList ⊆ t.toList) (ht : OneLine (codes t)) : OneLine (codes s) := by
  rw [oneLine_codes] at ht ⊢
  exact fun hs => ht (h hs)

/-- Only a line feed is shown as one. -/
lemma shown_eq_lineFeed {code : Nat} : shown code = '\n' ↔ code = '\n'.toNat := by
  constructor
  · unfold shown
    split
    · next hvalid =>
      intro h
      rw [← toNat_ofNat hvalid, h]
    · exact fun h => absurd h (by decide)
  · rintro rfl
    decide

@[simp] lemma oneLine_codes_ofCodes : OneLine (codes (ofCodes left)) ↔ OneLine left := by
  rw [ofCodes, oneLine_ofList, List.mem_map, OneLine]
  simp only [shown_eq_lineFeed, exists_eq_right]

lemma oneLine_flatMap {α : Type} {pieces : α → List Nat} {xs : List α} (h : ∀ x ∈ xs, OneLine (pieces x)) :
    OneLine (xs.flatMap pieces) := by
  intro hmem
  obtain ⟨x, hx, hcode⟩ := List.mem_flatMap.mp hmem
  exact h x hx hcode

lemma oneLine_intercalate {separator : List Nat} {texts : List (List Nat)} (hseparator : OneLine separator) :
    OneLine (separator.intercalate texts) ↔ ∀ text ∈ texts, OneLine text := by
  induction texts with
  | nil => simp [OneLine]
  | cons first rest ih =>
    rw [List.forall_mem_cons]
    cases rest with
    | nil => simp
    | cons second rest =>
      rw [List.intercalate_cons_cons, oneLine_append, oneLine_append, ih, and_iff_left hseparator]

lemma oneLine_join {texts : List String} (h : ∀ text ∈ texts, OneLine (codes text)) :
    OneLine (codes (String.join texts)) := by
  rw [oneLine_codes, String.toList_join]
  simpa [oneLine_codes] using h

lemma oneLine_intercalate_texts {separator : String} {texts : List String} (hseparator : OneLine (codes separator)) :
    OneLine (codes (String.intercalate separator texts)) ↔ ∀ text ∈ texts, OneLine (codes text) := by
  rw [codes_intercalate, oneLine_intercalate hseparator, List.forall_mem_map]

lemma oneLine_commaSeparated {texts : List String} :
    OneLine (codes (Value.commaSeparated texts)) ↔ ∀ text ∈ texts, OneLine (codes text) :=
  oneLine_intercalate_texts (by decide)

/-! ### Quoted texts -/

lemma digitChar_ne_lineFeed (d : Nat) : d.digitChar ≠ '\n' := by
  have hsmall : ∀ d < 16, d.digitChar ≠ '\n' := by decide
  rcases Nat.lt_or_ge d 16 with h | h
  · exact hsmall d h
  · have hlarge : d.digitChar = '*' := by
      unfold Nat.digitChar
      repeat rw [if_neg (by omega)]
    rw [hlarge]
    decide

lemma lineFeed_notMem_toDigits {base n : Nat} : '\n' ∉ Nat.toDigits base n := by
  have hdigits (fuel n : Nat) (found : List Char) (h : '\n' ∉ found) : '\n' ∉ Nat.toDigitsCore base fuel n found := by
    induction fuel generalizing n found with
    | zero => rwa [Nat.toDigitsCore]
    | succ fuel ih =>
      rw [Nat.toDigitsCore]
      have hmore : '\n' ∉ (n % base).digitChar :: found := by
        rw [List.mem_cons, not_or]
        exact ⟨(digitChar_ne_lineFeed _).symm, h⟩
      split
      · exact hmore
      · exact ih _ _ hmore
  exact hdigits _ _ _ List.not_mem_nil

lemma oneLine_hex (width n : Nat) : OneLine (codes (hex width n)) := by
  rw [hex, oneLine_ofList, List.mem_append, not_or]
  exact ⟨fun h => absurd (List.eq_of_mem_replicate h) (by decide), lineFeed_notMem_toDigits⟩

lemma oneLine_quoteChar {mark : Char} (hmark : mark ≠ '\n') (c : Char) : OneLine (codes (quoteChar mark c)) := by
  unfold quoteChar
  split
  · next h =>
    rw [oneLine_ofList]
    rcases h with rfl | rfl
    · simpa using Ne.symm hmark
    · decide
  next h =>
  split
  · decide
  next hc =>
  repeat' split
  · decide
  · decide
  · rw [oneLine_codes]
    simpa using Ne.symm hc
  all_goals exact oneLine_codes_append.mpr ⟨by decide, oneLine_hex _ _⟩

lemma quoteMark_ne_lineFeed (text : String) : quoteMark text ≠ '\n' := by
  unfold quoteMark
  split <;> decide

/-- A quoted text is on one line. -/
lemma oneLine_quoteCodes (codes : List Nat) : OneLine (Text.codes (quoteCodes codes)) := by
  have hmark := quoteMark_ne_lineFeed (ofCodes codes)
  have hquote : OneLine (Text.codes (quoteMark (ofCodes codes)).toString) := by
    rw [oneLine_codes]
    simpa using Ne.symm hmark
  refine oneLine_codes_append.mpr ⟨oneLine_codes_append.mpr ⟨hquote, oneLine_join fun piece hpiece => ?_⟩, hquote⟩
  obtain ⟨code, -, rfl⟩ := List.mem_map.mp hpiece
  unfold quoteCode
  split
  · exact oneLine_quoteChar hmark _
  · exact oneLine_codes_append.mpr ⟨by decide, oneLine_hex _ _⟩

lemma quote_eq_quoteCodes (text : String) : quote text = quoteCodes (codes text) := by
  have hcode (mark c : Char) : quoteCode mark c.toNat = quoteChar mark c := by
    have hvalid : c.toNat.isValidChar := c.valid
    rw [quoteCode, if_pos hvalid, Char.ofNat_toNat]
  simp only [quote, quoteCodes, ofCodes_codes]
  simp only [codes, List.map_map, Function.comp_def, hcode]

lemma oneLine_quote (text : String) : OneLine (codes (quote text)) := by
  rw [quote_eq_quoteCodes]
  exact oneLine_quoteCodes _

/-! ### Literals -/

lemma oneLine_sourcePieceCodes (code : Nat) : OneLine (sourcePieceCodes code) := by
  unfold sourcePieceCodes
  split
  · next hvalid =>
    unfold sourcePiece
    split
    · next escape hescape =>
      unfold sourceEscape? at hescape
      split at hescape <;> cases hescape <;> decide
    · next hplain =>
      split
      · exact oneLine_codes_append.mpr ⟨by decide, oneLine_hex _ _⟩
      · rw [oneLine_codes]
        intro hmem
        have hcode : '\n' = Char.ofNat code := by simpa using hmem
        rw [← hcode] at hplain
        cases hplain
  · next hvalid =>
    rw [OneLine, List.mem_singleton]
    rintro rfl
    exact hvalid (by decide)

/-- Escaping leaves no line feed. -/
lemma oneLine_escapeWithin (budget used : Nat) (literal : List Nat) : OneLine (escapeWithin budget used literal) := by
  induction literal generalizing used with
  | nil => exact List.not_mem_nil
  | cons code rest ih =>
    rw [escapeWithin]
    split
    · exact oneLine_append.mpr ⟨oneLine_sourcePieceCodes code, by decide⟩
    · exact oneLine_append.mpr ⟨oneLine_sourcePieceCodes code, ih _⟩

lemma oneLine_quotedLiteral {mark : Char} (hmark : '\n'.toNat ≠ mark.toNat) (literal : List Nat) (budget : Nat) :
    OneLine (Formatter.quotedLiteral mark literal budget) := by
  rw [Formatter.quotedLiteral]
  simp only [oneLine_append, oneLine_cons]
  exact ⟨⟨hmark, oneLine_escapeWithin _ _ _⟩, hmark, by decide⟩

lemma oneLine_abbreviate (limit : Int) (h : OneLine (codes text)) : OneLine (codes (abbreviate text limit)) := by
  unfold abbreviate
  split
  · refine oneLine_codes_append.mpr ⟨oneLine_ofList.mpr fun hmem => ?_, by decide⟩
    exact oneLine_codes.mp h (List.mem_of_mem_take hmem)
  · exact h

end Text

open Text (OneLine codes oneLine_codes oneLine_ofList oneLine_append oneLine_codes_append)

/-! ### Numbers -/

namespace Number

lemma oneLine_nat (n : Nat) : OneLine (codes (toString n)) := by
  rw [oneLine_codes, Nat.toString_eq_repr, Nat.toList_repr]
  exact Text.lineFeed_notMem_toDigits

lemma oneLine_int (n : Int) : OneLine (codes (toString n)) := by
  cases n with
  | ofNat m => exact oneLine_nat m
  | negSucc m => exact oneLine_codes_append.mpr ⟨by decide, oneLine_nat (m + 1)⟩

lemma oneLine_digitText (digits : List Nat) : OneLine (codes (digitText digits)) := by
  rw [digitText, oneLine_ofList, List.mem_map]
  rintro ⟨d, -, hd⟩
  exact Text.digitChar_ne_lineFeed d hd

lemma oneLine_orZero {text : String} (h : OneLine (codes text)) : OneLine (codes (orZero text)) := by
  unfold orZero
  split
  · decide
  · exact h

lemma oneLine_exponentText (layout : Layout) (e : Int) : OneLine (codes (layout.exponentText e)) := by
  unfold Layout.exponentText
  split
  · refine oneLine_codes_append.mpr ⟨by split <;> decide, ?_⟩
    split
    · exact oneLine_codes_append.mpr ⟨by decide, oneLine_nat _⟩
    · exact oneLine_nat _
  · exact oneLine_int e

/-- A number is laid out on one line, if what separates its exponent is on one. -/
lemma oneLine_render {layout : Layout} (hmark : OneLine (codes layout.mark)) (d : Decimal) :
    OneLine (codes (layout.render d)) := by
  unfold Layout.render
  extract_lets digits point sign whole padding rest fraction
  have hsign : OneLine (codes sign) := by
    unfold sign
    split <;> decide
  have hfraction : OneLine (codes fraction) := by
    unfold fraction
    split
    · exact oneLine_codes_append.mpr ⟨by decide, oneLine_orZero (oneLine_digitText _)⟩
    · split
      · decide
      · exact oneLine_codes_append.mpr ⟨by decide, oneLine_digitText _⟩
  split
  · split
    · simp only [oneLine_codes_append]
      exact ⟨⟨⟨hsign, oneLine_digitText _⟩, by decide⟩, oneLine_orZero (oneLine_digitText _)⟩
    · simp only [oneLine_codes_append]
      exact ⟨⟨hsign, by decide⟩, oneLine_digitText _⟩
  · simp only [oneLine_codes_append]
    exact ⟨⟨⟨⟨hsign, oneLine_digitText _⟩, hfraction⟩, hmark⟩, oneLine_exponentText layout _⟩

lemma oneLine_sourceDouble (x : Float) : OneLine (codes (sourceDouble x)) := by
  unfold sourceDouble
  split
  · decide
  · split <;> decide
  · split <;> decide
  · exact oneLine_render (by decide) _

lemma oneLine_sourceSingle (x : Float) : OneLine (codes (sourceSingle x)) := by
  unfold sourceSingle
  split
  · decide
  · split <;> decide
  · split <;> decide
  · exact oneLine_render (by decide) _

lemma oneLine_hostDouble (x : Float) : OneLine (codes (hostDouble x)) := by
  unfold hostDouble
  split
  · decide
  · split <;> decide
  · split <;> decide
  · exact oneLine_render (by decide) _

lemma oneLine_floatingLiteral {named : String} {ordinary : Float → String} (hnamed : OneLine (codes named))
    (h : ∀ x, OneLine (codes (ordinary x))) (x : Float) :
    OneLine (codes (Formatter.floatingLiteral named ordinary x)) := by
  unfold Formatter.floatingLiteral
  split
  · exact oneLine_codes_append.mpr ⟨hnamed, by decide⟩
  · exact oneLine_codes_append.mpr ⟨hnamed, by split <;> decide⟩
  · exact h x

end Number

/-! ### Types -/

lemma subset_extract (text : String) (b e : String.Pos.Raw) :
    (String.Pos.Raw.extract text b e).toList ⊆ text.toList := by
  have hfirst (cs : List Char) (i e : String.Pos.Raw) : String.Pos.Raw.extract.go₂ cs i e ⊆ cs := by
    fun_induction String.Pos.Raw.extract.go₂ cs i e with
    | case1 => exact List.Subset.refl _
    | case2 => exact List.nil_subset _
    | case3 c cs i e _ ih => exact List.cons_subset_cons c ih
  have hskip (cs : List Char) (i b e : String.Pos.Raw) : String.Pos.Raw.extract.go₁ cs i b e ⊆ cs := by
    fun_induction String.Pos.Raw.extract.go₁ cs i b e with
    | case1 => exact List.Subset.refl _
    | case2 => exact hfirst _ _ _
    | case3 c cs i b e _ ih => exact List.subset_cons_of_subset c ih
  rw [String.Pos.Raw.extract]
  split
  · exact List.nil_subset _
  · rw [String.toList_ofList]
    exact hskip _ _ _ _

/-- The pieces that a text is split into are stretches of it. -/
lemma subset_splitOnAux (text separator : String) (b i j : String.Pos.Raw) (found : List String)
    (h : ∀ piece ∈ found, piece.toList ⊆ text.toList) :
    ∀ piece ∈ String.splitOnAux text separator b i j found, piece.toList ⊆ text.toList := by
  fun_induction String.splitOnAux text separator b i j found with
  | case1 b i j found =>
    intro piece hpiece
    rcases List.mem_cons.mp (List.mem_reverse.mp hpiece) with rfl | hpiece
    · exact subset_extract _ _ _
    · exact h piece hpiece
  | case2 b i j found _ _ _ _ _ ih => exact ih (List.forall_mem_cons.mpr ⟨subset_extract _ _ _, h⟩)
  | case3 b i j found _ _ _ _ _ ih => exact ih h
  | case4 b i j found _ _ ih => exact ih h

lemma subset_splitOn {text separator piece : String} (h : piece ∈ text.splitOn separator) :
    piece.toList ⊆ text.toList := by
  unfold String.splitOn at h
  split at h
  · obtain rfl := List.mem_singleton.mp h
    exact List.Subset.refl _
  · exact subset_splitOnAux _ _ _ _ _ _ (by simp) piece h

namespace TypeRef

lemma oneLine_lastComponent {name : String} (h : OneLine (codes name)) : OneLine (codes (lastComponent name)) := by
  refine Text.oneLine_of_subset ?_ h
  unfold lastComponent
  rw [List.getLastD_eq_getLast?]
  cases hlast : (name.splitOn ".").getLast? with
  | none => exact List.Subset.refl _
  | some piece => exact subset_splitOn (List.mem_of_getLast? hlast)

lemma oneLine_className (c : Host.HostClass) : OneLine (codes c.name) := by
  cases c with
  | error kind => rcases kind with _ | _ | kind | kind | kind | _ | _ <;> first | decide | cases kind <;> decide
  | view kind | integral kind | floating kind | sample kind => cases kind <;> decide
  | _ => decide

/-- The short name of a type is on one line if its full name is. -/
lemma oneLine_shortName {t : TypeRef} (h : OneLine (codes t.text)) : OneLine (codes t.shortName) := by
  induction t with
  | prim p => exact h
  | array t ih =>
    rw [text, oneLine_codes_append] at h
    rw [shortName, oneLine_codes_append]
    exact ⟨ih h.1, h.2⟩
  | named name host =>
    have hname : OneLine (codes (lastComponent name)) := oneLine_lastComponent h
    rw [shortName]
    split
    · next simple hsimple =>
      unfold Resolver.simpleName at hsimple
      split at hsimple
      · next heq =>
        obtain rfl := Except.ok.inj hsimple
        exact oneLine_className _
      · next heq =>
        obtain ⟨rfl, rfl⟩ := named.inj heq
        split at hsimple
        · obtain rfl := Except.ok.inj hsimple
          exact hname
        · unfold Resolver.loadClass at hsimple
          split at hsimple
          · obtain rfl := Except.ok.inj hsimple
            exact oneLine_className _
          · cases hsimple
      · next hnone hsome => cases host <;> simp_all
    · exact hname

lemma oneLine_deepComponent {t : TypeRef} (h : OneLine (codes t.text)) : OneLine (codes t.deepComponent.text) := by
  induction t with
  | array t ih =>
    rw [text, oneLine_codes_append] at h
    exact ih h.1
  | _ => exact h

end TypeRef

end PredicateTrace
