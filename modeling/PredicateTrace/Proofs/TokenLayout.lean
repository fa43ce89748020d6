import PredicateTrace.Proofs.ParserPlaces
import PredicateTrace.Proofs.Pieces

/-!
# How tokens lie in a source

The tokens of a source are stretches of it, one behind the other, with nothing but blanks and complete comments
between them. Every position counts the lines and the columns up to an offset of the source, that of a token as well
as that of a syntax error.
-/

namespace PredicateTrace

open Text (shown)

variable {chars before more : List Char} {codes body rest : List Nat} {c : Char} {start : Nat} {position : Position}

/-- The characters of a source. -/
def Text.charsOf {α : Type} [Text.Coded α] (source : α) : List Char :=
  (Text.Coded.codesOf source).map shown

lemma Text.charsOf_string (source : String) : Text.charsOf source = source.toList :=
  map_shown_codes source

namespace Position

/-- The offset behind the last line feed, or zero. -/
def lineStart (before : List Char) : Nat :=
  (before.reverse.dropWhile (· ≠ '\n')).length

/-- The line and the column of an offset. -/
def ofOffset (chars : List Char) (offset : Nat) : Position :=
  ⟨1 + (chars.take offset).count '\n', offset - lineStart (chars.take offset) + 1⟩

lemma lineStart_concat (before : List Char) (c : Char) :
    lineStart (before ++ [c]) = if c = '\n' then before.length + 1 else lineStart before := by
  unfold lineStart
  rw [List.reverse_append, List.reverse_singleton, List.singleton_append, List.dropWhile_cons]
  by_cases hc : c = '\n' <;> simp [hc]

lemma lineStart_le (before : List Char) : lineStart before ≤ before.length := by
  have hlength := (List.dropWhile_suffix (p := fun c => decide (c ≠ '\n')) (l := before.reverse)).length_le
  rwa [List.length_reverse] at hlength

lemma ofOffset_succ (h : chars.drop start = c :: more) :
    ofOffset chars (start + 1) = (ofOffset chars start).advance c := by
  have hstart : start < chars.length := by
    by_contra hge
    rw [List.drop_of_length_le (Nat.le_of_not_lt hge)] at h
    cases h
  have htake : chars.take (start + 1) = chars.take start ++ [c] := by
    have hget : chars[start] = c := by
      rw [List.drop_eq_getElem_cons hstart] at h
      exact (List.cons.inj h).1
    rw [List.take_add_one, List.getElem?_eq_getElem hstart, hget, Option.toList_some]
  have hlength : (chars.take start).length = start := List.length_take_of_le (Nat.le_of_lt hstart)
  have hle := lineStart_le (chars.take start)
  unfold ofOffset advance
  rw [htake, lineStart_concat, hlength, List.count_append]
  rw [hlength] at hle
  by_cases hc : c = '\n'
  · rw [if_pos hc, if_pos hc, hc, List.count_singleton_self]
    simp
    omega
  · rw [if_neg hc, if_neg hc, List.count_singleton, if_neg (by simpa using hc)]
    simp
    omega

end Position

namespace Token

open Position (ofOffset)

lemma after_ofOffset (h : chars.drop start = (body ++ rest).map shown) :
    after (ofOffset chars start) body = ofOffset chars (start + body.length) := by
  induction body generalizing start with
  | nil => rfl
  | cons code body ih =>
    rw [List.cons_append, List.map_cons] at h
    have hdrop : chars.drop (start + 1) = (body ++ rest).map shown := by
      rw [← List.drop_drop, h]
      rfl
    have hafter : after (ofOffset chars start) (code :: body) =
        after ((ofOffset chars start).advance (shown code)) body := rfl
    rw [hafter, ← Position.ofOffset_succ h, ih hdrop, List.length_cons, Nat.add_assoc, Nat.add_comm 1]

/-- A stretch of the source ends at an offset, and what is behind it begins there. -/
lemma behind (body : List Nat) (hstart : start ≤ chars.length) (h : chars.drop start = (body ++ rest).map shown) :
    after (ofOffset chars start) body = ofOffset chars (start + body.length) ∧ start + body.length ≤ chars.length ∧
      chars.drop (start + body.length) = rest.map shown ∧ (chars.drop start).take body.length = body.map shown := by
  have hlength := congrArg List.length h
  rw [List.length_drop, List.length_map, List.length_append] at hlength
  refine ⟨after_ofOffset h, by omega, ?_, ?_⟩
  · rw [← List.drop_drop, h, List.map_append, ← List.length_map shown, List.drop_left]
  · rw [h, List.map_append, ← List.length_map shown, List.take_left]

/-- On one line the column tells how far a text goes. -/
lemma after_line (h : '\n' ∉ codes.map shown) : after position codes = position.shift codes.length := by
  induction codes generalizing position with
  | nil => rfl
  | cons code rest ih =>
    rw [List.map_cons, List.mem_cons, not_or] at h
    have hafter : after position (code :: rest) = after (position.advance (shown code)) rest := rfl
    rw [hafter, ih h.2, Position.advance, if_neg (Ne.symm h.1), List.length_cons]
    unfold Position.shift
    congr 1
    dsimp only
    omega

/-- Tokens lie in a source from an offset on, at the given offsets, with gaps before, between and behind them. -/
inductive LaidOut (chars : List Char) : Nat → List Nat → List Token → Prop
  | finish {start : Nat} (hgap : Gap (chars.drop start) []) : LaidOut chars start [] []
  | token {start offset : Nat} {offsets : List Nat} {t : Token} {ts : List Token} (hstart : start ≤ offset)
    (hend : offset + t.text.length ≤ chars.length) (hgap : Gap (chars.drop start) (chars.drop offset))
    (htext : (chars.drop offset).take t.text.length = t.text.toList) (hposition : t.position = ofOffset chars offset)
    (h : LaidOut chars (offset + t.text.length) offsets ts) : LaidOut chars start (offset :: offsets) (t :: ts)

/-- What is scanned from an offset on: tokens and an end that are well placed, or an error at some offset. -/
def Placed (chars : List Char) (start : Nat) : Except SyntaxError Tokens → Prop
  | .ok ts => ts.finish = ofOffset chars chars.length ∧
      ∃ offsets, LaidOut chars start offsets ts.tokens ∧ (∀ o ∈ offsets, start ≤ o) ∧ offsets.Pairwise (· < ·)
  | .error (.at p _) => ∃ offset ≤ chars.length, p = ofOffset chars offset
  | .error .unreadableNumber => True

lemma LaidOut.skip {start' : Nat} {offsets : List Nat} {ts : List Token} (h : LaidOut chars start' offsets ts)
    (hstart : start ≤ start') (hgap : ∀ tail, Gap (chars.drop start') tail → Gap (chars.drop start) tail) :
    LaidOut chars start offsets ts := by
  cases h with
  | finish hrest => exact .finish (hgap _ hrest)
  | token hoffset hend hrest htext hposition h =>
    exact .token (Nat.le_trans hstart hoffset) hend (hgap _ hrest) htext hposition h

lemma Placed.skip {start' : Nat} {result : Except SyntaxError Tokens} (h : Placed chars start' result)
    (hstart : start ≤ start') (hgap : ∀ tail, Gap (chars.drop start') tail → Gap (chars.drop start) tail) :
    Placed chars start result := by
  cases result with
  | error e => cases e <;> exact h
  | ok ts =>
    obtain ⟨hfinish, offsets, hlaid, hge, hsorted⟩ := h
    exact ⟨hfinish, offsets, hlaid.skip hstart hgap, fun o ho => Nat.le_trans hstart (hge o ho), hsorted⟩

lemma Placed.token {t : Token} {result : Except SyntaxError Tokens}
    (h : Placed chars (start + t.text.length) result) (hne : 0 < t.text.length)
    (hend : start + t.text.length ≤ chars.length)
    (htext : (chars.drop start).take t.text.length = t.text.toList) (hposition : t.position = ofOffset chars start) :
    Placed chars start (result.map fun following => { following with tokens := t :: following.tokens }) := by
  cases result with
  | error e => cases e <;> exact h
  | ok ts =>
    obtain ⟨hfinish, offsets, hlaid, hge, hsorted⟩ := h
    have hlater : ∀ o ∈ offsets, start < o := by
      intro o ho
      have hle := hge o ho
      omega
    refine ⟨hfinish, start :: offsets, .token (Nat.le_refl _) hend .nil htext hposition hlaid, ?_,
      List.pairwise_cons.mpr ⟨hlater, hsorted⟩⟩
    exact List.forall_mem_cons.mpr ⟨Nat.le_refl _, fun o ho => Nat.le_of_lt (hlater o ho)⟩

lemma placed_scanned {result : Except SyntaxError Tokens} (h : Scanned position codes result)
    (hposition : position = ofOffset chars start) (hstart : start ≤ chars.length)
    (hcodes : chars.drop start = codes.map shown) : Placed chars start result := by
  induction h generalizing start with
  | finish =>
    have hend : start = chars.length := Nat.le_antisymm hstart (List.drop_eq_nil_iff.mp hcodes)
    refine ⟨by rw [hposition, hend], [], .finish ?_, by simp, .nil⟩
    rw [hcodes]
    exact .nil
  | @skipped position code body rest result hpiece h ih =>
    obtain ⟨hafter, hend, hrest, -⟩ := behind (code :: body) hstart hcodes
    obtain ⟨body', tail, hsplit, hn, hgap⟩ := readPiece_skipped hpiece
    obtain rfl : rest = tail := (List.append_inj hsplit (by omega)).2
    refine (ih (by rw [hposition, hafter]) hend hrest).skip (Nat.le_add_right _ _) fun tail htail => ?_
    rw [hrest] at htail
    rw [hcodes]
    exact hgap tail htail
  | @token position code body rest l result hpiece h ih =>
    obtain ⟨hafter, hend, hrest, htext⟩ := behind (code :: body) hstart hcodes
    have hsize : (Text.ofCodes (code :: body)).length = (code :: body).length := by
      rw [Text.ofCodes, String.length_ofList, List.length_map]
    have hplaced := ih (by rw [hposition, hafter]) hend hrest
    rw [← hsize] at hplaced hend htext
    refine Placed.token hplaced (by rw [hsize]; exact Nat.zero_lt_succ _) hend ?_ hposition
    rw [htext, Text.ofCodes, String.toList_ofList]
  | @mistake position code rest offset cause hpiece =>
    obtain ⟨hoffset, hline⟩ := readPiece_mistake hpiece
    rw [List.length_map] at hoffset
    rw [← List.map_take] at hline
    rw [← List.take_append_drop offset (code :: rest)] at hcodes
    obtain ⟨hafter, hend, -⟩ := behind _ hstart hcodes
    rw [after_line hline, List.length_take_of_le hoffset] at hafter
    rw [List.length_take_of_le hoffset] at hend
    exact ⟨start + offset, hend, by rw [hposition, hafter]⟩
  | unreadable => trivial

lemma placed_tokenize {α : Type} [Text.Coded α] (source : α) : Placed (Text.charsOf source) 0 (tokenize source) := by
  have hstart : ofOffset (Text.charsOf source) 0 = .start := rfl
  rw [tokenize, ← hstart]
  exact placed_scanned (scanned _ _) rfl (Nat.zero_le _) rfl

lemma LaidOut.exists_offset {offsets : List Nat} {ts : List Token} {t : Token} (h : LaidOut chars start offsets ts)
    (ht : t ∈ ts) : ∃ offset ≤ chars.length, t.position = ofOffset chars offset := by
  induction h with
  | finish => cases ht
  | token hstart hend hgap htext hposition h ih =>
    rcases List.mem_cons.mp ht with rfl | ht
    · exact ⟨_, by omega, hposition⟩
    · exact ih ht

lemma Placed.exists_offset {source : Tokens} {p : Position} (h : Placed chars 0 (.ok source))
    (hp : Parser.Known source.finish source.tokens p) : ∃ offset ≤ chars.length, p = ofOffset chars offset := by
  obtain ⟨hfinish, offsets, hlaid, -⟩ := h
  rcases hp with rfl | ⟨t, ht, rfl⟩
  · exact ⟨chars.length, Nat.le_refl _, hfinish⟩
  · exact hlaid.exists_offset ht

/-- Tokens are stretches of the source between gaps, their positions and that of the end are those of their offsets,
and so is that of every syntax error. -/
theorem source_layout {α : Type} [Text.Coded α] (source : α) :
    (∀ ts, tokenize source = .ok ts →
      ts.finish = ofOffset (Text.charsOf source) (Text.charsOf source).length ∧
      ∃ offsets, offsets.Pairwise (· < ·) ∧ LaidOut (Text.charsOf source) 0 offsets ts.tokens) ∧
    (∀ p cause, tokenize source = .error (.at p cause) →
      ∃ offset ≤ (Text.charsOf source).length, p = ofOffset (Text.charsOf source) offset) ∧
    (∀ p cause, Parser.parse source = .error (.at p cause) →
      ∃ offset ≤ (Text.charsOf source).length, p = ofOffset (Text.charsOf source) offset) := by
  have hplaced := placed_tokenize source
  have herror : ∀ p cause, tokenize source = .error (.at p cause) →
      ∃ offset ≤ (Text.charsOf source).length, p = ofOffset (Text.charsOf source) offset := by
    intro p cause h
    rw [h] at hplaced
    exact hplaced
  refine ⟨fun ts h => ?_, herror, fun p cause h => ?_⟩
  · rw [h] at hplaced
    obtain ⟨hfinish, offsets, hlaid, -, hsorted⟩ := hplaced
    exact ⟨hfinish, offsets, hsorted, hlaid⟩
  · unfold Parser.parse at h
    cases hread : tokenize source with
    | error e =>
      rw [hread] at h
      obtain rfl := Except.error.inj h
      exact herror p cause hread
    | ok ts =>
      rw [hread] at h hplaced
      obtain ⟨p', cause', heq, hknown⟩ := Parser.known_of_parseTokens h
      obtain ⟨rfl, rfl⟩ := SyntaxError.at.inj heq
      exact hplaced.exists_offset hknown

/-- The comments are gaps, the operand is missing at the end, and the quote on the second line is not closed. -/
theorem source_layout_of_lines :
    let chars := "a /*\n*/ // x\n+".toList
    (∃ ts, tokenize "a /*\n*/ // x\n+" = .ok ts ∧ ts.tokens.length = 2 ∧ ts.finish = ofOffset chars chars.length ∧
      ∃ offsets, offsets.Pairwise (· < ·) ∧ LaidOut chars 0 offsets ts.tokens) ∧
    (tokenize "a\n \"" = .error (.at ⟨2, 2⟩ .unclosedString) ∧
      ∃ offset ≤ "a\n \"".toList.length, ⟨2, 2⟩ = ofOffset "a\n \"".toList offset) ∧
    Parser.parse "a /*\n*/ // x\n+" = .error (.at ⟨3, 2⟩ (.expected .expression none)) ∧
      ∃ offset ≤ chars.length, ⟨3, 2⟩ = ofOffset chars offset := by
  intro chars
  have htokens : tokenize "a /*\n*/ // x\n+" =
      .ok ⟨[⟨.ident "a", ⟨1, 1⟩, "a"⟩, ⟨.symbol .plus, ⟨3, 1⟩, "+"⟩], ⟨3, 2⟩⟩ := rfl
  have hunclosed : tokenize "a\n \"" = .error (.at ⟨2, 2⟩ .unclosedString) := rfl
  have hparse : Parser.parse "a /*\n*/ // x\n+" = .error (.at ⟨3, 2⟩ (.expected .expression none)) := by
    rw [Parser.parse, htokens]
    simp [bind, Except.bind, Parser.parseTokens, Parser.depthFor, Parser.expression, Parser.conditional, Parser.binary,
      Parser.levels, Parser.chain, Parser.unary, Parser.unsignedUnary, Parser.accessed, Parser.primary,
      Parser.symbolOf?, Parser.literal?, Parser.startsWith, Parser.accesses, Parser.operatorAt?, Parser.binary?,
      Parser.isInstanceof, Parser.failExpected, Parser.failAt]
  have hlines := source_layout "a /*\n*/ // x\n+"
  have hquote := source_layout "a\n \""
  rw [Text.charsOf_string] at hlines hquote
  exact ⟨⟨_, htokens, rfl, hlines.1 _ htokens⟩, ⟨hunclosed, hquote.2.1 _ _ hunclosed⟩, hparse,
    hlines.2.2 _ _ hparse⟩

end Token

end PredicateTrace
