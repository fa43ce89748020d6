import PredicateTrace.Op.Source
import PredicateTrace.Proofs.Restoring

/-!
# The source of plain ops

The source text that a tree of plain ops is given is read to tokens that write an expression which restores the
tree. The level at which the grammar reads the text is that of the fragment, so that the parentheses around
weaker operands are those that the grammar needs.
-/

namespace PredicateTrace

open Host (Heap)
open Text (codes shown)
open Token (Reads Only Ends)
open PredicateTrace.Parser (Written)
open Lowering (chainHead?)

variable {scope : Scope} {heap : Heap} {captures : Captures} {f : Formatter} {x y z : Operand} {p q k : Primitive}
  {m n : Nat} {w w' : List Token} {text text' : List Nat}

/-! ### Levels -/

/-- How tight a fragment binds in the grammar. Numbers may have a sign, so that nothing counts as tighter than a
unary operation. -/
def Precedence.level (p : Precedence) : Nat :=
  min 12 (15 - p.rank)

/-- What stands under an operator without parentheses binds tighter than it. -/
lemma Precedence.level_of_standsUnder {inner outer : Precedence} (h : inner.standsUnder outer = true)
    (houter : outer.rank ≤ 14) : min 12 (outer.level + 1) ≤ inner.level := by
  unfold standsUnder at h
  unfold level
  simp only [Bool.or_eq_true, decide_eq_true_eq, Bool.and_eq_true] at h
  rcases h with hlt | ⟨rfl, rfl⟩
  · omega
  · decide

lemma Precedence.level_le (p : Precedence) : p.level ≤ 12 :=
  Nat.min_le_left _ _

/-! ### Tokens that restore an operand -/

/-- Tokens write an expression of a level that restores an operand. -/
def RestoredBy (scope : Scope) (heap : Heap) (captures : Captures) (x : Operand) (k : Primitive) (level : Nat)
    (w : List Token) : Prop :=
  ∃ e, Written (phraseAt level e) w ∧ Restores scope heap captures x k e

lemma RestoredBy.mono (h : RestoredBy scope heap captures x k n w) (hmn : m ≤ n) (hn : n ≤ 14) :
    RestoredBy scope heap captures x k m w := by
  obtain ⟨e, hw, he⟩ := h
  exact ⟨e, written_mono hw hmn hn, he⟩

lemma reads_looser (h : Reads Ends text (RestoredBy scope heap captures x k n)) (hmn : m ≤ n) (hn : n ≤ 14) :
    Reads Ends text (RestoredBy scope heap captures x k m) :=
  h.imp fun _ hw => hw.mono hmn hn

/-- In parentheses an expression stands anywhere. -/
lemma reads_group (h : Reads Ends text (RestoredBy scope heap captures x k n)) (hn : n ≤ 14) :
    Reads Ends (codes "(" ++ text ++ codes ")") (RestoredBy scope heap captures x k 14) := by
  have hopened := Token.reads_opening.append h fun _ _ => trivial
  have hread := hopened.append Token.reads_closing fun rest _ => Token.ends_closing rest
  refine hread.mono (fun w hw => ?_) fun _ _ => trivial
  obtain ⟨u, v, rfl, ⟨l, u, rfl, ⟨l, rfl, hl, -⟩, hu⟩, ⟨r, rfl, hr, -⟩⟩ := hw
  obtain ⟨e, he, hrestores⟩ := hu
  have hgroup : Written (phraseAt 14 e) (l :: (u ++ [r])) := .group hl (written_mono he (Nat.zero_le _) hn) hr
  exact ⟨e, by simpa using hgroup, hrestores⟩

/-- The text of an operand as it stands under an operator. -/
lemma reads_under {inner outer : Precedence} (h : Reads Ends text (RestoredBy scope heap captures x k inner.level))
    (houter : outer.rank ≤ 14) :
    Reads Ends (Fragment.under outer ⟨text, some inner⟩)
      (RestoredBy scope heap captures x k (min 12 (outer.level + 1))) := by
  have hbound : inner.level ≤ 12 := inner.level_le
  unfold Fragment.under
  dsimp only
  split
  · next hstands =>
    have hlevel := Precedence.level_of_standsUnder hstands houter
    exact reads_looser h hlevel (by omega)
  · exact reads_looser (reads_group h (by omega)) (by omega) (Nat.le_refl 14)

/-! ### Operators -/

section Operators

variable {r : Primitive}

lemma reads_binary {op : BinaryOperator} (hl : Reads Ends text (RestoredBy scope heap captures x p (op.level + 2)))
    (hr : Reads Ends text' (RestoredBy scope heap captures y q (op.level + 3)))
    (hz : ∀ pos l r, Restores scope heap captures x p l → Restores scope heap captures y q r →
      Restores scope heap captures z k (.binary pos op l r)) :
    Reads Ends (text ++ codes (" " ++ op.symbol.text ++ " ") ++ text')
      (RestoredBy scope heap captures z k (op.level + 2)) := by
  have hblank (rest : List Char) : Ends ((codes (" " ++ op.symbol.text ++ " ")).map shown ++ rest) := by
    rw [Text.map_shown_codes, String.toList_append, String.toList_append]
    exact Token.ends_blank _
  have hread := (hl.append (Token.reads_spaced op.symbol) fun rest _ => hblank rest).append hr fun _ _ => trivial
  refine hread.imp fun w hw => ?_
  obtain ⟨_, v, rfl, ⟨u, _, rfl, hu, ⟨t, rfl, ht, -⟩⟩, hv⟩ := hw
  obtain ⟨l, hl, hrestoresl⟩ := hu
  obtain ⟨r, hr, hrestoresr⟩ := hv
  exact ⟨.binary t.position op l r, by simpa using written_binary ht hl hr, hz _ _ _ hrestoresl hrestoresr⟩

/-- An operator before its operand, if the text of the operand does not make another symbol of it. -/
lemma reads_unary {op : UnaryOperator} {follows : List Char → Prop}
    (hop : Reads follows (codes op.symbol.text) (Only (.symbol op.symbol) op.symbol.text))
    (hx : Reads Ends text (RestoredBy scope heap captures x p 12))
    (hfirst : ∀ rest, Ends rest → follows (text.map shown ++ rest))
    (hz : ∀ pos e, Restores scope heap captures x p e → Restores scope heap captures z k (.unary pos op e)) :
    Reads Ends (codes op.symbol.text ++ text) (RestoredBy scope heap captures z k 12) := by
  refine (hop.append hx hfirst).imp fun w hw => ?_
  obtain ⟨_, v, rfl, ⟨t, rfl, ht, -⟩, e, he, hrestores⟩ := hw
  have hlevel : 12 ≤ (Expr.unary t.position op e).level := by cases op <;> simp [Expr.level]
  exact ⟨.unary t.position op e, written_mono (written_unary ht he) hlevel (Expr.level_le _), hz _ _ hrestores⟩

lemma reads_primitive (q : Primitive) :
    Reads Token.EndsWord (codes q.name) (Only (.keyword (.primitive q)) q.name) := by
  cases q <;> exact Token.reads_keyword rfl (by decide) (by decide) (by decide) rfl

/-- A primitive type in parentheses before an operand. -/
lemma reads_cast (hp : p.isNumeric = true) (hq : q.isNumeric = true) (hpq : p ≠ q)
    (hx : Reads Ends text (RestoredBy scope heap captures x p 12)) :
    Reads Ends (codes ("(" ++ (TypeRef.prim q).text ++ ")") ++ text)
      (RestoredBy scope heap captures (.op (.of (.conv (.prim q)) [x])) q 12) := by
  have hname := Token.reads_opening.append (reads_primitive q) fun _ _ => trivial
  have htype := hname.append Token.reads_closing fun rest _ => (Token.ends_closing rest).endsWord
  rw [← Text.codes_append, ← Text.codes_append] at htype
  refine (htype.append hx fun _ _ => trivial).imp fun w hw => ?_
  obtain ⟨_, v, rfl, ⟨_, _, rfl, hnamed, ⟨r, rfl, hr, -⟩⟩, e, he, hrestores⟩ := hw
  obtain ⟨_, _, rfl, ⟨l, rfl, hl, -⟩, ⟨t, rfl, ht, -⟩⟩ := hnamed
  have hvoid : q ≠ .void := by
    rintro rfl
    cases hq
  have hcast : Written (phraseAt 13 (.cast l.position ⟨.primitive q, 0, t.position⟩ e)) (l :: ([t] ++ r :: v)) :=
    .cast hl (.mk (.primitive ht hvoid) .zero) hr he
  exact ⟨_, by simpa using written_mono hcast (by decide) (by decide), hrestores.cast rfl hp hq hpq⟩

lemma reads_choice {b b' b'' : Body} {text'' : List Nat} (hk : k.IsPromoted ∨ k = .boolean)
    (hb : b.yielded? = some x) (hb' : b'.yielded? = some y) (hb'' : b''.yielded? = some z)
    (hc : Reads Ends text (RestoredBy scope heap captures x .boolean 2))
    (hyes : Reads Ends text' (RestoredBy scope heap captures y k 1))
    (hno : Reads Ends text'' (RestoredBy scope heap captures z k 1)) :
    Reads Ends (text ++ codes " ? " ++ text' ++ codes " : " ++ text'')
      (RestoredBy scope heap captures (.op (.mk (.ternary (.prim k)) [] [b, b', b''])) k 1) := by
  have hquestion := (hc.append (Token.reads_spaced .question) fun rest _ => Token.ends_blank _).append hyes
    fun _ _ => trivial
  have hcolon := (hquestion.append (Token.reads_spaced .colon) fun rest _ => Token.ends_blank _).append hno
    fun _ _ => trivial
  refine hcolon.imp fun w hw => ?_
  obtain ⟨_, w'', rfl, ⟨_, _, rfl, ⟨_, w', rfl, ⟨w, _, rfl, hc, ⟨t, rfl, ht, -⟩⟩, hyes⟩, ⟨t', rfl, ht', -⟩⟩, hno⟩ := hw
  obtain ⟨c, hc, hrestoresc⟩ := hc
  obtain ⟨yes, hyes, hrestoresy⟩ := hyes
  obtain ⟨no, hno, hrestoresn⟩ := hno
  have hwritten : Written (phraseAt 1 (.conditional t.position c yes no)) (w ++ t :: (w' ++ t' :: w'')) :=
    .conditional hc ht hyes ht' hno
  exact ⟨_, by simpa using hwritten, hrestoresc.choice hk hb hb' hb'' hrestoresy hrestoresn⟩

end Operators

/-! ### Constants -/

/-- The literal of a whole number. -/
def Literal.whole (isLong : Bool) (n : Int) : Literal :=
  bif isLong then .long n else .int n

/-- The bits of a whole number apart from its sign. -/
def valueBits (isLong : Bool) : Nat :=
  bif isLong then 63 else 31

lemma repr_natCast (m : Nat) : (m : Int).repr = String.ofList (Nat.toDigits 10 m) :=
  rfl

lemma repr_neg {m : Nat} (hm : 0 < m) : (-(m : Int)).repr = "-" ++ String.ofList (Nat.toDigits 10 m) := by
  obtain ⟨m, rfl⟩ := Nat.exists_eq_add_one_of_ne_zero (Nat.ne_of_gt hm)
  rfl

lemma formatCodes_whole (isLong : Bool) (m : Nat) :
    f.formatCodes (Lowering.literalValue (.whole isLong m)) = codes (String.ofList (Token.numeral isLong m)) := by
  cases isLong
  · have hformat : f.formatCodes (.integral .int m) = codes (toString (m : Int)) := rfl
    simp [Literal.whole, Lowering.literalValue, hformat, repr_natCast, Token.numeral]
  · have hformat : f.formatCodes (.integral .long m) = codes (toString (m : Int) ++ "L") := rfl
    simp [Literal.whole, Lowering.literalValue, hformat, repr_natCast, Token.numeral]

lemma formatCodes_negative (isLong : Bool) {m : Nat} (hm : 0 < m) :
    f.formatCodes (Lowering.literalValue (.whole isLong (-m))) =
      codes "-" ++ codes (String.ofList (Token.numeral isLong m)) := by
  rw [← Text.codes_append]
  cases isLong
  · have hformat : f.formatCodes (.integral .int (-m)) = codes (toString (-m : Int)) := rfl
    simp [Literal.whole, Lowering.literalValue, hformat, repr_neg hm, Token.numeral]
  · have hformat : f.formatCodes (.integral .long (-m)) = codes (toString (-m : Int) ++ "L") := rfl
    simp [Literal.whole, Lowering.literalValue, hformat, repr_neg hm, Token.numeral, String.append_assoc]

lemma wrap_eq_self {bits : Nat} {n : Int} (hlow : -2 ^ bits ≤ n) (hhigh : n < 2 ^ bits) :
    Number.wrap (bits + 1) n = n := by
  have hpow : ((2 ^ (bits + 1) : Nat) : Int) = 2 * 2 ^ bits := by
    rw [Int.natCast_pow, Int.pow_succ']
    rfl
  rw [Number.wrap, Int.bmod_eq_of_le] <;> omega

lemma natCast_lt_pow {bits : Nat} (hm : m < 2 ^ bits) : (m : Int) < 2 ^ bits := by
  have hcast : ((2 ^ bits : Nat) : Int) = 2 ^ bits := Int.natCast_pow 2 bits
  omega

/-- A decimal token below the bound of its kind denotes its number. -/
lemma denotes_whole {t : Token} {isLong : Bool} (hm : m < 2 ^ valueBits isLong)
    (ht : t.lexeme = if isLong then .long m else .int m)
    (htext : t.text = String.ofList (Token.numeral isLong m)) : t.Denotes (.whole isLong m) := by
  have hdecimal : Parser.isDecimal t.text = true := by rw [htext, Token.isDecimal_numeral]
  have hrange {bits : Nat} (hm : m < 2 ^ bits) : t.InRange (bits + 1) m := by
    rw [Token.InRange, if_pos hdecimal, Nat.add_sub_cancel]
    omega
  have hwrap {bits : Nat} (hm : m < 2 ^ bits) : (m : Int) = Number.wrap (bits + 1) m := by
    have hpos : (0 : Int) < 2 ^ bits := Int.pow_pos (by decide)
    rw [wrap_eq_self (by omega) (natCast_lt_pow hm)]
  cases isLong
  · exact ⟨m, ht, hrange hm, hwrap hm⟩
  · exact ⟨m, ht, hrange hm, hwrap hm⟩

lemma isSmallest_whole {t : Token} {isLong : Bool}
    (ht : t.lexeme = if isLong then .long (2 ^ valueBits true) else .int (2 ^ valueBits false))
    (htext : t.text = String.ofList (Token.numeral isLong (2 ^ valueBits isLong))) :
    t.IsSmallest (.whole isLong (-2 ^ valueBits isLong)) := by
  have hdecimal : Parser.isDecimal t.text = true := by rw [htext, Token.isDecimal_numeral]
  cases isLong
  · exact ⟨ht, hdecimal, rfl⟩
  · exact ⟨ht, hdecimal, rfl⟩

/-- The constant op of a literal. -/
def Literal.operand (v : Literal) (p : Primitive) : Operand :=
  .op (.leaf (.const (Lowering.literalValue v) (.prim p)))

lemma reads_positive {isLong : Bool} (hm : m < 2 ^ valueBits isLong)
    (hp : Typing.literalType (.whole isLong m) = .prim p) :
    Reads Ends (codes (String.ofList (Token.numeral isLong m)))
      (RestoredBy scope heap captures ((Literal.whole isLong m).operand p) p 14) := by
  have hbound : m < 2 ^ 64 := Nat.lt_of_lt_of_le hm (by cases isLong <;> decide)
  refine (Token.reads_number isLong hbound).imp fun w hw => ?_
  obtain ⟨t, rfl, ht, htext⟩ := hw
  have hdiscrete : (Literal.whole isLong m).IsDiscrete := by cases isLong <;> trivial
  exact ⟨.literal t.position (.whole isLong m), .literal (Parser.literal?_eq_some_ok.mpr (denotes_whole hm ht htext)),
    restores_literal hdiscrete hp⟩

lemma negate?_whole {kind : Host.IntKind} {bits : Nat} (hkind : kind = .int ∧ bits = 31 ∨ kind = .long ∧ bits = 63)
    (hm : m < 2 ^ bits) : (Value.integral kind m).negate? = some (.integral kind (-m)) := by
  have hbound := natCast_lt_pow hm
  have hwrap : Number.wrap (bits + 1) (-m) = -m := wrap_eq_self (by omega) (by omega)
  rcases hkind with ⟨rfl, rfl⟩ | ⟨rfl, rfl⟩
  · exact congrArg (fun n => some (Value.integral .int n)) hwrap
  · exact congrArg (fun n => some (Value.integral .long n)) hwrap

lemma head?_numeral (isLong : Bool) (m : Nat) (rest : List Char) :
    ∃ d < 10, ((codes (String.ofList (Token.numeral isLong m))).map shown ++ rest).head? = some (Nat.digitChar d) := by
  obtain ⟨c, ds, hds⟩ := List.exists_cons_of_ne_nil (Nat.toDigits_ne_nil (b := 10) (n := m))
  obtain ⟨d, hd, rfl⟩ := Token.exists_digitChar (n := m) (c := c) (by simp [hds])
  exact ⟨d, hd, by simp [Text.map_shown_codes, Token.numeral, hds]⟩

/-- A negative number is written with a sign: the smallest one of its kind as a literal, any other one as the
opposite of a positive one. -/
lemma reads_negative {isLong : Bool} (hm : m ≤ 2 ^ valueBits isLong)
    (hp : Typing.literalType (.whole isLong (-m)) = .prim p) :
    Reads Ends (codes "-" ++ codes (String.ofList (Token.numeral isLong m)))
      (RestoredBy scope heap captures ((Literal.whole isLong (-m)).operand p) p 12) := by
  have hbound : m < 2 ^ 64 := Nat.lt_of_le_of_lt hm (by cases isLong <;> decide)
  have hdigit (rest : List Char) :
      ((codes (String.ofList (Token.numeral isLong m))).map shown ++ rest).head? ≠ some '-' := by
    obtain ⟨d, hd, hhead⟩ := head?_numeral isLong m rest
    have hminus : ∀ d < 10, Nat.digitChar d ≠ '-' := by decide
    rw [hhead]
    exact fun h => hminus d hd (Option.some.inj h)
  have hread := Token.reads_minus.append (Token.reads_number isLong hbound) fun rest _ => hdigit rest
  refine hread.imp fun w hw => ?_
  obtain ⟨_, _, rfl, ⟨s, rfl, hs, -⟩, ⟨t, rfl, ht, htext⟩⟩ := hw
  have hdiscrete (n : Int) : (Literal.whole isLong n).IsDiscrete := by cases isLong <;> trivial
  rcases Nat.lt_or_eq_of_le hm with hlt | rfl
  · have hliteral : Written (phraseAt 14 (.literal t.position (.whole isLong m))) [t] :=
      .literal (Parser.literal?_eq_some_ok.mpr (denotes_whole hlt ht htext))
    have hunary : Written (phraseAt 12 (.literal t.position (.whole isLong m))) [t] :=
      written_mono hliteral (by decide) (by decide)
    have hrestores : Restores scope heap captures ((Literal.whole isLong m).operand p) p
        (.literal t.position (.whole isLong m)) := restores_literal (hdiscrete m) (by cases isLong <;> exact hp)
    have hpromoted : p.IsPromoted := by
      cases isLong <;> obtain rfl := TypeRef.prim.inj hp <;> simp [Primitive.IsPromoted]
    refine ⟨.unary s.position .minus (.literal t.position (.whole isLong m)), .minus hs hunary,
      (hrestores.minus hpromoted).of_result ?_⟩
    cases isLong
    · exact (Evaluation.result_neg_const (negate?_whole (.inl ⟨rfl, rfl⟩) hlt)).symm
    · exact (Evaluation.result_neg_const (negate?_whole (.inr ⟨rfl, rfl⟩) hlt)).symm
  · refine ⟨.literal t.position (.whole isLong (-2 ^ valueBits isLong)), ?_, ?_⟩
    · exact .smallest hs (Parser.smallest?_eq_some.mpr (isSmallest_whole (by cases isLong <;> exact ht) htext))
    · cases isLong
      · exact restores_literal (hdiscrete _) hp
      · exact restores_literal (hdiscrete _) hp

lemma reads_boolean (b : Bool) :
    Reads Ends (f.formatCodes (.bool b))
      (RestoredBy scope heap captures ((Literal.boolean b).operand .boolean) .boolean 14) := by
  have hread : Reads Token.EndsWord (f.formatCodes (.bool b))
      (Only (.keyword (if b then .true else .false)) (if b then "true" else "false")) := by
    cases b
    · exact Token.reads_keyword (s := "false") rfl (by decide) (by decide) (by decide) rfl
    · exact Token.reads_keyword (s := "true") rfl (by decide) (by decide) (by decide) rfl
  refine hread.mono (fun w hw => ?_) fun _ hrest => hrest.endsWord
  obtain ⟨t, rfl, ht, -⟩ := hw
  have hdenotes : t.Denotes (.boolean b) := ht
  exact ⟨.literal t.position (.boolean b), .literal (Parser.literal?_eq_some_ok.mpr hdenotes),
    restores_literal trivial rfl⟩

lemma reads_char (code : Nat) :
    Reads Ends (f.formatCodes (.char code))
      (RestoredBy scope heap captures ((Literal.char code).operand .char) .char 14) := by
  refine (Token.reads_character code).mono (fun w hw => ?_) fun _ _ => trivial
  obtain ⟨t, rfl, ht⟩ := hw
  have hdenotes : t.Denotes (.char code) := ht
  exact ⟨.literal t.position (.char code), .literal (Parser.literal?_eq_some_ok.mpr hdenotes),
    restores_literal trivial rfl⟩

lemma reads_whole (isLong : Bool) {n : Int} (hrange : (Literal.whole isLong n).InRange)
    (hp : Typing.literalType (.whole isLong n) = .prim p) :
    Reads Ends (f.formatCodes (Lowering.literalValue (.whole isLong n)))
      (RestoredBy scope heap captures ((Literal.whole isLong n).operand p) p 12) := by
  have hbounds : -2 ^ valueBits isLong ≤ n ∧ n < 2 ^ valueBits isLong := by
    cases isLong <;> exact hrange
  have hcast : ((2 ^ valueBits isLong : Nat) : Int) = 2 ^ valueBits isLong := Int.natCast_pow 2 _
  rcases Int.lt_or_le n 0 with hn | hn
  · obtain ⟨m, hpos, rfl⟩ : ∃ m : Nat, 0 < m ∧ n = -m := ⟨n.natAbs, by omega, by omega⟩
    rw [formatCodes_negative isLong hpos]
    exact reads_negative (by omega) hp
  · obtain ⟨m, rfl⟩ := Int.eq_ofNat_of_zero_le hn
    rw [formatCodes_whole]
    exact reads_looser (reads_positive (by omega) hp) (by decide) (by decide)

lemma reads_literal {v : Literal} (hv : v.IsDiscrete) (hrange : v.InRange) (hp : Typing.literalType v = .prim p) :
    Reads Ends (f.formatCodes (Lowering.literalValue v)) (RestoredBy scope heap captures (v.operand p) p 12) := by
  cases v with
  | int n => exact reads_whole false hrange hp
  | long n => exact reads_whole true hrange hp
  | char code =>
    obtain rfl := TypeRef.prim.inj hp
    exact reads_looser (reads_char code) (by decide) (by decide)
  | boolean b =>
    obtain rfl := TypeRef.prim.inj hp
    exact reads_looser (reads_boolean b) (by decide) (by decide)
  | _ => exact hv.elim

/-! ### What signs stand before -/

/-- Numbers below zero. -/
def Value.IsNegative : Value → Prop
  | .integral _ n | .hostInt n => n < 0
  | .floating _ x _ | .hostFloat x _ => x < 0
  | _ => False

/-- A constant below zero. -/
def Operand.IsNegative : Operand → Prop
  | .op (.mk (.const v _) _ _) => v.IsNegative
  | _ => False

/-- No sign is applied directly to a constant below zero. -/
def Operand.SignsOnce (x : Operand) : Prop :=
  ∀ type y, Operand.Part (.op (.of (.neg type) [y])) x → ¬y.IsNegative

/-- A text does not begin with a character that makes another symbol of `-` or `!` in front of it. -/
def Unsigned (text : List Nat) : Prop :=
  ∀ rest, (text.map shown ++ rest).head? ≠ some '-' ∧ (text.map shown ++ rest).head? ≠ some '='

lemma unsigned_of_head? {code : Nat} (htext : text.head? = some code) (hcode : shown code ≠ '-' ∧ shown code ≠ '=') :
    Unsigned text := by
  obtain ⟨more, rfl⟩ : ∃ more, text = code :: more := List.head?_eq_some_iff.mp htext
  exact fun rest => by simpa using hcode

lemma unsigned_literal {v : Literal} (hv : v.IsDiscrete) (hnegative : ¬(Lowering.literalValue v).IsNegative) :
    Unsigned (f.formatCodes (Lowering.literalValue v)) := by
  have hwhole (isLong : Bool) {n : Int} (hn : 0 ≤ n) :
      Unsigned (f.formatCodes (Lowering.literalValue (.whole isLong n))) := by
    obtain ⟨m, rfl⟩ := Int.eq_ofNat_of_zero_le hn
    intro rest
    obtain ⟨d, hd, hhead⟩ := head?_numeral isLong m rest
    have hdigit : ∀ d < 10, Nat.digitChar d ≠ '-' ∧ Nat.digitChar d ≠ '=' := by decide
    rw [formatCodes_whole, hhead]
    simpa only [ne_eq, Option.some.injEq] using hdigit d hd
  cases v with
  | int n => exact hwhole false (Int.not_lt.mp hnegative)
  | long n => exact hwhole true (Int.not_lt.mp hnegative)
  | char code =>
    have hhead : (f.formatCodes (.char code)).head? = some 39 := congrArg List.head? (Token.quotedLiteral_single code)
    exact unsigned_of_head? hhead (by decide)
  | boolean b =>
    have hcodes : f.formatCodes (Lowering.literalValue (.boolean b)) = codes (if b then "true" else "false") := by
      cases b <;> rfl
    rw [hcodes]
    cases b <;> exact unsigned_of_head? rfl (by decide)
  | _ => exact hv.elim

lemma unsigned_under {inner : Precedence} (h : inner.standsUnder .unary = true → Unsigned text) :
    Unsigned (Fragment.under .unary ⟨text, some inner⟩) := by
  unfold Fragment.under
  dsimp only
  split
  · next hstands => exact h hstands
  · exact unsigned_of_head? rfl (by decide)

/-! ### Fragments -/

section Fragments

variable {op : BinaryOperator} {head : Head} {b : Body} {bodies : List Body} {fragment fragment' : Fragment}
  {fragments : List Fragment}

lemma fragment?_one (hlisted : head.isListed 0 = false) (hreceiver : head.lacksReceiver [x] = false)
    (hx : x.fragment? f = some fragment) (hsource : head.source? f [fragment] [] = some text) :
    (Operand.op (.of head [x])).fragment? f = some ⟨text, some head.precedence⟩ := by
  simp [Operand.fragment?, Op.of, Op.fragment?, Op.operandFragments?, Op.bodyFragments?, hlisted, hreceiver, hx,
    hsource]

lemma fragment?_two (hlisted : head.isListed 0 = false) (hreceiver : head.lacksReceiver [x, y] = false)
    (hx : x.fragment? f = some fragment) (hy : y.fragment? f = some fragment')
    (hsource : head.source? f [fragment, fragment'] [] = some text) :
    (Operand.op (.of head [x, y])).fragment? f = some ⟨text, some head.precedence⟩ := by
  simp [Operand.fragment?, Op.of, Op.fragment?, Op.operandFragments?, Op.bodyFragments?, hlisted, hreceiver, hx, hy,
    hsource]

lemma fragment?_of_yielded (h : b.yielded? = some x) : b.fragment? f = x.fragment? f := by
  unfold Body.yielded? at h
  split at h
  · obtain rfl := Option.some.inj h
    rw [Body.fragment?, Block.fragment?]
  · cases h

lemma fragment?_chain (hop : chainHead? op = some head) (bodies : List Body) :
    (Operand.op (.mk head [] bodies)).fragment? f = (Op.bodyFragments? f bodies).map fun fragments =>
      ⟨(codes (" " ++ op.symbol.text ++ " ")).intercalate (fragments.map (Fragment.under head.precedence)),
        some head.precedence⟩ := by
  cases op <;> cases hop
  all_goals
    rw [Operand.fragment?, Op.fragment?]
    cases Op.bodyFragments? f bodies <;> rfl

lemma bodyFragments?_snoc (hbodies : Op.bodyFragments? f bodies = some fragments)
    (hb : b.fragment? f = some fragment) : Op.bodyFragments? f (bodies ++ [b]) = some (fragments ++ [fragment]) := by
  induction bodies generalizing fragments with
  | nil =>
    obtain rfl := Option.some.inj hbodies
    simp [Op.bodyFragments?, hb]
  | cons first bodies ih =>
    simp only [Op.bodyFragments?, Option.bind_eq_bind, Option.bind_eq_some_iff, Option.pure_def,
      Option.some.injEq] at hbodies
    obtain ⟨_, hfirst, rest, hrest, rfl⟩ := hbodies
    simp [Op.bodyFragments?, hfirst, ih hrest]

lemma intercalate_snoc {sep last : List Nat} {texts : List (List Nat)} (h : texts ≠ []) :
    sep.intercalate (texts ++ [last]) = sep.intercalate texts ++ sep ++ last := by
  induction texts with
  | nil => exact absurd rfl h
  | cons first texts ih =>
    cases texts with
    | nil => simp
    | cons second texts =>
      have hrest := ih (List.cons_ne_nil second texts)
      rw [List.cons_append] at hrest
      simp [hrest]

/-- The level of an operation, which does not stand under a sign without parentheses. -/
lemma BinaryOperator.level_head (op : BinaryOperator) (k : Primitive) :
    (op.head k).precedence.level = op.level + 2 ∧ (op.head k).precedence.rank ≤ 14 ∧
      (op.head k).precedence.standsUnder .unary = false := by
  rcases op with op | op | op | _ | _ <;> (try cases op) <;> exact ⟨rfl, Nat.le_of_ble_eq_true rfl, rfl⟩

lemma source?_binary (hop : chainHead? op = none) :
    (op.head k).source? f [fragment, fragment'] [] = some (Fragment.under (op.head k).precedence fragment ++
      codes (" " ++ op.symbol.text ++ " ") ++ Fragment.under (op.head k).precedence fragment') := by
  rcases op with op | op | op | _ | _ <;> first | cases hop; done | cases op <;> rfl

end Fragments

/-! ### Sources -/

/-- An operand is shown by a text that is read to tokens which restore the operand. -/
structure Sourced (f : Formatter) (scope : Scope) (heap : Heap) (captures : Captures) (x : Operand) (k : Primitive)
    (text : List Nat) (inner : Precedence) : Prop where
  fragment_eq : x.fragment? f = some ⟨text, some inner⟩
  reads : Reads Ends text (RestoredBy scope heap captures x k inner.level)
  unsigned : ¬x.IsNegative → inner.standsUnder .unary = true → Unsigned text

section Sources

variable {inner inner' inner'' : Precedence} {op : BinaryOperator} {head : Head} {b b' b'' : Body} {bodies : List Body}

lemma sourced_literal {v : Literal} (hv : v.IsDiscrete) (hrange : v.InRange) (hp : Typing.literalType v = .prim p) :
    Sourced f scope heap captures (v.operand p) p (f.formatCodes (Lowering.literalValue v)) .literal where
  fragment_eq := rfl
  reads := reads_literal hv hrange hp
  unsigned hnegative _ := unsigned_literal hv hnegative

lemma sourced_varLoad {var : Var} {v : Value} {c : Capture} (hfaithful : captures.Faithful scope)
    (hname : Token.IsName var.name) (hlocal : scope.local? heap var.name = some v) (hv : v.kind? = some k)
    (hbound : captures.binding? var.name = some c) :
    Sourced f scope heap captures (.op (.leaf (.varLoad var))) k (codes var.name) .literal := by
  obtain ⟨⟨c, cs, hs, hdigit, hstart, hcs⟩, hkeyword⟩ := hname
  refine ⟨rfl, ?_, fun _ _ => ?_⟩
  · refine (Token.reads_word hs hdigit hstart hcs).mono (fun w hw => ?_) fun _ hrest => hrest.endsWord
    obtain ⟨t, rfl, ht, -⟩ := hw
    have hident : t.lexeme = .ident var.name := by rw [ht, Token.wordLexeme, hkeyword]
    have hwritten : Written (phraseAt 14 (.name t.position var.name)) [t] := .name hident
    exact ⟨_, written_mono hwritten (by decide) (by decide), restores_name hfaithful hlocal hv hbound⟩
  · have hhead : (codes var.name).head? = some c.toNat := by simp [codes, hs]
    refine unsigned_of_head? hhead ?_
    rw [Text.shown_toNat]
    constructor <;> rintro rfl <;> cases hstart

lemma Sourced.under {outer : Precedence} (hx : Sourced f scope heap captures x k text inner)
    (houter : outer.rank ≤ 14) :
    Reads Ends (Fragment.under outer ⟨text, some inner⟩)
      (RestoredBy scope heap captures x k (min 12 (outer.level + 1))) :=
  reads_under hx.reads houter

lemma Sourced.loose (hx : Sourced f scope heap captures x k text inner) :
    Reads Ends (Fragment.loose ⟨text, some inner⟩) (RestoredBy scope heap captures x k 0) := by
  have hbound : inner.level ≤ 12 := inner.level_le
  unfold Fragment.loose Fragment.under
  dsimp only
  split
  · exact reads_looser hx.reads (Nat.zero_le _) (by omega)
  · exact reads_looser (reads_group hx.reads (by omega)) (Nat.zero_le _) (by decide)

lemma Sourced.signed (hx : Sourced f scope heap captures x k text inner) (hnegative : ¬x.IsNegative) :
    Unsigned (Fragment.under .unary ⟨text, some inner⟩) :=
  unsigned_under (hx.unsigned hnegative)

lemma Sourced.not (hx : Sourced f scope heap captures x .boolean text inner) (hnegative : ¬x.IsNegative) :
    Sourced f scope heap captures (.op (.of .not [x])) .boolean
      (codes UnaryOperator.not.symbol.text ++ Fragment.under .unary ⟨text, some inner⟩) .unary where
  fragment_eq := fragment?_one rfl rfl hx.fragment_eq rfl
  reads := reads_unary Token.reads_bang (hx.under (by decide)) (fun rest _ => (hx.signed hnegative rest).2)
    fun _ _ he => he.not
  unsigned _ h := by cases h

lemma Sourced.neg (hk : k.IsPromoted) (hx : Sourced f scope heap captures x k text inner) (hnegative : ¬x.IsNegative) :
    Sourced f scope heap captures (.op (.of (.neg (.prim k)) [x])) k
      (codes UnaryOperator.minus.symbol.text ++ Fragment.under .unary ⟨text, some inner⟩) .unary where
  fragment_eq := fragment?_one rfl rfl hx.fragment_eq rfl
  reads := reads_unary Token.reads_minus (hx.under (by decide)) (fun rest _ => (hx.signed hnegative rest).1)
    fun _ _ he => he.minus hk
  unsigned _ h := by cases h

lemma Sourced.conv (hp : p.isNumeric = true) (hq : q.isNumeric = true) (hpq : p ≠ q)
    (hx : Sourced f scope heap captures x p text inner) :
    Sourced f scope heap captures (.op (.of (.conv (.prim q)) [x])) q
      (codes ("(" ++ (TypeRef.prim q).text ++ ")") ++ Fragment.under .unary ⟨text, some inner⟩) .unary where
  fragment_eq := fragment?_one rfl rfl hx.fragment_eq rfl
  reads := reads_cast hp hq hpq (hx.under (by decide))
  unsigned _ h := by cases h

/-- The texts of two operands with an operator between them. -/
def operationText (op : BinaryOperator) (k : Primitive) (left right : Fragment) : List Nat :=
  Fragment.under (op.head k).precedence left ++ codes (" " ++ op.symbol.text ++ " ") ++
    Fragment.under (op.head k).precedence right

lemma Sourced.besides (op : BinaryOperator) (k : Primitive) (hx : Sourced f scope heap captures x p text inner) :
    Reads Ends (Fragment.under (op.head k).precedence ⟨text, some inner⟩)
      (RestoredBy scope heap captures x p (op.level + 3)) := by
  obtain ⟨hlevel, hrank, -⟩ := op.level_head k
  have hlt : op.level < 10 := op.level_lt
  have hread := hx.under hrank
  rwa [hlevel, Nat.min_eq_right (by omega)] at hread

lemma reads_operation (hx : Sourced f scope heap captures x p text inner)
    (hy : Sourced f scope heap captures y q text' inner')
    (hz : ∀ pos l r, Restores scope heap captures x p l → Restores scope heap captures y q r →
      Restores scope heap captures z k (.binary pos op l r)) :
    Reads Ends (operationText op k ⟨text, some inner⟩ ⟨text', some inner'⟩)
      (RestoredBy scope heap captures z k (op.head k).precedence.level) := by
  have hlt : op.level < 10 := op.level_lt
  rw [(op.level_head k).1]
  exact reads_binary (reads_looser (hx.besides op k) (by omega) (by omega)) (hy.besides op k) hz

lemma Sourced.binary (hop : Operates op p q k) (hx : Sourced f scope heap captures x p text inner)
    (hy : Sourced f scope heap captures y q text' inner') :
    Sourced f scope heap captures (.op (.of (op.head k) [x, y])) k
      (operationText op k ⟨text, some inner⟩ ⟨text', some inner'⟩) (op.head k).precedence where
  fragment_eq := by
    have hchain : chainHead? op = none := by cases hop <;> rfl
    have hlisted : (op.head k).isListed 0 = false := by cases hop <;> rfl
    have hreceiver : (op.head k).lacksReceiver [x, y] = false := by cases hop <;> rfl
    exact fragment?_two hlisted hreceiver hx.fragment_eq hy.fragment_eq (source?_binary hchain)
  reads := reads_operation hx hy fun _ _ _ hl hr => hl.binary hop hr
  unsigned _ h := by
    rw [(op.level_head k).2.2] at h
    cases h

lemma head_of_chainHead? (hop : chainHead? op = some head) : head = op.head k := by
  cases op <;> cases hop <;> rfl

lemma Sourced.chainPair {decisive : Bool} (hop : chainHead? op = some head) (hd : head.decisive? = some decisive)
    (hb : b.yielded? = some x) (hb' : b'.yielded? = some y) (hx : Sourced f scope heap captures x .boolean text inner)
    (hy : Sourced f scope heap captures y .boolean text' inner') :
    Sourced f scope heap captures (.op (.mk head [] [b, b'])) .boolean
      (operationText op .boolean ⟨text, some inner⟩ ⟨text', some inner'⟩) head.precedence := by
  obtain rfl : head = op.head .boolean := head_of_chainHead? hop
  refine ⟨?_, reads_operation hx hy fun _ _ _ hl hr => hl.logical hop hd hr (result_chainPair hd hb hb'), fun _ h => ?_⟩
  · have hbodies : Op.bodyFragments? f [b, b'] = some [⟨text, some inner⟩, ⟨text', some inner'⟩] := by
      simp [Op.bodyFragments?, fragment?_of_yielded hb, fragment?_of_yielded hb', hx.fragment_eq, hy.fragment_eq]
    rw [fragment?_chain hop, hbodies]
    simp [operationText]
  · rw [(op.level_head .boolean).2.2] at h
    cases h

/-- A chain that goes on with one more operand. -/
lemma Sourced.chainSnoc {decisive : Bool} (hop : chainHead? op = some head) (hd : head.decisive? = some decisive)
    (hb : b.yielded? = some y) (hbodies : bodies ≠ [])
    (hx : Sourced f scope heap captures (.op (.mk head [] bodies)) .boolean text inner)
    (hy : Sourced f scope heap captures y .boolean text' inner') :
    Sourced f scope heap captures (.op (.mk head [] (bodies ++ [b]))) .boolean
      (text ++ codes (" " ++ op.symbol.text ++ " ") ++ Fragment.under head.precedence ⟨text', some inner'⟩)
      head.precedence := by
  obtain rfl : head = op.head .boolean := head_of_chainHead? hop
  have hfragment := hx.fragment_eq
  rw [fragment?_chain hop] at hfragment
  obtain ⟨fragments, hfragments, hchain⟩ := Option.map_eq_some_iff.mp hfragment
  obtain ⟨rfl, hinner⟩ := Fragment.mk.inj hchain
  obtain rfl := Option.some.inj hinner
  refine ⟨?_, ?_, fun _ h => ?_⟩
  · have hne : fragments.map (Fragment.under (op.head .boolean).precedence) ≠ [] := by
      cases bodies with
      | nil => exact absurd rfl hbodies
      | cons first bodies =>
        simp only [Op.bodyFragments?, Option.bind_eq_bind, Option.bind_eq_some_iff, Option.pure_def,
          Option.some.injEq] at hfragments
        obtain ⟨_, _, _, _, rfl⟩ := hfragments
        simp
    have hlast : b.fragment? f = some ⟨text', some inner'⟩ := (fragment?_of_yielded hb).trans hy.fragment_eq
    rw [fragment?_chain hop, bodyFragments?_snoc hfragments hlast, Option.map_some, List.map_append, List.map_singleton,
      intercalate_snoc hne]
  · have hread := hx.reads
    rw [(op.level_head .boolean).1] at hread ⊢
    exact reads_binary hread (hy.besides op .boolean) fun _ _ _ hl hr => hl.logical hop hd hr (result_chainSnoc hd hb)
  · rw [(op.level_head .boolean).2.2] at h
    cases h

lemma Sourced.choice (hk : k.IsPromoted ∨ k = .boolean) (hb : b.yielded? = some x) (hb' : b'.yielded? = some y)
    (hb'' : b''.yielded? = some z) {text'' : List Nat} (hx : Sourced f scope heap captures x .boolean text inner)
    (hy : Sourced f scope heap captures y k text' inner') (hz : Sourced f scope heap captures z k text'' inner'') :
    Sourced f scope heap captures (.op (.mk (.ternary (.prim k)) [] [b, b', b''])) k
      (Fragment.under .ternary ⟨text, some inner⟩ ++ codes " ? " ++ Fragment.under .ternary ⟨text', some inner'⟩ ++
        codes " : " ++ Fragment.under .ternary ⟨text'', some inner''⟩) .ternary where
  fragment_eq := by
    have hbodies : Op.bodyFragments? f [b, b', b''] =
        some [⟨text, some inner⟩, ⟨text', some inner'⟩, ⟨text'', some inner''⟩] := by
      simp [Op.bodyFragments?, fragment?_of_yielded hb, fragment?_of_yielded hb', fragment?_of_yielded hb'',
        hx.fragment_eq, hy.fragment_eq, hz.fragment_eq]
    rw [Operand.fragment?, Op.fragment?, hbodies]
    rfl
  reads := by
    have harm {x : Operand} {text : List Nat} {inner : Precedence}
        (hx : Sourced f scope heap captures x k text inner) :
        Reads Ends (Fragment.under .ternary ⟨text, some inner⟩) (RestoredBy scope heap captures x k 1) :=
      reads_looser (hx.under (by decide)) (by decide) (by decide)
    exact reads_choice hk hb hb' hb'' (hx.under (by decide)) (harm hy) (harm hz)
  unsigned _ h := by cases h

end Sources

/-! ### Plain ops -/

lemma Operand.SignsOnce.operand {op : Op} (h : (Operand.op op).SignsOnce) (hx : x ∈ op.operands) : x.SignsOnce :=
  fun type y hy => h type y (.operand hx hy)

lemma Operand.SignsOnce.yielded {op : Op} {b : Body} (h : (Operand.op op).SignsOnce) (hb : b ∈ op.bodies)
    (hx : b.yielded? = some x) : x.SignsOnce :=
  fun type y hy => h type y (.yielded hb hx hy)

lemma Operand.SignsOnce.chain {head : Head} {bodies : List Body} {b : Body}
    (h : (Operand.op (.mk head [] (bodies ++ [b]))).SignsOnce) : (Operand.op (.mk head [] bodies)).SignsOnce := by
  intro type y hy
  refine h type y ?_
  cases hy with
  | operand hx => cases hx
  | yielded hb hx hy => exact .yielded (List.mem_append_left _ hb) hx hy

lemma PlainOp.bodies_ne_nil {op : BinaryOperator} {head : Head} {bodies : List Body} (hop : chainHead? op = some head)
    (h : PlainOp scope heap captures (.op (.mk head [] bodies)) k) : bodies ≠ [] := by
  rintro rfl
  generalize hx : Operand.op (.mk head [] []) = x at h
  cases h with
  | literal | varLoad => cases hx; cases op <;> cases hop
  | chainSnoc => simp at hx
  | _ => cases hx

lemma PlainOp.not_isNegative (h : PlainOp scope heap captures x .boolean) : ¬x.IsNegative := by
  cases h with
  | @literal v _ _ _ hp =>
    cases v <;> cases hp
    exact id
  | @chainPair op _ _ _ _ _ hop | @chainSnoc op _ _ _ _ hop => cases op <;> cases hop <;> exact id
  | binary hop => cases hop <;> exact id
  | _ => exact id

/-- Plain ops are shown by a text that is read to tokens which restore them, if signs are applied once. -/
theorem PlainOp.sourced (h : PlainOp scope heap captures x k) (hfaithful : captures.Faithful scope)
    (hsigns : x.SignsOnce) : ∃ text inner, Sourced f scope heap captures x k text inner := by
  induction h with
  | literal hv hrange hp => exact ⟨_, _, sourced_literal hv hrange hp⟩
  | varLoad hname hlocal hv _ hbound => exact ⟨_, _, sourced_varLoad hfaithful hname hlocal hv hbound⟩
  | not hx ih =>
    obtain ⟨_, _, hsourced⟩ := ih (hsigns.operand List.mem_cons_self)
    exact ⟨_, _, hsourced.not hx.not_isNegative⟩
  | neg hk hx ih =>
    obtain ⟨_, _, hsourced⟩ := ih (hsigns.operand List.mem_cons_self)
    exact ⟨_, _, hsourced.neg hk (hsigns _ _ (.refl _))⟩
  | conv hp hq hpq hx ih =>
    obtain ⟨_, _, hsourced⟩ := ih (hsigns.operand List.mem_cons_self)
    exact ⟨_, _, hsourced.conv hp hq hpq⟩
  | binary hop hx hy ih ih' =>
    obtain ⟨_, _, hsourced⟩ := ih (hsigns.operand List.mem_cons_self)
    obtain ⟨_, _, hsourced'⟩ := ih' (hsigns.operand (List.mem_cons_of_mem _ List.mem_cons_self))
    exact ⟨_, _, hsourced.binary hop hsourced'⟩
  | chainPair hop hb hb' hx hy ih ih' =>
    obtain ⟨_, hd⟩ := exists_decisive hop
    obtain ⟨_, _, hsourced⟩ := ih (hsigns.yielded List.mem_cons_self hb)
    obtain ⟨_, _, hsourced'⟩ := ih' (hsigns.yielded (List.mem_cons_of_mem _ List.mem_cons_self) hb')
    exact ⟨_, _, hsourced.chainPair hop hd hb hb' hsourced'⟩
  | chainSnoc hop hb hx hy ih ih' =>
    obtain ⟨_, hd⟩ := exists_decisive hop
    obtain ⟨_, _, hsourced⟩ := ih hsigns.chain
    obtain ⟨_, _, hsourced'⟩ := ih' (hsigns.yielded (List.mem_append_right _ List.mem_cons_self) hb)
    exact ⟨_, _, hsourced.chainSnoc hop hd hb (hx.bodies_ne_nil hop) hsourced'⟩
  | choice hk hb hb' hb'' hx hy hz ih ih' ih'' =>
    obtain ⟨_, _, hsourced⟩ := ih (hsigns.yielded List.mem_cons_self hb)
    obtain ⟨_, _, hsourced'⟩ := ih' (hsigns.yielded (by simp [Op.bodies]) hb')
    obtain ⟨_, _, hsourced''⟩ := ih'' (hsigns.yielded (by simp [Op.bodies]) hb'')
    exact ⟨_, _, hsourced.choice hk hb hb' hb'' hsourced' hsourced''⟩

end PredicateTrace
