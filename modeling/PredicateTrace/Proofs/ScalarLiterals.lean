import Mathlib.Algebra.Group.Int.Defs
import PredicateTrace.Proofs.Requoting

/-!
# Scalars in the form of literals

A scalar is shown by a text that is an expression in every scope. The expression is accepted, and whenever it
is evaluated, it gives the scalar back. The smallest number of a kind, for which there is no positive literal,
and the characters that are escaped are among them.
-/

namespace PredicateTrace

open Host (Heap)
open Text (codes)
open Token (Reads Ends Only)
open PredicateTrace.Parser (Written)

variable {scope : Scope} {heap : Heap} {f : Formatter} {v : Value} {w : List Token}

/-- The values of the kinds that have literals: whole numbers, truth values, characters and `null`. -/
inductive Value.IsScalar : Value → Prop
  | null : IsScalar .null
  | bool (b : Bool) : IsScalar (.bool b)
  | int {n : Int} (hlow : -2 ^ 31 ≤ n) (hhigh : n < 2 ^ 31) : IsScalar (.integral .int n)
  | long {n : Int} (hlow : -2 ^ 63 ≤ n) (hhigh : n < 2 ^ 63) : IsScalar (.integral .long n)
  | char {code : Nat} (hvalid : code.isValidChar) : IsScalar (.char code)

/-- Tokens write an expression that is accepted and gives a value whenever it is evaluated. -/
def GivesBack (scope : Scope) (heap : Heap) (v : Value) (w : List Token) : Prop :=
  ∃ e, Written (.expression e) w ∧ ∃ te, Typing.check scope heap e = .ok te ∧
    ∀ later, (Lowering.quote scope heap te).rootOutcome later = (.ok (.value v), ⟨later, []⟩)

lemma givesBack_of_restoredBy {captures : Captures} {type : TypeRef} {k : Primitive} {level : Nat}
    (hv : v.box = v) (hlevel : level ≤ 14)
    (h : RestoredBy scope heap captures (.op (.leaf (.const v type))) k level w) : GivesBack scope heap v w := by
  obtain ⟨e, hwritten, te, hcheck, -, hbuilds⟩ := h
  refine ⟨e, @written_mono _ 0 level e hwritten (Nat.zero_le _) hlevel, te, hcheck, fun later => ?_⟩
  have hresult := Lowering.of_builds_quote hbuilds (Lowering.faithful_quote scope heap te)
  rw [Lowering.rootOutcome_quote, hresult, Evaluation.result_const hv]
  rfl

lemma reads_discrete {l : Literal} {k : Primitive} (hl : l.IsDiscrete) (hrange : l.InRange)
    (hk : Typing.literalType l = .prim k) :
    Reads Ends (f.formatCodes (Lowering.literalValue l)) (GivesBack scope heap (Lowering.literalValue l)) := by
  have hbox : (Lowering.literalValue l).box = Lowering.literalValue l := by cases l <;> rfl
  have hread : Reads Ends (f.formatCodes (Lowering.literalValue l))
      (RestoredBy scope heap ⟨[], []⟩ (l.operand k) k 12) := reads_literal hl hrange hk
  exact hread.imp fun w hw => givesBack_of_restoredBy hbox (by decide) hw

lemma reads_null : Reads Ends (f.formatCodes .null) (GivesBack scope heap .null) := by
  have hread : Reads Token.EndsWord (f.formatCodes .null) (Only (.keyword .null) "null") :=
    Token.reads_keyword (s := "null") rfl (by decide) (by decide) (by decide) rfl
  refine hread.mono (fun w hw => ?_) fun _ hrest => hrest.endsWord
  obtain ⟨t, rfl, ht, -⟩ := hw
  have hdenotes : t.Denotes .null := ht
  have hwritten : Written (phraseAt 14 (.literal t.position .null)) [t] :=
    .literal (Parser.literal?_eq_some_ok.mpr hdenotes)
  refine ⟨_, @written_mono _ 0 14 _ hwritten (by decide) (by decide), .literal (.plain t.position .null) .null,
    rfl, fun later => ?_⟩
  have hroot : Lowering.root scope heap (.literal (.plain t.position .null) .null) =
      .op (.leaf (.const .null .object)) := rfl
  rw [Lowering.rootOutcome_quote, hroot, Evaluation.result_const rfl]
  rfl

lemma reads_scalar (hv : v.IsScalar) : Reads Ends (f.formatCodes v) (GivesBack scope heap v) := by
  cases hv with
  | null => exact reads_null
  | bool b => exact reads_discrete (l := .boolean b) trivial trivial rfl
  | int hlow hhigh => exact reads_discrete (l := .int _) trivial ⟨hlow, hhigh⟩ rfl
  | long hlow hhigh => exact reads_discrete (l := .long _) trivial ⟨hlow, hhigh⟩ rfl
  | char => exact reads_discrete (l := .char _) trivial trivial rfl

lemma Text.codes_ofCodes_codes (text : String) : codes (ofCodes (codes text)) = codes text := by
  rw [ofCodes_codes]

/-- No replacement stands in the literal of a character. -/
lemma codes_format (hv : v.IsScalar) : codes (f.format v) = f.formatCodes v := by
  cases hv with
  | @char code hvalid =>
    have hliteral : Formatter.quotedLiteral '\x27' [code] Formatter.charBudget =
        codes ("'" ++ Text.sourcePiece (Char.ofNat code) ++ "'") := by
      rw [Token.quotedLiteral_single, Text.sourcePieceCodes, if_pos hvalid, Text.codes_append, Text.codes_append]
      rfl
    have hformat : f.format (.char code) =
        Text.ofCodes (Formatter.quotedLiteral '\x27' [code] Formatter.charBudget) := rfl
    rw [hformat, hliteral, Text.codes_ofCodes_codes, ← hliteral]
    rfl
  | _ => rfl

lemma formatted_eq_ok (hv : v.IsScalar) : f.formatted v = .ok (f.format v) := by
  cases hv <;>
    simp [Formatter.formatted, Formatter.canFormatAt, Value.hasSourceText, Value.hasHostText, Value.hasLiteral]

/-- The text that shows a scalar is read back to it, whatever the budget: it is parsed, accepted as it stands
and evaluated to the same value, with no effects. -/
theorem scalar_reads_back (f : Formatter) (hv : v.IsScalar) (scope : Scope) (heap : Heap) :
    f.formatted v = .ok (f.format v) ∧
      ∃ e te, Parser.parse (f.format v) = .ok e ∧ Typing.check scope heap e = .ok te ∧
        ∀ later, (Lowering.quote scope heap te).rootOutcome later = (.ok (.value v), ⟨later, []⟩) := by
  have hreads : Reads Ends (f.formatCodes v) (GivesBack scope heap v) := reads_scalar hv
  obtain ⟨w, finish, ⟨e, hwritten, te, hcheck, hgives⟩, htokens⟩ := hreads.tokenize fun c hc => by cases hc
  have htokens' : Token.tokenize (f.format v) = .ok ⟨w, finish⟩ := by
    rw [← htokens, ← codes_format hv]
    rfl
  have hparse : Parser.parse (f.format v) = .ok e :=
    bind_eq_ok.mpr ⟨_, htokens', Parser.parseTokens_eq_ok.mpr hwritten⟩
  exact ⟨formatted_eq_ok hv, e, te, hparse, hcheck, hgives⟩

/-- There is no positive literal that the smallest number could be the opposite of. -/
theorem scalar_reads_back_of_smallest :
    let f := Heap.empty.formatter 3
    let v : Value := .integral .long (-2 ^ 63)
    let scope : Scope := ⟨[], none, .empty⟩
    v.IsScalar ∧ f.formatted v = .ok "-9223372036854775808L" ∧
      ∃ e te, Parser.parse "-9223372036854775808L" = .ok e ∧ Typing.check scope Heap.empty e = .ok te ∧
        ∀ later, (Lowering.quote scope Heap.empty te).rootOutcome later = (.ok (.value v), ⟨later, []⟩) := by
  intro f v scope
  have hv : v.IsScalar := .long (by decide) (by decide)
  exact ⟨hv, scalar_reads_back f hv scope Heap.empty⟩

end PredicateTrace
