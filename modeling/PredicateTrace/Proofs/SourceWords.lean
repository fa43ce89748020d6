import PredicateTrace.Proofs.Rendering
import PredicateTrace.Proofs.SourceReading
import PredicateTrace.Proofs.TokenListing

/-!
# The words of a source

The names in the tokens of a source have the form of names, and the numbers of its literals are in range.
So have those of the expression that the source is parsed to.
-/

namespace PredicateTrace

open Text (isDigit)

namespace Token

/-- A name has the form that the scanner takes for one. -/
def IsName (name : String) : Prop :=
  (∃ c cs, name.toList = c :: cs ∧ isDigit c = false ∧ isNameStart c = true ∧ ∀ d ∈ cs, isNamePart d = true) ∧
    Keyword.ofText? name = none

variable {name : String} {text : List Char} {lexeme : Lexeme}

/-! ### Numbers are no names -/

lemma integerValue_ne_ident (isLong : Bool) : integerValue isLong text ≠ .lexeme (.ident name) := by
  have hinteger (n : Nat) : integerLexeme isLong n ≠ .lexeme (.ident name) := by
    cases isLong <;> simp [integerLexeme]
  unfold integerValue
  split
  · split
    · exact hinteger _
    · simp
  · split
    · exact hinteger _
    · simp

lemma floatingValue_ne_ident {make : Float → Lexeme} (hmake : ∀ x, make x ≠ .ident name) :
    floatingValue make text ≠ .lexeme (.ident name) := by
  unfold floatingValue
  split
  · simpa using hmake _
  · simp

lemma value_ite {p : Prop} [Decidable p] {a b : NumberScan} {v : NumberValue} (ha : a.value ≠ v) (hb : b.value ≠ v) :
    (if p then a else b).value ≠ v := by
  split
  · exact ha
  · exact hb

lemma scanDecimal_ne_ident : (scanDecimal text).value ≠ .lexeme (.ident name) := by
  have hfloat (cs : List Char) : floatingValue .float cs ≠ .lexeme (.ident name) :=
    floatingValue_ne_ident fun _ => by simp
  have hdouble (cs : List Char) : floatingValue .double cs ≠ .lexeme (.ident name) :=
    floatingValue_ne_ident fun _ => by simp
  unfold scanDecimal
  extract_lets whole fraction mantissa finish
  have hfinish (isFloating : Bool) (body : List Char) : (finish isFloating body).value ≠ .lexeme (.ident name) := by
    unfold finish
    extract_lets rest numeral
    clear_value rest numeral
    refine value_ite (by simp) ?_
    cases rest with
    | nil =>
      dsimp only
      split
      · exact hdouble numeral
      · exact integerValue_ne_ident false
    | cons c after =>
      refine value_ite ?_ (value_ite ?_ (value_ite ?_ (value_ite ?_ ?_))) <;> dsimp only
      · exact hfloat numeral
      · exact hdouble numeral
      · exact hdouble numeral
      · exact integerValue_ne_ident true
      · exact integerValue_ne_ident false
  split
  · exact hfinish _ _
  · exact hfinish _ _
  · simp

lemma scanNumber_ne_ident : (scanNumber text).value ≠ .lexeme (.ident name) := by
  have hbased (base : Nat) (cs : List Char) : (scanBased base cs).value ≠ .lexeme (.ident name) := by
    unfold scanBased
    extract_lets body
    split
    next isLong rest _ =>
    extract_lets length
    split
    · simp
    · cases isLong <;> simp [integerLexeme]
  unfold scanNumber
  split
  · split
    · exact hbased _ _
    · split
      · exact hbased _ _
      · exact scanDecimal_ne_ident
  · exact scanDecimal_ne_ident

lemma readNumber_ne_ident {length : Nat} : readNumber text ≠ .ok (.ident name, length) :=
  fun h => scanNumber_ne_ident (readNumber_eq_ok.mp h).1

/-! ### Names in tokens -/

lemma isName_of_readPlain {c : Char} {length : Nat} (h : readPlain c text = .token (.ident name) length) :
    IsName name := by
  cases plainPiece_of_readPlain h with
  | number _ hread => exact absurd hread readNumber_ne_ident
  | word hdigit hstart hl =>
    unfold wordLexeme at hl
    split at hl
    · cases hl
    · next hkeyword =>
      obtain rfl := Lexeme.ident.inj hl
      exact ⟨⟨c, text.takeWhile isNamePart, String.toList_ofList, hdigit, hstart,
        fun d hd => List.all_eq_true.mp List.all_takeWhile d hd⟩, hkeyword⟩

lemma isName_of_readPiece {code length : Nat} {rest : List Nat}
    (h : readPiece code rest = .token (.ident name) length) : IsName name := by
  unfold readPiece at h
  split at h
  · exfalso
    unfold readCharacter at h
    cases hread : readQuoted '\x27' .unclosedCharacter 1 0 rest with
    | error m => simp [hread, Piece.ofResult, bind, Except.bind] at h
    | ok read =>
      rw [hread] at h
      obtain ⟨_ | ⟨code, _ | ⟨_, _⟩⟩, stop⟩ := read <;> cases h
  split at h
  · exfalso
    unfold readString at h
    cases hread : readQuoted '"' .unclosedString 1 0 rest with
    | error m => simp [hread, Piece.ofResult, bind, Except.bind] at h
    | ok read =>
      rw [hread] at h
      obtain ⟨hlexeme, -⟩ := Piece.token.inj h
      unfold Lexeme.ofCodes at hlexeme
      split at hlexeme <;> cases hlexeme
  · exact isName_of_readPlain h

/-- The names among the tokens of a text. -/
lemma isName_of_scan {codes : List Nat} {position : Position} {skip : Nat} {ts : Tokens}
    (h : scan position skip codes = .ok ts) : ∀ t ∈ ts.tokens, t.lexeme = .ident name → IsName name := by
  induction codes generalizing position skip ts with
  | nil =>
    rw [scan] at h
    obtain rfl := (Except.ok.inj h).symm
    exact fun _ ht => absurd ht List.not_mem_nil
  | cons code rest ih =>
    cases skip with
    | succ skip => exact ih h
    | zero =>
      rw [scan] at h
      split at h
      · exact ih h
      · next lexeme length hpiece =>
        obtain ⟨following, hfollowing, h⟩ := bind_eq_ok.mp h
        obtain rfl := (Except.ok.inj h).symm
        refine List.forall_mem_cons.mpr ⟨fun hlexeme => ?_, ih hfollowing⟩
        obtain rfl : lexeme = .ident name := hlexeme
        exact isName_of_readPiece hpiece
      · cases h
      · cases h

end Token

/-! ### Words of expressions -/

/-- What the scanner lets a word be. -/
def Word.IsScanned : Word → Prop
  | .literal v => v.InRange
  | .ident name => Token.IsName name
  | _ => True

lemma wrap_inRange (bits : Nat) (n : Int) :
    -2 ^ bits ≤ Number.wrap (bits + 1) n ∧ Number.wrap (bits + 1) n < 2 ^ bits := by
  have hpow : ((2 ^ (bits + 1) : Nat) : Int) = 2 * 2 ^ bits := by
    rw [Int.natCast_pow, Int.pow_succ']
    rfl
  have hpos : 0 < 2 ^ (bits + 1) := Nat.pow_pos (by decide)
  have hlow := Int.le_bmod (x := n) hpos
  have hhigh := Int.bmod_lt (x := n) hpos
  unfold Number.wrap
  omega

lemma Token.Denotes.inRange {t : Token} {v : Literal} (h : t.Denotes v) : v.InRange := by
  cases v with
  | int m =>
    obtain ⟨n, _, _, hm⟩ := h
    rw [Literal.InRange, hm]
    exact wrap_inRange 31 n
  | long m =>
    obtain ⟨n, _, _, hm⟩ := h
    rw [Literal.InRange, hm]
    exact wrap_inRange 63 n
  | float y =>
    obtain ⟨x, -, hx, hinf, -⟩ := h
    exact ⟨hinf, x, hx⟩
  | double y => exact h.2.1
  | _ => trivial

lemma Token.IsSmallest.inRange {t : Token} {v : Literal} (h : t.IsSmallest v) : v.InRange := by
  cases v with
  | int m =>
    obtain ⟨-, -, rfl⟩ := h
    exact ⟨by decide, by decide⟩
  | long m =>
    obtain ⟨-, -, rfl⟩ := h
    exact ⟨by decide, by decide⟩
  | _ => exact h.elim

lemma Ungrouped.subset {w kept : List Token} (h : Ungrouped w kept) : kept ⊆ w := by
  induction h with
  | nil => exact List.Subset.refl _
  | keep _ _ ih => exact List.cons_subset_cons _ ih
  | pair _ _ _ _ ih ih' =>
    intro t ht
    simp only [List.mem_cons, List.mem_append] at ht ⊢
    grind
  | group _ _ _ _ ih ih' =>
    intro t ht
    simp only [List.mem_cons, List.mem_append] at ht ⊢
    grind

lemma isScanned_of_spelled {w : List Token} {ws : List Word} (h : Spelled w ws)
    (hnames : ∀ name, ∀ t ∈ w, t.lexeme = .ident name → Token.IsName name) : ∀ word ∈ ws, word.IsScanned := by
  induction h with
  | nil => exact fun _ h => absurd h List.not_mem_nil
  | @word t word w ws ht _ ih =>
    refine List.forall_mem_cons.mpr ⟨?_, ih fun name t ht => hnames name t (List.mem_cons_of_mem _ ht)⟩
    cases word with
    | literal v => exact Token.Denotes.inRange ht
    | ident name => exact hnames name t List.mem_cons_self ht
    | _ => trivial
  | smallest _ ht _ ih =>
    refine List.forall_mem_cons.mpr ⟨ht.inRange, ih fun name t ht => hnames name t ?_⟩
    exact List.mem_cons_of_mem _ (List.mem_cons_of_mem _ ht)

/-- All words of an expression are such as the scanner lets them be. -/
def Expr.IsScanned {α : Type} (e : Expr α) : Prop :=
  ∀ word ∈ e.words, word.IsScanned

namespace Expr.IsScanned

variable {α : Type} {note : α} {e l r c yes no : Expr α}

lemma literal {v : Literal} (h : (Expr.literal note v).IsScanned) : v.InRange :=
  h (.literal v) (by simp [words, listing])

lemma name {n : String} (h : (Expr.name note n).IsScanned) : Token.IsName n :=
  h (.ident n) (by simp [words, listing])

lemma unary {op : UnaryOperator} (h : (Expr.unary note op e).IsScanned) : e.IsScanned :=
  fun word hword => h word (by simpa [words, listing, inParens] using .inr hword)

lemma binary {op : BinaryOperator} (h : (Expr.binary note op l r).IsScanned) : l.IsScanned ∧ r.IsScanned := by
  refine ⟨fun word hword => h word ?_, fun word hword => h word ?_⟩
  all_goals
    simp only [words, listing, inParens] at hword ⊢
    simp [hword]

lemma cast {t : TypeName} (h : (Expr.cast note t e).IsScanned) : e.IsScanned := by
  intro word hword
  refine h word ?_
  simp only [words, listing, inParens] at hword ⊢
  simp [hword]

lemma conditional (h : (Expr.conditional note c yes no).IsScanned) :
    c.IsScanned ∧ yes.IsScanned ∧ no.IsScanned := by
  refine ⟨fun word hword => h word ?_, fun word hword => h word ?_, fun word hword => h word ?_⟩
  all_goals
    simp only [words, listing, inParens] at hword ⊢
    simp [hword]

end Expr.IsScanned

/-- The words of a parsed source are such as the scanner lets them be. -/
theorem isScanned_of_parse {α : Type} [Text.Coded α] {source : α} {e : Expr Position}
    (h : Parser.parse source = .ok e) : e.IsScanned := by
  obtain ⟨ts, hscan, hparse⟩ := bind_eq_ok.mp h
  obtain ⟨kept, hkept, hspelled⟩ := lists_of_written (Parser.written_of_parseTokens hparse)
  exact isScanned_of_spelled hspelled fun name t ht => Token.isName_of_scan hscan t (hkept.subset ht)

/-! ### Names of expressions -/

namespace Expr

variable {α : Type} {P : String → Prop}

mutual

/-- What holds of the names of all variables, fields and methods in an expression. -/
def AllNames (P : String → Prop) : Expr α → Prop
  | .literal .. | .this _ => True
  | .name _ n => P n
  | .field _ target n => target.AllNames P ∧ P n
  | .call _ target n args => target.AllNames P ∧ P n ∧ AllNamesOf P args
  | .thisCall _ n args => P n ∧ AllNamesOf P args
  | .index _ array place => array.AllNames P ∧ place.AllNames P
  | .newObject _ _ args => AllNamesOf P args
  | .newArray _ _ dims _ => AllNamesOf P dims
  | .unary _ _ operand => operand.AllNames P
  | .binary _ _ left right => left.AllNames P ∧ right.AllNames P
  | .instanceOf _ operand _ => operand.AllNames P
  | .cast _ _ operand => operand.AllNames P
  | .conditional _ cond thenArm elseArm => cond.AllNames P ∧ thenArm.AllNames P ∧ elseArm.AllNames P
  | .assign _ target value => target.AllNames P ∧ value.AllNames P

/-- What holds of the names in all expressions of a list. -/
def AllNamesOf (P : String → Prop) : List (Expr α) → Prop
  | [] => True
  | e :: rest => e.AllNames P ∧ AllNamesOf P rest

end

mutual

theorem allNames_bare : (e : Expr α) → e.bare.AllNames P = e.AllNames P
  | .literal .. | .name .. | .this _ => rfl
  | .field _ target n => congrArg (· ∧ P n) (allNames_bare target)
  | .call _ target n args =>
    congrArg₂ (· ∧ P n ∧ ·) (allNames_bare target) (allNamesOf_bareAll args)
  | .thisCall _ n args => congrArg (P n ∧ ·) (allNamesOf_bareAll args)
  | .index _ array place => congrArg₂ And (allNames_bare array) (allNames_bare place)
  | .newObject _ _ args => allNamesOf_bareAll args
  | .newArray _ _ dims _ => allNamesOf_bareAll dims
  | .unary _ _ operand => allNames_bare operand
  | .binary _ _ left right => congrArg₂ And (allNames_bare left) (allNames_bare right)
  | .instanceOf _ operand _ => allNames_bare operand
  | .cast _ _ operand => allNames_bare operand
  | .conditional _ cond thenArm elseArm =>
    congrArg₂ And (allNames_bare cond) (congrArg₂ And (allNames_bare thenArm) (allNames_bare elseArm))
  | .assign _ target value => congrArg₂ And (allNames_bare target) (allNames_bare value)

theorem allNamesOf_bareAll : (es : List (Expr α)) → AllNamesOf P (bareAll es) = AllNamesOf P es
  | [] => rfl
  | e :: rest => congrArg₂ And (allNames_bare e) (allNamesOf_bareAll rest)

end

variable {n : String} {es : List (Expr α)} {group : Nat → Expr α → Bool}

lemma ident_mem_listingArguments : .ident n ∈ listingArguments group es ↔ .ident n ∈ listingMore group es := by
  cases es <;> simp [listingArguments, listingMore]

lemma ident_mem_listingSizes : .ident n ∈ listingSizes group es ↔ .ident n ∈ listingMore group es := by
  induction es with
  | nil => rfl
  | cons e es ih => simp [listingSizes, listingMore, ih]

mutual

/-- The names in an expression are among its words. -/
theorem allNames_of_words : (e : Expr α) → (∀ n, .ident n ∈ e.listing (fun _ _ => false) → P n) → e.AllNames P
  | .literal .., _ | .this _, _ => trivial
  | .name _ n, h => h n (by simp [listing])
  | .field _ target n, h => by
    simp only [listing, inParens, Bool.false_eq_true, if_false, List.mem_append, or_imp, forall_and] at h
    exact ⟨allNames_of_words target h.1, h.2 n (by simp)⟩
  | .call _ target n args, h => by
    simp only [listing, inParens, Bool.false_eq_true, if_false, List.mem_append, List.mem_cons, or_imp, forall_and,
      ident_mem_listingArguments] at h
    obtain ⟨htarget, -, hn, hargs⟩ := h
    exact ⟨allNames_of_words target htarget, hn n rfl, allNamesOf_of_words args hargs⟩
  | .thisCall _ n args, h => by
    simp only [listing, List.mem_cons, or_imp, forall_and, ident_mem_listingArguments] at h
    exact ⟨h.1 n rfl, allNamesOf_of_words args h.2⟩
  | .index _ array place, h => by
    simp only [listing, inParens, Bool.false_eq_true, if_false, List.mem_append, List.mem_cons, or_imp, forall_and] at h
    exact ⟨allNames_of_words array h.1, allNames_of_words place h.2.2.1⟩
  | .newObject _ t args, h => by
    simp only [listing, List.mem_append, List.mem_cons, or_imp, forall_and, ident_mem_listingArguments] at h
    exact allNamesOf_of_words args h.2.2
  | .newArray _ t dims _, h => by
    simp only [listing, List.mem_append, List.mem_cons, or_imp, forall_and, ident_mem_listingSizes] at h
    exact allNamesOf_of_words dims h.2.2.1
  | .unary _ _ operand, h => by
    simp only [listing, inParens, Bool.false_eq_true, if_false, List.mem_cons, or_imp, forall_and] at h
    exact allNames_of_words operand h.2
  | .binary _ _ left right, h => by
    simp only [listing, inParens, Bool.false_eq_true, if_false, List.mem_append, List.mem_cons, or_imp, forall_and] at h
    exact ⟨allNames_of_words left h.1, allNames_of_words right h.2.2⟩
  | .instanceOf _ operand _, h => by
    simp only [listing, inParens, Bool.false_eq_true, if_false, List.mem_append, or_imp, forall_and] at h
    exact allNames_of_words operand h.1
  | .cast _ _ operand, h => by
    simp only [listing, inParens, Bool.false_eq_true, if_false, List.mem_append, List.mem_cons, or_imp, forall_and] at h
    exact allNames_of_words operand h.2.2.2
  | .conditional _ cond thenArm elseArm, h => by
    simp only [listing, inParens, Bool.false_eq_true, if_false, List.mem_append, List.mem_cons, or_imp, forall_and] at h
    exact ⟨allNames_of_words cond h.1, allNames_of_words thenArm h.2.2.1, allNames_of_words elseArm h.2.2.2.2⟩
  | .assign _ target value, h => by
    simp only [listing, inParens, Bool.false_eq_true, if_false, List.mem_append, List.mem_cons, or_imp, forall_and] at h
    exact ⟨allNames_of_words target h.1, allNames_of_words value h.2.2⟩

theorem allNamesOf_of_words : (es : List (Expr α)) → (∀ n, .ident n ∈ listingMore (fun _ _ => false) es → P n) →
    AllNamesOf P es
  | [], _ => trivial
  | e :: rest, h => by
    simp only [listingMore, List.mem_append, List.mem_cons, or_imp, forall_and] at h
    exact ⟨allNames_of_words e h.2.1, allNamesOf_of_words rest h.2.2⟩

end

end Expr

end PredicateTrace
