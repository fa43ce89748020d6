import PredicateTrace.Proofs.Rendering

/-!
# Phrases at other places

Moving the tokens of a phrase moves the places in its tree and changes nothing else, and a source is read to the same
tokens wherever it begins.
-/

namespace PredicateTrace

open PredicateTrace.Parser

/-- The token at another place. -/
def Token.moved (f : Position → Position) (t : Token) : Token :=
  { t with position := f t.position }

/-- The written type at another place. -/
def TypeName.moved (f : Position → Position) (t : TypeName) : TypeName :=
  { t with position := f t.position }

namespace Expr

mutual

/-- The expression with all its places replaced, those of its types as well. -/
def moved (f : Position → Position) : Expr Position → Expr Position
  | .literal p v => .literal (f p) v
  | .name p n => .name (f p) n
  | .this p => .this (f p)
  | .field p e n => .field (f p) (e.moved f) n
  | .call p e n args => .call (f p) (e.moved f) n (movedAll f args)
  | .thisCall p n args => .thisCall (f p) n (movedAll f args)
  | .index p e i => .index (f p) (e.moved f) (i.moved f)
  | .newObject p t args => .newObject (f p) (t.moved f) (movedAll f args)
  | .newArray p t dims extra => .newArray (f p) (t.moved f) (movedAll f dims) extra
  | .unary p op e => .unary (f p) op (e.moved f)
  | .binary p op l r => .binary (f p) op (l.moved f) (r.moved f)
  | .instanceOf p e t => .instanceOf (f p) (e.moved f) (t.moved f)
  | .cast p t e => .cast (f p) (t.moved f) (e.moved f)
  | .conditional p c yes no => .conditional (f p) (c.moved f) (yes.moved f) (no.moved f)
  | .assign p target value => .assign (f p) (target.moved f) (value.moved f)

def movedAll (f : Position → Position) : List (Expr Position) → List (Expr Position)
  | [] => []
  | e :: es => e.moved f :: movedAll f es

end

mutual

/-- Moving an expression changes its places only. -/
@[simp]
lemma bare_moved (f : Position → Position) : (e : Expr Position) → (e.moved f).bare = e.bare
  | .literal .. | .name .. | .this _ => rfl
  | .field _ e _ | .unary _ _ e | .cast _ _ e | .instanceOf _ e _ => by
    simp [moved, bare, bare_moved f e, TypeName.moved]
  | .call _ e _ args => by simp [moved, bare, bare_moved f e, bareAll_movedAll f args]
  | .thisCall _ _ args | .newObject _ _ args | .newArray _ _ args _ => by
    simp [moved, bare, bareAll_movedAll f args, TypeName.moved]
  | .index _ l r | .binary _ _ l r | .assign _ l r => by simp [moved, bare, bare_moved f l, bare_moved f r]
  | .conditional _ c yes no => by simp [moved, bare, bare_moved f c, bare_moved f yes, bare_moved f no]

lemma bareAll_movedAll (f : Position → Position) :
    (es : List (Expr Position)) → bareAll (movedAll f es) = bareAll es
  | [] => rfl
  | e :: es => by simp [movedAll, bareAll, bare_moved f e, bareAll_movedAll f es]

end

variable {f : Position → Position} {e : Expr Position}

lemma isAssignable_moved : (e.moved f).isAssignable = e.isAssignable := by
  rw [← isAssignable_bare, bare_moved, isAssignable_bare]

lemma isNewArray_moved : (e.moved f).isNewArray = e.isNewArray := by
  rw [← isNewArray_bare, bare_moved, isNewArray_bare]

lemma movedAll_eq_nil {es : List (Expr Position)} : movedAll f es = [] ↔ es = [] := by
  cases es <;> simp [movedAll]

end Expr

/-! ### Phrases -/

namespace Parser

variable {f : Position → Position} {w : List Token}

/-- A phrase at other places. -/
def Phrase.moved (f : Position → Position) : Phrase → Phrase
  | .expression e => .expression (e.moved f)
  | .conditional e => .conditional (e.moved f)
  | .binary level e => .binary level (e.moved f)
  | .unary e => .unary (e.moved f)
  | .unsigned e => .unsigned (e.moved f)
  | .accessed e => .accessed (e.moved f)
  | .arguments es => .arguments (Expr.movedAll f es)
  | .more es => .more (Expr.movedAll f es)
  | .sizes es extra => .sizes (Expr.movedAll f es) extra

lemma moved_castOperand (type : TypeName) (e : Expr Position) :
    (castOperand type e).moved f = castOperand (type.moved f) (e.moved f) := by
  unfold castOperand TypeName.moved
  dsimp only
  split <;> rfl

lemma literal?_moved {t : Token} {v : Literal} (h : literal? t = some (.ok v)) :
    literal? (t.moved f) = some (.ok v) := by
  rw [literal?_eq_some_ok] at h ⊢
  cases v <;> exact h

lemma smallest?_moved {t : Token} {v : Literal} (h : smallest? t = some v) : smallest? (t.moved f) = some v :=
  h

lemma operatorAt?_moved {level : Nat} {t : Token} {op : BinaryOperator} (h : operatorAt? level t = some op) :
    operatorAt? level (t.moved f) = some op :=
  h

lemma unary?_moved {t : Token} {op : UnaryOperator} (h : (symbolOf? t).bind unary? = some op) :
    (symbolOf? (t.moved f)).bind unary? = some op :=
  h

lemma Brackets.moved {n : Nat} (h : Brackets n w) : Brackets n (w.map (Token.moved f)) := by
  induction h with
  | zero => exact .zero
  | succ hl hr _ ih => exact .succ hl hr ih

lemma Dotted.moved {parts : List String} (h : Dotted parts w) : Dotted parts (w.map (Token.moved f)) := by
  induction h with
  | nil => exact .nil
  | cons hdot hname _ ih => exact .cons hdot hname ih

lemma BaseWritten.moved {type : TypeName} (h : BaseWritten type w) :
    BaseWritten (type.moved f) (w.map (Token.moved f)) := by
  cases h with
  | @primitive t p ht hp => exact @BaseWritten.primitive (t.moved f) p ht hp
  | @named t name parts w ht hw => exact @BaseWritten.named (t.moved f) name parts _ ht hw.moved

lemma TypeWritten.moved {type : TypeName} (h : TypeWritten type w) :
    TypeWritten (type.moved f) (w.map (Token.moved f)) := by
  cases h with
  | @mk base n u v hbase hdims =>
    rw [List.map_append]
    exact @TypeWritten.mk (base.moved f) n _ _ hbase.moved hdims.moved

lemma lexeme_moved {t : Token} {l : Lexeme} (h : t.lexeme = l) : (t.moved f).lexeme = l :=
  h

/-- Moved tokens write the moved phrase. -/
theorem Written.moved {p : Phrase} (h : Written p w) : Written (p.moved f) (w.map (Token.moved f)) := by
  induction h with
  | ofConditional _ ih => exact .ofConditional ih
  | ofBinary _ ih => exact .ofBinary ih
  | ofUnary _ ih => exact .ofUnary ih
  | tighter hlevel _ ih => exact .tighter hlevel ih
  | ofUnsigned _ ih => exact .ofUnsigned ih
  | ofAccessed _ ih => exact .ofAccessed ih
  | assign _ hassign ht _ ih ih' =>
    rw [List.map_append, List.map_cons]
    exact .assign ih (Expr.isAssignable_moved.trans hassign) (lexeme_moved ht) ih'
  | conditional _ hq _ hcolon _ ih ih' ih'' =>
    rw [List.map_append, List.map_cons, List.map_append, List.map_cons]
    exact .conditional ih (lexeme_moved hq) ih' (lexeme_moved hcolon) ih''
  | binary hlevel _ ht _ ih ih' =>
    rw [List.map_append, List.map_cons]
    exact .binary hlevel ih (operatorAt?_moved ht) ih'
  | instanceOf _ ht htype ih =>
    rw [List.map_append, List.map_cons]
    exact .instanceOf ih (lexeme_moved ht) htype.moved
  | smallest ht hnext => exact .smallest (lexeme_moved ht) (smallest?_moved hnext)
  | minus ht _ ih => exact .minus (lexeme_moved ht) ih
  | plus ht _ ih => exact .plus (lexeme_moved ht) ih
  | unary ht _ ih => exact .unary (unary?_moved ht) ih
  | cast hl htype hr _ ih =>
    rw [List.map_cons, List.map_append, List.map_cons]
    exact .cast (lexeme_moved hl) htype.moved (lexeme_moved hr) (moved_castOperand _ _ ▸ ih)
  | literal ht => exact .literal (literal?_moved ht)
  | this ht => exact .this (lexeme_moved ht)
  | name ht => exact .name (lexeme_moved ht)
  | thisCall ht _ ih => exact .thisCall (lexeme_moved ht) ih
  | group hl _ hr ih =>
    rw [List.map_cons, List.map_append]
    exact .group (lexeme_moved hl) ih (lexeme_moved hr)
  | newObject ht htype hnamed _ ih =>
    rw [List.map_cons, List.map_append]
    exact .newObject (lexeme_moved ht) htype.moved hnamed ih
  | newArray ht htype _ hne ih =>
    rw [List.map_cons, List.map_append]
    exact .newArray (lexeme_moved ht) htype.moved ih (by simpa [Expr.movedAll_eq_nil] using hne)
  | field _ hdot ht ih =>
    rw [List.map_append]
    exact .field ih (lexeme_moved hdot) (lexeme_moved ht)
  | call _ hdot ht _ ih ih' =>
    rw [List.map_append, List.map_cons, List.map_cons]
    exact .call ih (lexeme_moved hdot) (lexeme_moved ht) ih'
  | index _ harray hl _ hr ih ih' =>
    rw [List.map_append, List.map_cons, List.map_append]
    exact .index ih (Expr.isNewArray_moved.trans harray) (lexeme_moved hl) ih' (lexeme_moved hr)
  | noArguments hl hr => exact .noArguments (lexeme_moved hl) (lexeme_moved hr)
  | arguments hl _ _ hr ih ih' =>
    rw [List.map_cons, List.map_append, List.map_append]
    exact .arguments (lexeme_moved hl) ih ih' (lexeme_moved hr)
  | noMore => exact .noMore
  | more hcomma _ _ ih ih' =>
    rw [List.map_cons, List.map_append]
    exact .more (lexeme_moved hcomma) ih ih'
  | noSizes h => exact .noSizes h.moved
  | size hl _ hr _ ih ih' =>
    rw [List.map_cons, List.map_append, List.map_cons]
    exact .size (lexeme_moved hl) ih (lexeme_moved hr) ih'

end Parser

/-! ### Sources -/

namespace Position

/-- Where a place of a text is if the text begins at an origin. -/
def rebase (origin p : Position) : Position :=
  if p.line = 1 then ⟨origin.line, origin.column + (p.column - 1)⟩ else ⟨origin.line + (p.line - 1), p.column⟩

/-- Lines and columns are counted from one. -/
def IsCounted (p : Position) : Prop :=
  1 ≤ p.line ∧ 1 ≤ p.column

lemma isCounted_start : start.IsCounted :=
  ⟨Nat.le_refl 1, Nat.le_refl 1⟩

lemma IsCounted.advance {p : Position} (h : p.IsCounted) (c : Char) : (p.advance c).IsCounted := by
  unfold Position.advance
  split
  · exact ⟨Nat.le_add_left 1 _, Nat.le_refl 1⟩
  · exact ⟨h.1, Nat.le_add_left 1 _⟩

lemma line_rebase (origin p : Position) : (rebase origin p).line = origin.line + (p.line - 1) := by
  unfold rebase
  split
  · next hfirst => rw [hfirst, Nat.sub_self, Nat.add_zero]
  · rfl

lemma rebase_advance {p : Position} (h : p.IsCounted) (origin : Position) (c : Char) :
    rebase origin (p.advance c) = (rebase origin p).advance c := by
  obtain ⟨hline, hcolumn⟩ := h
  by_cases hc : c = '\n'
  · have hnext : p.line + 1 ≠ 1 := by omega
    rw [Position.advance, if_pos hc, Position.advance, if_pos hc, line_rebase, rebase, if_neg hnext]
    congr 1
    dsimp only
    omega
  · rw [Position.advance, if_neg hc, Position.advance, if_neg hc, rebase, rebase]
    split
    · congr 1
      dsimp only
      omega
    · rfl

end Position

/-- A text that begins at an origin has the tokens that it has alone, at other places. -/
lemma Token.scan_rebase {codes : List Nat} {skip : Nat} {position : Position} {ts : Tokens}
    (hposition : position.IsCounted) (h : Token.scan position skip codes = .ok ts) (origin : Position) :
    Token.scan (origin.rebase position) skip codes =
      .ok ⟨ts.tokens.map (Token.moved origin.rebase), origin.rebase ts.finish⟩ := by
  induction codes generalizing position skip ts with
  | nil =>
    rw [Token.scan] at h ⊢
    obtain rfl := (Except.ok.inj h).symm
    rfl
  | cons code rest ih =>
    have hnext (skip : Nat) {ts : Tokens} (h : Token.scan (position.advance (Text.shown code)) skip rest = .ok ts) :
        Token.scan ((origin.rebase position).advance (Text.shown code)) skip rest =
          .ok ⟨ts.tokens.map (Token.moved origin.rebase), origin.rebase ts.finish⟩ := by
      rw [← Position.rebase_advance hposition]
      exact ih (hposition.advance _) h
    cases skip with
    | succ skip => exact hnext skip h
    | zero =>
      rw [Token.scan] at h ⊢
      cases hpiece : Token.readPiece code rest with
      | skipped length =>
        rw [hpiece] at h
        exact hnext _ h
      | token lexeme length =>
        rw [hpiece] at h
        obtain ⟨following, hfollowing, h⟩ := bind_eq_ok.mp h
        obtain rfl := (Except.ok.inj h).symm
        dsimp only
        rw [hnext _ hfollowing]
        rfl
      | mistake m =>
        rw [hpiece] at h
        cases m <;> cases h

end PredicateTrace
