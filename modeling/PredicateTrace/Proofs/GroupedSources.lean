import Mathlib
import PredicateTrace.Proofs.MovedPhrases
import PredicateTrace.Proofs.SourceEnds
import PredicateTrace.Proofs.SourceWords

/-!
# Sources in parentheses

A source in parentheses is a primary expression: accesses and calls behind it apply to the whole of it. In an index
or an argument a source stands without parentheses of its own. Sources are given by their codes.
-/

namespace PredicateTrace

open PredicateTrace.Parser (Phrase Written)
open Text (codes)
open Token (Closes IsName Only Reads)

variable {source index text text' : List Nat} {e i : Expr Position} {b b' : Expr Unit} {name : String}
  {follows : List Char → Prop}

/-- A source that more can stand behind: a comment at its end is closed by a line feed. -/
def Text.closed (source : List Nat) : List Nat :=
  if Token.endsInComment 0 source then source ++ codes "\n" else source

/-- A source in parentheses. -/
def Text.grouped (source : List Nat) : List Nat :=
  codes "(" ++ (closed source ++ codes ")")

open Text (closed grouped)

namespace Token

lemma reads_lineFeed : Reads (fun _ => True) (codes "\n") (· = []) :=
  reads_skipped fun _ => rfl

lemma reads_openingBracket : Reads (fun _ => True) (codes "[") (Only (.symbol .leftBracket) "[") :=
  reads_plain rfl (by decide) fun _ _ => rfl

lemma reads_closingBracket : Reads (fun _ => True) (codes "]") (Only (.symbol .rightBracket) "]") :=
  reads_plain rfl (by decide) fun _ _ => rfl

lemma reads_dot : Reads (fun rest => rest.head?.any Text.isDigit = false) (codes ".") (Only (.symbol .dot) ".") := by
  have htext : ".".toList = ['.'] := rfl
  refine reads_plain htext (by decide) fun rest hrest => ?_
  have hread : readPlain '.' rest = if rest.head?.any Text.isDigit then .ofResult (readNumber ('.' :: rest))
      else .token (.symbol .dot) 1 := rfl
  rw [List.nil_append, hread, hrest]
  rfl

lemma reads_name (h : IsName name) : Reads EndsWord (codes name) (Only (.ident name) name) := by
  obtain ⟨⟨c, cs, hname, hdigit, hstart, hcs⟩, hkeyword⟩ := h
  have hword : wordLexeme name = .ident name := by rw [wordLexeme, hkeyword]
  rw [← hword]
  exact reads_word hname hdigit hstart hcs

lemma head?_any_isDigit (h : IsName name) (rest : List Char) :
    (((codes name).map Text.shown ++ rest).head?.any Text.isDigit) = false := by
  obtain ⟨⟨c, cs, hname, hdigit, -⟩, -⟩ := h
  rw [Text.map_shown_codes, hname]
  exact hdigit

lemma closes_cons {c : Char} (hc : c ∈ closing) (rest : List Char) : Closes (c :: rest) :=
  fun _ hd => Option.some.inj hd ▸ hc

/-- What is read before a closing bracket is read between brackets. -/
lemma reads_enclosed {o c : Symbol} {P : List Token → Prop}
    (hopening : Reads (fun _ => True) (codes o.text) (Only (.symbol o) o.text))
    (hclosing : Reads (fun _ => True) (codes c.text) (Only (.symbol c) c.text))
    (hcloses : ∀ rest, Closes ((codes c.text).map Text.shown ++ rest)) (h : Reads Closes text P) :
    Reads (fun _ => True) (codes o.text ++ (text ++ codes c.text)) fun w =>
      ∃ l u r, w = l :: (u ++ [r]) ∧ l.lexeme = .symbol o ∧ P u ∧ r.lexeme = .symbol c := by
  have hinside := h.append hclosing fun rest _ => hcloses rest
  refine (hopening.append hinside fun _ _ => trivial).imp fun w hw => ?_
  obtain ⟨_, _, rfl, ⟨l, rfl, hl, -⟩, u, _, rfl, hu, r, rfl, hr, -⟩ := hw
  exact ⟨l, u, r, rfl, hl, hu, hr⟩

lemma reads_inParens {P : List Token → Prop} (h : Reads Closes text P) :
    Reads (fun _ => True) (codes "(" ++ (text ++ codes ")")) fun w =>
      ∃ l u r, w = l :: (u ++ [r]) ∧ l.lexeme = .symbol .leftParen ∧ P u ∧ r.lexeme = .symbol .rightParen :=
  reads_enclosed (o := .leftParen) (c := .rightParen) reads_opening reads_closing
    (fun rest => closes_cons (by decide) rest) h

lemma reads_inBrackets {P : List Token → Prop} (h : Reads Closes text P) :
    Reads (fun _ => True) (codes "[" ++ (text ++ codes "]")) fun w =>
      ∃ l u r, w = l :: (u ++ [r]) ∧ l.lexeme = .symbol .leftBracket ∧ P u ∧ r.lexeme = .symbol .rightBracket :=
  reads_enclosed (o := .leftBracket) (c := .rightBracket) reads_openingBracket reads_closingBracket
    (fun rest => closes_cons (by decide) rest) h

/-- A source is read to its tokens wherever it begins, and whatever may stand behind it. -/
lemma reads_source {found : Tokens} (h : tokenize source = .ok found) :
    Reads (fun rest => Closes rest ∧ (endsInComment 0 source = true → ∀ d ∈ rest.head?, d = '\n')) source
      (fun w => ∃ f, w = found.tokens.map (Token.moved f)) := by
  intro position
  refine ⟨_, ⟨position.rebase, rfl⟩, fun rest hrest => ?_⟩
  exact scan_append (scan_rebase Position.isCounted_start h position) hrest.1 hrest.2

lemma reads_closed {found : Tokens} (h : tokenize source = .ok found) :
    Reads Closes (closed source) (fun w => ∃ f, w = found.tokens.map (Token.moved f)) := by
  unfold closed
  split
  · have hline := (reads_source h).append reads_lineFeed fun rest _ =>
      ⟨closes_cons (by decide) rest, fun _ c hc => (Option.some.inj hc).symm⟩
    refine hline.mono (fun w hw => ?_) fun _ _ => trivial
    obtain ⟨u, _, rfl, hu, rfl⟩ := hw
    rwa [List.append_nil]
  · next hends => exact (reads_source h).mono (fun _ hw => hw) fun rest hrest => ⟨hrest, fun h => absurd h hends⟩

end Token

/-- Tokens write a phrase of an expression that is a given one but for its places. -/
def Writes (phrase : Expr Position → Phrase) (b : Expr Unit) (w : List Token) : Prop :=
  ∃ e, Written (phrase e) w ∧ e.bare = b

lemma reads_expression (h : Parser.parse source = .ok e) :
    Reads Closes (closed source) (Writes .expression e.bare) := by
  obtain ⟨found, htokens, hparse⟩ := bind_eq_ok.mp h
  refine (Token.reads_closed htokens).imp fun w hw => ?_
  obtain ⟨f, rfl⟩ := hw
  exact ⟨e.moved f, (Parser.written_of_parseTokens hparse).moved, Expr.bare_moved f e⟩

lemma reads_grouped (h : Parser.parse source = .ok e) :
    Reads (fun _ => True) (grouped source) (Writes .accessed e.bare) := by
  refine (Token.reads_inParens (reads_expression h)).imp fun w hw => ?_
  obtain ⟨l, u, r, rfl, hl, ⟨e', he', hbare⟩, hr⟩ := hw
  exact ⟨e', .group hl he' hr, hbare⟩

lemma reads_index (h : Reads (fun _ => True) text (Writes .accessed b)) (harray : b.isNewArray = false)
    (hindex : Reads Closes text' (Writes .expression b')) :
    Reads (fun _ => True) (text ++ (codes "[" ++ (text' ++ codes "]"))) (Writes .accessed (.index () b b')) := by
  refine (h.append (Token.reads_inBrackets hindex) fun _ _ => trivial).imp fun w hw => ?_
  obtain ⟨u, _, rfl, ⟨e, he, hbare⟩, l, v, r, rfl, hl, ⟨i, hi, hbare'⟩, hr⟩ := hw
  have harray' : e.isNewArray = false := by rw [← Expr.isNewArray_bare, hbare, harray]
  exact ⟨.index l.position e i, .index he harray' hl hi hr, by simp [Expr.bare, hbare, hbare']⟩

/-- A point and a name. -/
lemma reads_member (h : IsName name) :
    Reads Token.EndsWord (codes "." ++ codes name) fun w =>
      ∃ dot t, w = [dot, t] ∧ dot.lexeme = .symbol .dot ∧ t.lexeme = .ident name := by
  have hread := Token.reads_dot.append (Token.reads_name h) fun rest _ => Token.head?_any_isDigit h rest
  refine hread.imp fun w hw => ?_
  obtain ⟨_, _, rfl, ⟨dot, rfl, hdot, -⟩, t, rfl, ht, -⟩ := hw
  exact ⟨dot, t, rfl, hdot, ht⟩

lemma reads_field (h : Reads (fun _ => True) text (Writes .accessed b)) (hname : IsName name) :
    Reads Token.EndsWord (text ++ (codes "." ++ codes name)) (Writes .accessed (.field () b name)) := by
  have hread := h.append (reads_member hname) fun _ _ => trivial
  refine hread.imp fun w hw => ?_
  obtain ⟨u, _, rfl, ⟨e, he, hbare⟩, dot, t, rfl, hdot, ht⟩ := hw
  exact ⟨.field dot.position e name, .field he hdot ht, by simp [Expr.bare, hbare]⟩

lemma reads_argument (h : Reads Closes text (Writes .expression b)) :
    Reads (fun _ => True) (codes "(" ++ (text ++ codes ")")) fun w =>
      ∃ args, Written (.arguments args) w ∧ Expr.bareAll args = [b] := by
  refine (Token.reads_inParens h).imp fun w hw => ?_
  obtain ⟨l, u, r, rfl, hl, ⟨e, he, hbare⟩, hr⟩ := hw
  have harguments := Written.arguments hl he .noMore hr
  rw [List.nil_append] at harguments
  exact ⟨[e], harguments, by simp [Expr.bareAll, hbare]⟩

lemma reads_call (h : Reads (fun _ => True) text (Writes .accessed b)) (hname : IsName name)
    (hargument : Reads Closes text' (Writes .expression b')) :
    Reads (fun _ => True) (text ++ (codes "." ++ codes name ++ (codes "(" ++ (text' ++ codes ")"))))
      (Writes .accessed (.call () b name [b'])) := by
  have hcall := (reads_member hname).append (reads_argument hargument) fun rest _ c hc => by
    obtain rfl := Option.some.inj hc
    decide
  have hread := h.append hcall fun _ _ => trivial
  refine hread.imp fun w hw => ?_
  obtain ⟨u, _, rfl, ⟨e, he, hbare⟩, _, v, rfl, ⟨dot, t, rfl, hdot, ht⟩, args, hargs, hbares⟩ := hw
  exact ⟨.call t.position e name args, .call he hdot ht hargs, by simp [Expr.bare, hbare, hbares]⟩

lemma parse_of_reads (h : Reads follows text (Writes .accessed b)) (hend : follows []) :
    ∃ r, Parser.parse text = .ok r ∧ r.bare = b := by
  obtain ⟨w, finish, ⟨e, he, hbare⟩, htokens⟩ := h.tokenize hend
  have hexpression : Written (phraseAt 0 e) w := written_mono (n := 14) he (Nat.zero_le _) (Nat.le_refl 14)
  exact ⟨e, bind_eq_ok.mpr ⟨_, htokens, Parser.parseTokens_eq_ok.mpr hexpression⟩, hbare⟩

/-- A source in parentheses can be accessed and called on whatever it is, and indexed unless it creates an array. -/
theorem grouped_is_primary (hsource : Parser.parse source = .ok e) (hindex : Parser.parse index = .ok i)
    (hname : IsName name) :
    (e.isNewArray = false → ∃ r,
      Parser.parse (grouped source ++ codes "[" ++ closed index ++ codes "]") = .ok r ∧
        r.bare = .index () e.bare i.bare) ∧
    (∃ r, Parser.parse (grouped source ++ codes "." ++ codes name) = .ok r ∧ r.bare = .field () e.bare name) ∧
    ∃ r, Parser.parse (grouped source ++ codes "." ++ codes name ++ codes "(" ++ closed index ++ codes ")") = .ok r ∧
      r.bare = .call () e.bare name [i.bare] := by
  have hgrouped := reads_grouped hsource
  have hinside := reads_expression hindex
  refine ⟨fun harray => ?_, ?_, ?_⟩
  · have harray' : e.bare.isNewArray = false := by rw [Expr.isNewArray_bare, harray]
    have hread := parse_of_reads (reads_index hgrouped harray' hinside) trivial
    simpa only [List.append_assoc] using hread
  · have hread := parse_of_reads (reads_field hgrouped hname) fun c hc => by cases hc
    simpa only [List.append_assoc] using hread
  · have hread := parse_of_reads (reads_call hgrouped hname hinside) trivial
    simpa only [List.append_assoc] using hread

/-- A comment stands behind a cast, and an assignment is the index and the argument. -/
theorem grouped_is_primary_of_cast :
    let source := codes "(T) a // as T"
    let index := codes "b = 0"
    let e : Expr Position := .cast ⟨1, 1⟩ ⟨.named ["T"], 0, ⟨1, 2⟩⟩ (.name ⟨1, 5⟩ "a")
    let i : Expr Position := .assign ⟨1, 3⟩ (.name ⟨1, 1⟩ "b") (.literal ⟨1, 5⟩ (.int 0))
    (Parser.parse source = .ok e ∧ Parser.parse index = .ok i ∧ IsName "f" ∧ e.isNewArray = false) ∧
      (closed source = source ++ codes "\n" ∧ closed index = index) ∧
      (∃ r, Parser.parse (grouped source ++ codes "[" ++ closed index ++ codes "]") = .ok r ∧
        r.bare = .index () e.bare i.bare) ∧
      (∃ r, Parser.parse (grouped source ++ codes "." ++ codes "f") = .ok r ∧ r.bare = .field () e.bare "f") ∧
      ∃ r, Parser.parse (grouped source ++ codes "." ++ codes "f" ++ codes "(" ++ closed index ++ codes ")") = .ok r ∧
        r.bare = .call () e.bare "f" [i.bare] := by
  intro source index e i
  have htokens : Token.tokenize source = .ok ⟨[⟨.symbol .leftParen, ⟨1, 1⟩, "("⟩, ⟨.ident "T", ⟨1, 2⟩, "T"⟩,
    ⟨.symbol .rightParen, ⟨1, 3⟩, ")"⟩, ⟨.ident "a", ⟨1, 5⟩, "a"⟩], ⟨1, 14⟩⟩ := rfl
  have htokens' : Token.tokenize index = .ok ⟨[⟨.ident "b", ⟨1, 1⟩, "b"⟩, ⟨.symbol .assign, ⟨1, 3⟩, "="⟩,
    ⟨.int 0, ⟨1, 5⟩, "0"⟩], ⟨1, 6⟩⟩ := rfl
  have hsource : Parser.parse source = .ok e := by
    rw [Parser.parse, htokens]
    cbv
  have hindex : Parser.parse index = .ok i := by
    rw [Parser.parse, htokens']
    cbv
  have hname : IsName "f" := ⟨⟨'f', [], rfl, rfl, rfl, by simp⟩, rfl⟩
  obtain ⟨helement, hfield, hcall⟩ := grouped_is_primary hsource hindex hname
  exact ⟨⟨hsource, hindex, hname, rfl⟩, ⟨rfl, rfl⟩, helement rfl, hfield, hcall⟩

/-- As it stands, a comment at the end of a source takes the closing parenthesis in. No index applies to the creation
of an array in parentheses. -/
theorem comment_and_creation_not_indexed :
    (Parser.parse (codes "a//") = .ok (.name ⟨1, 1⟩ "a") ∧
      Parser.parse (codes "0") = .ok (.literal ⟨1, 1⟩ (.int 0)) ∧
      Parser.parse (codes "(" ++ codes "a//" ++ codes ")" ++ codes "[" ++ codes "0" ++ codes "]") =
        .error (.at ⟨1, 9⟩ (.expected (.symbol .rightParen) none))) ∧
    Parser.parse (codes "new int[1]") =
      .ok (.newArray ⟨1, 1⟩ ⟨.primitive .int, 0, ⟨1, 5⟩⟩ [.literal ⟨1, 9⟩ (.int 1)] 0) ∧
    Parser.parse (codes "(" ++ codes "new int[1]" ++ codes ")" ++ codes "[" ++ codes "0" ++ codes "]") =
      .error (.at ⟨1, 13⟩ (.leftOver ⟨.symbol .leftBracket, ⟨1, 13⟩, "["⟩)) := by
  have hname : Token.tokenize (codes "a//") = .ok ⟨[⟨.ident "a", ⟨1, 1⟩, "a"⟩], ⟨1, 4⟩⟩ := rfl
  have hzero : Token.tokenize (codes "0") = .ok ⟨[⟨.int 0, ⟨1, 1⟩, "0"⟩], ⟨1, 2⟩⟩ := rfl
  have hcomment : Token.tokenize (codes "(" ++ codes "a//" ++ codes ")" ++ codes "[" ++ codes "0" ++ codes "]") =
    .ok ⟨[⟨.symbol .leftParen, ⟨1, 1⟩, "("⟩, ⟨.ident "a", ⟨1, 2⟩, "a"⟩], ⟨1, 9⟩⟩ := rfl
  have harray : Token.tokenize (codes "new int[1]") = .ok ⟨[⟨.keyword .new, ⟨1, 1⟩, "new"⟩,
    ⟨.keyword (.primitive .int), ⟨1, 5⟩, "int"⟩, ⟨.symbol .leftBracket, ⟨1, 8⟩, "["⟩, ⟨.int 1, ⟨1, 9⟩, "1"⟩,
    ⟨.symbol .rightBracket, ⟨1, 10⟩, "]"⟩], ⟨1, 11⟩⟩ := rfl
  have hindexed : Token.tokenize
      (codes "(" ++ codes "new int[1]" ++ codes ")" ++ codes "[" ++ codes "0" ++ codes "]") =
    .ok ⟨[⟨.symbol .leftParen, ⟨1, 1⟩, "("⟩, ⟨.keyword .new, ⟨1, 2⟩, "new"⟩,
      ⟨.keyword (.primitive .int), ⟨1, 6⟩, "int"⟩, ⟨.symbol .leftBracket, ⟨1, 9⟩, "["⟩, ⟨.int 1, ⟨1, 10⟩, "1"⟩,
      ⟨.symbol .rightBracket, ⟨1, 11⟩, "]"⟩, ⟨.symbol .rightParen, ⟨1, 12⟩, ")"⟩,
      ⟨.symbol .leftBracket, ⟨1, 13⟩, "["⟩, ⟨.int 0, ⟨1, 14⟩, "0"⟩, ⟨.symbol .rightBracket, ⟨1, 15⟩, "]"⟩],
      ⟨1, 16⟩⟩ := rfl
  refine ⟨⟨?_, ?_, ?_⟩, ?_, ?_⟩
  · rw [Parser.parse, hname]
    cbv
  · rw [Parser.parse, hzero]
    cbv
  · rw [Parser.parse, hcomment]
    cbv
  · rw [Parser.parse, harray]
    cbv
  · rw [Parser.parse, hindexed]
    cbv

end PredicateTrace
