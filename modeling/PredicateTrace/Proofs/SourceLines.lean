import PredicateTrace.Proofs.ShownLines
import PredicateTrace.Proofs.SourceTexts

/-!
# Source texts on one line

The source text of what an accepted predicate is lowered to is on one line, and so is its listing, unless an op in it
names a type that is not on one.
-/

namespace PredicateTrace

open Text (OneLine codes oneLine_cons oneLine_append oneLine_codes_append oneLine_intercalate_texts)

/-- The types that an op is written or listed with. -/
def Head.shownTypes : Head → List TypeRef
  | .fieldLoad field => [field.owner]
  | .invoke method _ => method.owner :: method.result :: method.params
  | .new t | .conv t | .cast t | .instanceOf t => [t]
  | _ => []

/-- A name is on one line. -/
def Text.IsLine (name : String) : Prop :=
  OneLine (codes name)

open Text (IsLine)

variable {f : Formatter} {showObject : Nat → String} {head : Head} {x : Operand}

/-! ### Constants -/

lemma isData_literalValue (v : Literal) : (Lowering.literalValue v).isData = true := by
  cases v <;> rfl

lemma unescaped_literalValue (v : Literal) : (Lowering.literalValue v).unescaped false = [] := by
  cases v <;> rfl

/-- A constant of a literal is written on one line. -/
lemma oneLine_formatCodes (v : Literal) : OneLine (f.formatCodes (Lowering.literalValue v)) := by
  have hformat : OneLine (codes (f.format (Lowering.literalValue v))) := by
    refine (Formatter.formatAt_of_isData (isData_literalValue v)).2 ?_
    rw [unescaped_literalValue]
    exact List.not_mem_nil
  cases v with
  | char code => exact Text.oneLine_quotedLiteral (by decide) _ _
  | units codes => exact Text.oneLine_quotedLiteral (by decide) _ _
  | _ => exact hformat

lemma oneLine_literal (v : Literal) : OneLine (codes ((Lowering.literalValue v).literal showObject)) := by
  cases v with
  | int n | long n => exact oneLine_codes_append.mpr ⟨oneLine_codes_append.mpr ⟨by decide, Number.oneLine_int n⟩, by decide⟩
  | float x | double x =>
    exact oneLine_codes_append.mpr ⟨oneLine_codes_append.mpr ⟨by decide, Number.oneLine_hostDouble x⟩, by decide⟩
  | char code =>
    exact oneLine_codes_append.mpr ⟨oneLine_codes_append.mpr ⟨by decide, Text.oneLine_quoteCodes [code]⟩, by decide⟩
  | string text => exact Text.oneLine_quote text
  | units codes => exact Text.oneLine_quoteCodes codes
  | boolean b =>
    change OneLine (codes (if b then "True" else "False"))
    cases b <;> decide
  | null =>
    change OneLine (codes "None")
    decide

/-! ### Ops -/

lemma Operator.oneLine_name {op : Operator} (h : op.isKnown = true) : OneLine (codes op.name) := by
  rcases op with op | op | op | name
  · cases op <;> decide
  · cases op <;> decide
  · cases op <;> decide
  · cases h

lemma Operator.oneLine_symbol {op : Operator} (h : op.isKnown = true) {symbol : String} (hs : op.symbol? = some symbol) :
    OneLine (codes symbol) := by
  obtain rfl : op.symbol?.getD "" = symbol := by rw [hs, Option.getD_some]
  rcases op with op | op | op | name
  · cases op <;> decide
  · cases op <;> decide
  · cases op <;> decide
  · cases h

lemma Head.Emitted.oneLine_kind (h : head.Emitted IsLine) : OneLine (codes head.kind) := by
  cases head with
  | binary op | compare op => exact Operator.oneLine_name h
  | ret | yield | lambda | this | bare => exact h.elim
  | _ =>
    rw [kind]
    decide

lemma oneLine_methodText {method : MethodRef} (hname : IsLine method.name)
    (htypes : ∀ t ∈ (Head.invoke method true).shownTypes, OneLine (codes t.text)) : OneLine (codes method.text) := by
  obtain ⟨howner, hresult, hparams⟩ : OneLine (codes method.owner.text) ∧ OneLine (codes method.result.text) ∧
      ∀ t ∈ method.params, OneLine (codes t.text) := by
    simpa [Head.shownTypes] using htypes
  have hlisted : OneLine (codes (String.intercalate ", " (method.params.map TypeRef.text))) :=
    (oneLine_intercalate_texts (by decide)).mpr (by simpa using hparams)
  simp only [MethodRef.text, oneLine_codes_append]
  exact ⟨⟨⟨⟨⟨⟨howner, by decide⟩, hname⟩, by decide⟩, hlisted⟩, by decide⟩, hresult⟩

/-- What a listing says of an op itself is on one line. -/
lemma Head.Emitted.oneLine_attributes (h : head.Emitted IsLine) (htypes : ∀ t ∈ head.shownTypes, OneLine (codes t.text)) :
    ∀ text ∈ head.attributes showObject, OneLine (codes text) := by
  cases head with
  | const v =>
    obtain ⟨l, rfl⟩ := h
    simpa [attributes] using oneLine_literal l
  | varLoad var | varStore var =>
    have hname : OneLine (codes var.name) := h
    simpa [attributes] using hname
  | fieldLoad field =>
    have howner : OneLine (codes field.owner.text) := by simpa [shownTypes] using htypes
    have htext : OneLine (codes field.text) :=
      oneLine_codes_append.mpr ⟨oneLine_codes_append.mpr ⟨howner, by decide⟩, h⟩
    simpa [attributes] using htext
  | invoke method => simpa [attributes] using oneLine_methodText h htypes
  | new | cast | instanceOf => simpa [attributes, shownTypes] using htypes
  | _ => simp [attributes]

lemma Fragment.oneLine_under {fragment : Fragment} (h : OneLine fragment.text) (outer : Precedence) :
    OneLine (fragment.under outer) := by
  unfold under
  split
  · split
    · exact h
    · rw [oneLine_append, oneLine_append]
      exact ⟨⟨by decide, h⟩, by decide⟩
  · exact h

lemma oneLine_arrayCreation {t : TypeRef} {sizes : List Fragment} (ht : OneLine (codes t.text))
    (hsizes : ∀ size ∈ sizes, OneLine size.text) : OneLine (arrayCreation t sizes) := by
  have hcomponent : OneLine (codes t.deepComponent.shortName) :=
    TypeRef.oneLine_shortName (TypeRef.oneLine_deepComponent ht)
  have hgiven : OneLine (sizes.flatMap fun size => codes "[" ++ size.loose ++ codes "]") := by
    refine Text.oneLine_flatMap fun size hsize => ?_
    have hsize : OneLine size.loose := Fragment.oneLine_under (hsizes size hsize) _
    simp +decide [hsize]
  have hrest : OneLine (codes (String.join (List.replicate (t.dimensions - sizes.length) "[]"))) := by
    refine Text.oneLine_join fun text htext => ?_
    rw [List.eq_of_mem_replicate htext]
    decide
  rw [arrayCreation, oneLine_append, oneLine_append, oneLine_codes_append]
  exact ⟨⟨⟨by decide, hcomponent⟩, hgiven⟩, hrest⟩

/-- Arguments in parentheses. -/
lemma Fragment.oneLine_listed {separator : String} (hseparator : OneLine (codes separator)) {args : List Fragment}
    (h : ∀ fragment ∈ args, OneLine fragment.text) :
    OneLine (codes "(" ++ (codes separator).intercalate (args.map Fragment.loose) ++ codes ")") := by
  rw [oneLine_append, oneLine_append, Text.oneLine_intercalate hseparator, List.forall_mem_map]
  exact ⟨⟨by decide, fun fragment hmem => oneLine_under (h fragment hmem) _⟩, by decide⟩

/-- Parts joined by a symbol. -/
lemma Fragment.oneLine_chain {symbol : String} (hsymbol : OneLine (codes symbol)) (outer : Precedence)
    {parts : List Fragment} (h : ∀ fragment ∈ parts, OneLine fragment.text) :
    OneLine ((codes (" " ++ symbol ++ " ")).intercalate (parts.map (Fragment.under outer))) := by
  rw [Text.oneLine_intercalate (by simp +decide [hsymbol]), List.forall_mem_map]
  exact fun fragment hmem => oneLine_under (h fragment hmem) _

/-- An operation between its operands. -/
lemma Operator.oneLine_source {op : Operator} (h : op.isKnown = true) {left right text : List Nat} (hleft : OneLine left)
    (hright : OneLine right)
    (hs : (op.symbol?.map fun symbol => left ++ codes (" " ++ symbol ++ " ") ++ right) = some text) : OneLine text := by
  obtain ⟨symbol, hsymbol, rfl⟩ := Option.map_eq_some_iff.mp hs
  simp +decide [hleft, hright, Operator.oneLine_symbol h hsymbol]

/-- An op is written on one line if its operands and bodies are. -/
lemma Head.Emitted.oneLine_source (h : head.Emitted IsLine) (htypes : ∀ t ∈ head.shownTypes, OneLine (codes t.text))
    {operands bodies : List Fragment} (hoperands : ∀ fragment ∈ operands, OneLine fragment.text)
    (hbodies : ∀ fragment ∈ bodies, OneLine fragment.text) {text : List Nat}
    (hs : head.source? f operands bodies = some text) : OneLine text := by
  unfold Head.source? at hs
  extract_lets under listed at hs
  have hunder : ∀ fragment ∈ operands, OneLine (under fragment) := fun fragment hmem =>
    Fragment.oneLine_under (hoperands fragment hmem) _
  have hunder' : ∀ fragment ∈ bodies, OneLine (under fragment) := fun fragment hmem =>
    Fragment.oneLine_under (hbodies fragment hmem) _
  have hshort : ∀ t ∈ head.shownTypes, OneLine (codes t.shortName) := fun t ht =>
    TypeRef.oneLine_shortName (htypes t ht)
  split at hs
  · -- a constant
    obtain ⟨l, rfl⟩ := h
    obtain rfl := Option.some.inj hs
    exact oneLine_formatCodes l
  · -- a variable
    obtain rfl := Option.some.inj hs
    exact h
  · exact h.elim
  · -- a field of an object
    next receiver =>
    have hname : OneLine (codes _) := h
    have hreceiver := hunder receiver (by simp)
    obtain rfl := Option.some.inj hs
    simp +decide [hname, hreceiver]
  · -- a static field
    have hname : OneLine (codes _) := h
    have howner := hshort _ List.mem_cons_self
    obtain rfl := Option.some.inj hs
    simp +decide [hname, howner]
  · -- a call on an object
    next receiver args =>
    have hname : OneLine (codes _) := h
    have hreceiver := hunder receiver (by simp)
    have hargs : OneLine (listed ", " args) := Fragment.oneLine_listed (by decide) fun fragment hmem =>
      hoperands fragment (List.mem_cons_of_mem receiver hmem)
    obtain rfl := Option.some.inj hs
    simp +decide [hname, hreceiver, hargs]
  · -- a static call
    have hname : OneLine (codes _) := h
    have howner := hshort _ List.mem_cons_self
    have hargs : OneLine (listed "," operands) := Fragment.oneLine_listed (by decide) hoperands
    obtain rfl := Option.some.inj hs
    simp +decide [hname, howner, hargs]
  · -- a new array
    obtain rfl := Option.some.inj hs
    exact oneLine_arrayCreation (htypes _ List.mem_cons_self) hoperands
  · -- a new object
    have htype := hshort _ List.mem_cons_self
    have hargs : OneLine (listed "," operands) := Fragment.oneLine_listed (by decide) hoperands
    obtain rfl := Option.some.inj hs
    simp +decide [htype, hargs]
  · -- the length of an array
    next array =>
    have harray := hunder array (by simp)
    obtain rfl := Option.some.inj hs
    simp +decide [harray]
  · -- an element
    next array index =>
    have harray := hunder array (by simp)
    have hindex : OneLine index.loose := Fragment.oneLine_under (hoperands index (by simp)) _
    obtain rfl := Option.some.inj hs
    simp +decide [harray, hindex]
  · -- an operation with two operands
    next op _ left right => exact Operator.oneLine_source h (hunder left (by simp)) (hunder right (by simp)) hs
  · -- a comparison
    next op left right => exact Operator.oneLine_source h (hunder left (by simp)) (hunder right (by simp)) hs
  · -- a negation
    next operand =>
    have hoperand := hunder operand (by simp)
    obtain rfl := Option.some.inj hs
    simp +decide [hoperand]
  · -- an opposite
    next operand =>
    have hoperand := hunder operand (by simp)
    obtain rfl := Option.some.inj hs
    simp +decide [hoperand, Head.symbol]
  · -- a conversion
    next t operand =>
    have htype := htypes t List.mem_cons_self
    have hoperand := hunder operand (by simp)
    obtain rfl := Option.some.inj hs
    simp +decide [htype, hoperand]
  · -- a cast
    next t operand =>
    have htype := hshort t List.mem_cons_self
    have hoperand := hunder operand (by simp)
    obtain rfl := Option.some.inj hs
    simp +decide [htype, hoperand]
  · -- a test of a type
    next t operand =>
    have htype := hshort t List.mem_cons_self
    have hoperand := hunder operand (by simp)
    obtain rfl := Option.some.inj hs
    simp +decide [htype, hoperand]
  · exact h.elim
  · exact h.elim
  · -- a conjunction
    obtain rfl := Option.some.inj hs
    exact Fragment.oneLine_chain (by decide : OneLine (codes "&&")) _ hbodies
  · -- a disjunction
    obtain rfl := Option.some.inj hs
    exact Fragment.oneLine_chain (by decide : OneLine (codes "||")) _ hbodies
  · -- a conditional
    split at hs
    · next cond thenArm elseArm =>
      have hcond := hunder' cond (by simp)
      have hthen := hunder' thenArm (by simp)
      have helse := hunder' elseArm (by simp)
      obtain rfl := Option.some.inj hs
      simp +decide [hcond, hthen, helse]
    · cases hs
  · cases hs

/-! ### Trees -/

/-- What lowering makes, with names and types on one line. -/
structure Operand.IsLine (x : Operand) : Prop where
  shaped : x.WellShaped
  emitted : x.Emitted Text.IsLine
  types : ∀ op, Operand.Part (.op op) x → ∀ t ∈ op.head.shownTypes, OneLine (codes t.text)

lemma Operand.IsLine.of_part {y : Operand} (hx : x.IsLine) (h : Operand.Part y x) : y.IsLine :=
  ⟨hx.shaped.of_part h, hx.emitted.of_part h, fun op hop => hx.types op (hop.trans h)⟩

lemma Operand.IsLine.emitted_head {op : Op} (h : (Operand.op op).IsLine) : op.head.Emitted Text.IsLine :=
  (h.emitted _ (.refl _)).head

lemma oneLine_listing_of {operands : List Operand} {bodies : List Body} (hkind : OneLine (codes head.kind))
    (hattributes : ∀ text ∈ head.attributes showObject, OneLine (codes text))
    (hoperands : ∀ x ∈ operands, ∀ text, x.listing? showObject = some text → OneLine (codes text))
    (hbodies : ∀ body ∈ bodies, ∀ text, body.listing? showObject = some text → OneLine (codes text)) {text : String}
    (h : (Op.mk head operands bodies).listing? showObject = some text) : OneLine (codes text) := by
  rw [Op.listing?, operandListings?_eq, bodyListings?_eq] at h
  obtain ⟨texts, htexts, h⟩ := Option.bind_eq_some_iff.mp h
  obtain ⟨others, hothers, h⟩ := Option.bind_eq_some_iff.mp h
  obtain rfl := Option.some.inj h
  have hparts : ∀ part ∈ head.attributes showObject ++ texts ++ others, OneLine (codes part) := by
    refine List.forall_mem_append.mpr ⟨List.forall_mem_append.mpr ⟨hattributes, fun part hpart => ?_⟩, fun part hpart => ?_⟩
    · obtain ⟨x, hx, hlisting⟩ := exists_of_mem_mapM htexts part hpart
      exact hoperands x hx part hlisting
    · obtain ⟨body, hb, hlisting⟩ := exists_of_mem_mapM hothers part hpart
      obtain ⟨inner, hinner, rfl⟩ := Option.map_eq_some_iff.mp hlisting
      simp +decide [hbodies body hb inner hinner]
  have hlisted : OneLine (codes (String.intercalate ", " (head.attributes showObject ++ texts ++ others))) :=
    (oneLine_intercalate_texts (by decide)).mpr hparts
  simp only [oneLine_codes_append]
  exact ⟨⟨⟨hkind, by decide⟩, hlisted⟩, by decide⟩

lemma Operand.IsLine.oneLine_listing (hx : x.IsLine) :
    ∀ text, x.listing? showObject = some text → OneLine (codes text) := by
  induction x using Operand.induction_on_parts with
  | param p =>
    intro text h
    obtain rfl := Option.some.inj h
    have hname : p.name = "this" := hx.emitted _ (.refl _)
    rw [Parameter.listing, hname]
    decide
  | op op ihoperand ihbody =>
    intro text h
    obtain ⟨head, operands, bodies⟩ := op
    refine oneLine_listing_of hx.emitted_head.oneLine_kind (hx.emitted_head.oneLine_attributes (hx.types _ (.refl _))) (fun x hmem => ?_)
      (fun body hb => ?_) h
    · exact ihoperand x hmem (hx.of_part (.operand hmem (.refl x)))
    · intro inner hinner
      obtain ⟨y, hyields⟩ := (hx.shaped _ (.refl _)).yields body hb
      have hy := ihbody body hb y hyields.yielded?_eq (hx.of_part (.yielded hb hyields.yielded?_eq (.refl y)))
      -- what a body is listed as is the op that yields its value
      have hyield : (Op.mk .yield [y] []).listing? showObject = some inner := by
        rw [hyields] at hinner
        exact hinner
      exact oneLine_listing_of (by decide) (by simp [Head.attributes]) (by simpa using hy) (by simp) hyield

/-- What lowering makes is written on one line, if the types in it are. -/
lemma Operand.IsLine.oneLine_fragment (hx : x.IsLine) :
    ∀ fragment, x.fragment? f = some fragment → OneLine fragment.text := by
  induction x using Operand.induction_on_parts with
  | param p =>
    intro fragment h
    obtain rfl := Option.some.inj h
    decide
  | op op ihoperand ihbody =>
    intro fragment h
    have hlisted : ∀ fragment, op.listedFragment? f = some fragment → OneLine fragment.text := by
      intro fragment h
      obtain ⟨listing, hlisting, rfl⟩ := Option.map_eq_some_iff.mp h
      have hlisting := hx.oneLine_listing listing hlisting
      simp +decide [hlisting, Op.kind, hx.emitted_head.oneLine_kind]
    obtain ⟨head, operands, bodies⟩ := op
    rw [Operand.fragment?, Op.fragment?] at h
    split at h
    · exact hlisted fragment h
    split at h
    · cases h
    rw [operandFragments?_eq, bodyFragments?_eq] at h
    obtain ⟨fragments, hfragments, h⟩ := Option.bind_eq_some_iff.mp h
    obtain ⟨others, hothers, h⟩ := Option.bind_eq_some_iff.mp h
    have hoperands : ∀ fragment ∈ fragments, OneLine fragment.text := by
      intro fragment hmem
      obtain ⟨y, hy, hfragment⟩ := exists_of_mem_mapM hfragments fragment hmem
      exact ihoperand y hy (hx.of_part (.operand hy (.refl y))) fragment hfragment
    have hbodies : ∀ fragment ∈ others, OneLine fragment.text := by
      intro fragment hmem
      obtain ⟨body, hb, hfragment⟩ := exists_of_mem_mapM hothers fragment hmem
      obtain ⟨y, hyields⟩ := (hx.shaped _ (.refl _)).yields body hb
      rw [hyields] at hfragment
      exact ihbody body hb y hyields.yielded?_eq (hx.of_part (.yielded hb hyields.yielded?_eq (.refl y))) fragment
        hfragment
    split at h
    · next text hs =>
      obtain rfl := Option.some.inj h
      exact hx.emitted_head.oneLine_source (hx.types _ (.refl _)) hoperands hbodies hs
    · exact hlisted fragment h

end PredicateTrace
