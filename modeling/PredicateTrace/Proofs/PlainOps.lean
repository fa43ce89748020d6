import PredicateTrace.Proofs.EmittedOps
import PredicateTrace.Proofs.PrimitiveLowering
import PredicateTrace.Proofs.Results

/-!
# Ops of plain expressions

The trees of ops that expressions on primitive values are lowered to: constants, variables, conversions and
operations on operands of known kinds, chains of logical operators and conditionals. An accepted expression
whose words were scanned is lowered to such a tree.
-/

namespace PredicateTrace

open Host (Heap)
open Typing (converting isBitwise)
open Lowering (Builds lower convert emit conversionAt chainHead?)

/-! ### The fragment -/

/-- Literals of whole numbers, characters and truth values. -/
def Literal.IsDiscrete : Literal → Prop
  | .int _ | .long _ | .char _ | .boolean _ => True
  | _ => False

/-- Discrete literals, local variables, operators, casts and conditionals, in which every part has a primitive
type. -/
def Expr.Plain : TypedExpr → Prop
  | .literal _ v => v.IsDiscrete
  | .name note _ => note.role = some .local ∧ note.IsPrimitive
  | .unary note _ x | .cast note _ x => note.IsPrimitive ∧ x.Plain
  | .binary note _ l r => note.IsPrimitive ∧ l.Plain ∧ r.Plain
  | .conditional note c yes no => note.IsPrimitive ∧ c.Plain ∧ yes.Plain ∧ no.Plain
  | _ => False

/-- The kinds of the operands of an operation and the kind of its value. -/
inductive Operates : BinaryOperator → Primitive → Primitive → Primitive → Prop
  | arith {op k} (hk : k.IsPromoted) (hbits : isBitwise op = true → k.IsWhole) : Operates (.arith op) k k k
  | bits {op} (hop : isBitwise op = true) : Operates (.arith op) .boolean .boolean .boolean
  | shift {op p q} (hp : p.IsWhole) (hq : q.IsWhole) : Operates (.shift op) p q p
  | compare {op k} (hk : k.IsPromoted) : Operates (.compare op) k k .boolean
  | sameTruth {op} (hop : op = .eq ∨ op = .neq) : Operates (.compare op) .boolean .boolean .boolean

/-- The head of the op of an operation with a value of a kind. -/
def BinaryOperator.head (k : Primitive) : BinaryOperator → Head
  | .arith op => .binary (.arith op) (.prim k)
  | .shift op => .binary (.shift op) (.prim k)
  | .compare op => .compare (.compare op)
  | .conjunction => .condAnd
  | .disjunction => .condOr

/-- The trees of the fragment with the kinds of their values. A variable has the name of a local variable that
a source can mention. -/
inductive PlainOp (scope : Scope) (heap : Heap) (captures : Captures) : Operand → Primitive → Prop
  | literal {v p} (hv : v.IsDiscrete) (hrange : v.InRange) (hp : Typing.literalType v = .prim p) :
      PlainOp scope heap captures (.op (.leaf (.const (Lowering.literalValue v) (.prim p)))) p
  | varLoad {var v c k} (hname : Token.IsName var.name) (hlocal : scope.local? heap var.name = some v)
      (hv : v.kind? = some k) (htype : var.type = .prim k) (hbound : captures.binding? var.name = some c) :
      PlainOp scope heap captures (.op (.leaf (.varLoad var))) k
  | not {x} (hx : PlainOp scope heap captures x .boolean) : PlainOp scope heap captures (.op (.of .not [x])) .boolean
  | neg {x k} (hk : k.IsPromoted) (hx : PlainOp scope heap captures x k) :
      PlainOp scope heap captures (.op (.of (.neg (.prim k)) [x])) k
  | conv {x p q} (hp : p.isNumeric = true) (hq : q.isNumeric = true) (hpq : p ≠ q)
      (hx : PlainOp scope heap captures x p) : PlainOp scope heap captures (.op (.of (.conv (.prim q)) [x])) q
  | binary {op x y p q k} (hop : Operates op p q k) (hx : PlainOp scope heap captures x p)
      (hy : PlainOp scope heap captures y q) : PlainOp scope heap captures (.op (.of (op.head k) [x, y])) k
  | chainPair {op head b b' x y} (hop : chainHead? op = some head) (hb : b.yielded? = some x)
      (hb' : b'.yielded? = some y) (hx : PlainOp scope heap captures x .boolean)
      (hy : PlainOp scope heap captures y .boolean) :
      PlainOp scope heap captures (.op (.mk head [] [b, b'])) .boolean
  | chainSnoc {op head bodies b y} (hop : chainHead? op = some head) (hb : b.yielded? = some y)
      (hx : PlainOp scope heap captures (.op (.mk head [] bodies)) .boolean)
      (hy : PlainOp scope heap captures y .boolean) :
      PlainOp scope heap captures (.op (.mk head [] (bodies ++ [b]))) .boolean
  | choice {b b' b'' x y z k} (hk : k.IsPromoted ∨ k = .boolean) (hb : b.yielded? = some x)
      (hb' : b'.yielded? = some y) (hb'' : b''.yielded? = some z) (hx : PlainOp scope heap captures x .boolean)
      (hy : PlainOp scope heap captures y k) (hz : PlainOp scope heap captures z k) :
      PlainOp scope heap captures (.op (.mk (.ternary (.prim k)) [] [b, b', b''])) k

lemma Primitive.IsPromoted.ne_void {k : Primitive} (h : k.IsPromoted) : k ≠ .void := by
  rcases h with rfl | rfl | rfl | rfl <;> simp

lemma Operates.ne_void {op : BinaryOperator} {p q k : Primitive} (h : Operates op p q k) : k ≠ .void := by
  cases h with
  | arith hk => exact hk.ne_void
  | shift hp => exact hp.isPromoted.ne_void
  | _ => simp

/-! ### What checking converts -/

/-- A value of a kind becomes one of another kind by the conversion that the checker asks for, if any. -/
inductive Adapts : Primitive → Option Primitive → Primitive → Prop
  | asItIs {p} : Adapts p none p
  | converted {p q} (h : p.isNumeric = true ∧ q.isNumeric = true ∨ p = q) : Adapts p (some q) q

/-- What the checker notes about an operation on values of some kinds: the kind of its value, and what its
operands are converted to. -/
def Typing.NotesOperation (note : Typing) (op : BinaryOperator) (p q : Primitive) : Prop :=
  ∃ pos p' q' k c d, Operates op p' q' k ∧ Adapts p c p' ∧ Adapts q d q' ∧ note = converting pos (.prim k) [c, d]

section Checking

variable {pos : Position} {note : Typing} {p q k : Primitive}

lemma notesOperation_numbers {op : BinaryOperator} (hp : p.isNumeric = true) (hq : q.isNumeric = true)
    (hop : Operates op (p.common q) (p.common q) k) :
    Typing.NotesOperation (converting pos (.prim k) [some (p.common q), some (p.common q)]) op p q := by
  have hnumeric := (Primitive.isPromoted_common p q).isNumeric
  exact ⟨pos, _, _, k, _, _, hop, .converted (.inl ⟨hp, hnumeric⟩), .converted (.inl ⟨hq, hnumeric⟩), rfl⟩

lemma notesOperation_arith {op : ArithOperator}
    (h : Typing.binaryType pos (.arith op) (.prim p) (.prim q) = .ok note) : note.NotesOperation (.arith op) p q := by
  simp only [Typing.binaryType, TypeRef.beq_prim_string, Bool.or_false, Bool.and_false] at h
  split at h
  · next hfalse => cases hfalse
  split at h
  · next hbits =>
    split at h
    · next hb =>
      obtain ⟨rfl, rfl⟩ : p = .boolean ∧ q = .boolean := by simpa using hb
      obtain rfl := (Except.ok.inj h).symm
      exact ⟨pos, _, _, _, _, _, .bits hbits, .converted (.inr rfl), .converted (.inr rfl), rfl⟩
    · obtain ⟨hp, hq, rfl⟩ := numericType_eq_ok rfl rfl h
      refine notesOperation_numbers (Primitive.isNumeric_of_isIntegral hp) (Primitive.isNumeric_of_isIntegral hq) ?_
      exact .arith (Primitive.isPromoted_common p q) fun _ => Primitive.isWhole_common hp hq
  · next hbits =>
    obtain ⟨hp, hq, rfl⟩ := numericType_eq_ok rfl rfl h
    exact notesOperation_numbers hp hq (.arith (Primitive.isPromoted_common p q) fun hop => absurd hop hbits)

lemma notesOperation_shift {op : ShiftOperator}
    (h : Typing.binaryType pos (.shift op) (.prim p) (.prim q) = .ok note) : note.NotesOperation (.shift op) p q := by
  have hnumeric : Typing.numericType pos (.shift op) (.prim p) (.prim q) TypeRef.isIntegral
      (p.promoted, p.promoted, q.promoted) = .ok note := h
  obtain ⟨hp, hq, rfl⟩ := numericType_eq_ok rfl rfl hnumeric
  have hadapts {m : Primitive} (hm : m.isIntegral = true) : Adapts m (some m.promoted) m.promoted :=
    .converted (.inl ⟨Primitive.isNumeric_of_isIntegral hm, (Primitive.isWhole_promoted hm).isPromoted.isNumeric⟩)
  exact ⟨pos, _, _, _, _, _, .shift (Primitive.isWhole_promoted hp) (Primitive.isWhole_promoted hq), hadapts hp,
    hadapts hq, rfl⟩

lemma notesOperation_compare {op : CompareOperator}
    (h : Typing.binaryType pos (.compare op) (.prim p) (.prim q) = .ok note) :
    note.NotesOperation (.compare op) p q := by
  have hpromoted := Primitive.isPromoted_common p q
  have hequality (hop : op = .eq ∨ op = .neq)
      (h : Typing.equalityType pos (.compare op) (.prim p) (.prim q) = .ok note) :
      note.NotesOperation (.compare op) p q := by
    rcases equalityType_eq_ok rfl rfl h with ⟨hp, hq, rfl⟩ | ⟨rfl, ⟨hp, hq⟩ | ⟨hp, -⟩⟩
    · exact notesOperation_numbers hp hq (.compare hpromoted)
    · obtain rfl : p = .boolean := by simpa using hp
      obtain rfl : q = .boolean := by simpa using hq
      exact ⟨pos, _, _, _, _, _, .sameTruth hop, .asItIs, .asItIs, rfl⟩
    · cases hp
  have hrelation (h : Typing.relationalType pos (.compare op) (.prim p) (.prim q) = .ok note) :
      note.NotesOperation (.compare op) p q := by
    obtain ⟨hp, hq, rfl⟩ := relationalType_eq_ok rfl rfl h
    exact notesOperation_numbers hp hq (.compare hpromoted)
  cases op with
  | eq => exact hequality (.inl rfl) h
  | neq => exact hequality (.inr rfl) h
  | lt | le | gt | ge => exact hrelation h

lemma notesOperation_of_binaryType {op : BinaryOperator} (hop : chainHead? op = none)
    (h : Typing.binaryType pos op (.prim p) (.prim q) = .ok note) : note.NotesOperation op p q := by
  cases op with
  | arith a => exact notesOperation_arith h
  | shift s => exact notesOperation_shift h
  | compare c => exact notesOperation_compare h
  | conjunction | disjunction => cases hop

end Checking

/-! ### Lowering to plain ops -/

section Lowering

variable {scope : Scope} {heap : Heap} {pos : Position} {note : Typing} {tx tl tr tc tyes tno : TypedExpr}
  {p q k : Primitive}

/-- A checked expression of some kind is lowered to plain ops. -/
structure Lowers (scope : Scope) (heap : Heap) (te : TypedExpr) (k : Primitive) : Prop where
  type_eq : te.type = .prim k
  ne_void : k ≠ .void
  builds : Builds false scope heap (scope.captured? heap) heap (lower scope heap te) fun captures x =>
    PlainOp scope heap captures x k

lemma Lowers.adapted {c : Option Primitive} (hx : Lowers scope heap tx p) (hc : Adapts p c q) :
    Builds false scope heap (scope.captured? heap) heap
      (lower scope heap tx >>= fun x => convert x tx.type c) fun captures x => PlainOp scope heap captures x q := by
  rw [hx.type_eq]
  cases hc with
  | asItIs => exact hx.builds.bind fun x => (Lowering.builds_pure x).mono fun _ _ hy hx => hy ▸ hx
  | converted hpq =>
    refine hx.builds.bind fun x => ?_
    rw [convert, Lowering.needsConversion_prim]
    by_cases hsame : p = q
    · subst hsame
      rw [if_neg (by simp)]
      exact (Lowering.builds_pure x).mono fun _ _ hy hx => hy ▸ hx
    · rw [if_pos (by simpa using hsame)]
      obtain ⟨hp, hq⟩ := hpq.resolve_right hsame
      refine (Lowering.builds_emit _).mono fun captures y hy hx => ?_
      rw [hy]
      exact .conv hp hq hsame hx

lemma Lowers.unadapted (hx : Lowers scope heap tx p) :
    Builds false scope heap (scope.captured? heap) heap
      (lower scope heap tx >>= fun x => convert x tx.type none) fun captures x => PlainOp scope heap captures x p :=
  hx.adapted .asItIs

lemma lowers_literal {v : Literal} (hv : v.IsDiscrete) (hrange : v.InRange) :
    ∃ k, Lowers scope heap (.literal (.plain pos (Typing.literalType v)) v) k := by
  obtain ⟨k, hk, hvoid⟩ : ∃ k, Typing.literalType v = .prim k ∧ k ≠ .void := by
    cases v <;> first | exact ⟨_, rfl, by simp⟩ | exact hv.elim
  have hconstant : Lowering.constant (.prim k) v = .leaf (.const (Lowering.literalValue v) (.prim k)) := by
    cases v <;> first | rfl | exact hv.elim
  rw [hk]
  refine ⟨k, rfl, hvoid, ?_⟩
  have hlower : lower scope heap (.literal (.plain pos (.prim k)) v) = emit (Lowering.constant (.prim k) v) := rfl
  rw [hlower, hconstant]
  exact (Lowering.builds_emit _).mono fun captures x hx => hx ▸ .literal hv hrange hk

lemma lowers_name {n : String} {v : Value} (hname : Token.IsName n) (hlocal : scope.local? heap n = some v)
    (hv : v.kind? = some k) : Lowers scope heap (.name (.named pos (.prim k) .local) n) k := by
  refine ⟨rfl, fun hvoid => Value.kind?_ne_void v (hvoid ▸ hv), ?_⟩
  have huse : Builds false scope heap (scope.captured? heap) heap (Lowering.useVariable scope heap n)
      fun captures var => var.name = n ∧ var.type = .prim k ∧ ∃ c, captures.binding? var.name = some c := by
    intro b hb
    obtain ⟨hmore, htyped, hpost⟩ := Lowering.builds_useVariable hlocal b hb
    refine ⟨hmore, htyped, fun captures hbinds => ⟨Lowering.results_useVariable scope heap n b, ?_⟩⟩
    obtain ⟨htype, c, hbound, -, -⟩ := hpost captures hbinds
    exact ⟨htype.trans (Value.staticType_eq_prim.mpr hv), c, hbound⟩
  rw [Lowering.lower_local]
  refine huse.bind fun var => (Lowering.builds_emit _).mono fun captures x hx hvar => ?_
  obtain ⟨rfl, htype, c, hbound⟩ := hvar
  rw [hx]
  exact .varLoad hname hlocal hv htype hbound

lemma lowers_unary {op : UnaryOperator} (hx : Lowers scope heap tx p)
    (h : Typing.unaryType pos op tx.type = .ok note) : ∃ k, Lowers scope heap (.unary note op tx) k := by
  rcases unaryType_eq_ok (by rw [hx.type_eq]; rfl) h with ⟨rfl, hb, rfl⟩ | ⟨hop, hn, hwhole, rfl⟩
  · obtain rfl : p = .boolean := by simpa [hx.type_eq] using hb
    refine ⟨.boolean, rfl, by simp, ?_⟩
    rw [Lowering.lower_unary]
    exact (hx.unadapted.emit_one .not).mono fun captures y ⟨z, hz, hy⟩ => hy ▸ .not hz
  · rw [hx.type_eq] at hn hwhole ⊢
    have hpromoted : p.promoted.IsPromoted := Primitive.isPromoted_promoted hn
    have hoperand := hx.adapted (.converted (.inl ⟨hn, hpromoted.isNumeric⟩))
    refine ⟨p.promoted, rfl, hpromoted.ne_void, ?_⟩
    rw [Lowering.lower_unary]
    cases op with
    | not => exact absurd rfl hop
    | plus => exact hoperand.bind fun y => (Lowering.builds_pure y).mono fun captures z hz hy => hz ▸ hy
    | minus => exact (hoperand.emit_one _).mono fun captures y ⟨z, hz, hy⟩ => hy ▸ .neg hpromoted hz
    | complement =>
      have hk : p.promoted.IsWhole := Primitive.isWhole_promoted (hwhole rfl)
      have hones {captures : Captures} :
          PlainOp scope heap captures (.op (Lowering.allOnes (.prim p.promoted))) p.promoted := by
        rcases hk with hk | hk <;> rw [hk]
        · exact .literal (v := .int (-1)) trivial ⟨by decide, by decide⟩ rfl
        · exact .literal (v := .long (-1)) trivial ⟨by decide, by decide⟩ rfl
      refine hoperand.bind fun y => (Lowering.builds_emit _).bind fun ones => (Lowering.builds_emit _).mono
        fun captures z hz hw hy => ?_
      have hxor : Operates (.arith .xor) p.promoted p.promoted p.promoted := .arith hpromoted fun _ => hk
      rw [hz, hw]
      exact .binary hxor hy hones

lemma lowers_binary {op : BinaryOperator} (hop : chainHead? op = none) (hl : Lowers scope heap tl p)
    (hr : Lowers scope heap tr q) (h : Typing.binaryType pos op tl.type tr.type = .ok note) :
    ∃ k, Lowers scope heap (.binary note op tl tr) k := by
  rw [hl.type_eq, hr.type_eq] at h
  obtain ⟨pos, p', q', k, c, d, hoperates, hc, hd, rfl⟩ := notesOperation_of_binaryType hop h
  have hoperation (x y : Operand) :
      Lowering.operation (converting pos (.prim k) [c, d]) op x y = emit (.of (op.head k) [x, y]) := by
    cases op <;> first | rfl | cases hop
  refine ⟨k, rfl, hoperates.ne_void, ?_⟩
  rw [Lowering.lower_binary _ hop]
  simp only [hoperation]
  exact ((hl.adapted hc).emit_two _ (hr.adapted hd)).mono fun captures z ⟨x, y, hx, hy, hz⟩ =>
    hz ▸ .binary hoperates hx hy

lemma lowers_logical {op : BinaryOperator} {head : Head} (hop : chainHead? op = some head)
    (hl : Lowers scope heap tl p) (hr : Lowers scope heap tr q)
    (h : Typing.binaryType pos op tl.type tr.type = .ok note) : ∃ k, Lowers scope heap (.binary note op tl tr) k := by
  have hboth : (if tl.type.isCondition && tr.type.isCondition then
      Except.ok (converting pos (.prim .boolean) [none, none])
    else .error (TypeError.mk pos (.binaryOperands op tl.type tr.type))) = .ok note := by
    cases op <;> first | exact h | cases hop
  rw [hl.type_eq, hr.type_eq] at hboth
  split at hboth
  · next hc =>
    obtain ⟨rfl, rfl⟩ : p = .boolean ∧ q = .boolean := by simpa [TypeRef.isCondition] using hc
    obtain rfl := (Except.ok.inj hboth).symm
    refine ⟨.boolean, rfl, by simp, ?_⟩
    rw [Lowering.lower_logical _ hop]
    refine (hl.builds.chainBodies hop).bind fun earlier => hr.builds.plainBody.bind fun last =>
      (Lowering.builds_emit _).mono fun captures x hx hlast hearlier => ?_
    obtain ⟨y, hyield, hy⟩ := hlast
    rw [hx]
    rcases hearlier with hchain | ⟨b, z, rfl, hb, hz⟩
    · exact .chainSnoc hop hyield hchain hy
    · exact .chainPair hop hb hyield hz hy
  · cases hboth

lemma lowers_cast {t : TypeName} (hnote : note.IsPrimitive) (hx : Lowers scope heap tx p)
    (h : Typing.castType pos tx.type (Typing.writtenType scope.resolver t) = .ok note) :
    ∃ k, Lowers scope heap (.cast note t tx) k := by
  have hdynamic : tx.type.isDynamic = false := by rw [hx.type_eq]; rfl
  obtain ⟨q, -, rfl, hpq⟩ := castType_eq_ok hdynamic h hnote
  have hkinds : p.isNumeric = true ∧ q.isNumeric = true ∨ p = q := by
    rw [hx.type_eq] at hpq
    rcases hpq with ⟨hq, hp⟩ | ⟨rfl, hp⟩
    · exact .inl ⟨hp, hq⟩
    · exact .inr (by simpa using hp)
  have hlower : lower scope heap (.cast (converting pos (.prim q) [some q]) t tx) =
      lower scope heap tx >>= fun x => convert x tx.type (some q) := by
    have hcast : lower scope heap (.cast (converting pos (.prim q) [some q]) t tx) =
      lower scope heap tx >>= Lowering.castOperation tx.type (.prim q) := rfl
    rw [hcast, hx.type_eq]
    rfl
  have hvoid : q ≠ .void := by
    rintro rfl
    rcases hkinds with ⟨-, hq⟩ | hpq
    · cases hq
    · exact hx.ne_void hpq
  refine ⟨q, rfl, hvoid, ?_⟩
  rw [hlower]
  exact hx.adapted (.converted hkinds)

lemma Lowers.arm {c : Option Primitive} (hx : Lowers scope heap tx p) (hc : Adapts p c q) :
    Builds false scope heap (scope.captured? heap) heap (Lowering.body tx.type c (lower scope heap tx))
      fun captures b => ∃ x, b.yielded? = some x ∧ PlainOp scope heap captures x q :=
  (hx.adapted hc).body

lemma lowers_conditional {m : Primitive} (hnote : note.IsPrimitive) (hc : Lowers scope heap tc m)
    (hyes : Lowers scope heap tyes p) (hno : Lowers scope heap tno q)
    (h : Typing.conditionalType pos tc.type tyes.type tno.type = .ok note) :
    ∃ k, Lowers scope heap (.conditional note tc tyes tno) k := by
  obtain ⟨hcond, harms⟩ := conditionalType_eq_ok (.inl ⟨_, hyes.type_eq⟩) (.inl ⟨_, hno.type_eq⟩) h hnote
  obtain rfl : m = .boolean := by simpa [hc.type_eq, TypeRef.isCondition] using hcond
  obtain ⟨k, d, hk, hyesd, hnod, rfl⟩ : ∃ k d, (k.IsPromoted ∨ k = .boolean) ∧ Adapts p d k ∧ Adapts q d k ∧
      note = converting pos (.prim k) [none, d, d] := by
    rw [hyes.type_eq, hno.type_eq] at harms
    rcases harms with ⟨hp, hq, rfl⟩ | ⟨hp, hq, rfl⟩ | ⟨hp, -⟩
    · have hpromoted := Primitive.isPromoted_common p q
      exact ⟨_, _, .inl hpromoted, .converted (.inl ⟨hp, hpromoted.isNumeric⟩),
        .converted (.inl ⟨hq, hpromoted.isNumeric⟩), rfl⟩
    · obtain rfl : p = .boolean := by simpa using hp
      obtain rfl : q = .boolean := by simpa using hq
      exact ⟨_, _, .inr rfl, .asItIs, .asItIs, rfl⟩
    · exact absurd (TypeRef.prim.inj hp) hyes.ne_void
  have hvoid : k ≠ .void := by
    rintro rfl
    rcases hk with hk | hk
    · exact hk.ne_void rfl
    · cases hk
  refine ⟨k, rfl, hvoid, ?_⟩
  rw [Lowering.lower_conditional]
  refine (hc.arm .asItIs).bind fun cond => Builds.bind (hyes.arm hyesd) fun yes' =>
    Builds.bind (hno.arm hnod) fun no' => (Lowering.builds_emit _).mono fun captures x hx hnarm hyarm hcarm => ?_
  obtain ⟨y, hyield, hy⟩ := hcarm
  obtain ⟨z, hyield', hz⟩ := hyarm
  obtain ⟨w, hyield'', hw⟩ := hnarm
  rw [hx]
  exact .choice hk hyield hyield' hyield'' hy hz hw

/-- The forms of plain expressions. -/
def Expr.IsBasic {α : Type} : Expr α → Prop
  | .literal .. | .name .. | .unary .. | .binary .. | .cast .. | .conditional .. => True
  | _ => False

lemma isBasic_of_check {e : Expr Position} {te : TypedExpr} (h : Typing.check scope heap e = .ok te)
    (he : te.Plain) : e.IsBasic := by
  cases Typing.accepts_of_check h with
  | literal | «local» | thisField | unary | binary | cast | conditional => trivial
  | _ => exact he.elim

/-- What the checker accepts of the fragment is lowered to plain ops, if its words were scanned. -/
theorem lowers_of_check : (e : Expr Position) → {te : TypedExpr} → e.IsScanned →
    Typing.check scope heap e = .ok te → te.Plain → ∃ k, Lowers scope heap te k
  | .literal .., te, hwords, h, he => by
    cases Typing.accepts_of_check h
    exact lowers_literal he hwords.literal
  | .name .., te, hwords, h, he => by
    cases Typing.accepts_of_check h with
    | @«local» _ _ v hlocal =>
      obtain ⟨-, k, hk⟩ := he
      have hk : v.staticType = .prim k := Option.some.inj hk
      rw [hk]
      exact ⟨k, lowers_name hwords.name hlocal (Value.staticType_eq_prim.mp hk)⟩
    | thisField => cases he.1
  | .unary _ _ x, te, hwords, h, he => by
    cases Typing.accepts_of_check h with
    | unary hx hnote =>
      obtain ⟨p, hp⟩ := lowers_of_check x hwords.unary hx he.2
      exact lowers_unary hp hnote
  | .binary _ op l r, te, hwords, h, he => by
    cases Typing.accepts_of_check h with
    | binary hl hr hnote =>
      obtain ⟨-, hel, her⟩ := he
      obtain ⟨p, hp⟩ := lowers_of_check l hwords.binary.1 hl hel
      obtain ⟨q, hq⟩ := lowers_of_check r hwords.binary.2 hr her
      cases hop : chainHead? op with
      | none => exact lowers_binary hop hp hq hnote
      | some head => exact lowers_logical hop hp hq hnote
  | .cast _ _ x, te, hwords, h, he => by
    cases Typing.accepts_of_check h with
    | cast hx hnote =>
      obtain ⟨p, hp⟩ := lowers_of_check x hwords.cast hx he.2
      exact lowers_cast he.1 hp hnote
  | .conditional _ c yes no, te, hwords, h, he => by
    cases Typing.accepts_of_check h with
    | conditional hc _ hyes hno hnote =>
      obtain ⟨hprim, hec, heyes, heno⟩ := he
      obtain ⟨hwc, hwyes, hwno⟩ := hwords.conditional
      obtain ⟨m, hm⟩ := lowers_of_check c hwc hc hec
      obtain ⟨p, hp⟩ := lowers_of_check yes hwyes hyes heyes
      obtain ⟨q, hq⟩ := lowers_of_check no hwno hno heno
      exact lowers_conditional hprim hm hp hq hnote
  | .this _, _, _, h, he | .field .., _, _, h, he | .call .., _, _, h, he | .thisCall .., _, _, h, he
  | .index .., _, _, h, he | .newObject .., _, _, h, he | .newArray .., _, _, h, he | .instanceOf .., _, _, h, he
  | .assign .., _, _, h, he => (isBasic_of_check h he).elim

end Lowering

/-! ### Evaluation of plain ops -/

section Results

open Evaluation (Answers Settles)

variable {scope : Scope} {heap later : Heap} {captures : Captures} {x : Operand} {p q k : Primitive}

lemma exists_decisive {op : BinaryOperator} {head : Head} (hop : chainHead? op = some head) :
    ∃ decisive, head.decisive? = some decisive := by
  cases op <;> cases hop <;> exact ⟨_, rfl⟩

lemma kind_of_fits {o : Outcome} (h : o.Fits false k) : ∀ v, o = .value v → v.kind? = some k := by
  rintro v rfl
  exact h

/-- What the host answers for operands of fitting kinds. Bitwise operations on truth values are not supported. -/
lemma Operates.answers {op : BinaryOperator} (hop : Operates op p q k) {a b : Value} (ha : a.kind? = some p)
    (hb : b.kind? = some q) : ∃ o, Answers (op.head k) [a, b] o ∧ ∀ v, o = .value v → v.kind? = some k := by
  cases hop with
  | @arith op _ hk hbits =>
    refine ⟨_, Evaluation.answers_binary (.arith op) _ ha hb, kind_of_fits ?_⟩
    rcases Value.arith_kind op ha hb hk hbits with ⟨v, hv, hkind⟩ | hzero
    · rw [Value.binary, hv]
      exact hkind
    · rw [Value.binary, hzero]
      exact .inl rfl
  | @bits op =>
    obtain ⟨s, rfl⟩ := Value.kind_boolean ha
    obtain ⟨t, rfl⟩ := Value.kind_boolean hb
    exact ⟨_, Evaluation.answers_binary (.arith op) _ ha hb, by rintro v ⟨⟩⟩
  | @shift op _ _ hp hq =>
    refine ⟨_, Evaluation.answers_binary (.shift op) _ ha hb, kind_of_fits ?_⟩
    exact Outcome.fits_ofOption (Value.shift_kind op ha hb hp hq)
  | @compare op _ hk =>
    obtain ⟨i, hi⟩ := Value.exists_comparand? ha hk.isNumeric
    obtain ⟨j, hj⟩ := Value.exists_comparand? hb hk.isNumeric
    exact ⟨_, Evaluation.answers_relation op hi hj, by rintro v ⟨⟩; rfl⟩
  | sameTruth hop =>
    obtain ⟨s, rfl⟩ := Value.kind_boolean ha
    obtain ⟨t, rfl⟩ := Value.kind_boolean hb
    refine ⟨_, Evaluation.answers_identity hop fun heap => Evaluation.equals_bool _ s t, ?_⟩
    rcases hop with rfl | rfl <;> rintro v ⟨⟩ <;> rfl

lemma BinaryOperator.head_isPure {op : BinaryOperator} (hop : Operates op p q k) :
    (op.head k).isStrict = true ∧ (op.head k).isHostComputation = false := by
  cases hop <;> exact ⟨rfl, rfl⟩

/-- As long as the variables hold values of their types, plain ops return an outcome. -/
theorem PlainOp.settles (h : PlainOp scope heap captures x k)
    (hkept : ∀ name c v, captures.binding? name = some c → scope.local? heap name = some v →
      (c.content later).staticType = v.staticType) :
    Settles later k (Evaluation.result captures x) := by
  induction h with
  | @literal v p _ _ hp =>
    have hkind : (Lowering.literalValue v).kind? = some p := by
      cases v <;> cases hp <;> rfl
    have hbox : (Lowering.literalValue v).box = Lowering.literalValue v := by
      cases v <;> rfl
    rw [Evaluation.result_const hbox]
    exact Evaluation.settles_pure (by rintro w ⟨⟩; exact hkind)
  | varLoad _ hlocal hv _ hbound =>
    refine Evaluation.settles_varLoad hbound ?_
    exact Value.staticType_eq_prim.mp ((hkept _ _ _ hbound hlocal).trans (Value.staticType_eq_prim.mpr hv))
  | not _ ih =>
    rw [Evaluation.result_one rfl rfl]
    refine ih.onValue fun v hv => ?_
    obtain ⟨b, rfl⟩ := Value.kind_boolean hv
    exact Evaluation.settles_answer (Evaluation.answers_not b) (by rintro w ⟨⟩; rfl)
  | neg hk _ ih =>
    rw [Evaluation.result_one rfl rfl]
    exact ih.onValue fun v hv => Evaluation.settles_answer (Evaluation.answers_negation _ v)
      (kind_of_fits (Outcome.fits_ofOption (Value.negate_kind hv hk)))
  | conv hp hq _ _ ih =>
    rw [Evaluation.result_one rfl rfl]
    refine ih.onValue fun v hv => Evaluation.settles_answer (Evaluation.answers_conversion _ hv) ?_
    obtain ⟨w, hw, hkind⟩ := Direct.convertTo_value hv hp hq
    rw [hw]
    exact kind_of_fits hkind
  | binary hop _ _ ih ih' =>
    obtain ⟨hstrict, hhost⟩ := BinaryOperator.head_isPure hop
    rw [Evaluation.result_two hstrict hhost]
    refine ih.onValue fun a ha => ih'.onValue fun b hb => ?_
    obtain ⟨o, hanswer, hkind⟩ := hop.answers ha hb
    exact Evaluation.settles_answer hanswer hkind
  | chainPair hop hb hb' _ _ ih ih' =>
    obtain ⟨decisive, hd⟩ := exists_decisive hop
    rw [Evaluation.result_chain hd]
    refine Evaluation.settles_chainResult decisive ?_
    simpa [Evaluation.bodyResult_of_yielded hb, Evaluation.bodyResult_of_yielded hb'] using ⟨ih, ih'⟩
  | chainSnoc hop hb _ _ ih ih' =>
    obtain ⟨decisive, hd⟩ := exists_decisive hop
    rw [Evaluation.result_chain hd] at ih ⊢
    rw [List.map_append, Evaluation.chainResult_append]
    refine Evaluation.settles_chainResult decisive ?_
    simpa [Evaluation.bodyResult_of_yielded hb] using ⟨ih, ih'⟩
  | choice _ hb hb' hb'' _ _ _ ih ih' ih'' =>
    rw [Evaluation.result_ternary hb hb' hb'']
    exact ih.onValue fun v hv => Evaluation.settles_choiceResult ih' ih'' hv

end Results

end PredicateTrace
