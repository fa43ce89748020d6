import PredicateTrace.Evaluation
import PredicateTrace.Lowering
import PredicateTrace.Proofs.PrimitiveKinds

/-!
# Direct evaluation

Expressions over primitive values evaluated as they are written, by recursion on the expression and without
ops: operands from left to right, promoted by the kinds of their values, and the whole expression stops at
the first error. Elements and lengths of arrays are included.
-/

namespace PredicateTrace

/-- An error that primitive operations raise: a division by zero, or, where arrays are allowed, an index
that is out of bounds. -/
def Throwable.IsElementary (arrays : Bool) (e : Throwable) : Prop :=
  e = .arithmetic ∨ arrays = true ∧ ∃ index length, e = Host.outOfBounds index length

namespace Outcome

/-- What comes after a value; without a value the outcome stays as it is. -/
def andThen : Outcome → (Value → Outcome) → Outcome
  | .value v, f => f v
  | .threw e, _ => .threw e
  | .unsupported, _ => .unsupported

def ofOption : Option Value → Outcome
  | some v => .value v
  | none => .unsupported

def ofResult : Except Throwable (Option Value) → Outcome
  | .ok v => ofOption v
  | .error e => .threw e

/-- The outcome is a value of the given kind, or an error of primitive operations. -/
def Fits (arrays : Bool) (p : Primitive) : Outcome → Prop
  | .value v => v.kind? = some p
  | .threw e => e.IsElementary arrays
  | .unsupported => False

end Outcome

namespace Direct

def convertTo (p : Primitive) (v : Value) : Outcome :=
  .ofOption (v.toKind? p)

/-- An operation on two numbers in the kind that both are promoted to. -/
def promoteBoth (f : Value → Value → Outcome) (a b : Value) : Outcome :=
  match a.kind?, b.kind? with
  | some p, some q =>
    (convertTo (p.common q) a).andThen fun x => (convertTo (p.common q) b).andThen fun y => f x y
  | _, _ => .unsupported

/-- A unary operation; a number is promoted first. -/
def unary (op : UnaryOperator) (v : Value) : Outcome :=
  match op, v with
  | .not, .bool b => .value (.bool !b)
  | .not, _ => .unsupported
  | op, v =>
    match v.kind? with
    | some p => (convertTo p.promoted v).andThen fun x => .ofOption (signed op x)
    | none => .unsupported
where
  signed : UnaryOperator → Value → Option Value
    | .minus, x => x.negate?
    | .complement, x => x.complement?
    | _, x => some x

def arithmetic (op : ArithOperator) (a b : Value) : Outcome :=
  promoteBoth (fun x y => .ofResult (Value.arith op x y)) a b

/-- A shift, whose operands are promoted apart from each other. -/
def shift (op : ShiftOperator) (a b : Value) : Outcome :=
  match a.kind?, b.kind? with
  | some p, some q =>
    (convertTo p.promoted a).andThen fun x =>
      (convertTo q.promoted b).andThen fun y => .ofOption (Value.shift? op x y)
  | _, _ => .unsupported

/-- Numbers are compared as what they are promoted to; truth values and arrays are only tested for
equality, arrays by their identity. -/
def compare (op : CompareOperator) (a b : Value) : Outcome :=
  match a, b with
  | .bool x, .bool y => identity op (x == y)
  | .array i _ _, .array j _ _ => identity op (i == j)
  | a, b => promoteBoth (related op) a b
where
  identity : CompareOperator → Bool → Outcome
    | .eq, same => .value (.bool same)
    | .neq, same => .value (.bool !same)
    | _, _ => .unsupported
  related (op : CompareOperator) (x y : Value) : Outcome :=
    match x.comparand?, y.comparand? with
    | some m, some n => .value (.bool (Value.Numeric.relation op m n))
    | _, _ => .unsupported

/-- The element of an array at an index, which is taken as an `int`. -/
def element (array index : Value) : Outcome :=
  (convertTo .int index).andThen (elementAt array)
where
  elementAt (array index : Value) : Outcome :=
    match array, index with
    | .array _ _ items, .integral .int n =>
      match Host.checkIndex items n with
      | .ok place => .value (items.getD place .null)
      | .error e => .threw e
    | _, _ => .unsupported

def length : Value → Outcome
  | .array _ _ items => .value (.int items.length)
  | _ => .unsupported

variable {α : Type}

/-- The kind of an expression by the kinds of its variables. -/
def kindOf (env : String → Option Value) : Expr α → Option Primitive
  | .literal _ v => (Lowering.literalValue v).kind?
  | .name _ n => (env n).bind Value.kind?
  | .unary _ op x => if op = .not then some .boolean else (kindOf env x).map Primitive.promoted
  | .binary _ (.arith _) l r =>
    match kindOf env l, kindOf env r with
    | some p, some q => some (p.common q)
    | _, _ => none
  | .binary _ (.shift _) l _ => (kindOf env l).map Primitive.promoted
  | .binary .. => some .boolean
  | .cast _ t _ =>
    match t.base, t.dims with
    | .primitive p, 0 => some p
    | _, _ => none
  | .conditional _ _ yes no =>
    match kindOf env yes, kindOf env no with
    | some p, some q => if p.isNumeric && q.isNumeric then some (p.common q) else some p
    | _, _ => none
  | .index _ (.name _ n) _ =>
    match env n with
    | some (.array _ (.prim p) _) => some p
    | _ => none
  | .field .. => some .int
  | _ => none

/-- The second operand of a short-circuit operator is evaluated if the first one does not decide. -/
def shortCircuit (decisive : Bool) (second : Outcome) : Value → Outcome
  | .bool b => if b = decisive then .value (.bool decisive) else second
  | _ => .unsupported

/-- The arm that a condition selects. -/
def select (yes no : Outcome) : Value → Outcome
  | .bool b => if b then yes else no
  | _ => .unsupported

/-- The value of an arm of a conditional: a number in the kind that both arms are promoted to. -/
def armValue (yes no : Option Primitive) (v : Value) : Outcome :=
  match yes, no with
  | some p, some q => if p.isNumeric && q.isNumeric then convertTo (p.common q) v else .value v
  | _, _ => .unsupported

/-- The outcome of an expression, where `env` holds the values of the variables. -/
def evaluate (env : String → Option Value) : Expr α → Outcome
  | .literal _ v => .value (Lowering.literalValue v)
  | .name _ n => .ofOption (env n)
  | .unary _ op x => (evaluate env x).andThen (unary op)
  | .binary _ (.arith op) l r => (evaluate env l).andThen fun a => (evaluate env r).andThen (arithmetic op a)
  | .binary _ (.shift op) l r => (evaluate env l).andThen fun a => (evaluate env r).andThen (shift op a)
  | .binary _ (.compare op) l r => (evaluate env l).andThen fun a => (evaluate env r).andThen (compare op a)
  | .binary _ .conjunction l r => (evaluate env l).andThen (shortCircuit false (evaluate env r))
  | .binary _ .disjunction l r => (evaluate env l).andThen (shortCircuit true (evaluate env r))
  | .cast _ t x =>
    match t.base, t.dims with
    | .primitive p, 0 => (evaluate env x).andThen (convertTo p)
    | _, _ => .unsupported
  | .conditional _ c yes no =>
    let value := armValue (kindOf env yes) (kindOf env no)
    (evaluate env c).andThen
      (select ((evaluate env yes).andThen value) ((evaluate env no).andThen value))
  | .index _ array place => (evaluate env array).andThen fun a => (evaluate env place).andThen (element a)
  | .field _ array "length" => (evaluate env array).andThen length
  | _ => .unsupported

section Forms

variable {env : String → Option Value} {pos : α} {x l r c yes no array place : Expr α} {n : String}

lemma kindOf_name : kindOf env (.name pos n) = (env n).bind Value.kind? :=
  rfl

lemma kindOf_signed {op : UnaryOperator} (hop : op ≠ .not) :
    kindOf env (.unary pos op x) = (kindOf env x).map Primitive.promoted :=
  if_neg hop

lemma kindOf_arith {op : ArithOperator} {p q : Primitive} (hl : kindOf env l = some p)
    (hr : kindOf env r = some q) : kindOf env (.binary pos (.arith op) l r) = some (p.common q) := by
  change (match kindOf env l, kindOf env r with
    | some p, some q => some (p.common q)
    | _, _ => none) = _
  rw [hl, hr]

lemma kindOf_shift {op : ShiftOperator} :
    kindOf env (.binary pos (.shift op) l r) = (kindOf env l).map Primitive.promoted :=
  rfl

lemma kindOf_conditional {p q : Primitive} (hyes : kindOf env yes = some p) (hno : kindOf env no = some q) :
    kindOf env (.conditional pos c yes no) =
      if p.isNumeric && q.isNumeric then some (p.common q) else some p := by
  change (match kindOf env yes, kindOf env no with
    | some p, some q => if p.isNumeric && q.isNumeric then some (p.common q) else some p
    | _, _ => none) = _
  rw [hyes, hno]

lemma kindOf_cast {t : TypeName} {p : Primitive} (hbase : t.base = .primitive p) (hdims : t.dims = 0) :
    kindOf env (.cast pos t x) = some p := by
  change (match t.base, t.dims with
    | .primitive p, 0 => some p
    | _, _ => none) = _
  simp only [hbase, hdims]

lemma kindOf_index {pos' : α} {id : Nat} {p : Primitive} {items : List Value}
    (h : env n = some (.array id (.prim p) items)) :
    kindOf env (.index pos (.name pos' n) place) = some p := by
  change (match env n with
    | some (.array _ (.prim p) _) => some p
    | _ => none) = _
  rw [h]

lemma armValue_numbers {p q : Primitive} (hp : p.isNumeric = true) (hq : q.isNumeric = true) :
    armValue (some p) (some q) = convertTo (p.common q) := by
  funext v
  change (if p.isNumeric && q.isNumeric then convertTo (p.common q) v else .value v) = _
  rw [hp, hq]
  rfl

lemma armValue_truths : armValue (some .boolean) (some .boolean) = .value :=
  rfl

lemma evaluate_literal (v : Literal) : evaluate env (.literal pos v) = .value (Lowering.literalValue v) :=
  rfl

lemma evaluate_name : evaluate env (.name pos n) = .ofOption (env n) :=
  rfl

lemma evaluate_unary (op : UnaryOperator) :
    evaluate env (.unary pos op x) = (evaluate env x).andThen (unary op) :=
  rfl

lemma evaluate_shift (op : ShiftOperator) :
    evaluate env (.binary pos (.shift op) l r) =
      (evaluate env l).andThen fun a => (evaluate env r).andThen (shift op a) :=
  rfl

lemma evaluate_compare (op : CompareOperator) :
    evaluate env (.binary pos (.compare op) l r) =
      (evaluate env l).andThen fun a => (evaluate env r).andThen (compare op a) :=
  rfl

lemma evaluate_cast {t : TypeName} {p : Primitive} (hbase : t.base = .primitive p) (hdims : t.dims = 0) :
    evaluate env (.cast pos t x) = (evaluate env x).andThen (convertTo p) := by
  change (match t.base, t.dims with
    | .primitive p, 0 => (evaluate env x).andThen (convertTo p)
    | _, _ => .unsupported) = _
  simp only [hbase, hdims]

lemma evaluate_conditional {f : Value → Outcome} (hf : armValue (kindOf env yes) (kindOf env no) = f) :
    evaluate env (.conditional pos c yes no) = (evaluate env c).andThen
      (select ((evaluate env yes).andThen f) ((evaluate env no).andThen f)) := by
  rw [← hf]
  rfl

lemma evaluate_index :
    evaluate env (.index pos array place) =
      (evaluate env array).andThen fun a => (evaluate env place).andThen (element a) :=
  rfl

lemma evaluate_length : evaluate env (.field pos array "length") = (evaluate env array).andThen length :=
  rfl

end Forms

end Direct

/-! ### Outcomes by kind -/

namespace Outcome

variable {arrays : Bool} {o o' : Outcome} {p q : Primitive}

lemma andThen_assoc (o : Outcome) (f g : Value → Outcome) :
    (o.andThen f).andThen g = o.andThen fun v => (f v).andThen g := by
  cases o <;> rfl

lemma Fits.andThen {f : Value → Outcome} (h : o.Fits arrays p)
    (hf : ∀ v, v.kind? = some p → (f v).Fits arrays q) : (o.andThen f).Fits arrays q := by
  cases o with
  | value v => exact hf v h
  | threw e => exact h
  | unsupported => exact h

lemma Fits.andThen_congr {f g : Value → Outcome} (h : o.Fits arrays p)
    (hfg : ∀ v, v.kind? = some p → f v = g v) : o.andThen f = o.andThen g := by
  cases o with
  | value v => exact hfg v h
  | threw e => rfl
  | unsupported => rfl

lemma Fits.andThen_value (h : o.Fits arrays p) : o.andThen .value = o := by
  cases o <;> rfl

lemma fits_ofOption {r : Option Value} (h : ∃ v, r = some v ∧ v.kind? = some p) :
    (ofOption r).Fits arrays p := by
  obtain ⟨v, rfl, hv⟩ := h
  exact hv

end Outcome

namespace Direct

open Outcome (Fits)

variable {arrays : Bool} {o o' : Outcome} {p q : Primitive} {a b v : Value}

lemma convertTo_same (h : v.kind? = some p) : convertTo p v = .value v := by
  rw [convertTo, Value.toKind?_of_kind h, Outcome.ofOption]

lemma convertTo_value (hv : v.kind? = some p) (hp : p.isNumeric = true) (hq : q.isNumeric = true) :
    ∃ w, convertTo q v = .value w ∧ w.kind? = some q := by
  obtain ⟨w, hw, hkind⟩ := Value.exists_toKind? hv hp hq
  exact ⟨w, by rw [convertTo, hw, Outcome.ofOption], hkind⟩

/-- Conversions never fail on numbers, so that it does not matter whether the left operand is converted
before the right one is evaluated. -/
lemma convert_both {m n : Primitive} (ho : o.Fits arrays p) (hp : p.isNumeric = true)
    (hm : m.isNumeric = true) (f : Value → Value → Outcome) :
    (o.andThen (convertTo m)).andThen (fun x => (o'.andThen (convertTo n)).andThen (f x)) =
      o.andThen fun a => o'.andThen fun b =>
        (convertTo m a).andThen fun x => (convertTo n b).andThen (f x) := by
  rw [Outcome.andThen_assoc]
  apply ho.andThen_congr
  intro a ha
  obtain ⟨x, hx, _⟩ := convertTo_value ha hp hm
  rw [hx]
  exact Outcome.andThen_assoc o' _ _

lemma promoteBoth_eq (ho : o.Fits arrays p) (ho' : o'.Fits arrays q) (hp : p.isNumeric = true)
    (f : Value → Value → Outcome) :
    o.andThen (fun a => o'.andThen (promoteBoth f a)) =
      (o.andThen (convertTo (p.common q))).andThen
        (fun x => (o'.andThen (convertTo (p.common q))).andThen (f x)) := by
  rw [convert_both ho hp (Primitive.isPromoted_common p q).isNumeric]
  apply ho.andThen_congr
  intro a ha
  apply ho'.andThen_congr
  intro b hb
  simp only [promoteBoth, ha, hb]

lemma shift_eq (op : ShiftOperator) (ho : o.Fits arrays p) (ho' : o'.Fits arrays q)
    (hp : p.isNumeric = true) :
    o.andThen (fun a => o'.andThen (shift op a)) =
      (o.andThen (convertTo p.promoted)).andThen
        (fun x => (o'.andThen (convertTo q.promoted)).andThen fun y => .ofOption (Value.shift? op x y)) := by
  rw [convert_both ho hp (Primitive.isPromoted_promoted hp).isNumeric]
  apply ho.andThen_congr
  intro a ha
  apply ho'.andThen_congr
  intro b hb
  simp only [shift, ha, hb]

lemma unary_eq {op : UnaryOperator} (hop : op ≠ .not) (ho : o.Fits arrays p) :
    o.andThen (unary op) =
      (o.andThen (convertTo p.promoted)).andThen fun x => .ofOption (unary.signed op x) := by
  rw [Outcome.andThen_assoc]
  apply ho.andThen_congr
  intro a ha
  cases op with
  | not => exact absurd rfl hop
  | _ => simp only [unary, ha]

/-- Numbers are not truth values or arrays, and so they are compared after their promotion. -/
lemma compare_eq (op : CompareOperator) (ho : o.Fits arrays p) (hp : p.isNumeric = true) :
    o.andThen (fun a => o'.andThen (compare op a)) =
      o.andThen fun a => o'.andThen (promoteBoth (compare.related op) a) := by
  apply ho.andThen_congr
  intro a ha
  cases a with
  | bool b =>
    obtain rfl := Option.some.inj ha
    cases hp
  | array => cases ha
  | _ => rfl

end Direct

end PredicateTrace
