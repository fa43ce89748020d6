import PredicateTrace.Value.Equality
import PredicateTrace.Yaml.Mark

/-!
# Values written in YAML

The part of YAML in which settings and the values of variables are written: scalars, lists and maps in
brackets, and maps with one entry on each line.
-/

namespace PredicateTrace.Yaml

/-- The first mark of some marks. -/
def found? (marks : List Placed) : Option Mark :=
  marks.head?.map Placed.mark

/-- An error at the first of the remaining marks. Where the text breaks off, this is what is wrong. -/
def fail {α : Type} (source : Marks) (rest : List Placed) (cause : Cause) : Except Error α :=
  match rest with
  | placed :: _ => .error ⟨placed.position, cause⟩
  | [] => .error ⟨source.finish, source.broken.getD cause⟩

/-- A map with an entry added; a later entry replaces an earlier one with the same key. -/
def addEntry (position : Position) (key v : Value) (entries : List (Value × Value)) :
    Except Error (List (Value × Value)) :=
  if key.isHashable then .ok (Value.insertEntry (fun i j => i == j) key v entries)
  else .error ⟨position, .unhashableKey⟩

/-- The place of the first of some marks. -/
def placeOf (source : Marks) (marks : List Placed) : Position :=
  (marks.head?.map Placed.position).getD source.finish

/-- Whether an entry of a map begins on a line after `line`. -/
def beginsEntry (line : Nat) : List Placed → Bool
  | ⟨.scalar _, p⟩ :: ⟨.colon, _⟩ :: _ => line < p.line
  | _ => false

mutual

/-- Reads a value. The first argument bounds the depth of the recursion. -/
def node (source : Marks) : Nat → List Placed → Except Error (Value × List Placed)
  | 0, marks => fail source marks (.expectedNode (found? marks))
  | depth + 1, marks =>
    match marks with
    | ⟨.scalar v, _⟩ :: rest => .ok (v, rest)
    | ⟨.openList, _⟩ :: rest => do
      let (items, rest) ← items source depth [] rest
      return (.list items, rest)
    | ⟨.openMap, _⟩ :: rest => do
      let (entries, rest) ← entries source depth [] rest
      return (.map entries, rest)
    | marks => fail source marks (.expectedNode (found? marks))

/-- Reads the items of a list up to its closing bracket. -/
def items (source : Marks) : Nat → List Value → List Placed → Except Error (List Value × List Placed)
  | 0, _, marks => fail source marks (.expectedNode (found? marks))
  | depth + 1, known, marks =>
    match marks with
    | ⟨.closeList, _⟩ :: rest => .ok (known, rest)
    | marks => do
      let (v, rest) ← node source depth marks
      match rest with
      | ⟨.closeList, _⟩ :: rest => return (known ++ [v], rest)
      | ⟨.comma, _⟩ :: rest => items source depth (known ++ [v]) rest
      | rest => fail source rest (.expectedSeparator .closeList (found? rest))

/-- Reads the entries of a map up to its closing bracket. A key may stand without a value. -/
def entries (source : Marks) : Nat → List (Value × Value) → List Placed →
    Except Error (List (Value × Value) × List Placed)
  | 0, _, marks => fail source marks (.expectedNode (found? marks))
  | depth + 1, known, marks =>
    match marks with
    | ⟨.closeMap, _⟩ :: rest => .ok (known, rest)
    | marks => do
      let (key, rest) ← node source depth marks
      let (v, rest) ← match rest with
        | ⟨.colon, _⟩ :: rest =>
          match found? rest with
          | some .comma | some .closeMap => pure (.null, rest)
          | _ => node source depth rest
        | rest => pure (.null, rest)
      let known ← addEntry (placeOf source marks) key v known
      match rest with
      | ⟨.closeMap, _⟩ :: rest => return (known, rest)
      | ⟨.comma, _⟩ :: rest => entries source depth known rest
      | rest => fail source rest (.expectedSeparator .closeMap (found? rest))

end

/-- Reads the entries of a map without brackets, one on each line. -/
def lineEntries (source : Marks) : Nat → List (Value × Value) → List Placed →
    Except Error (List (Value × Value))
  | 0, known, _ => .ok known
  | depth + 1, known, ⟨.scalar key, position⟩ :: ⟨.colon, colon⟩ :: rest => do
    let (v, rest) ← if rest.isEmpty && source.broken.isNone || beginsEntry colon.line rest
      then pure (.null, rest) else node source depth rest
    let known ← addEntry position key v known
    match rest with
    | [] =>
      match source.broken with
      | some cause => throw ⟨source.finish, cause⟩
      | none => return known
    | ⟨.colon, p⟩ :: _ => throw ⟨p, .nestedEntry⟩
    | next :: _ =>
      if beginsEntry colon.line rest then lineEntries source depth known rest
      else throw ⟨next.position, .expectedEntry next.mark⟩
  | _ + 1, known, [] => .ok known
  | _ + 1, _, next :: _ => .error ⟨next.position, .expectedEntry next.mark⟩

/-- The value that a text writes; an empty text writes nothing. -/
def read (text : String) : Except Error Value := do
  let source := marksOf text
  let depth := source.marks.length + 1
  match source.marks with
  | [] =>
    match source.broken with
    | some cause => throw ⟨source.finish, cause⟩
    | none => return .null
  | ⟨.scalar _, _⟩ :: ⟨.colon, _⟩ :: _ =>
    return .map (← lineEntries source depth [] source.marks)
  | marks =>
    let (v, rest) ← node source depth marks
    match rest, source.broken with
    | next :: _, _ => throw ⟨next.position, .expectedEnd next.mark⟩
    | [], some cause => throw ⟨source.finish, cause⟩
    | [], none => return v

end PredicateTrace.Yaml
