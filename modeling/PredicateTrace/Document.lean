import PredicateTrace.Text.Quote

/-!
# Documents

Trees of texts, lists and named fields in a fixed order, and the indented text that is printed for
them. The text is plain ASCII: any other character is written by its UTF-16 units.
-/

namespace PredicateTrace

/-- A document. -/
inductive Document
  | text (s : String)
  | list (items : List Document)
  | fields (entries : List (String × Document))

namespace Document

/-- The UTF-16 units of a character. -/
def units (c : Char) : List Nat :=
  let n := c.toNat
  if n < 0x10000 then [n]
  else [0xD800 + (n - 0x10000) / 0x400, 0xDC00 + (n - 0x10000) % 0x400]

/-- A character as it stands in a printed text. -/
def escapeChar (c : Char) : String :=
  match c with
  | '"' => "\\\""
  | '\\' => "\\\\"
  | '\n' => "\\n"
  | '\r' => "\\r"
  | '\t' => "\\t"
  | '\x0c' => "\\f"
  | '\x08' => "\\b"
  | c =>
    if ' ' ≤ c && c ≤ '~' then c.toString
    else String.join ((units c).map fun unit => "\\u" ++ Text.hex 4 unit)

/-- A text as it is printed. -/
def quote (s : String) : String :=
  "\"" ++ String.join (s.toList.map escapeChar) ++ "\""

/-- A line break and the indentation of a level. -/
def newline (level : Nat) : String :=
  "\n" ++ String.ofList (List.replicate (2 * level) ' ')

/-- Parts on lines of their own between two brackets; nothing to enclose is not split. -/
def enclose (left right : String) (level : Nat) (parts : List String) : String :=
  if parts.isEmpty then left ++ right
  else
    left ++ newline (level + 1) ++ String.intercalate ("," ++ newline (level + 1)) parts
      ++ newline level ++ right

mutual

/-- The text of a document at a level of indentation. -/
def renderAt (level : Nat) : Document → String
  | .text s => quote s
  | .list items => enclose "[" "]" level (renderItems level items)
  | .fields entries => enclose "\x7b" "\x7d" level (renderFields level entries)

/-- The texts of the items of a list. -/
def renderItems (level : Nat) : List Document → List String
  | [] => []
  | d :: rest => renderAt (level + 1) d :: renderItems level rest

/-- The texts of the fields of a document. -/
def renderFields (level : Nat) : List (String × Document) → List String
  | [] => []
  | (name, d) :: rest => (quote name ++ ": " ++ renderAt (level + 1) d) :: renderFields level rest

end

/-- The text of a document. -/
def render (d : Document) : String :=
  renderAt 0 d

end Document

end PredicateTrace
