import PredicateTrace.Resolver
import PredicateTrace.Text.Case
import PredicateTrace.Value.Format
import PredicateTrace.Yaml

/-!
# Settings

The budget of reports, the imports and the level of logging, read from a file. The fields of the file are
validated in this order, and the first one that is wrong is reported.
-/

namespace PredicateTrace

/-- Settings. The imports are dotted names of classes by simple name. -/
structure Settings where
  budget : Nat
  imports : List (String × String)
  logLevel : String
  deriving DecidableEq, Repr

namespace Settings

/-- The settings that hold where none are given. -/
def default : Settings :=
  ⟨Formatter.defaultBudget, [], "WARNING"⟩

/-- The smallest budget that can be set. -/
def leastBudget : Nat := 10

/-- The levels of logging. -/
def logLevels : List String :=
  ["CRITICAL", "ERROR", "WARNING", "INFO", "DEBUG"]

/-- What is wrong with a field. -/
inductive FieldCause
  | notInteger
  | unreadableInteger
  | fractionalInteger
  | infiniteInteger
  | hugeInteger
  | tooSmall
  | notText
  | notMap
  | unknownLevel (level : String)

def FieldCause.message : FieldCause → String
  | .notInteger => "Input should be a valid integer"
  | .unreadableInteger => "Input should be a valid integer, unable to parse string as an integer"
  | .fractionalInteger => "Input should be a valid integer, got a number with a fractional part"
  | .infiniteInteger => "Input should be a finite number"
  | .hugeInteger => "Unable to parse input string as an integer, exceeded maximum size"
  | .tooSmall => "Input should be greater than or equal to " ++ toString leastBudget
  | .notText => "Input should be a valid string"
  | .notMap => "Input should be a valid dictionary"
  | .unknownLevel level => "Value error, unknown log level " ++ Text.quote level

/-- Why there are no settings. -/
inductive Error
  | missingFile
  /-- The path is that of a directory. -/
  | directory
  | malformed (e : Yaml.Error)
  | notMap
  /-- A key is no text. -/
  | keyKind
  | field (place : List String) (cause : FieldCause)

/-- A text without the zeros after its decimal point, if nothing else comes after it. -/
def withoutZeroFraction (text : List Char) : List Char :=
  match text.span (· ≠ '.') with
  | (whole, '.' :: fraction) => if fraction.all (· = '0') then whole else text
  | _ => text

/-- The whole number that a text writes, where a fraction of zeros is allowed. -/
def readInteger? (text : String) : Option Int :=
  let stripped := withoutZeroFraction (Text.trim Text.isNumeralSpace text.toList)
  if stripped.all fun c => c.toNat < 128 then Number.wholeNumber? (String.ofList stripped) else none

/-- The whole number that a value is accepted for. A floating number must be one of 64 bits. -/
def integer (v : Value) : Except FieldCause Int :=
  match v.whole?, v.fractional?, v with
  | some n, _, _ => .ok n
  | none, some x, _ =>
    match Number.parts x with
    | .finite negative m e =>
      let n := Number.truncate negative m e
      if Number.compareInt n x != some .eq then .error .fractionalInteger
      else if -2 ^ 63 < n ∧ n < 2 ^ 63 then .ok n
      else .error .hugeInteger
    | _ => .error .infiniteInteger
  | none, none, .str text =>
    match readInteger? text with
    | some n => .ok n
    | none => .error .unreadableInteger
  | none, none, _ => .error .notInteger

/-- The budget that a value sets. -/
def readBudget (v : Value) : Except FieldCause Nat := do
  let n ← integer v
  if n < leastBudget then throw .tooSmall else return n.toNat

/-- A text field. -/
def readText (v : Value) : Except FieldCause String :=
  match v with
  | .str text => .ok text
  | _ => .error .notText

/-- The level of logging that a value sets; its case does not matter. -/
def readLevel (v : Value) : Except FieldCause String := do
  let text ← readText v
  let level := Text.toUpper text
  if logLevels.contains level then return level else throw (.unknownLevel text)

/-- An error in a field. -/
def inField {α : Type} (place : List String) (e : Except FieldCause α) : Except Error α :=
  e.mapError (.field place)

/-- A key as it is named in the place of an error: texts as they are, truth values as numbers. -/
def keyName (key : Value) : String :=
  match key.whole? with
  | some n => toString n
  | none => key.hostText fun _ => ""

/-- The imports that the entries of a map set. -/
def readImports : List (Value × Value) → Except Error (List (String × String))
  | [] => .ok []
  | (key, v) :: rest => do
    let simple ← inField ["imports", keyName key, "[key]"] (readText key)
    let target ← inField ["imports", keyName key] (readText v)
    return (simple, target) :: (← readImports rest)

/-- The value of a field that is given. -/
def given? (name : String) (entries : List (Value × Value)) : Option Value :=
  (entries.find? fun entry => match entry.1 with
    | .str key => key == name
    | _ => false).map Prod.snd

/-- Whether the keys of a map are texts. -/
def hasTextKeys (entries : List (Value × Value)) : Bool :=
  entries.all fun entry => match entry.1 with
    | .str _ => true
    | _ => false

/-- The settings that the entries of a map give; unknown fields are ignored. -/
def ofEntries (entries : List (Value × Value)) : Except Error Settings := do
  if !hasTextKeys entries then throw .keyKind
  let budget ← match given? "length_hint" entries with
    | some v => inField ["length_hint"] (readBudget v)
    | none => pure default.budget
  let imports ← match given? "imports" entries with
    | some (.map imports) => readImports imports
    | some _ => throw (.field ["imports"] .notMap)
    | none => pure default.imports
  let logLevel ← match given? "log_level" entries with
    | some v => inField ["log_level"] (readLevel v)
    | none => pure default.logLevel
  return ⟨budget, imports, logLevel⟩

/-- The settings that the text of a file gives; a file without content gives the default ones. -/
def ofText (text : String) : Except Error Settings := do
  match (Yaml.read text).mapError .malformed with
  | .error e => throw e
  | .ok v =>
    if !v.isTruthy then return default
    match v with
    | .map entries => ofEntries entries
    | _ => throw .notMap

/-- The message of an error about the settings at a path. -/
def Error.message (path : String) : Error → String
  | .missingFile => "config file not found: " ++ path
  | .directory => "config file is a directory: " ++ path
  | .malformed e =>
    locatedText ("invalid YAML: " ++ e.cause.message) (some (toString e.position.line))
      (some (toString e.position.column)) (some path)
  | .notMap => locatedText "config must be a mapping" none none (some path)
  | .keyKind => locatedText "keys must be strings" none none (some path)
  | .field place cause =>
    locatedText (String.intercalate "." place ++ ": " ++ cause.message) none none (some path)

end Settings

/-- A file of settings that cannot be used. -/
structure SettingsError where
  path : String
  error : Settings.Error

def SettingsError.message (e : SettingsError) : String :=
  e.error.message e.path

/-- Where settings come from: the files by path, the path that the environment names, and the settings
that are in use, once they are loaded. -/
structure Configuration where
  files : List (String × String)
  named : Option String
  current : Option Settings

namespace Configuration

/-- The file that is read when no other one is named. -/
def defaultFile : String := "powerassert.yaml"

/-- A path without the parts that mean nothing. -/
def normalPath (path : String) : String :=
  let parts := (path.splitOn "/").filter fun part => part ≠ "" && part ≠ "."
  let relative := String.intercalate "/" parts
  if path.startsWith "/" then "/" ++ relative else if parts.isEmpty then "." else relative

/-- Whether a path is that of a directory that always exists. -/
def isDirectory (path : String) : Bool :=
  path = "." || path = "/" || path = ".."

/-- The file that settings are loaded from: the given one, the one that the environment names, or the
default one if it exists. -/
def source? (c : Configuration) (path : Option String) : Option String :=
  match path with
  | some path => some (normalPath path)
  | none =>
    match c.named.filter fun name => !name.isEmpty with
    | some name => some (normalPath name)
    | none => if (c.files.lookup defaultFile).isSome then some defaultFile else none

/-- Loads settings. -/
def load (c : Configuration) (path : Option String) : Except SettingsError Settings :=
  match c.source? path with
  | none => .ok .default
  | some path =>
    match c.files.lookup path with
    | some text => (Settings.ofText text).mapError (SettingsError.mk path)
    | none => .error ⟨path, if isDirectory path then .directory else .missingFile⟩

/-- The settings in use, which are loaded on the first time; a failure is not remembered. -/
def settings (c : Configuration) : Except SettingsError Settings × Configuration :=
  match c.current with
  | some s => (.ok s, c)
  | none =>
    match c.load none with
    | .ok s => (.ok s, { c with current := some s })
    | .error e => (.error e, c)

/-- Forgets the settings in use. -/
def reset (c : Configuration) : Configuration :=
  { c with current := none }

/-- Writes a file. -/
def write (c : Configuration) (path text : String) : Configuration :=
  { c with files := (path, text) :: c.files.filter fun file => file.1 != path }

/-- Removes a file. -/
def remove (c : Configuration) (path : String) : Configuration :=
  { c with files := c.files.filter fun file => file.1 != path }

end Configuration

end PredicateTrace
