import Localizer.Settings.Basic
import Localizer.Workspace.Access
import Localizer.Yaml.Value

/-!
# The settings file

A project may keep its settings in a YAML mapping. A value that a setting cannot use is passed
over, so that the default stays. A file that is no YAML, or no mapping, is refused.
-/

namespace Localizer.Settings

open Text Number Yaml Workspace

/-- The name of the settings file. -/
def fileName : Text := ".l10n-extract.yml".toList

/-- Why there are no settings. -/
inductive LoadError where
  /-- The file cannot be read. -/
  | access (e : AccessError)
  /-- The file has no value. -/
  | yaml (e : Yaml.Error)
  /-- The file has a value other than a mapping. -/
  | notMapping
  /-- Settings of these names are not known. -/
  | unknownFields (names : List Text)
  deriving Repr, DecidableEq

/-- What is wrong with the settings. -/
def LoadError.message : LoadError → Message
  | access e => e.message
  | yaml e => "Failed to parse ".toList ++ fileName ++ ": ".toList ++ e.message
  | notMapping => fileName ++ " must contain a mapping at the root".toList
  | unknownFields names => "Unknown configuration fields: ".toList ++ join ", ".toList names

/-- Whether the settings themselves are wrong, not merely closed or with a value out of range. -/
def LoadError.isInvalid : LoadError → Bool
  | access _ => false
  | yaml e => e == .malformed
  | notMapping => true
  | unknownFields _ => true

/-! ## Using values -/

/-- The digits of a whole number, unless there are too many. -/
def intText (n : Int) : Except Yaml.Error Text :=
  if maxDigits < (Text.ofNat n.natAbs).length then .error .badScalar else .ok (ofInt n)

/-- A value as a message: texts and numbers, but no truth values. -/
def messageOf? : Value → Except Yaml.Error (Option Message)
  | .text m => .ok (some m)
  | .int n => (intText n).map fun t => some (Message.ofText t)
  | .float x => .ok (some (Message.ofText x.toText))
  | .nan _ => .ok (some (Message.ofText Double.nan.toText))
  | _ => .ok none

/-- A value as a setting that is a text. -/
def settingOf? (v : Value) : Except Yaml.Error (Option Setting) :=
  (messageOf? v).map (·.map .text)

/-- A value as a number: numbers, and texts that name one. -/
def doubleOf? : Value → Except Yaml.Error (Option Double)
  | .int n =>
    match Double.ofInt? n with
    | some x => .ok (some x)
    | none => .error .tooLarge
  | .float x => .ok (some x)
  | .nan _ => .ok (some .nan)
  | .text m => .ok (Double.ofText? m.view)
  | _ => .ok none

/-- A value as a truth value: truth values, and the usual words. -/
def boolOf? : Value → Option Bool
  | .bool b => some b
  | .text m =>
    let word := (strip m.view).map Char.toLower
    if word = "true".toList ∨ word = "yes".toList ∨ word = "1".toList then some true
    else if word = "false".toList ∨ word = "no".toList ∨ word = "0".toList then some false
    else none
  | _ => none

/-- An item of a list as a message: texts, numbers and truth values. -/
def itemMessage? : Value → Except Yaml.Error (Option Message)
  | .bool b => .ok (some (Message.ofText (boolText b)))
  | v => messageOf? v

/-- A value of a document as a list of messages: a text is a list of one. -/
def messagesOf (d : Document) : Value → Except Yaml.Error (List Message)
  | .text m => .ok [m]
  | .binary bytes => .ok (bytes.map fun b => Message.ofText (Text.ofNat b))
  | v =>
    match d.collection? v with
    | some (.list items) => do return (← items.mapM itemMessage?).filterMap id
    | _ => .ok []

/-- A list that is not empty. -/
def nonempty? (ms : List Message) : Option (List Message) := if ms.isEmpty then none else some ms

/-- The values that the entries of a mapping give to settings. -/
def overridesOf (d : Document) (entries : List (Value × Value)) :
    Except Yaml.Error Overrides := do
  let get := fun (name : String) => (valueAt? name.toList entries).getD .null
  return {
    inputDir := ← settingOf? (get "input")
    outputDir := ← settingOf? (get "output")
    templateArb := ← settingOf? (get "template_arb")
    className := ← settingOf? (get "class_name")
    locale := ← settingOf? (get "locale")
    importUri := ← messageOf? (get "import_uri")
    replace := boolOf? (get "replace")
    checkDependencies := boolOf? (get "check_dependencies")
    runGenerator := boolOf? (get "run_generator")
    generatorTimeout := ← doubleOf? (get "generator_timeout")
    excludePaths := nonempty? (← messagesOf d (get "exclude_paths"))
    ignorePatterns := nonempty? (← messagesOf d (get "ignore_patterns")) }

/-! ## Loading -/

/-- The settings file that a path stands for: in the folder, beside another file, or itself. -/
def filePath (t : Tree) (p : Path) : Except AccessError Path := do
  if ← t.isFolder p then resolved (p.child fileName)
  else if p.name ≠ Message.ofText fileName then resolved (p.parent.child fileName)
  else resolved p

/-- The settings of a text, for a project at a root. -/
def ofText (root : Path) (s : Text) : Except LoadError Settings := do
  let defaults : Settings := { root }
  if (strip s).isEmpty then return defaults
  let d ← (Yaml.load s).mapError .yaml
  match d.root, d.entries? d.root with
  | .null, _ => return defaults
  | _, some entries =>
    return defaults.withOverrides (← (overridesOf d entries).mapError .yaml)
  | _, none => .error .notMapping

/-- The settings for a path; the defaults if there is no settings file. -/
def load (t : Tree) (p : Path) : Except LoadError Settings := do
  let file ← (filePath t p).mapError .access
  if ← (t.exists? file).mapError .access then
    ofText file.parent (← (t.readLines file).mapError .access)
  else return { root := file.parent }

end Localizer.Settings
