import Localizer.Path.Basic
import Localizer.Project.GeneratorConfig
import Localizer.Workspace.Access
import Localizer.Yaml.Value

/-!
# The project's manifest

The manifest names the project's package and the packages that it depends on. From the package's
name comes the import of the generated module, which must lie below `lib`.
-/

namespace Localizer.Project

open Text Yaml Workspace

/-- The name of the manifest. -/
def manifestFile : Text := "pubspec.yaml".toList

/-- The packages that localizations need, with the lines that declare them. -/
def requiredPackages : List (Text × Text) :=
  [("intl".toList, "intl: ^0.19.0".toList),
   ("flutter_localizations".toList, "flutter_localizations:\n    sdk: flutter".toList)]

/-- What the manifest says. -/
structure Manifest where
  /-- The name of the package. -/
  name : Option Message := none
  /-- The names of the packages that it depends on; none for a key that is no text. -/
  dependencies : List (Option Message) := []
  deriving Repr, DecidableEq

/-- Why there is no manifest. -/
inductive ManifestError where
  | notFound (path : Message)
  /-- The manifest has no value. -/
  | yaml (path : Message) (e : Yaml.Error)
  /-- The manifest has a value other than a mapping. -/
  | notMapping (path : Message)
  | access (e : AccessError)
  deriving Repr, DecidableEq

namespace ManifestError

/-- What is wrong with the manifest. -/
def message : ManifestError → Message
  | notFound path => "pubspec.yaml not found at ".toList ++ path ++
      ". Make sure you're in a Flutter project root.".toList
  | yaml path e => "Failed to parse ".toList ++ path ++ ": ".toList ++ e.message
  | notMapping path =>
    "Failed to parse ".toList ++ path ++ ": expected a mapping at the root".toList
  | access e => e.message

/-- Whether the manifest is missing or malformed, and not merely closed or with a value out of
range. -/
def isFatal : ManifestError → Bool
  | notFound _ => true
  | yaml _ e => e == .malformed
  | notMapping _ => true
  | access _ => false

end ManifestError

namespace Manifest

/-- A key that is a text. -/
def keyText? : Value → Option Message
  | .text m => some m
  | _ => none

/-- The manifest that the entries of a mapping are. -/
def ofEntries (d : Document) (entries : List (Value × Value)) : Manifest where
  name := match valueAt? "name".toList entries with
    | some (.text m) => if m.isEmpty then none else some m
    | _ => none
  dependencies :=
    let found := (valueAt? "dependencies".toList entries).bind d.entries?
    (found.getD []).map fun e => keyText? e.1

/-- The manifest of a text, which came from a path. -/
def ofText (path : Message) (s : Text) : Except ManifestError Manifest := do
  let d ← (Yaml.load s).mapError (.yaml path)
  match d.root, d.entries? d.root with
  | .null, _ => return {}
  | _, some entries => return ofEntries d entries
  | _, none => .error (.notMapping path)

/-- The manifest of the project at a root. -/
def load (t : Tree) (root : Path) : Except ManifestError Manifest := do
  let path := root.child manifestFile
  if ← (t.exists? path).mapError .access then
    ofText path.toMessage (← (t.readLines path).mapError .access)
  else .error (.notFound path.toMessage)

/-- The lines that declare the packages that are missing. -/
def missing (m : Manifest) : List Text :=
  (requiredPackages.filter fun p => !m.dependencies.contains (some (Message.ofText p.1))).map
    Prod.snd

end Manifest

/-! ## The import -/

/-- The message with slashes for backslashes. -/
def forwardSlashes (m : Message) : Message :=
  m.map fun p => if p = CodePoint.ofChar '\\' then Path.slash else p

/-- The address by which sources import the generated module; none without a package name, or if
the module does not lie below `lib`. -/
def importUri? (package : Option Message) (outputDir outputFile : Message) : Option Message := do
  let name ← package
  if name.isEmpty then none
  else
    let module_ := (Path.ofMessage (forwardSlashes outputDir)).child "generated".toList
      |>.child outputFile
    match module_.isAbsolute, module_.parts with
    | false, first :: rest =>
      if first = Message.ofText "lib".toList then
        some ("package:".toList ++ name ++ ['/'] ++ (Path.mk [] rest).toMessage)
      else none
    | _, _ => none

/-- The import of an address. -/
def importStatement (uri : Message) : Message := "import '".toList ++ uri ++ "';".toList

end Localizer.Project
