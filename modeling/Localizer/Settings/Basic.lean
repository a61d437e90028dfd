import Localizer.Number.Decimal
import Localizer.Path.Basic
import Localizer.Text.Quoted

/-!
# Settings

The settings of one run, with their defaults. `withOverrides` puts the values that are given in the
place of those that are there. A setting that should be a text may be given without one; then the
paths that need it do not exist.
-/

namespace Localizer

open Text Number

/-- The value of a setting that should be a text. -/
inductive Setting where
  | text (m : Message)
  /-- The setting was given without a text: it is an empty list. -/
  | empty
  deriving Repr, DecidableEq

namespace Setting

instance : Coe Message Setting := ⟨text⟩

/-- The text of a setting, if it has one. -/
def text? : Setting → Option Message
  | text m => some m
  | empty => none

/-- A setting as it is written into other texts. -/
def shown : Setting → Message
  | text m => m
  | empty => Message.ofText "[]".toList

end Setting

/-- The settings of a run. -/
structure Settings where
  /-- The root of the project. -/
  root : Path
  /-- The folder with the sources, taken from the root. -/
  inputDir : Setting := .text "lib".toList
  /-- The folder for the resource file, taken from the root. -/
  outputDir : Setting := .text "lib/l10n".toList
  /-- The name of the resource file. -/
  templateArb : Setting := .text "app_en.arb".toList
  /-- The class that sources refer to. -/
  className : Setting := .text "AppLocalizations".toList
  /-- The locale of the resource file. -/
  locale : Setting := .text "en".toList
  /-- The module to import; it is made from the manifest if it is not given. -/
  importUri : Option Message := none
  /-- Whether literals are replaced in the sources. -/
  replace : Bool := false
  /-- Whether changes are only shown. -/
  dryRun : Bool := false
  /-- Whether the manifest is checked for the packages that are needed. -/
  checkDependencies : Bool := true
  /-- Whether the generator is started after sources were changed. -/
  runGenerator : Bool := true
  /-- How many seconds the generator may take. -/
  generatorTimeout : Double := .ofRatio false 300 1
  /-- Ignore rules besides those of the project's ignore file. -/
  excludePaths : List Message := []
  /-- Texts that mark literals to be left alone. -/
  ignorePatterns : List Message := []
  deriving Repr, DecidableEq

/-- Values to put in the place of settings. -/
structure Overrides where
  inputDir : Option Setting := none
  outputDir : Option Setting := none
  templateArb : Option Setting := none
  className : Option Setting := none
  locale : Option Setting := none
  importUri : Option Message := none
  replace : Option Bool := none
  dryRun : Option Bool := none
  checkDependencies : Option Bool := none
  runGenerator : Option Bool := none
  generatorTimeout : Option Double := none
  excludePaths : Option (List Message) := none
  ignorePatterns : Option (List Message) := none
  deriving Repr, DecidableEq

namespace Settings

/-- The settings with the given values in place. -/
def withOverrides (s : Settings) (o : Overrides) : Settings :=
  { s with
    inputDir := o.inputDir.getD s.inputDir
    outputDir := o.outputDir.getD s.outputDir
    templateArb := o.templateArb.getD s.templateArb
    className := o.className.getD s.className
    locale := o.locale.getD s.locale
    importUri := o.importUri.or s.importUri
    replace := o.replace.getD s.replace
    dryRun := o.dryRun.getD s.dryRun
    checkDependencies := o.checkDependencies.getD s.checkDependencies
    runGenerator := o.runGenerator.getD s.runGenerator
    generatorTimeout := o.generatorTimeout.getD s.generatorTimeout
    excludePaths := o.excludePaths.getD s.excludePaths
    ignorePatterns := o.ignorePatterns.getD s.ignorePatterns }

/-- The folder with the sources. -/
def inputPath (s : Settings) : Option Path := s.inputDir.text?.map s.root.child

/-- The folder for the resource file. -/
def outputPath (s : Settings) : Option Path := s.outputDir.text?.map s.root.child

/-- The resource file. -/
def arbPath (s : Settings) : Option Path := do return (← s.outputPath).child (← s.templateArb.text?)

/-- The names of the settings. -/
def fieldNames : List Text :=
  ["root".toList, "input_dir".toList, "output_dir".toList, "template_arb".toList,
   "class_name".toList, "locale".toList, "import_uri".toList, "replace".toList,
   "dry_run".toList, "check_dependencies".toList, "run_generator".toList,
   "generator_timeout".toList, "exclude_paths".toList, "ignore_patterns".toList]

/-- The names that are none of a setting, in order. -/
def unknownFields (names : List Text) : List Text := sort (names.filter (!fieldNames.contains ·))

/-- A truth value in words. -/
def boolText (b : Bool) : Text := if b then "True".toList else "False".toList

/-- Messages in quotes, between brackets. -/
def listText (ms : List Message) : Text := '[' :: join ", ".toList (ms.map (·.inQuotes)) ++ [']']

/-- The settings by name in one line, for the log. -/
def describe (s : Settings) : Text :=
  let values : List Text :=
    [s.root.toMessage.inQuotes, s.inputDir.shown.inQuotes, s.outputDir.shown.inQuotes,
     s.templateArb.shown.inQuotes, s.className.shown.inQuotes, s.locale.shown.inQuotes,
     (s.importUri.map Message.inQuotes).getD "None".toList, boolText s.replace,
     boolText s.dryRun, boolText s.checkDependencies, boolText s.runGenerator,
     s.generatorTimeout.toText, listText s.excludePaths, listText s.ignorePatterns]
  let pairs := (fieldNames.zip values).map fun p => quoted p.1 ++ ": ".toList ++ p.2
  '{' :: join ", ".toList pairs ++ ['}']

end Settings

end Localizer
