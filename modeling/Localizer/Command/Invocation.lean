import Localizer.Command.Grammar
import Localizer.Settings.Basic

/-!
# The command line

The program has two commands. `extract` runs over a project, with options for the settings, and
`check` looks for the packages that a project needs. Options for the log may stand before the
command or after it, but for the log file, which stands before it.
-/

namespace Localizer.Command

open Text

/-- The setting that the value of an option gives. -/
def settingOf : Option Text → Setting
  | some v => .text v
  | none => .empty

/-- What the user chose. -/
structure Choices where
  verbose : Bool := false
  quiet : Bool := false
  logFile : Option Setting := none
  /-- Where the project is. -/
  path : Text := ['.']
  overrides : Overrides := {}
  deriving Repr, DecidableEq

/-- A command of the program. -/
inductive Task where
  | extract
  | check
  deriving Repr, DecidableEq

/-- A command with what the user chose. -/
structure Invocation where
  task : Task
  choices : Choices
  deriving Repr, DecidableEq

namespace Choices

/-- The choices with another setting. -/
def override (f : Overrides → Overrides) (c : Choices) : Choices :=
  { c with overrides := f c.overrides }

end Choices

/-! ## The options -/

/-- The option that asks for help. -/
def helpOption : Opt Choices :=
  ⟨["-h".toList, "--help".toList], .help, "Show this help message and exit.".toList⟩

/-- The options for what the screen shows. -/
def verbosityOptions : List (Opt Choices) :=
  [⟨["-v".toList, "--verbose".toList], .flag ({ · with verbose := true }),
    "Show debug output, tagged with the component that produced it.".toList⟩,
   ⟨["-q".toList, "--quiet".toList], .flag ({ · with quiet := true }),
    "Only show warnings and errors; the summary is still printed.".toList⟩]

/-- The options before the command. -/
def generalOptions : List (Opt Choices) :=
  helpOption :: verbosityOptions ++
  [⟨["--log-file".toList], .value fun v c => { c with logFile := some (settingOf v) },
    "Also write detailed logs to this file.".toList⟩]

/-- An option for a setting that is a text. -/
def settingOption (names : List Text) (set : Setting → Overrides → Overrides)
    (purpose : String) : Opt Choices :=
  ⟨names, .value fun v => Choices.override (set (settingOf v)), purpose.toList⟩

/-- An option for a setting that is turned on or off. -/
def switchOption (names : List Text) (set : Overrides → Overrides) (purpose : String) :
    Opt Choices :=
  ⟨names, .flag (Choices.override set), purpose.toList⟩

/-- The options of `extract`. -/
def extractOptions : List (Opt Choices) :=
  helpOption :: verbosityOptions ++
  [settingOption ["-i".toList, "--input".toList] (fun v o => { o with inputDir := some v })
    "Directory to scan, relative to the project root (default: lib).",
   settingOption ["-o".toList, "--output".toList] (fun v o => { o with outputDir := some v })
    "Directory for localization files (default: lib/l10n).",
   settingOption ["--template-arb".toList] (fun v o => { o with templateArb := some v })
    "Template ARB file name (default: app_en.arb).",
   settingOption ["-c".toList, "--class-name".toList] (fun v o => { o with className := some v })
    "Name of the generated localization class (default: AppLocalizations).",
   settingOption ["--locale".toList] (fun v o => { o with locale := some v })
    "Locale written to @@locale in the template ARB (default: en).",
   settingOption ["--import-uri".toList] (fun v o => { o with importUri := some v.shown })
    "Import URI of the generated localizations module.",
   switchOption ["-r".toList, "--replace".toList] ({ · with replace := some true })
    "Replace hardcoded strings with localization calls.",
   switchOption ["--dry-run".toList] ({ · with replace := some true, dryRun := some true })
    "Preview source changes as unified diffs without writing any files.",
   switchOption ["--no-check-deps".toList] ({ · with checkDependencies := some false })
    "Skip the pubspec.yaml dependency check.",
   switchOption ["--no-gen".toList] ({ · with runGenerator := some false })
    "Do not run flutter gen-l10n after replacing strings."]

/-- The options of `check`. -/
def checkOptions : List (Opt Choices) := helpOption :: verbosityOptions

/-! ## The commands -/

namespace Task

/-- All commands. -/
def all : List Task := [extract, check]

/-- The name of a command. -/
def name : Task → Text
  | extract => "extract".toList
  | check => "check".toList

/-- What a command is for. -/
def purpose : Task → Text
  | extract => "Scan Dart sources, emit the ARB template and l10n.yaml.".toList
  | check => "Report localization dependencies missing from pubspec.yaml.".toList

/-- The options of a command. -/
def options : Task → List (Opt Choices)
  | extract => extractOptions
  | check => checkOptions

/-- The command of that name. -/
def ofName? (name : Text) : Option Task := all.find? (·.name == name)

end Task

/-- Read the arguments that follow the name of a command. -/
def readTask (task : Task) (c : Choices) (args : List Text) : Except Stop (Progress Choices) := do
  let args ← (readArgs task.options args).mapError .usage
  walk task.options (fun path c => { c with path }) args { choices := c }

/-- The command that arguments ask for. -/
def Invocation.ofArgs (args : List Text) : Except Stop Invocation := do
  let args ← (readArgs generalOptions args).mapError .usage
  let (general, name, rest) ← toCommand generalOptions args { choices := {} }
  match Task.ofName? name with
  | none => .error (.usage (.unknownCommand name (Task.all.map Task.name)))
  | some task =>
    let p ← readTask task general.choices rest
    match general.extras ++ p.extras with
    | [] => return ⟨task, p.choices⟩
    | extras => .error (.usage (.unrecognized extras))

/-! ## Help -/

/-- The lines about options. -/
def optionLines (opts : List (Opt Choices)) : List Text :=
  opts.map fun o => "  ".toList ++ join ", ".toList o.names ++ "  ".toList ++ o.purpose

/-- The help text. -/
def helpText : Text :=
  unlines (
    ["usage: l10n-extract [options] command [options] [path]".toList, [],
     "Extract hardcoded Flutter strings into ARB files for localization.".toList, [],
     "options:".toList] ++ optionLines generalOptions ++
    Task.all.flatMap fun t =>
      [[], t.name ++ ": ".toList ++ t.purpose] ++ optionLines t.options)

end Localizer.Command
