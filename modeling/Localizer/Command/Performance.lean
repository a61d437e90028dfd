import Localizer.Command.Invocation
import Localizer.Extraction.Run
import Localizer.Log.Sinks
import Localizer.Settings.File

/-!
# Carrying out a command

`perform` takes the arguments, the folder in which the program was started and the files, and gives
what is printed, the files after that, and how the program ends. The screen shows the records and
then, if the program ends badly, why. The log file is opened before anything else is done.
-/

namespace Localizer.Command

open Text Log Workspace Project Extraction

/-- A failure that the program does not explain to the user. -/
inductive Fault where
  | logFile (e : AccessError)
  /-- The log file has no name. -/
  | noLogName
  | settings (e : Settings.LoadError)
  | manifest (e : ManifestError)
  deriving Repr, DecidableEq

/-- What went wrong, in words. -/
def Fault.message : Fault → Message
  | logFile e => e.message
  | noLogName => "the log file has no name".toList
  | settings e => e.message
  | manifest e => e.message

/-- What came of a command. -/
structure Performance where
  tree : Tree
  stdout : Message := []
  stderr : Message := []
  /-- The code with which the program ends. -/
  ending : Except Fault Nat := .ok 0

/-- What a task has done, before its records go to the screen. -/
structure Work where
  tree : Tree
  records : List Record := []
  stdout : Message := []
  /-- What is said at the end. -/
  closing : Message := []
  ending : Except Fault Nat := .ok 0

/-! ## The summary of a run -/

/-- A path as it is seen from a folder, if it lies below it. -/
def seenFrom (folder p : Path) : Message :=
  ((p.relativeTo? folder).map Path.toMessage).getD p.toMessage

/-- The diffs of a dry run, in the order of their files. -/
def diffLines (r : Result) : List Message :=
  (r.diffs.mergeSort fun a b => le a.1 b.1).map fun (path, diff) =>
    if diff.isEmpty then Message.ofText ("(no diff for ".toList ++ path ++ [')']) else diff

/-- How many files and strings there were. -/
def countLine (r : Result) : Text :=
  "Scanned ".toList ++ ofNat r.scanned ++ " files, ".toList ++
    (if r.dryRun then "would modify ".toList else "modified ".toList) ++
    ofNat r.modified.length ++ ", found ".toList ++ ofNat r.resources ++
    " localizable strings".toList

/-- How many files could not be used. -/
def skippedLine (r : Result) : Text :=
  "Skipped ".toList ++ ofNat r.failed.length ++ " unreadable or unwritable files".toList

/-- What is left to the user when the generator failed. -/
def manualLine : Text :=
  "Run \"flutter gen-l10n\" manually to generate the localizations class".toList

/-- The summary of a run, for a user in a folder. -/
def summary (folder : Path) (r : Result) : List Message :=
  (if r.dryRun then diffLines r else []) ++ [Message.ofText (countLine r)] ++
  (r.published.arbPath.map
    fun p => "ARB template written to ".toList ++ seenFrom folder p).toList ++
  (r.published.configPath.map
    fun p => "Generator config written to ".toList ++ seenFrom folder p).toList ++
  (if r.failed.isEmpty then [] else [Message.ofText (skippedLine r)]) ++
  (if r.published.generator.any (!·.ok) then [Message.ofText manualLine] else [])

/-- Lines as they are printed. -/
def printed (ls : List Message) : Message := ls.flatMap (· ++ ['\n'])

/-! ## The tasks -/

/-- What is said when a run could not start because the project lacks what it needs. -/
def errorLine (message : Message) : Message := printed ["Error: ".toList ++ message]

/-- What is said when a run stopped. -/
def stoppedLines (e : RunError) : Message :=
  if e.isFatal then errorLine e.message
  else printed ["l10n-extract failed: ".toList ++ e.message,
    "Run with --verbose for more details.".toList]

/-- Run over the project at a path. -/
def extract (launch : Launcher) (folder : Path) (log : Option Log.File) (t : Tree) (c : Choices) :
    Work :=
  match Settings.load t (folder.child c.path) with
  | .error e =>
    if e.isInvalid then { tree := t, closing := printed [e.message], ending := .ok 1 }
    else { tree := t, ending := .error (.settings e) }
  | .ok s =>
    match run launch (s.withOverrides c.overrides) t log with
    | (g, .error e) =>
      { tree := g.tree, records := g.records, closing := stoppedLines e, ending := .ok 1 }
    | (g, .ok r) =>
      { tree := g.tree, records := g.records, stdout := printed (summary folder r) }

/-- The manifest of the project at a path. -/
def manifestAt (folder : Path) (t : Tree) (c : Choices) : Except ManifestError Manifest := do
  Manifest.load t (← (resolved (folder.child c.path)).mapError .access)

/-- Look for the packages that the project at a path needs. -/
def check (folder : Path) (log : Option Log.File) (t : Tree) (c : Choices) : Work :=
  match manifestAt folder t c with
  | .error e =>
    if e.isFatal then { tree := t, closing := errorLine e.message, ending := .ok 1 }
    else { tree := t, ending := .error (.manifest e) }
  | .ok m =>
    if m.missing.isEmpty then
      { tree := t, stdout := printed ["All localization dependencies present".toList] }
    else
      let g := ({ tree := t, logFile := log } : Ledger).log (missingReport m.missing)
      { tree := g.tree, records := g.records, ending := .ok 1
        closing := printed [Message.ofText ("Missing localization dependencies. ".toList ++
          "Run: flutter pub get after adding them.".toList)] }

/-- Do what the user asked for. -/
def work (launch : Launcher) (folder : Path) (log : Option Log.File) (t : Tree) (i : Invocation) :
    Work :=
  match i.task with
  | .extract => extract launch folder log t i.choices
  | .check => check folder log t i.choices

/-! ## The log -/

/-- The log file as seen from a folder. -/
def logPath (folder : Path) (name : Message) : Path := (folder.child name).resolve

/-- What is logged. -/
def logOptions (c : Choices) : Options := ⟨c.verbose, c.quiet, c.logFile.isSome⟩

/-- The log file that the user chose, if any; `time` is what it shows as the time. -/
def logFile (folder : Path) (time : Text) (c : Choices) : Except Fault (Option Log.File) :=
  match c.logFile with
  | none => .ok none
  | some (.text name) => .ok (some ⟨logPath folder name, logOptions c, time⟩)
  | some .empty => .error .noLogName

/-- The tree in which the log file is there, if the user chose one. -/
def openLog (log : Option Log.File) (t : Tree) : Except Fault Tree :=
  match log with
  | some f => (f.create t).mapError .logFile
  | none => .ok t

/-- Do what the user asked for and log it. -/
def performInvocation (launch : Launcher) (time : Text) (folder : Path) (t : Tree)
    (i : Invocation) : Except Fault Performance := do
  let log ← logFile folder time i.choices
  let w := work launch folder log (← openLog log t) i
  return {
    tree := w.tree
    stdout := w.stdout
    stderr := (logOptions i.choices).screen w.records ++ w.closing
    ending := w.ending }

/-- Carry out what arguments ask for. -/
def perform (launch : Launcher) (time : Text) (folder : Path) (t : Tree) (args : List Text) :
    Performance :=
  match Invocation.ofArgs args with
  | .ok i =>
    match performInvocation launch time folder t i with
    | .ok p => p
    | .error e => { tree := t, ending := .error e }
  | .error .help => { tree := t, stdout := printed [helpText] }
  | .error (.usage e) =>
    { tree := t, stderr := printed [Message.ofText ("error: ".toList ++ e.message)],
      ending := .ok 2 }

end Localizer.Command
