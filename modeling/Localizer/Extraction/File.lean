import Localizer.Diff.Unified
import Localizer.Extraction.Session
import Localizer.Log.File
import Localizer.Resource.Dictionary
import Localizer.Workspace.Access

/-!
# Extracting from files

A ledger keeps what became of the files of an extraction. Each file is read, put through the
session and, if literals were replaced, written back; a dry run keeps a diff instead. A file that
cannot be read or written is reported and passed over, unless no file could be used in that way.
-/

namespace Localizer.Extraction

open Text Dart Message Resource Edit Log Workspace

/-- What became of the files so far. -/
structure Ledger where
  /-- The files as they are now. -/
  tree : Tree := {}
  session : Session := {}
  /-- How many files were read. -/
  scanned : Nat := 0
  /-- The files whose literals were replaced. -/
  modified : List Text := []
  /-- The files that could not be read or written, in order. -/
  failed : List Text := []
  /-- The diffs of a dry run. -/
  diffs : Dictionary Text Message := []
  /-- All reports, in order. -/
  records : List Record := []
  /-- The file to which reports are appended. -/
  logFile : Option Log.File := none

namespace Ledger

/-- Add reports, and append them to the log file. -/
def log (g : Ledger) (rs : List Record) : Ledger :=
  { g with
    records := g.records ++ rs
    tree := match g.logFile with
      | some f => f.append g.tree rs
      | none => g.tree }

/-- Note a file as modified. -/
def markModified (g : Ledger) (label : Text) : Ledger :=
  if g.modified.contains label then g else { g with modified := g.modified ++ [label] }

/-- Note a file as failed, and report why. -/
def markFailed (g : Ledger) (label action : Text) (e : AccessError) : Ledger :=
  { g.log [report .warning (ofText ("Skipping ".toList ++ label ++ ": could not ".toList ++
      action ++ " file (".toList) ++ e.message ++ [')'])] with failed := g.failed ++ [label] }

end Ledger

/-- Why a file was not finished. -/
inductive FileError where
  | source (e : SourceError)
  /-- The file's path or its new content is such that no file could have it. -/
  | access (e : AccessError)
  deriving Repr, DecidableEq

/-- How files are treated. -/
structure FileOptions where
  windows : Windows := {}
  filter : Filter := .ofExtra []
  /-- How to replace literals, if they are to be replaced. -/
  target : Option Localizations := none
  /-- Keep diffs and write nothing. -/
  dryRun : Bool := false

/-- The report on literals that stayed because they are constant. -/
def constReport (label : Text) (count : Nat) : List Record :=
  if count = 0 then [] else
    [report .warning (ofText (label ++ ": left ".toList ++ ofNat count ++
      " literals inside constant expressions unchanged".toList))]

/-- The report on a part file that could not get the import. -/
def partReport (label : Text) (skipped : Bool) : List Record :=
  if skipped then
    [report .warning (ofText
      (label ++ " is a part file; add the localizations import to its library".toList))]
  else []

/-- The report on a file whose literals were replaced. -/
def storedReport (label : Text) (count : Nat) : Record :=
  report .debug (ofText ("Rewrote ".toList ++ ofNat count ++ " literals in ".toList ++ label))

/-- Note a file that cannot be used, unless no file could be used in that way. -/
def refuse (g : Ledger) (label action : Text) (e : AccessError) : Ledger × Except FileError Bool :=
  if e.isMisuse then (g, .error (.access e)) else (g.markFailed label action e, .ok false)

/-- Write a buffer back, or keep its diff in a dry run. -/
def store (o : FileOptions) (g : Ledger) (path : Path) (label content : Text) (r : Outcome) :
    Ledger × Except FileError Bool :=
  if o.dryRun then
    let diff := Diff.unified ("a/".toList ++ label) ("b/".toList ++ label) content r.content
    ({ g with diffs := Dictionary.set label diff g.diffs }.markModified label, .ok true)
  else match g.tree.writeMessage path r.content with
    | (tree, .error e) => refuse { g with tree } label "write".toList e
    | (tree, .ok ()) =>
      (({ g with tree }.log [storedReport label r.replaced]).markModified label, .ok true)

/-- Put one file through the ledger's session; the answer says whether it was modified. An empty
`display` stands for the path itself. -/
def processFile (o : FileOptions) (g : Ledger) (path : Path) (display : Text) :
    Ledger × Except FileError Bool :=
  let label := if display.isEmpty then path.toText else display
  match g.tree.readText path with
  | .error e => refuse g label "read".toList e
  | .ok content =>
    let (session, records, result) := processSource o.windows o.filter o.target g.session content
    let g := { g with session, scanned := g.scanned + 1 }.log records
    match result with
    | .error e => (g, .error (.source e))
    | .ok r =>
      let g := g.log (constReport label r.skippedConst)
      if o.target.isNone || !r.changed then (g, .ok false)
      else store o (g.log (partReport label r.importSkipped)) path label content r

end Localizer.Extraction
