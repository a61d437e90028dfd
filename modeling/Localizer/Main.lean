import Std.Time
import Localizer.Command.Performance
import Localizer.Project.Script

/-!
# The program

The program reads the project's folder and the log file into a tree, carries out its arguments on
it, writes the files that differ after that, and prints what was to be printed. It starts no other
program, so that the generator is left to the user.
-/

namespace Localizer.Program

open Text Workspace Command

/-- The text of a path on disk. -/
def onDisk (p : Path) : String := String.ofList p.toText

/-- Read the folder at `path`, with what could not be read. Links are not followed. -/
partial def readFolder (path : Path) : IO (Directory × List (List Text)) := do
  let mut d := Directory.empty
  let mut unreadable := []
  for entry in ← (System.mkFilePath [onDisk path]).readDir do
    let name := entry.fileName.toList
    let here : Path := { path with parts := path.parts ++ [Message.ofText name] }
    match (← entry.path.symlinkMetadata).type with
    | .dir =>
      let (inside, closed) ← readFolder here
      d := d.set name (.folder inside)
      unreadable := unreadable ++ closed
    | .file =>
      try d := d.set name (.file (← IO.FS.readBinFile (onDisk here)))
      catch _ =>
        d := d.set name (.file .empty)
        unreadable := unreadable ++ [here.names]
    | _ => pure ()
  return (d, unreadable)

/-- Add the folder of a project to a tree: the path itself, or the folder of a file. -/
def addProject (t : Tree) (path : Path) : IO Tree := do
  let folder := if ← (System.mkFilePath [onDisk path]).isDir then path else path.parent
  unless ← (System.mkFilePath [onDisk folder]).isDir do return t
  let (d, unreadable) ← readFolder folder
  return { t with root := t.root.put (.folder d) folder.names,
                  unreadable := t.unreadable ++ unreadable }

/-- Add the log file to a tree, or only its folder if it is not there yet. -/
def addLog (t : Tree) (path : Path) : IO Tree := do
  if (t.exists? path).toOption.getD false then return t
  if ← (System.mkFilePath [onDisk path]).pathExists then
    return { t with root := t.root.put (.file (← IO.FS.readBinFile (onDisk path))) path.names }
  unless ← (System.mkFilePath [onDisk path.parent]).isDir do return t
  return (t.makeFolders path.parent).1

/-- The files that the arguments speak of. -/
def readTree (folder : Path) (args : List Text) : IO Tree := do
  match Invocation.ofArgs args with
  | .error _ => return {}
  | .ok i =>
    let t ← addProject {} (folder.child i.choices.path).resolve
    match i.choices.logFile with
    | some (.text name) => addLog t (logPath folder name)
    | _ => return t

/-- Write the files that differ. -/
def writeTree (old new : Directory) : IO Unit := do
  for (names, content) in old.changedFrom new do
    let path : Path := ⟨['/'], names.map Message.ofText⟩
    IO.FS.createDirAll (onDisk path.parent)
    IO.FS.writeBinFile (onDisk path) content

/-- The time as a log file shows it. -/
def timeText : IO Text := do
  return ((← Std.Time.PlainDateTime.now).format "uuuu-MM-dd HH:mm:ss,SSS").toList

end Localizer.Program

open Localizer Localizer.Program in
/-- Carry out the arguments on the files of the folder in which the program is started. -/
def main (args : List String) : IO UInt32 := do
  let args := args.map String.toList
  let folder := (Path.ofText (← IO.currentDir).toString.toList).resolve
  let t ← readTree folder args
  let p := Command.perform Project.Script.carryOut (← timeText) folder t args
  writeTree t.root p.tree.root
  IO.print (String.ofList p.stdout.view)
  IO.eprint (String.ofList p.stderr.view)
  match p.ending with
  | .ok code => return code.toUInt32
  | .error e =>
    IO.eprintln (String.ofList e.message.view)
    return 1
