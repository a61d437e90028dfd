import Localizer.Log.Sinks
import Localizer.Workspace.Access

/-!
# The log file

The log file is opened before anything else is done, and every record is appended to it when it is
made. So what a run writes to the same file stands between the records, or takes the place of those
that came before.
-/

namespace Localizer.Log

open Workspace

/-- A log file. -/
structure File where
  path : Path
  options : Options
  /-- What is shown as the time of a record. -/
  time : Text
  deriving Repr, DecidableEq

namespace File

/-- The tree in which the log file is there. -/
def create (f : File) (t : Tree) : Except AccessError Tree := t.append f.path .empty

/-- The tree after records were appended to the log file. A record that cannot be encoded is
lost. -/
def append (f : File) (t : Tree) (records : List Record) : Tree :=
  records.foldl (fun t r =>
    match (f.options.file f.time [r]).toText? with
    | some line => (t.append f.path (Tree.encode line)).toOption.getD t
    | none => t) t

end File

end Localizer.Log
