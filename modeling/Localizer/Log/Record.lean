import Localizer.Text.CodePoint

/-!
# Log records

A run reports on its progress by records. A level is a number, of which a few have names; `console`
writes a record for the screen, and `fileLine` for a log file.
-/

namespace Localizer.Log

open Text

/-- The importance of a record. -/
abbrev Level := Int

namespace Level

def debug : Level := 10
def info : Level := 20
def warning : Level := 30
def error : Level := 40
def critical : Level := 50

/-- The name of a level; one without a name of its own is known by its number. -/
def name (l : Level) : Text :=
  if l = 0 then "NOTSET".toList
  else if l = debug then "DEBUG".toList
  else if l = info then "INFO".toList
  else if l = warning then "WARNING".toList
  else if l = error then "ERROR".toList
  else if l = critical then "CRITICAL".toList
  else "Level ".toList ++ ofInt l

end Level

/-- The name under which the whole program logs. -/
def programLogger : Text := "l10n_extract".toList

/-- The logger of a component of the program; that of the program itself for an empty name. -/
def loggerOf (component : Text) : Text :=
  if component.isEmpty then programLogger else programLogger ++ '.' :: component

/-- A report of a run. -/
structure Record where
  level : Level
  /-- The name of the logger: the program's, and a component's after a dot. -/
  logger : Text
  message : Message
  /-- The text of an error that the record carries, with its kind. -/
  exception : Option Message := none
  deriving Repr, DecidableEq

/-- The part of a logger's name after the last dot. -/
def component (logger : Text) : Text := (logger.reverse.takeWhile (· != '.')).reverse

/-- The line of an error: its kind, and its text if there is any. -/
def exceptionLine (kind detail : Text) : Message :=
  if detail.isEmpty then kind else kind ++ ": ".toList ++ detail

/-- The message of a record, and below it the error that it carries. -/
def Record.body (r : Record) : Message :=
  match r.exception with
  | some e => r.message ++ ['\n'] ++ e
  | none => r.message

/-- A record for the screen: problems with their level, and the component if asked for. -/
def Record.console (r : Record) (showComponent : Bool) : Message :=
  let tag := if showComponent then '[' :: (component r.logger ++ "] ".toList) else []
  let level := if Level.warning ≤ r.level then r.level.name.map Char.toLower ++ ": ".toList else []
  level ++ tag ++ r.body

/-- A record for a log file, after the time at which it was written. -/
def Record.fileLine (r : Record) (time : Text) : Message :=
  time ++ ' ' :: r.level.name ++ ' ' :: r.logger ++ ": ".toList ++ r.body

end Localizer.Log
