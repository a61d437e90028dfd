import Localizer.Log.Record

/-!
# Where records go

The screen shows records from a level on that the user chooses, and a log file, if there is one,
holds all of them from `Level.debug` on. The sinks are the program's; a logger hands its records on
to the nearest logger above it. The names above a name are cut off at its dots, but of two dots side
by side the first is passed over, so that a logger whose name goes on with two dots after the
program's may not lead to the program.
-/

namespace Localizer.Log

open Text

/-! ## Loggers above loggers -/

/-- The names above a name, the nearest first: what stands before its last dot, and then the names
above that without its last character. -/
def namesAbove (name : Text) : List Text :=
  match h : cutLast? ['.'] name with
  | none => []
  | some (front, _) =>
    have : front.length - 1 < name.length := by
      have := congrArg List.length (eq_of_cutLast? h)
      simp at this
      omega
    front :: namesAbove front.dropLast
termination_by name.length

/-- Whether the records of a logger come to the program's, where `known` are the loggers that there
are. `steps` bounds how many loggers are passed. -/
def leadsToProgram (known : List Text) : (steps : Nat) → (name : Text) → Bool
  | 0, _ => false
  | steps + 1, name =>
    if name = programLogger then true
    else match (namesAbove name).find? (programLogger :: known).contains with
      | none => false
      | some above => leadsToProgram known steps above

/-- Records, each with whether it comes to the program's sinks. A logger is there from its first
record on. -/
def withOwner (known : List Text) : List Record → List (Record × Bool)
  | [] => []
  | r :: rest =>
    let known := r.logger :: known
    (r, leadsToProgram known (r.logger.length + 1) r.logger) :: withOwner known rest

/-! ## The sinks -/

/-- The user's choice of what is logged. -/
structure Options where
  /-- Show everything, with the components. -/
  verbose : Bool := false
  /-- Show problems only; `verbose` wins. -/
  quiet : Bool := false
  /-- Whether there is a log file. -/
  toFile : Bool := false
  deriving Repr, DecidableEq

namespace Options

/-- The level from which records are shown on the screen. -/
def consoleLevel (o : Options) : Level :=
  if o.verbose then .debug else if o.quiet then .warning else .info

/-- The level from which records are taken at all. -/
def loggerLevel (o : Options) : Level := if o.toFile then .debug else o.consoleLevel

/-- The levels of the sinks: the screen, and the file if there is one. -/
def sinkLevels (o : Options) : List Level :=
  if o.toFile then [o.consoleLevel, .debug] else [o.consoleLevel]

/-- What the screen shows of a record that comes to the program's sinks, or of one that does not:
that one is shown as it is if it is a problem. -/
def screenLine (o : Options) (r : Record) (isOurs : Bool) : Message :=
  if isOurs then
    if o.loggerLevel ≤ r.level && o.consoleLevel ≤ r.level then r.console o.verbose ++ ['\n']
    else []
  else if Level.warning ≤ r.level then r.body ++ ['\n']
  else []

/-- What the screen shows of the records, one line after the other. -/
def screen (o : Options) (records : List Record) : Message :=
  (withOwner [] records).flatMap fun p => o.screenLine p.1 p.2

/-- What a log file gets of a record that comes to the program's sinks. -/
def fileLine (o : Options) (time : Text) (r : Record) : Message :=
  if o.loggerLevel ≤ r.level && Level.debug ≤ r.level then r.fileLine time ++ ['\n'] else []

/-- What a log file gets of the records. -/
def file (o : Options) (time : Text) (records : List Record) : Message :=
  (withOwner [] records).flatMap fun p => if p.2 then o.fileLine time p.1 else []

end Options

end Localizer.Log
