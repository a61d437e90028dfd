import Localizer.Log.Record
import Localizer.Number.Decimal
import Localizer.Path.Basic
import Localizer.Text.Blank

/-!
# Starting the generator

After sources were changed the localizations class is generated by a command. Whatever becomes of
the command is reported and never stops a run. How a command is started is a parameter: a
`Launcher` says what came of a call.
-/

namespace Localizer.Project

open Text Number Log

/-- A command to start. -/
structure Call where
  /-- The command and its arguments. -/
  args : List Text
  /-- The folder in which it runs. -/
  folder : Path
  /-- How many seconds it may take. -/
  timeout : Option Double
  deriving Repr, DecidableEq

/-- What came of a call. -/
inductive Launch where
  /-- The command ended with a code, after writing to its two outputs. -/
  | exited (code : Int) (stdout stderr : Text)
  /-- There is no such command. -/
  | notFound (detail : Text)
  | timedOut
  /-- The command could not be started for another reason. -/
  | failed (detail : Text)
  /-- The command holds the character zero, so that no system can start it. -/
  | zeroCharacter
  /-- The command ended after it wrote bytes that are no UTF-8. -/
  | notDecodable
  /-- The time limit is longer than any wait can be. -/
  | timeTooLong
  /-- The time limit is not a number. -/
  | timeNotNumber
  /-- Nothing is known of what became of the command. -/
  | noAnswer
  deriving Repr, DecidableEq

/-- A way to start commands. -/
abbrev Launcher := Call → Launch

/-- What became of the generator. -/
structure GeneratorOutcome where
  ok : Bool
  /-- The code with which the command ended, if it ended. -/
  code : Option Int
  stdout : Text := []
  stderr : Text := []
  /-- Why the command did not end. -/
  error : Option Text := none
  deriving Repr, DecidableEq

/-- A call on which nothing can be reported. -/
inductive CallError where
  /-- A call without a time limit was said to have run out of time. -/
  | noTimeLimit
  /-- A call without a command was said to have found none. -/
  | noCommand
  | zeroCharacter
  | notDecodable
  | timeTooLong
  | timeNotNumber
  | noAnswer
  deriving Repr, DecidableEq

/-- The command that generates the localizations class. -/
def generatorCommand : List Text := ["flutter".toList, "gen-l10n".toList]

/-- A record of the generator. -/
def generatorReport (level : Level) (message : Text) : Record :=
  { level, logger := loggerOf "gen_l10n".toList, message }

/-- A report on an output of the command, unless it is blank. -/
def outputReport (level : Level) (title output : Text) : List Record :=
  if (strip output).isEmpty then [] else [generatorReport level (title ++ strip output)]

/-- What is reported when a command did not end. -/
def notRun (command reason : Text) : List Record × GeneratorOutcome :=
  ([generatorReport .warning ("Failed to run ".toList ++ command ++ ": ".toList ++ reason),
    generatorReport .warning ("Please run \"".toList ++ command ++
      "\" manually after the process completes.".toList)],
   { ok := false, code := none, error := some reason })

/-- Start a command and report what became of it. -/
def runGenerator (launch : Launcher) (call : Call) :
    List Record × Except CallError GeneratorOutcome :=
  let command := join [' '] call.args
  let start := generatorReport .info ("Running ".toList ++ command)
  let stopped := fun (reason : Text) =>
    let (records, outcome) := notRun command reason
    (start :: records, Except.ok outcome)
  match launch call with
  | .notFound detail =>
    match call.args with
    | name :: _ => stopped (name ++ " executable not found (".toList ++ detail ++ [')'])
    | [] => ([start], .error .noCommand)
  | .timedOut =>
    match call.timeout with
    | some t => stopped ("timed out after ".toList ++ t.brief ++ ['s'])
    | none => ([start], .error .noTimeLimit)
  | .failed detail => stopped detail
  | .zeroCharacter => ([start], .error .zeroCharacter)
  | .notDecodable => ([start], .error .notDecodable)
  | .timeTooLong => ([start], .error .timeTooLong)
  | .timeNotNumber => ([start], .error .timeNotNumber)
  | .noAnswer => ([start], .error .noAnswer)
  | .exited 0 stdout stderr =>
    (start :: generatorReport .info (command ++ " completed successfully".toList) ::
      outputReport .debug [] stdout,
     .ok { ok := true, code := some 0, stdout, stderr })
  | .exited code stdout stderr =>
    (start :: generatorReport .warning
        (command ++ " exited with code ".toList ++ ofInt code) ::
      (outputReport .warning "Error output: ".toList stderr ++
        outputReport .warning "Standard output: ".toList stdout),
     .ok { ok := false, code := some code, stdout, stderr })

end Localizer.Project
