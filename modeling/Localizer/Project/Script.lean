import Localizer.Host.Shell.Run
import Localizer.Project.Generator
import Localizer.Text.Lines
import Localizer.Text.Quoted

/-!
# Starting scripts

Commands that are scripts for the shell are carried out without starting anything: `carryOut` knows
the shell and no other program. Scripts and what they print are texts of bytes for the shell, and
are encoded for it and decoded after it.

This is one way to start commands among others. What is proved of runs is proved for any `Launcher`,
and uses neither this module nor the shell.
-/

namespace Localizer.Project.Script

open Text Number Host

/-- The bytes of a text, each as a character. -/
def toBytes (s : Text) : Text :=
  (String.ofList s).toUTF8.toList.map fun b => Char.ofNat b.toNat

/-- The text that bytes encode. -/
def ofBytes? (s : Text) : Option Text :=
  (String.fromUTF8? ⟨(s.map fun c => UInt8.ofNat c.toNat).toArray⟩).map String.toList

/-! ## Time limits -/

/-- A time limit in microseconds. -/
def limitOf : Double → Nat
  | .finite false m e => let (n, d) := Double.toRatio m e; n * 1000000 / d
  | _ => 0

/-- Whether a time limit in milliseconds does not fit 32 bits. -/
def isTooLong : Double → Bool
  | .finite false m e =>
    let (n, d) := Double.toRatio m e
    Nat.pow 2 31 * d ≤ n * 1000
  | .infinite false => true
  | _ => false

/-! ## Calls -/

/-- What comes of a request. -/
def answer (shell : Text) (folder : Path) (timeout : Option Double) (r : Shell.Request) : Launch :=
  match timeout with
  | some .nan => .timeNotNumber
  | timeout =>
    if timeout.any isTooLong then .timeTooLong
    else
      match r with
      | .refused reason => refused reason
      | .file _ path _ => refused ("cannot open ".toList ++ path ++ ": No such file".toList)
      | .input options params => perform options [] shell params
      | .script options source name params => perform options source name params
where
  /-- What comes of arguments that are wrong. -/
  refused (reason : Text) : Launch :=
    .exited 2 [] (shell ++ ": 0: ".toList ++ reason ++ ['\n'])
  /-- What comes of a script. -/
  perform (options source name : Text) (params : List Text) : Launch :=
    let result := Shell.script (toBytes name) (params.map toBytes) options
      (toBytes folder.toText) (timeout.map limitOf) (toBytes source)
    match result.ending, ofBytes? result.out, ofBytes? result.err with
    | .timedOut, _, _ => .timedOut
    | .exited n, some out, some err =>
      .exited n (normalizeNewlines out) (normalizeNewlines err)
    | .killed n, some out, some err =>
      .exited (-(n : Int)) (normalizeNewlines out) (normalizeNewlines err)
    | _, _, _ => .notDecodable

/-- The names by which the shell can be called. -/
def shellNames : List Text := ["/bin/sh".toList, "sh".toList]

/-- What comes of a call of another program: none is there. A name that is empty or stands for a
folder is that of no program, and one of more than 255 bytes is no name. -/
def refusal (name : Text) : Launch :=
  let about := fun s : String => s.toList ++ quoted name
  let parts := name.splitOn '/'
  let isFolder := fun part : Text => part.isEmpty || part == ['.'] || part == "..".toList
  if parts.any fun part => 255 < (toBytes part).length then
    .failed (about "[Errno 36] File name too long: ")
  else if parts.all isFolder then .failed (about "[Errno 13] Permission denied: ")
  else .notFound (about "[Errno 2] No such file or directory: ")

/-- What comes of a call. -/
def carryOut : Launcher := fun call =>
  if call.args.any (·.contains '\x00') then .zeroCharacter
  else
    match call.args with
    | [] => .notFound []
    | shell :: args =>
      if shellNames.contains shell then
        answer shell call.folder call.timeout (Shell.Request.ofArgs shell args)
      else refusal shell

end Localizer.Project.Script
