import Localizer.Host.Shell.Builtin

/-!
# Calls of a shell

What the arguments of a shell ask for: a script that is one of them, a script in a file, or one that
comes from the input. Options stand before all of them (`Request.ofArgs`).
-/

namespace Localizer.Host.Shell

open Text

/-- What the arguments of a shell ask for, with the letters of the options that are set. -/
inductive Request where
  /-- A script with its name and parameters. -/
  | script (options source name : Text) (params : List Text)
  /-- A script in a file with its parameters. -/
  | file (options path : Text) (params : List Text)
  /-- A script that comes from the input. -/
  | input (options : Text) (params : List Text)
  /-- The arguments are wrong. -/
  | refused (reason : Text)
  deriving Repr, DecidableEq

/-- The options of a shell that is being called. -/
structure CallOptions where
  letters : Text := []
  /-- Whether the script is one of the arguments. -/
  isGiven : Bool := false
  deriving Repr, DecidableEq

namespace CallOptions

/-- Set an option or take it back. -/
def set (o : CallOptions) (isOn : Bool) (c : Char) : CallOptions :=
  let others := o.letters.filter (· != c)
  { o with letters := if isOn then others ++ [c] else others }

/-- Take the options of an argument; the arguments after it, of which the letter for long names
takes one. -/
def takeLetters (isOn : Bool) : (letters : Text) → CallOptions → List Text →
    Except Text (CallOptions × List Text)
  | [], o, rest => .ok (o, rest)
  | 'c' :: cs, o, rest => takeLetters isOn cs { o with isGiven := true } rest
  | 'l' :: cs, o, rest => takeLetters isOn cs o rest
  | 'o' :: cs, o, rest =>
    match rest with
    | [] => takeLetters isOn cs o rest
    | name :: rest =>
      match Builtin.optionNames.lookup name with
      | some c => takeLetters isOn cs (o.set isOn c) rest
      | none => .error ("Illegal option -o ".toList ++ name)
  | c :: cs, o, rest =>
    if Builtin.optionNames.any (·.2 == c) then takeLetters isOn cs (o.set isOn c) rest
    else .error ("Illegal option -".toList ++ [c])

/-- Take the options at the front of arguments. -/
def take : (fuel : Nat) → CallOptions → List Text → Except Text (CallOptions × List Text)
  | 0, o, args => .ok (o, args)
  | fuel + 1, o, args =>
    match args with
    | ['-'] :: rest => .ok (o, rest)
    | ['-', '-'] :: rest => .ok (o, rest)
    | ('-' :: cs) :: rest => do
      let (o, rest) ← takeLetters true cs o rest
      take fuel o rest
    | ('+' :: cs) :: rest => do
      let (o, rest) ← takeLetters false cs o rest
      take fuel o rest
    | args => .ok (o, args)

end CallOptions

/-- The request of the arguments of a shell with a name. -/
def Request.ofArgs (shell : Text) (args : List Text) : Request :=
  match CallOptions.take (args.length + 1) {} args with
  | .error reason => .refused reason
  | .ok (o, []) =>
    if o.isGiven then .refused "-c requires an argument".toList
    else .input (o.set true 's').letters []
  | .ok (o, first :: rest) =>
    if o.isGiven then .script o.letters first (rest.headD shell) rest.tail
    else if o.letters.contains 's' then .input o.letters (first :: rest)
    else .file o.letters first rest

/-- Report that a shell cannot control jobs if it is told to. -/
def refuseControl : ShellM Unit := do
  if (← hasOption 'm') || (← hasOption 'i') then
    complain "can't access tty; job control turned off".toList
    modifyEnv fun e => { e with options := e.options.filter (· != 'm') }

/-! ## Programs -/

/-- What is started for a command that the shell does not carry out itself. -/
inductive Launch where
  | tool (run : List Text → ShellM Nat)
  /-- A program that starts other programs, by its name. -/
  | launcher (name : Text)
  /-- A script in a file. -/
  | script (path : Text)

/-- What is started for a name; none if there is nothing of that name. -/
def launch? (name : Text) : ShellM (Option Launch) := do
  match ← programPath? name with
  | none => return none
  | some place =>
    let path ← absolute place
    let own := programName path
    if own = path then
      return if (← world).executables.contains path then some (.script place) else none
    else if launchers.contains own then return some (.launcher own)
    else
      match tool? own with
      | some t => return some (.tool t)
      | none => return (builtin? own).map .tool

end Localizer.Host.Shell
