import Localizer.Path.Basic
import Localizer.Host.Shell.Reader
import Localizer.Text.Digit

/-!
# The state of a shell

A shell has variables, parameters, functions and descriptors of its own, and works on a world of
streams and files that it shares with the commands it starts. A file that was opened is read and
written from a position on, which all descriptors that refer to it share. The world has a clock,
which only waiting moves: a shell whose time is up is stopped. A command beside the script is
carried out when it is started, on a clock of its own, and what it prints is seen when the script
has waited for as long.
-/

namespace Localizer.Host.Shell

open Text

/-- What a descriptor refers to. -/
inductive Channel where
  | stream (id : Nat)
  /-- A file that was opened, by its order among all that were. -/
  | file (id : Nat)
  /-- A place that holds nothing and loses everything. -/
  | nowhere
  /-- A place that has no room for anything. -/
  | full
  deriving Repr, DecidableEq

/-- Whether a descriptor refers to a stream. -/
def Channel.isStream : Channel → Bool
  | stream _ => true
  | _ => false

/-- Text that was written and is not yet read. -/
structure Stream where
  unread : Text := []
  /-- What was written since and when, in reverse. -/
  written : List (Nat × Text) := []
  deriving Repr, DecidableEq

/-- All that is left to read from a stream. -/
def Stream.content (s : Stream) : Text := s.unread ++ s.written.reverse.flatMap (·.2)

/-- How a file is used that was opened. -/
inductive Use where
  | read
  | write
  /-- What is written goes to the end. -/
  | append
  | readWrite
  deriving Repr, DecidableEq

/-- A file that was opened. -/
structure OpenFile where
  path : Text
  use : Use
  /-- How much of it has been read or written over. -/
  position : Nat := 0
  /-- The content of a file that has no path any more. -/
  orphan : Option Text := none
  deriving Repr, DecidableEq

/-- A content with a text written over it from a position on. -/
def overwrite (content : Text) (position : Nat) (s : Text) : Text :=
  let before := content.take position
  before ++ List.replicate (position - before.length) '\x00' ++ s ++
    content.drop (position + s.length)

/-- A command that was started beside the script. -/
structure Job where
  /-- How it ends; zero is success. -/
  status : Nat
  /-- When it ends; none if it never does. -/
  ending : Option Nat
  /-- The signal that has stopped it. -/
  signal : Option Nat := none
  /-- Whether it keeps the output of the script open. -/
  holdsOutput : Bool := true
  /-- Whether its end was waited for. -/
  isReaped : Bool := false
  /-- Whether its end was reported. -/
  isReported : Bool := false
  deriving Repr, DecidableEq

/-- Whether a job has ended at a time. -/
def Job.isDone (j : Job) (time : Nat) : Bool := j.ending.any (· ≤ time)

/-- A signal that was sent to a shell. -/
structure SentSignal where
  time : Nat
  /-- The number of the shell. -/
  shell : Nat
  signal : Nat
  deriving Repr, DecidableEq

/-- What all commands of a script share. -/
structure World where
  streams : Array Stream := #[]
  /-- The files that were opened, in order. -/
  opened : Array OpenFile := #[]
  /-- Files by their paths. -/
  files : List (Text × Text) := []
  /-- The paths of the files that may be carried out. -/
  executables : List Text := []
  folders : List Text := []
  /-- The time since the start in microseconds. -/
  clock : Nat := 0
  /-- When the script is stopped. -/
  limit : Option Nat := none
  /-- The documents that stand in scripts. -/
  documents : Array Word := #[]
  /-- The commands beside the script, by their order. -/
  jobs : Array Job := #[]
  /-- Signals that shells have not answered. -/
  signals : List SentSignal := []
  /-- Streams of commands beside the script, with the order of the command and where what stands in
  them goes later. -/
  delayed : List (Nat × Nat × Channel) := []

namespace World

/-- The content of a file. -/
def file? (w : World) (path : Text) : Option Text := w.files.lookup path

/-- Whether a path names a place that keeps nothing. -/
def isDevice (path : Text) : Bool := path == "/dev/null".toList || path == "/dev/full".toList

/-- Whether there is something at a path: a file, a folder, or a place that keeps nothing. -/
def has (w : World) (path : Text) : Bool :=
  w.folders.contains path || (w.file? path).isSome || isDevice path

/-- Give a file a content. -/
def setFile (w : World) (path content : Text) : World :=
  { w with files := (path, content) :: w.files.filter (·.1 != path) }

/-- Open a file. -/
def openFile (w : World) (path : Text) (use : Use) : Channel × World :=
  (.file w.opened.size, { w with opened := w.opened.push { path, use } })

/-- The content of a file that was opened. -/
def contentOfFile (w : World) (o : OpenFile) : Text := o.orphan.getD ((w.file? o.path).getD [])

/-- Write to a file that was opened. -/
def writeFile (w : World) (id : Nat) (s : Text) : World :=
  match w.opened[id]? with
  | none => w
  | some o =>
    let content := w.contentOfFile o
    let position := if o.use = .append then content.length else o.position
    let o := { o with position := position + s.length }
    let after := overwrite content position s
    match o.orphan with
    | some _ =>
      { w with opened := w.opened.modify id fun _ => { o with orphan := some after } }
    | none => { w.setFile o.path after with opened := w.opened.modify id fun _ => o }

/-- Let the files that were opened keep their contents when paths are no longer theirs. -/
def releasePaths (w : World) (isGone : Text → Bool) : World :=
  { w with opened := w.opened.map fun o =>
      if o.orphan.isNone && isGone o.path then { o with orphan := some (w.contentOfFile o) }
      else o }

/-- A new stream with a content to read. -/
def openStream (w : World) (unread : Text) : Nat × World :=
  (w.streams.size, { w with streams := w.streams.push { unread } })

/-- The content of a stream. -/
def contentOf (w : World) (id : Nat) : Text := ((w.streams[id]?).map Stream.content).getD []

/-- Write to a channel. -/
def write (w : World) (c : Channel) (s : Text) : World :=
  match c with
  | .nowhere => w
  | .full => w
  | .file id => w.writeFile id s
  | .stream id => { w with streams := w.streams.modify id fun x =>
      { x with written := (w.clock, s) :: x.written } }

/-- Take from a stream what was written up to now. -/
def takeDue (w : World) (id : Nat) : List (Nat × Text) × World :=
  let written := ((w.streams[id]?).getD {}).written.reverse
  (written.filter (·.1 ≤ w.clock),
   { w with streams := w.streams.modify id fun x =>
     { x with written := (written.filter (w.clock < ·.1)).reverse } })

/-- Write what commands beside the script have printed up to now to where it goes, in the order in
which it was printed. -/
def release (w : World) : World :=
  let (due, w) := w.delayed.foldl (fun (due, w) (_, id, c) =>
    let (written, w) := w.takeDue id
    (due ++ written.map fun x => (x.1, c, x.2), w)) ([], w)
  (due.mergeSort fun a b => a.1 ≤ b.1).foldl (fun w x => w.write x.2.1 x.2.2) w

/-- Whether a channel can be read. -/
def isReadable (w : World) : Channel → Bool
  | .file id => (w.opened[id]?).any fun o => o.use == .read || o.use == .readWrite
  | _ => true

/-- All that can be read from a channel, which is empty after that. -/
def readAll (w : World) (c : Channel) : Text × World :=
  match c with
  | .nowhere => ([], w)
  | .full => ([], w)
  | .file id =>
    match w.opened[id]? with
    | none => ([], w)
    | some o =>
      let content := w.contentOfFile o
      (if w.isReadable c then content.drop o.position else [],
       { w with opened := w.opened.modify id fun o => { o with position := content.length } })
  | .stream id => (w.contentOf id, { w with streams := w.streams.modify id fun _ => {} })

/-- Put text back that was read from a channel. -/
def putBack (w : World) (c : Channel) (s : Text) : World :=
  match c with
  | .stream id => { w with streams := w.streams.modify id fun _ => { unread := s } }
  | .file id => { w with opened := w.opened.modify id fun o =>
      { o with position := o.position - s.length } }
  | _ => w

/-- Whether a channel takes what is written to it. -/
def isWritable (w : World) : Channel → Bool
  | .file id => (w.opened[id]?).any (·.use != .read)
  | .full => false
  | _ => true

end World

/-- A variable. -/
structure Var where
  value : Option Text := none
  isExported : Bool := false
  isReadonly : Bool := false
  deriving Repr, DecidableEq

/-- How far arguments have been searched for options. -/
structure OptionSearch where
  /-- The number of the next argument, from one on. -/
  index : Nat := 1
  /-- How much of the argument before it has been read, if it holds more options. -/
  offset : Option Nat := none
  deriving Repr, DecidableEq

/-- A function: the line of its definition and its body. -/
structure Function where
  line : Nat
  body : Command

/-- What a shell has for itself. -/
structure Env where
  /-- What the shell is called in messages. -/
  name : Text
  /-- The number of the shell among all that runs. -/
  number : Nat
  params : List Text := []
  vars : List (Text × Var) := []
  functions : List (Text × Function) := []
  channels : List (Nat × Channel) := []
  folder : Text
  line : Nat := 0
  /-- How the last command ended; zero is success. -/
  status : Nat := 0
  /-- How the last command ended whose output was taken by the command that is being prepared. -/
  outputStatus : Nat := 0
  /-- How many loops surround the command. -/
  loops : Nat := 0
  /-- How many functions surround the command. -/
  depth : Nat := 0
  /-- The variables to restore at the end of each function that is being carried out; a dash stands
  for the options. -/
  saved : List (List (Text × Option Var)) := []
  /-- The built-in command that is being carried out, for messages. -/
  builtin : Option Text := none
  /-- The options that are set, by their letters. -/
  options : Text := []
  /-- What to do at signals; the number zero stands for the end of the shell. -/
  traps : List (Nat × Text) := []
  /-- Whether the shell was started by a shell with the same number. -/
  isSubshell : Bool := false
  /-- The commands that were started beside the script, by their order, the last one first. -/
  jobs : List Nat := []
  /-- The order of the last such command, which a shell may have started that started this one. -/
  lastJob : Option Nat := none
  /-- Words that stand for other texts at the place of a command. -/
  aliases : List (Text × Text) := []
  /-- How far the parameters have been searched for options. -/
  search : OptionSearch := {}
  /-- The permissions that new files do not get. -/
  mask : Nat := 18
  /-- The limits that were set, by their letters. -/
  limits : List (Char × Text) := []
  /-- The programs that were looked for and found, by their names. -/
  known : List Text := []
  /-- How many built-in commands surround the command. -/
  nesting : Nat := 0
  /-- Whether the program that is being carried out has printed what its output did not take. -/
  hasLostOutput : Bool := false

/-- A shell in its world. -/
structure State where
  env : Env
  world : World

/-- Why a command does not go on. -/
inductive Stop where
  | exit (status : Nat)
  /-- A fault that has been reported. -/
  | fault (status : Nat)
  /-- The end of a function. -/
  | back (status : Nat)
  /-- The end of so many loops. -/
  | leave (loops : Nat)
  /-- The next round of the last of so many loops. -/
  | again (loops : Nat)
  /-- A signal stopped the whole script. -/
  | killed (signal : Nat)
  | timeIsUp
  deriving Repr, DecidableEq

/-- A step of a shell. -/
abbrev ShellM := ExceptT Stop (StateM State)

/-- What a step returns, or why it stopped. -/
def attempt {α : Type} (m : ShellM α) : ShellM (Except Stop α) := ExceptT.mk do
  let r ← m.run
  return .ok r

/-! ## The parts of the state -/

/-- The shell itself. -/
def env : ShellM Env := do return (← get).env

/-- The world of the shell. -/
def world : ShellM World := do return (← get).world

/-- Change the shell itself. -/
def modifyEnv (f : Env → Env) : ShellM Unit := modify fun s => { s with env := f s.env }

/-- Change the world. -/
def modifyWorld (f : World → World) : ShellM Unit := modify fun s => { s with world := f s.world }

/-- Whether an option is set. -/
def hasOption (c : Char) : ShellM Bool := do return (← env).options.contains c

/-- The path that a text names, from the root on. -/
def absolute (name : Text) : ShellM Text := do
  let folder := (← env).folder
  return ((Path.ofText folder).child (Message.ofText name)).resolve.toText

/-- What a descriptor refers to. -/
def channel? (n : Nat) : ShellM (Option Channel) := do return (← env).channels.lookup n

/-- Let a descriptor refer to something else. -/
def setChannel (n : Nat) (c : Option Channel) : ShellM Unit :=
  modifyEnv fun e =>
    let others := e.channels.filter (·.1 != n)
    { e with channels := match c with
      | some c => (n, c) :: others
      | none => others }

/-- Write to a descriptor; whether it is open and takes that. -/
def emit (n : Nat) (s : Text) : ShellM Bool := do
  let w ← world
  match (← channel? n).filter w.isWritable with
  | some c =>
    modifyWorld (·.write c s)
    return true
  | none =>
    if n = 1 && !s.isEmpty then modifyEnv fun e => { e with hasLostOutput := true }
    return false

/-- Read all that is left at a descriptor. -/
def readAll (n : Nat) : ShellM Text := do
  match ← channel? n with
  | some c =>
    let (s, w) := (← world).readAll c
    modifyWorld fun _ => w
    return s
  | none => return []

/-! ## Messages -/

/-- Report something wrong. -/
def complain (message : Text) : ShellM Unit := do
  let e ← env
  let builtin := match e.builtin with
    | some b => b ++ ": ".toList
    | none => []
  let _ ← emit 2
    (e.name ++ ": ".toList ++ ofNat e.line ++ ": ".toList ++ builtin ++ message ++ ['\n'])

/-- Report a fault and stop. -/
def fail {α : Type} (message : Text) : ShellM α := do
  complain message
  throw (.fault 2)

/-- Report a fault in a script. -/
def failSyntax {α : Type} (e : SyntaxError) : ShellM α := do
  modifyEnv fun v => { v with line := e.line }
  fail ("Syntax error: ".toList ++ e.fault.message)

/-- Print to the output, which may be closed. -/
def say (s : Text) : ShellM Nat := do
  if (← emit 1 s) || s.isEmpty then return 0
  else
    match (← env).builtin with
    | some name => complain (name ++ ": I/O error".toList)
    | none => pure ()
    return 1

/-- A number without a sign. -/
def count (s : Text) : ShellM Nat :=
  if !s.isEmpty && s.all Char.isDigit && numberOf 10 s < Nat.pow 2 31 then
    return numberOf 10 s
  else fail ("Illegal number: ".toList ++ s)

/-! ## Variables -/

/-- The value of a variable. -/
def lookup (name : Text) : ShellM (Option Text) := do
  return ((← env).vars.lookup name).bind (·.value)

/-- Replace a variable, or remove it. -/
def Env.putVar (e : Env) (name : Text) (v : Option Var) : Env :=
  let others := e.vars.filter (·.1 != name)
  { e with vars := match v with
    | some v => (name, v) :: others
    | none => others }

/-- The variable that has the number of the next argument to search for options. -/
def indexName : Text := "OPTIND".toList

/-- Start the search for options again if it is the number of the next argument that changes, and
forget where programs are if it is the list of their folders. -/
def noteChange (name value : Text) : ShellM Unit := do
  if name = indexName then
    let index := max 1 (← count value)
    modifyEnv fun e => { e with search := { index } }
  else if name = "PATH".toList then modifyEnv fun e => { e with known := [] }

/-- Change a variable. It is a fault if it cannot be changed. An equals sign ends its name. -/
def setVar (name value : Text) : ShellM Unit := do
  let name := name.takeWhile (· != '=')
  if !isName name then fail (name ++ ": bad variable name".toList)
  let old := ((← env).vars.lookup name).getD {}
  if old.isReadonly then fail (name ++ ": is read only".toList)
  noteChange name value
  let isExported := old.isExported || (← hasOption 'a')
  modifyEnv (·.putVar name (some { old with value := some value, isExported }))

/-- The characters at which expansions are split. -/
def separators : ShellM Text := do return (← lookup "IFS".toList).getD " \t\n".toList

end Localizer.Host.Shell
