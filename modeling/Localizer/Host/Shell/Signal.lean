import Localizer.Host.Shell.Condition
import Localizer.Host.Shell.Option

/-!
# Signals and jobs

A signal stops the shell unless the shell knows what to do when it comes. Commands that were started
beside the script are its jobs: they can be listed, stopped and waited for.
-/

namespace Localizer.Host.Shell

open Text

/-! ## Signals -/

/-- The signals by their numbers, from one on. -/
def signalNames : List Text :=
  ["HUP", "INT", "QUIT", "ILL", "TRAP", "ABRT", "BUS", "FPE", "KILL", "USR1", "SEGV", "USR2",
   "PIPE", "ALRM", "TERM", "16", "CHLD", "CONT", "STOP", "TSTP", "TTIN", "TTOU", "URG", "XCPU",
   "XFSZ", "VTALRM", "PROF", "WINCH", "IO", "PWR", "SYS", "32", "33", "RTMIN"].map String.toList ++
  (List.range 15).map (fun n => "RTMIN+".toList ++ ofNat (n + 1)) ++
  (List.range 14).map (fun n => "RTMAX-".toList ++ ofNat (14 - n)) ++ ["RTMAX".toList]

/-- The number of a signal; zero stands for the end of the shell. -/
def signal? (s : Text) : Option Nat :=
  if !s.isEmpty && s.all Char.isDigit then
    if numberOf 10 s < 65 then some (numberOf 10 s) else none
  else
    let name := s.map Char.toUpper
    if name = "EXIT".toList then some 0
    else (signalNames.findIdx? (· == name)).map (· + 1)

/-- The name of a signal. -/
def signalName (n : Nat) : Text :=
  if n = 0 then "EXIT".toList else (signalNames[n - 1]?).getD (ofNat n)

/-- What is reported of a command that a signal has stopped. -/
def deathNotice (signal : Nat) : Text :=
  let text := match signal with
    | 1 => "Hangup"
    | 3 => "Quit"
    | 4 => "Illegal instruction"
    | 6 => "Aborted"
    | 8 => "Floating point exception"
    | 9 => "Killed"
    | 10 => "User defined signal 1"
    | 11 => "Segmentation fault"
    | 12 => "User defined signal 2"
    | 14 => "Alarm clock"
    | 15 => "Terminated"
    | _ => ""
  if text.isEmpty then [] else text.toList ++ ['\n']

/-- What a shell does at a signal. -/
inductive Reaction where
  | nothing
  | action (script : Text)
  /-- The shell waits until it is told to go on. -/
  | halt
  | death
  deriving Repr, DecidableEq

/-- What a shell does at a signal, of which it knows what to do at some. -/
def reaction (traps : List (Nat × Text)) (n : Nat) : Reaction :=
  match if n = 9 || n = 19 then none else traps.lookup n with
  | some script => if script.isEmpty then .nothing else .action script
  | none =>
    if [0, 17, 18, 23, 28].contains n then .nothing
    else if [19, 20, 21, 22].contains n then .halt
    else .death

/-- Send a signal to the shell, or to the one that has started it as a part of itself. The number
0 is no signal. -/
def deliver (n : Nat) : ShellM Unit := do
  let number := (← env).number
  if n != 0 then modifyWorld fun w => { w with signals := w.signals ++ [⟨w.clock, number, n⟩] }

/-- The first signal up to a point in time at which the shell does something. -/
def signalBefore? (time : Option Nat) : ShellM (Option SentSignal) := do
  let e ← env
  let w ← world
  let isMeant := fun s : SentSignal => s.shell == e.number && !e.isSubshell &&
    time.all (s.time ≤ ·) && reaction e.traps s.signal != .nothing
  return ((w.signals.filter isMeant).mergeSort fun a b => a.time ≤ b.time).head?

/-! ## Jobs -/

/-- The number by which a shell knows itself. -/
def shellNumber : Nat := 4242

/-- The number among all that runs of the job with an order. -/
def jobNumber (order : Nat) : Nat := shellNumber + order + 1

/-- A job of the shell: its order among all jobs. -/
def job (order : Nat) : ShellM Job := do
  return ((← world).jobs[order]?).getD { status := 127, ending := some 0 }

/-- Change a job. -/
def modifyJob (order : Nat) (f : Job → Job) : ShellM Unit :=
  modifyWorld fun w => { w with jobs := w.jobs.modify order f }

/-- The order of the job that a text after a percent sign names. -/
def jobNamed (s : Text) : ShellM Nat := do
  let jobs := (← env).jobs
  let isCurrent := s = ['%'] || s = "%%".toList || s = "%+".toList
  let digits := s.drop 1
  let wanted := if isCurrent then jobs[0]?
    else if s = "%-".toList then jobs[1]?
    else if s.head? = some '%' && !digits.isEmpty && digits.all Char.isDigit &&
        numberOf 10 digits != 0 then
      jobs.reverse[numberOf 10 digits - 1]?
    else none
  match wanted with
  | some order => return order
  | none =>
    if isCurrent then fail "No current job".toList
    else if s = "%-".toList then fail "No previous job".toList
    else fail ("No such job: ".toList ++ s)

/-- The order of the job that a text names by its place or its number. -/
def jobOf? (s : Text) : ShellM (Option Nat) := do
  if s.head? = some '%' then
    let order ← jobNamed s
    return some order
  else
    let n ← count s
    return (← env).jobs.find? fun order => jobNumber order == n

/-- The order of the job with a number, whoever has started it. -/
def jobWithNumber? (n : Int) : ShellM (Option Nat) := do
  return (List.range (← world).jobs.size).find? fun order => n = jobNumber order

/-- Let the time pass up to a point, which may never come. -/
def passUntil (time : Option Nat) : ShellM Unit := do
  match time with
  | none => throw .timeIsUp
  | some time =>
    let w ← world
    let clock := max w.clock time
    modifyWorld fun _ => World.release { w with clock }
    if w.limit.any (· ≤ clock) then throw .timeIsUp

/-- Let the time pass up to the end of a job, or up to a signal; how the job has ended. -/
def awaitJob (order : Nat) : ShellM (Except Nat Nat) := do
  let j ← job order
  match ← signalBefore? j.ending with
  | some s =>
    passUntil (some s.time)
    return .error (128 + s.signal)
  | none =>
    passUntil j.ending
    modifyJob order fun j => { j with isReaped := true }
    return .ok j.status

/-- Let the time pass up to the end of all jobs that keep a stream open. -/
def awaitWriters (id : Nat) : ShellM Unit := do
  let w ← world
  let orders := (w.delayed.filter fun (_, _, c) => c = .stream id).map (·.1)
  orders.forM fun order => do
    let j ← job order
    if j.holdsOutput then passUntil j.ending

/-- Stop a job that has not ended. It prints nothing more. -/
def stopJob (order signal : Nat) : ShellM Unit := do
  let j ← job order
  let time := (← world).clock
  unless j.isDone time || signal == 0 do
    modifyWorld (·.release)
    modifyJob order fun j =>
      { j with status := 128 + signal, ending := some time, signal := some signal }
    modifyWorld fun w => { w with delayed := w.delayed.filter (·.1 != order) }

namespace Builtin

/-- How a signal is sent. -/
def killUsage : Text :=
  "Usage: kill [-s sigspec | -signum | -sigspec] [pid | job]... or\n".toList ++
    "kill -l [exitstatus]".toList

/-- Print the names of all signals, or of the one that stopped a command with a status. -/
def listSignals (args : List Text) : ShellM Nat := do
  match args with
  | [] => say (['0', '\n'] ++ signalNames.flatMap (· ++ ['\n']))
  | s :: _ =>
    let n ← count s
    let signal := if 128 < n then n - 128 else n
    if 0 < signal && signal < 65 then say (signalName signal ++ ['\n'])
    else fail ("invalid signal number or exit status: ".toList ++ s)

/-- Send a signal to the shell or to a job. -/
def sendTo (signal : Nat) (target : Text) : ShellM Nat := do
  let missing : ShellM Nat := do
    complain "No such process\n".toList
    return 1
  let (isGroup, name) := match target with
    | '-' :: r => (true, r)
    | r => (false, r)
  if target.head? = some '%' then
    let _ ← jobNamed target
    missing
  else
    match Condition.number name with
    | .error message => fail message
    | .ok n =>
      if !isGroup && (n = (← env).number || n = 0) then
        deliver signal
        return 0
      else
        match ← jobWithNumber? (if isGroup then 0 else n) with
        | none => missing
        | some order =>
          if (← job order).isReaped then missing
          else
            stopJob order signal
            return 0

/-- The signal that a text names; the end of the shell is none. -/
def sent? (s : Text) : Option Nat :=
  if s.map Char.toUpper = "EXIT".toList then none else signal? s

/-- The signal to send, whether signals are to be listed instead, and the other arguments. -/
def killOptions (args : List Text) : ShellM (Option Nat × Bool × List Text) := do
  match args with
  | ('-' :: name) :: rest =>
    match sent? name with
    | some n => return (some n, false, rest)
    | none =>
      let (flags, rest) ← takeFlagsFrom ['l'] ['s'] (args.flatten.length + args.length + 1) [] args
      let signals ← (flags.filter (·.1 == 's')).mapM fun (_, name) =>
        match sent? name with
        | some n => pure n
        | none => fail ("invalid signal number or name: ".toList ++ name)
      return (signals.getLast?, flags.any (·.1 == 'l'), rest)
  | rest => return (none, false, rest)

/-- Send a signal, or list signals. -/
def kill (args : List Text) : ShellM Nat := do
  let (signal, isList, targets) ← killOptions args
  if isList then
    if signal.isSome && !targets.isEmpty then fail killUsage else listSignals targets
  else if targets.isEmpty then fail killUsage
  else
    targets.foldlM (fun status target => do
      return max status (← sendTo (signal.getD 15) target)) 0

/-- A text in quotes that a shell reads back as it is. -/
def requote : (fuel : Nat) → Text → Text
  | 0, _ => []
  | fuel + 1, s =>
    let plain := s.takeWhile (· != '\'')
    let rest := s.drop plain.length
    let quotes := rest.takeWhile (· == '\'')
    let after := rest.drop quotes.length
    '\'' :: plain ++ '\'' ::
      (if quotes.isEmpty then [] else '"' :: quotes ++ '"' ::
        (if after.isEmpty then [] else requote fuel after))

/-- A text in quotes. -/
def inQuotes (s : Text) : Text := requote (s.length + 1) s

/-- Say what to do at signals. -/
def trap (args : List Text) : ShellM Nat := do
  let (_, args) ← takeFlags "" args
  match args with
  | [] =>
    let traps := (← env).traps.mergeSort fun a b => a.1 ≤ b.1
    say (traps.flatMap fun t =>
      "trap -- ".toList ++ inQuotes t.2 ++ ' ' :: signalName t.1 ++ ['\n'])
  | action :: rest =>
    let (action, names) :=
      if rest.isEmpty then (none, [action])
      else if action = ['-'] then (none, rest)
      else (some action, rest)
    names.foldlM (fun status name => do
      match signal? name with
      | none =>
        let _ ← emit 2 ("trap: ".toList ++ name ++ ": bad trap\n".toList)
        return 1
      | some n =>
        modifyEnv fun e =>
          let others := e.traps.filter (·.1 != n)
          { e with traps := match action with
            | some a => (n, a) :: others
            | none => others }
        return status) 0

/-- Wait for jobs until a signal comes. -/
def waitForAll : List Nat → ShellM Nat
  | [] => return 0
  | order :: rest => do
    match ← awaitJob order with
    | .ok _ => waitForAll rest
    | .error status => return status

/-- Wait for the jobs with these names until a signal comes; how the last one has ended. -/
def waitForNamed (last : Nat) : List Text → ShellM Nat
  | [] => return last
  | name :: rest => do
    match ← jobOf? name with
    | none => waitForNamed 127 rest
    | some order =>
      let j ← job order
      match ← awaitJob order with
      | .error status => return status
      | .ok status =>
        match j.signal with
        | some n =>
          unless j.isReaped do
            let _ ← emit 2 (deathNotice n)
        | none => pure ()
        waitForNamed status rest

/-- Wait for jobs. -/
def wait (args : List Text) : ShellM Nat := do
  let (_, args) ← takeFlags "" args
  let jobs := (← env).jobs
  if args.isEmpty then waitForAll jobs else waitForNamed 0 args

/-- The line of a list of jobs that shows the one with an order; none if its end was reported. -/
def jobLine (order : Nat) : ShellM Text := do
  let j ← job order
  let jobs := (← env).jobs
  let mark := match jobs.findIdx? (· == order) with
    | some 0 => '+'
    | some 1 => '-'
    | _ => ' '
  let place := jobs.length - (jobs.findIdx? (· == order)).getD 0
  let isDone := j.isDone (← world).clock
  let state := match isDone, j.signal, j.status with
    | false, _, _ => "Running".toList
    | true, some n, _ => (deathNotice n).dropLast
    | true, none, 0 => "Done".toList
    | true, none, n => "Done(".toList ++ ofNat n ++ [')']
  if j.isReported then return []
  else
    if isDone then modifyJob order fun j => { j with isReported := true }
    return '[' :: ofNat place ++ [']', ' ', mark, ' '] ++ state ++
      List.replicate (27 - state.length) ' ' ++ ['\n']

/-- List jobs. -/
def jobs (args : List Text) : ShellM Nat := do
  let (flags, args) ← takeFlags "lp" args
  let orders ← if args.isEmpty then do pure (← env).jobs else args.mapM jobNamed
  if flags.contains 'p' then say (orders.flatMap fun order => ofNat (jobNumber order) ++ ['\n'])
  else
    let shown ← orders.mapM jobLine
    say shown.flatten

/-- Go on with a job, which only a shell that talks to someone can do. -/
def resume (args : List Text) : ShellM Nat := do
  let (_, args) ← takeFlags "" args
  let _ ← jobNamed (args.headD ['%'])
  let shown := args.headD "(null)".toList
  fail ("job ".toList ++ shown ++ " not created under job control".toList)

end Builtin

end Localizer.Host.Shell
