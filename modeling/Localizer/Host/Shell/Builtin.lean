import Localizer.Host.Shell.Program
import Localizer.Host.Shell.Signal

/-!
# Built-in commands

The commands that a shell carries out itself and that start nothing else. Each takes its arguments
and says how it ended; zero is success. A fault in a special command ends the script.
-/

namespace Localizer.Host.Shell

open Text

namespace Builtin

/-- Print the arguments with a newline, or without one if that is asked for. -/
def echo (args : List Text) : ShellM Nat := do
  let (args, ending) := match args with
    | ['-', 'n'] :: rest => (rest, [])
    | args => (args, ['\n'])
  let s := join [' '] args
  let (s, stops) := unescape (s.length + 1) s
  say (if stops then s else s ++ ending)

/-- Print the arguments in a format. -/
def printf (args : List Text) : ShellM Nat := do
  let (_, args) ← takeFlags "" args
  match args with
  | [] => fail "usage: printf format [arg ...]".toList
  | format :: args =>
    let (f, stop) := Formatting.all format args
    f.complaints.forM complain
    match stop with
    | some (.fault message) =>
      complain message
      let _ ← emit 1 f.output
      throw (.fault 2)
    | _ =>
      let status ← say f.output
      return if f.complaints.isEmpty then status else 1

/-- Print the folder in which the shell is. -/
def pwd (args : List Text) : ShellM Nat := do
  let _ ← takeFlags "LP" args
  say ((← env).folder ++ ['\n'])

/-- Whether a path is not searched for in other folders: it starts at the root or with dots. -/
def startsAtPlace (s : Text) : Bool :=
  s.head? == some '/' || s == ['.'] || s == "..".toList || "./".toList.isPrefixOf s ||
    "../".toList.isPrefixOf s

/-- The folder that a path means among those in which folders are searched for, and whether it was
found in another one than this. -/
def searchFolder (target : Text) : ShellM (Text × Bool) := do
  let here ← absolute target
  if startsAtPlace target then return (here, false)
  else
    let places := match ← lookup "CDPATH".toList with
      | some s => s.splitOn ':'
      | none => [[]]
    let folders := (← world).folders
    let candidates ← places.mapM fun p => do
      let path ← if p.isEmpty then pure here else absolute (p ++ '/' :: target)
      pure (path, !p.isEmpty)
    return (candidates.find? fun c => folders.contains c.1).getD (here, false)

/-- Give a variable that commands get to see a value. -/
def setExported (name value : Text) : ShellM Unit := do
  setVar name value
  modifyEnv fun e =>
    e.putVar name (some { (e.vars.lookup name).getD {} with isExported := true })

/-- Go to another folder. -/
def cd (args : List Text) : ShellM Nat := do
  let (_, args) ← takeFlags "LP" args
  let isBack := args.head? == some ['-']
  let target ← match args.head? with
    | none => pure ((← lookup "HOME".toList).getD [])
    | some ['-'] => pure ((← lookup "OLDPWD".toList).getD [])
    | some t => pure t
  let (path, isElsewhere) ← searchFolder (if target.isEmpty then ['.'] else target)
  if (← world).folders.contains path then
    let old := (← env).folder
    setExported "OLDPWD".toList old
    modifyEnv fun e => { e with folder := path }
    setExported "PWD".toList path
    if isBack || isElsewhere then say (path ++ ['\n']) else return 0
  else fail ("can't cd to ".toList ++ target)

/-- What is known of a file. -/
def fileTest (w : World) (op : Text) (path : Text) : Bool :=
  let isFolder := w.folders.contains path
  let isFile := (w.file? path).isSome || isProgram path
  match op with
  | ['-', 'd'] => isFolder
  | ['-', 'f'] => isFile
  | ['-', 's'] => isFolder || isProgram path || !((w.file? path).getD []).isEmpty
  | ['-', 'x'] => isFolder || isProgram path || w.executables.contains path
  | ['-', 'k'] => path == "/tmp".toList
  | ['-', c] =>
    if "erwOG".toList.contains c then isFolder || isFile || World.isDevice path
    else c == 'c' && World.isDevice path
  | _ => false

/-- What is known of one file, or of two. -/
def filesTest (w : World) (folder : Text) (op : Text) (names : List Text) : Bool :=
  let paths := names.map fun name =>
    ((Path.ofText folder).child (Message.ofText name)).resolve.toText
  !names.any List.isEmpty && match paths with
    | [path] => fileTest w op path
    | [a, b] => op == "-ef".toList && a == b && fileTest w "-e".toList a
    | _ => false

/-- Decide a condition. -/
def test (args : List Text) : ShellM Nat := do
  match Condition.holds (filesTest (← world) (← env).folder) (args.length + 2) false args with
  | .ok b => return if b then 0 else 1
  | .error message => fail message

/-- Decide a condition in brackets. -/
def bracket (args : List Text) : ShellM Nat := do
  if args.getLast? = some [']'] then test args.dropLast else fail "missing ]".toList

/-! ## Control -/

/-- End the shell. -/
def exit (args : List Text) : ShellM Nat := do
  let status ← match args with
    | [] => pure (← env).status
    | s :: _ => count s
  throw (.exit status)

/-- End the function. -/
def leaveFunction (args : List Text) : ShellM Nat := do
  let status ← match args with
    | [] => pure (← env).status
    | s :: _ => count s
  throw (.back status)

/-- How many of the loops around the command are meant. -/
def loopCount (args : List Text) : ShellM Nat := do
  let n ← match args with
    | [] => pure 1
    | s :: _ =>
      if (← count s) = 0 then fail ("Illegal number: ".toList ++ s) else count s
  return min n (← env).loops

/-- End loops. -/
def leaveLoop (args : List Text) : ShellM Nat := do
  let n ← loopCount args
  if n = 0 then return 0 else throw (.leave n)

/-- Go on with the next round of a loop. -/
def nextRound (args : List Text) : ShellM Nat := do
  let n ← loopCount args
  if n = 0 then return 0 else throw (.again n)

/-! ## Parameters and variables -/

/-- Remove parameters at the front. -/
def shift (args : List Text) : ShellM Nat := do
  let n ← match args with
    | [] => pure 1
    | s :: _ => count s
  if (← env).params.length < n then fail "can't shift that many".toList
  modifyEnv fun e => { e with params := e.params.drop n, search := {} }
  return 0

/-- The options with long names. Two of them have no letters; characters that nobody writes stand
for them. -/
def optionNames : List (Text × Char) :=
  [("errexit".toList, 'e'), ("noglob".toList, 'f'), ("ignoreeof".toList, 'I'),
   ("interactive".toList, 'i'), ("monitor".toList, 'm'), ("noexec".toList, 'n'),
   ("stdin".toList, 's'), ("xtrace".toList, 'x'), ("verbose".toList, 'v'), ("vi".toList, 'V'),
   ("emacs".toList, 'E'), ("noclobber".toList, 'C'), ("allexport".toList, 'a'),
   ("notify".toList, 'b'), ("nounset".toList, 'u'), ("privileged".toList, 'p'),
   ("nolog".toList, '\x01'), ("debug".toList, '\x02')]

/-- The letters of the options that are set. -/
def optionLetters (e : Env) : Text :=
  (optionNames.map (·.2)).reverse.filter fun c => c.isAlpha && e.options.contains c

/-- Set an option or take it back. -/
def setOption (isOn : Bool) (c : Char) : ShellM Unit := do
  if !(optionNames.any (·.2 == c)) then
    fail ("Illegal option -".toList ++ [c])
  else if isOn && c == 'm' then complain "can't access tty; job control turned off".toList
  else
    modifyEnv fun e =>
      let others := e.options.filter (· != c)
      { e with options := if isOn then others ++ [c] else others }

/-- Print which options are set, in a table or as commands that set them. -/
def listOptions (inTable : Bool) : ShellM Unit := do
  let options := (← env).options
  let row := fun (p : Text × Char) =>
    let isOn := options.contains p.2
    if inTable then
      p.1 ++ List.replicate (16 - p.1.length) ' ' ++ (if isOn then "on" else "off").toList ++ ['\n']
    else (if isOn then "set -o " else "set +o ").toList ++ p.1 ++ ['\n']
  let _ ← say ((if inTable then "Current option settings\n".toList else []) ++
    optionNames.flatMap row)

/-- Set the option with a long name, or print which options are set if there is no name. -/
def longOption (isOn : Bool) : Option Text → ShellM Unit
  | none => listOptions isOn
  | some name =>
    match optionNames.lookup name with
    | some c => setOption isOn c
    | none => fail ("Illegal option -o ".toList ++ name)

/-- Set the options of an argument; the arguments after it, of which the letter for long names takes
one. -/
def setLetters (isOn : Bool) : (letters : Text) → List Text → ShellM (List Text)
  | [], rest => return rest
  | 'o' :: cs, rest => do
    longOption isOn rest.head?
    setLetters isOn cs rest.tail
  | c :: cs, rest => do
    setOption isOn c
    setLetters isOn cs rest

/-- Set options at the front of arguments; the arguments after them, if there are any or two
dashes say so. A dash alone ends the tracing of commands. -/
def takeOptions : (fuel : Nat) → List Text → ShellM (Option (List Text))
  | 0, _ => return none
  | fuel + 1, args =>
    match args with
    | [] => return none
    | ['-', '-'] :: rest => return some rest
    | ['-'] :: rest => do
      modifyEnv fun e => { e with options := e.options.filter fun c => c != 'x' && c != 'v' }
      return if rest.isEmpty then none else some rest
    | ('-' :: cs) :: rest => do
      let rest ← setLetters true cs rest
      takeOptions fuel rest
    | ('+' :: cs) :: rest => do
      let rest ← setLetters false cs rest
      takeOptions fuel rest
    | args => return some args

/-- A variable as an assignment that a shell reads back, after a word. -/
def shownVar (word : String) (name : Text) (v : Var) : Text :=
  word.toList ++ name ++ (match v.value with
    | some s => '=' :: inQuotes s
    | none => []) ++ ['\n']

/-- Print variables in the order of their names, each after a word. -/
def listVars (word : String) (isShown : Var → Bool) : ShellM Nat := do
  let vars := (← env).vars.filter fun v => isShown v.2
  say ((vars.mergeSort fun a b => le a.1 b.1).flatMap fun v => shownVar word v.1 v.2)

/-- Set options and parameters. -/
def set (args : List Text) : ShellM Nat := do
  if args.isEmpty then listVars "" fun v => v.value.isSome
  else
    match ← takeOptions (args.length + 1) args with
    | some params => modifyEnv fun e => { e with params, search := {} }
    | none => pure ()
    return 0

/-- The name and the value of an argument that may be an assignment. -/
def nameAndValue (s : Text) : Text × Option Text :=
  match cut? ['='] s with
  | some (name, value) => (name, some value)
  | none => (s, none)

/-- Give variables a mark, and a value if there is one; without variables print those that have the
mark. -/
def mark (word : String) (isMarked : Var → Bool) (f : Var → Var) (args : List Text) :
    ShellM Nat := do
  let (flag, args) ← takeFlag "p" args
  if args.isEmpty || flag.isSome then listVars word isMarked
  else
    args.forM fun a => do
      let (name, value) := nameAndValue a
      match value with
      | some v => setVar name v
      | none => if !isName name then fail (name ++ ": bad variable name".toList)
      modifyEnv fun e => e.putVar name (some (f ((e.vars.lookup name).getD {})))
    return 0

/-- Mark variables that commands get to see. -/
def mkExport : List Text → ShellM Nat :=
  mark "export " (·.isExported) fun v => { v with isExported := true }

/-- Mark variables that cannot be changed. -/
def mkReadonly : List Text → ShellM Nat :=
  mark "readonly " (·.isReadonly) fun v => { v with isReadonly := true }

/-- Remove variables or functions. -/
def unset (args : List Text) : ShellM Nat := do
  let (flags, names) ← takeFlags "vf" args
  if flags.getLast? = some 'f' then
    modifyEnv fun e => { e with functions := e.functions.filter fun f => !names.contains f.1 }
  else
    names.forM fun s => do
      let (name, _) := nameAndValue s
      if !isName name then fail (name ++ ": bad variable name".toList)
      if (((← env).vars.lookup name).getD {}).isReadonly then
        fail (name ++ ": is read only".toList)
      noteChange name []
      modifyEnv (·.putVar name none)
  return 0

/-- Keep a variable to restore it at the end of the function. -/
def save (name : Text) : ShellM Unit :=
  modifyEnv fun e => { e with saved := match e.saved with
    | frame :: rest => ((name, e.vars.lookup name) :: frame) :: rest
    | [] => [[(name, e.vars.lookup name)]] }

/-- Keep the options to restore them at the end of the function. -/
def saveOptions : ShellM Unit :=
  modifyEnv fun e => { e with saved := match e.saved with
    | frame :: rest => ((['-'], some { value := some e.options }) :: frame) :: rest
    | [] => [] }

/-- Make variables of the function; a dash stands for the options. -/
def mkLocal (args : List Text) : ShellM Nat := do
  if (← env).depth = 0 then fail "not in a function".toList
  args.forM fun a => do
    let (name, value) := nameAndValue a
    if a = ['-'] then saveOptions
    else
      if !isName name then fail (name ++ ": bad variable name".toList)
      save name
      match value with
      | some v => setVar name v
      | none => pure ()
  return 0

/-! ## Reading -/

/-- The characters of a line, with backslashes resolved unless it is raw, what follows the line,
and whether it is complete. -/
def readLine (isRaw : Bool) : Text → List Atom × Text × Bool
  | [] => ([], [], false)
  | '\n' :: r => ([], r, true)
  | '\\' :: '\n' :: r =>
    if isRaw then ([.letter '\\' .expansion], r, true) else readLine isRaw r
  | '\\' :: c :: r =>
    let (line, rest, isComplete) := readLine isRaw r
    if isRaw then (.letter '\\' .expansion :: .letter c .expansion :: line, rest, isComplete)
    else (.letter c .quotes :: line, rest, isComplete)
  | c :: r =>
    let (line, rest, isComplete) := readLine isRaw r
    (.letter c .expansion :: line, rest, isComplete)

/-- Whether a letter separates fields. -/
def isSeparator (seps : Text) : Atom → Bool
  | .letter c .expansion => seps.contains c
  | _ => false

/-- Whether a letter is a blank that separates fields. -/
def isBlankSeparator (seps : Text) : Atom → Bool
  | .letter c .expansion => seps.contains c && (c == ' ' || c == '\t' || c == '\n')
  | _ => false

/-- The field at the front of a line without blanks there, and the line after the separators that
follow it. -/
def firstField (seps : Text) (line : List Atom) : List Atom × List Atom :=
  let word := line.takeWhile (!isSeparator seps ·)
  let rest := (line.drop word.length).dropWhile (isBlankSeparator seps)
  (word, match rest with
    | a :: r => if isSeparator seps a then r else rest
    | [] => [])

/-- The values for so many variables: a field for each, and the rest of the line for the last. If
the rest is one field and what ends it, the last variable gets the field alone. -/
def distribute (seps : Text) : (names : Nat) → List Atom → List Text
  | 0, _ => []
  | 1, line =>
    let line := line.dropWhile (isBlankSeparator seps)
    let (word, rest) := firstField seps line
    let isLast := rest.all (isBlankSeparator seps)
    [Atom.toText [] (if isLast then word else dropEndWhile (isBlankSeparator seps) line)]
  | n + 1, line =>
    let (word, rest) := firstField seps (line.dropWhile (isBlankSeparator seps))
    Atom.toText [] word :: distribute seps n rest

/-- Read a line into variables. -/
def read (args : List Text) : ShellM Nat := do
  let size := args.flatten.length + args.length + 1
  let (flags, names) ← takeFlagsFrom ['r'] ['p'] size [] args
  let isRaw := flags.any (·.1 == 'r')
  if names.isEmpty then fail "arg count".toList
  match ← channel? 0 with
  | none => return 1
  | some c =>
    let (s, w) := (← world).readAll c
    let (line, rest, isComplete) := readLine isRaw s
    modifyWorld fun _ => w.putBack c rest
    let values := distribute (← separators) names.length line
    (names.zip values).forM fun p => setVar p.1 p.2
    return if isComplete then 0 else 1

/-! ## Permissions and limits -/

/-- The permissions of one kind of user, by their letters. -/
def permissionLetters (bits : Nat) : Text :=
  (if bits / 4 % 2 = 1 then ['r'] else []) ++ (if bits / 2 % 2 = 1 then ['w'] else []) ++
    (if bits % 2 = 1 then ['x'] else [])

/-- The kinds of users that letters name, and what a digit has to be multiplied with to give
permissions to each. -/
def userWeight : Char → Nat
  | 'a' => 73
  | 'u' => 64
  | 'g' => 8
  | 'o' => 1
  | _ => 0

/-- The permissions that letters name, as a digit; `now` are the permissions that are given now. -/
def permissionBits (now : Nat) (letters : Text) : Nat :=
  letters.foldl (fun bits c => bits ||| match c with
    | 'r' => 4
    | 'w' => 2
    | 'x' => 1
    | 'u' => now / 64 % 8
    | 'g' => now / 8 % 8
    | 'o' => now % 8
    | 'X' => if now &&& 73 = 0 then 0 else 1
    | _ => 0) 0

/-- Permissions that are changed by a text such as `u=rw,g-w`: users, a sign and permissions, again
and again. The sign and the permissions may come again for the same users. -/
def changePermissions (now : Nat) : (fuel : Nat) → (users result : Nat) → Text → Option Nat
  | 0, _, _, _ => none
  | _, _, result, [] => some result
  | fuel + 1, users, result, s =>
    let named := s.takeWhile fun c => userWeight c != 0
    let users := named.foldl (fun w c => w ||| userWeight c) users
    let users := if users = 0 then 73 else users
    match s.drop named.length with
    | sign :: rest =>
      if sign == '=' || sign == '+' || sign == '-' then
        let letters := rest.takeWhile fun c => "rwxugoXs".toList.contains c
        let bits := permissionBits now letters * users
        let result := if sign == '+' then result ||| bits
          else if sign == '-' then result - (result &&& bits)
          else (result - (result &&& (7 * users))) ||| bits
        match rest.drop letters.length with
        | ',' :: rest => changePermissions now fuel 0 result rest
        | rest =>
          if rest.isEmpty || "=+-".toList.contains (rest.headD ' ') then
            changePermissions now fuel users result rest
          else none
      else none
    | [] => some result

/-- Print or change which permissions new files do not get. -/
def umask (args : List Text) : ShellM Nat := do
  let (flags, args) ← takeFlags "S" args
  let given := 511 - (← env).mask % 512
  match args with
  | [] =>
    if flags.contains 'S' then
      say ("u=".toList ++ permissionLetters (given / 64) ++ ",g=".toList ++
        permissionLetters (given / 8) ++ ",o=".toList ++ permissionLetters given ++ ['\n'])
    else
      let digits := Nat.toDigits 8 (← env).mask
      say (List.replicate (4 - digits.length) '0' ++ digits ++ ['\n'])
  | s :: _ =>
    if (s.headD ' ').isDigit then
      if !s.all isOctal then fail ("Illegal number: ".toList ++ s)
      modifyEnv fun e => { e with mask := numberOf 8 s % 512 }
    else
      match changePermissions given (s.length + 1) 0 given s with
      | some result => modifyEnv fun e => { e with mask := 511 - result % 512 }
      | none => fail ("Illegal mode: ".toList ++ s)
    return 0

/-- The limits of a shell by their letters: what they are called, and what they are. -/
def limitNames : List (Char × Text × Text) :=
  [('t', "time(seconds)", "unlimited"), ('f', "file(blocks)", "unlimited"),
   ('d', "data(kbytes)", "unlimited"), ('s', "stack(kbytes)", "8192"),
   ('c', "coredump(blocks)", "unlimited"), ('m', "memory(kbytes)", "unlimited"),
   ('l', "locked memory(kbytes)", "unlimited"), ('p', "process", "unlimited"),
   ('n', "nofiles", "1048576"), ('v', "vmemory(kbytes)", "unlimited"),
   ('w', "locks", "unlimited"), ('r', "rtprio", "0")].map fun (c, name, value) =>
    (c, name.toList, value.toList)

/-- Print or set limits. -/
def ulimit (args : List Text) : ShellM Nat := do
  let (flags, args) ← takeFlags "HSatfdscmlpnvwr" args
  let limits := (← env).limits
  let now := fun (c : Char) (value : Text) => (limits.lookup c).getD value
  let wanted := ((flags.filter fun c => c != 'H' && c != 'S' && c != 'a').getLast?).getD 'f'
  match args with
  | [] =>
    if flags.contains 'a' then
      say (limitNames.flatMap fun (c, name, value) =>
        name ++ List.replicate (20 - name.length) ' ' ++ ' ' :: now c value ++ ['\n'])
    else
      let value := ((limitNames.lookup wanted).map (·.2)).getD []
      say (now wanted value ++ ['\n'])
  | [s] =>
    if s != "unlimited".toList && !(!s.isEmpty && s.all Char.isDigit) then fail "bad number".toList
    modifyEnv fun e => { e with limits := (wanted, s) :: e.limits }
    return 0
  | _ => fail "too many arguments".toList

/-- Print how much time the shell and its commands have taken, which is none. -/
def times (_ : List Text) : ShellM Nat :=
  say "0m0.000000s 0m0.000000s\n0m0.000000s 0m0.000000s\n".toList

/-! ## Other names for commands -/

/-- The slot of a table with so many slots in which a name is kept. -/
def slotOf (slots : Nat) (name : Text) : Nat :=
  (name.foldl (fun n c => n + c.toNat) ((name.headD '\x00').toNat * 16)) % slots

/-- Texts in the order of their slots; those of one slot stay in their order. -/
def bySlot {α : Type} (slots : Nat) (name : α → Text) (xs : List α) : List α :=
  xs.mergeSort fun a b => slotOf slots (name a) ≤ slotOf slots (name b)

/-- An alias as it is listed. -/
def shownAlias (a : Text × Text) : Text := a.1 ++ '=' :: inQuotes a.2 ++ ['\n']

/-- Give a word another meaning, at the place of its old one if it has one. -/
def putAlias (name value : Text) : List (Text × Text) → List (Text × Text)
  | [] => [(name, value)]
  | a :: rest => if a.1 = name then (name, value) :: rest else a :: putAlias name value rest

/-- Give words another meaning, or print their meanings. -/
def mkAlias (args : List Text) : ShellM Nat := do
  if args.isEmpty then say ((bySlot 39 (·.1) (← env).aliases).flatMap shownAlias)
  else
    args.foldlM (fun status a => do
      match cut? ['='] (a.drop 1) with
      | some (name, value) =>
        let name := a.take 1 ++ name
        modifyEnv fun e => { e with aliases := putAlias name value e.aliases }
        return status
      | none =>
        match (← env).aliases.lookup a with
        | some value =>
          let _ ← say (shownAlias (a, value))
          return status
        | none =>
          let _ ← emit 2 ("alias: ".toList ++ a ++ " not found\n".toList)
          return 1) 0

/-- Give words their own meaning back. -/
def unalias (args : List Text) : ShellM Nat := do
  let (flag, names) ← takeFlag "a" args
  if flag.isSome then
    modifyEnv fun e => { e with aliases := [] }
    return 0
  else
    names.foldlM (fun status name => do
      if ((← env).aliases.lookup name).isSome then
        modifyEnv fun e => { e with aliases := e.aliases.filter (·.1 != name) }
        return status
      else
        let _ ← emit 2 ("unalias: ".toList ++ name ++ " not found\n".toList)
        return 1) 0

/-- Remember where a program is. -/
def learn (name : Text) : ShellM Unit :=
  modifyEnv fun e =>
    if e.known.contains name then e else { e with known := e.known ++ [name] }

/-- Remember where programs are, forget it, or print it. -/
def hash (isBuiltin : Text → Bool) (args : List Text) : ShellM Nat := do
  let (flag, names) ← takeFlag "r" args
  if flag.isSome then
    modifyEnv fun e => { e with known := [] }
    return 0
  else if names.isEmpty then
    let paths ← (bySlot 31 id (← env).known).mapM programPath?
    say (paths.flatMap fun path => path.getD [] ++ ['\n'])
  else
    names.foldlM (fun status name => do
      let e ← env
      if name.contains '/' || (e.functions.lookup name).isSome || isBuiltin name then
        return status
      match ← programPath? name with
      | some _ =>
        learn name
        return status
      | none =>
        let reason := if ← isBlocked name then ": Permission denied" else ": not found"
        complain (name ++ reason.toList)
        return 1) 0

/-- The arguments that name a command to carry out, after options that do not ask for anything
else. -/
def commandArgs? : List Text → Option (List Text)
  | ['-', '-'] :: rest => some rest
  | ('-' :: c :: cs) :: rest => if (c :: cs).all (· == 'p') then commandArgs? rest else none
  | rest => some rest

/-- Whether a command takes the place of the shell, or changes its descriptors for good. -/
def isExec (args : List Text) : Bool :=
  let isNamed := fun args : List Text => args.head? == some "exec".toList
  isNamed args || (args.head? == some "command".toList && (commandArgs? args.tail).any isNamed)

end Builtin

/-- A built-in command that starts nothing, by its name. -/
def builtin? (name : Text) : Option (List Text → ShellM Nat) :=
  match String.ofList name with
  | ":" => some fun _ => return 0
  | "true" => some fun _ => return 0
  | "false" => some fun _ => return 1
  | "echo" => some Builtin.echo
  | "printf" => some Builtin.printf
  | "pwd" => some Builtin.pwd
  | "cd" => some Builtin.cd
  | "chdir" => some Builtin.cd
  | "test" => some Builtin.test
  | "[" => some Builtin.bracket
  | "exit" => some Builtin.exit
  | "return" => some Builtin.leaveFunction
  | "break" => some Builtin.leaveLoop
  | "continue" => some Builtin.nextRound
  | "shift" => some Builtin.shift
  | "set" => some Builtin.set
  | "export" => some Builtin.mkExport
  | "readonly" => some Builtin.mkReadonly
  | "unset" => some Builtin.unset
  | "local" => some Builtin.mkLocal
  | "read" => some Builtin.read
  | "kill" => some Builtin.kill
  | "trap" => some Builtin.trap
  | "wait" => some Builtin.wait
  | "jobs" => some Builtin.jobs
  | "fg" => some Builtin.resume
  | "bg" => some Builtin.resume
  | "umask" => some Builtin.umask
  | "ulimit" => some Builtin.ulimit
  | "times" => some Builtin.times
  | "alias" => some Builtin.mkAlias
  | "unalias" => some Builtin.unalias
  | "getopts" => some Builtin.getopts
  | _ => none

/-- The built-in commands that carry out other commands or know what names stand for. -/
def commandNames : List Text := ["eval", ".", "exec", "command", "type", "hash"].map String.toList

/-- Whether a name is that of a built-in command. -/
def isBuiltin (name : Text) : Bool := (builtin? name).isSome || commandNames.contains name

/-- What a name stands for. -/
inductive Meaning where
  | keyword
  /-- Another word for a text. -/
  | abbreviation (value : Text)
  | function
  | builtin (isSpecial : Bool)
  /-- A program, and whether it has been started before. -/
  | program (path : Text) (isKnown : Bool)
  deriving Repr, DecidableEq

/-- The meaning of a name; none if it stands for nothing. -/
def meaning? (name : Text) : ShellM (Option Meaning) := do
  let e ← env
  let w ← world
  let path ← absolute name
  let isThere := w.has path || isProgram path
  let program ← programPath? name
  if keywords.contains name then return some .keyword
  else match e.aliases.lookup name with
  | some value => return some (.abbreviation value)
  | none =>
    let found :=
      if name.contains '/' then if isThere then some (Meaning.program name false) else none
      else if (e.functions.lookup name).isSome then some .function
      else if specialNames.contains name then some (.builtin true)
      else if isBuiltin name then some (.builtin false)
      else program.map fun path => .program path (e.known.contains name)
    match found with
    | some (.program ..) => unless name.contains '/' do Builtin.learn name
    | _ => pure ()
    return found

/-- What a name stands for, in a sentence about it. -/
def Meaning.sentence (name : Text) : Meaning → Text
  | keyword => name ++ " is a shell keyword".toList
  | abbreviation value => name ++ " is an alias for ".toList ++ value
  | function => name ++ " is a shell function".toList
  | builtin isSpecial =>
    name ++ (if isSpecial then " is a special shell builtin" else " is a shell builtin").toList
  | program path isKnown =>
    name ++ (if isKnown then " is a tracked alias for " else " is ").toList ++ path

/-- What stands for a name in a script. -/
def Meaning.shown (name : Text) : Meaning → Text
  | abbreviation value => "alias ".toList ++ (Builtin.shownAlias (name, value)).dropLast
  | program path _ => path
  | _ => name

/-- Say what a name stands for, in a sentence or as it stands in a script. -/
def describe (args : List Text) : ShellM Nat := do
  let (flags, names) ← takeFlags "pvV" args
  match names with
  | [] => return 0
  | name :: _ =>
    match ← meaning? name with
    | some m =>
      let shown := if flags.contains 'V' then m.sentence name else m.shown name
      say (shown ++ ['\n'])
    | none =>
      if flags.contains 'V' then
        let _ ← say (name ++ ": not found\n".toList)
      return 127

/-- Say what names stand for. -/
def typeOf (args : List Text) : ShellM Nat := do
  let meanings ← args.mapM fun name => do return (name, ← meaning? name)
  let status ← say (meanings.flatMap fun (name, m) =>
    ((m.map (·.sentence name)).getD (name ++ ": not found".toList)) ++ ['\n'])
  return if meanings.all (·.2.isSome) then status else 127

end Localizer.Host.Shell
