import Localizer.Host.Shell.Launcher

/-!
# Carrying out scripts

Words are expanded, redirections are opened, and commands are carried out, each of which says how
it ended; zero is success. Functions that can call each other draw on a budget, and a script that
uses it up is one that does not end: it is stopped as if its time were up. `script` carries out a
whole script.
-/

namespace Localizer.Host.Shell

open Text

/-! ## Values of parameters -/

/-- The value of a parameter other than the list of all of them. -/
def parameterValue (name : Text) : ShellM (Option Text) := do
  let e ← env
  match name with
  | ['#'] => return some (ofNat e.params.length)
  | ['?'] => return some (ofNat e.status)
  | ['-'] => return some (Builtin.optionLetters e)
  | ['$'] => return some (ofNat e.number)
  | ['!'] => return e.lastJob.map fun order => ofNat (jobNumber order)
  | ['0'] => return some e.name
  | c :: _ =>
    if c.isDigit then return e.params[numberOf 10 name - 1]?
    else lookup name
  | [] => return none

/-- The atoms of an expansion with one value. -/
def valueAtoms (isQuoted : Bool) (s : Text) : List Atom :=
  if isQuoted then .present :: Atom.ofText .quotes s else Atom.ofText .expansion s

/-- The atoms of the list of all parameters. They stay apart, unless a star stands in quotes, or
nothing is split. -/
def listAtoms (splits isQuoted isStar : Bool) (seps : Text) (params : List Text) : List Atom :=
  if isStar && isQuoted then valueAtoms true (join (seps.take 1) params)
  else if splits then join [.boundary] (params.map (valueAtoms isQuoted))
  else valueAtoms isQuoted (join (if isStar then seps.take 1 else [' ']) params)

/-- The folder that a name after a tilde stands for; no name stands for the home of the user. -/
def homeOf? (home : Text) (name : Text) : Option Text :=
  if name.isEmpty then some home
  else if name = "root".toList then some "/root".toList
  else none

/-- A word in which a tilde at the front stands for a folder. Only a slash ends the name after the
tilde, or a colon too if `hasColons`. -/
def fromHome (home : Text) (hasColons : Bool) : Word → Word
  | .plain ('~' :: s) :: ps =>
    let name := s.takeWhile fun c => c != '/' && !(hasColons && c == ':')
    let rest := s.drop name.length
    if rest.isEmpty && !ps.isEmpty then .plain ('~' :: s) :: ps
    else
      match homeOf? home name with
      | some folder => .quoted folder :: (if rest.isEmpty then ps else .plain rest :: ps)
      | none => .plain ('~' :: s) :: ps
  | w => w

/-- The characters of a text before a colon at which a tilde follows, with the colon, and those
after it. -/
def cutAtTilde? : Text → Option (Text × Text)
  | ':' :: '~' :: s => some ([':'], '~' :: s)
  | c :: s => prepend [c] (cutAtTilde? s)
  | [] => none

/-- A word in which tildes after colons stand for folders too. -/
def fromHomes (home : Text) : (fuel : Nat) → (isFront : Bool) → Word → Word
  | 0, _, w => w
  | _, _, [] => []
  | fuel + 1, isFront, w =>
    match if isFront then fromHome home true w else w with
    | .plain s :: ps =>
      match cutAtTilde? s with
      | some (front, rest) => .plain front :: fromHomes home fuel true (.plain rest :: ps)
      | none => .plain s :: fromHomes home fuel (s.getLast? == some ':') ps
    | p :: ps => p :: fromHomes home fuel false ps
    | [] => []

/-- The paths that start with a text and go on with names that fit patterns, in a world and from
a folder. A name that starts with a dot is only found by a pattern that does. -/
def pathsFrom (w : World) (folder : Text) (front : Text) : List (List Atom) → List Text
  | [] => []
  | field :: rest =>
    let text := Atom.toText [] field
    let p := patternOf field
    let here := ((Path.ofText folder).child (Message.ofText front)).resolve.toText
    let isHidden := fun n : Text => n.head? == some '.' && text.head? != some '.'
    let all := [".".toList, "..".toList] ++ Tool.namesIn w here
    let names := if !p.isWild then [text]
      else if w.folders.contains here then all.filter fun n => p.fits n && !isHidden n
      else []
    let more := names.map fun n => pathsFrom w folder (front ++ n ++ ['/']) rest
    if !rest.isEmpty then more.flatten
    else
      let isThere := fun n : Text =>
        let path := ((Path.ofText folder).child (Message.ofText (front ++ n))).resolve.toText
        w.folders.contains path || (!n.isEmpty && (w.file? path).isSome)
      (names.filter isThere).map (front ++ ·)

/-- The names of files that a field with a pattern stands for, or its text if there are none. -/
def fileNames (field : List Atom) : ShellM (List Text) := do
  let text := Atom.toText [] field
  if !(patternOf field).isWild || (← hasOption 'f') then return [text]
  else
    let isSlash := fun a : Atom => match a with
      | .letter '/' _ => true
      | _ => false
    let names := pathsFrom (← world) (← env).folder [] (field.splitOnP isSlash)
    return if names.isEmpty then [text] else Text.sort names

/-- Compute an arithmetic expression. -/
def compute (source : Text) : ShellM Int := do
  let e ← env
  let values : Expression.Values := { before := fun name => (e.vars.lookup name).bind (·.value) }
  match (Expression.ofText source).value true values with
  | .error f => fail (f.message source)
  | .ok (n, v) =>
    v.assigned.reverse.forM fun p => setVar p.1 (ofInt p.2)
    return n

/-! ## Redirections -/

/-- Report that a file cannot be opened. -/
def failToOpen {α : Type} (verb : String) (name : Text) (reason : String) : ShellM α :=
  fail ("cannot ".toList ++ verb.toList ++ ' ' :: name ++ ": ".toList ++ reason.toList)

/-- The descriptor that a path of devices names. -/
def deviceNumber? (path : Text) : Option Nat :=
  match String.ofList path with
  | "/dev/stdin" => some 0
  | "/dev/stdout" => some 1
  | "/dev/stderr" => some 2
  | "/dev/fd/0" => some 0
  | "/dev/fd/1" => some 1
  | "/dev/fd/2" => some 2
  | _ => none

/-- Open a file. -/
def openFile (opening : Opening) (name : Text) : ShellM Channel := do
  let path ← absolute name
  let w ← world
  let opened := fun path use => do
    let (c, w) := (← world).openFile path use
    modifyWorld fun _ => w
    return c
  match deviceNumber? path with
  | some n =>
    match ← channel? n with
    | some c => return c
    | none => failToOpen "open" name "No such file"
  | none =>
    if path = "/dev/null".toList then return .nowhere
    else if path = "/dev/full".toList then return .full
    else if opening = .read then
      if name.isEmpty then failToOpen "open" name "No such file"
      match w.file? path with
      | some _ => opened path .read
      | none =>
        if w.folders.contains path then return .nowhere
        else failToOpen "open" name "No such file"
    else if opening = .write && (w.file? path).isSome && (← hasOption 'C') then
      failToOpen "create" name "File exists"
    else if name.isEmpty then failToOpen "create" name "Directory nonexistent"
    else if w.folders.contains path then
      let verb := if opening = .write && (← hasOption 'C') then "open" else "create"
      failToOpen verb name "Is a directory"
    else if !w.folders.contains (Tool.parentOf path) then
      failToOpen "create" name "Directory nonexistent"
    else
      let isNew := opening = .write || opening = .replace
      let before := if isNew then [] else (w.file? path).getD []
      modifyWorld (·.setFile path before)
      opened path (match opening with
        | .append => .append
        | .readWrite => .readWrite
        | _ => .write)

/-- Let a descriptor refer to what another one refers to, or close it. -/
def copyChannel (n : Nat) (target : Text) : ShellM Unit := do
  if target = ['-'] then setChannel n none
  else
    match ← channel? (numberOf 10 target) with
    | some c => setChannel n (some c)
    | none =>
      setChannel n none
      fail (target ++ ": Bad file descriptor".toList)

/-! ## Surroundings -/

/-- Let the descriptors of redirections refer to what they referred to before them. -/
def restoreChannels (redirects : List Redirect) (before : List (Nat × Channel)) : ShellM Unit :=
  redirects.forM fun r => setChannel r.descriptor (before.lookup r.descriptor)

/-- How many built-in commands can surround each other before there is no room for more. -/
def nestingLimit : Nat := 10000

/-- Carry out a built-in command under its name. A fault ends only a special one for good. -/
def asBuiltin (isSpecial : Bool) (name : Text) (m : ShellM Nat) : ShellM Nat := do
  let before := (← env).builtin
  let nesting := (← env).nesting
  if nestingLimit ≤ nesting then throw (.killed 11)
  modifyEnv fun e => { e with builtin := some name, nesting := nesting + 1 }
  let r ← attempt m
  modifyEnv fun e => { e with builtin := before, nesting }
  match r with
  | .ok status => return status
  | .error (.fault status) => if isSpecial then throw (.fault status) else return status
  | .error e => throw e

/-- What became of a round of a loop. -/
inductive Round where
  | done (status : Nat)
  /-- The loop is left. -/
  | left
  deriving Repr, DecidableEq

/-- Carry out a part of a loop. -/
def inLoop (m : ShellM Nat) : ShellM Round := do
  let before := (← env).loops
  modifyEnv fun e => { e with loops := before + 1 }
  let r ← attempt m
  modifyEnv fun e => { e with loops := before }
  match r with
  | .ok status => return .done status
  | .error (.leave n) => if n ≤ 1 then return .left else throw (.leave (n - 1))
  | .error (.again n) => if n ≤ 1 then return .done 0 else throw (.again (n - 1))
  | .error e => throw e

/-- Remember how a command ended. -/
def ended (status : Nat) : ShellM Nat := do
  modifyEnv fun e => { e with status }
  return status

/-- Remember how a command ended. Its failure ends the shell if that is wanted, unless it was a
test. -/
def endedChecked (isTest : Bool) (status : Nat) : ShellM Nat := do
  let _ ← ended status
  if status != 0 && !isTest && (← hasOption 'e') then throw (.exit status)
  return status

/-- Give a variable a value for one command only; what it was before. -/
def lend (name value : Text) : ShellM (Text × Option Var) := do
  let before := (← env).vars.lookup name
  setVar name value
  modifyEnv fun e =>
    e.putVar name ((e.vars.lookup name).map fun v => { v with isExported := true })
  return (name, before)

/-- Remember where the program of a command is, if its name says what it is. -/
def learnProgram : Command → ShellM Unit
  | .simple _ _ (w :: _) _ => do
    match Word.bare? w with
    | some name =>
      let isOwn := ((← env).functions.lookup name).isSome || isBuiltin name
      if isName name && !isOwn && (← programPath? name).isSome then Builtin.learn name
    | none => pure ()
  | _ => pure ()

/-- Restore variables; a dash stands for the options. -/
def restore (vars : List (Text × Option Var)) : ShellM Unit :=
  vars.forM fun (name, v) => do
    let value := v.bind (·.value)
    if name = ['-'] then modifyEnv fun e => { e with options := value.getD [] }
    else
      modifyEnv (·.putVar name v)
      if name = indexName then
        let index := max 1 (numberOf 10 (value.getD []))
        modifyEnv fun e => { e with search := { index } }

/-- The variables that every shell has. -/
def defaultVars : List (Text × Var) :=
  [("IFS", " \t\n"), ("OPTIND", "1"), ("PS1", "# "), ("PS2", "> "), ("PS4", "+ ")].map
    fun (name, value) => (name.toList, { value := some value.toList })

/-- The shell that a program gets that is started by another shell. -/
def Env.child (e : Env) (name : Text) (params : List Text) : Env :=
  { name, params, number := e.number + 1000, channels := e.channels, folder := e.folder,
    vars := e.vars.filter (·.2.isExported) ++ defaultVars }

/-! ## Commands -/

mutual

/-- The atoms of a word. -/
def expand (fuel : Nat) (splits : Bool) (w : Word) : ShellM (List Atom) :=
  match fuel with
  | 0 => throw .timeIsUp
  | fuel + 1 => do
    let w := fromHome ((← lookup "HOME".toList).getD ['~']) false w
    let atoms ← w.mapM (expandPart fuel splits)
    return atoms.flatten

/-- The atoms of a part of a word. -/
def expandPart (fuel : Nat) (splits : Bool) (p : Part) : ShellM (List Atom) :=
  match fuel with
  | 0 => throw .timeIsUp
  | fuel + 1 =>
    match p with
    | .plain s => return Atom.ofText .script s
    | .quoted s => return .present :: Atom.ofText .quotes s
    | .output q body => do
      let s ← outputOf fuel body
      return valueAtoms q s
    | .arithmetic q e => do
      let source ← textOf fuel e
      let n ← compute source
      return valueAtoms q (ofInt n)
    | .parameter q name op nullCounts word =>
      if op = .bad then fail "Bad substitution".toList
      else if name = ['@'] || name = ['*'] then do
        let params := (← env).params
        let seps ← separators
        let isStar := name == ['*']
        let value := join [' '] params
        let isSet := !(nullCounts && value.isEmpty)
        if op = .value then return listAtoms splits q isStar seps params
        else if isSet && (op = .default || op = .assign || op = .demand) then
          return (if q then [.present] else []) ++ listAtoms splits q isStar seps params
        else operate fuel splits q name op nullCounts word (if isSet then some value else none)
      else do
        let value ← parameterValue name
        let value := if nullCounts && value == some [] then none else value
        operate fuel splits q name op nullCounts word value

/-- Apply an operator to a value. -/
def operate (fuel : Nat) (splits q : Bool) (name : Text) (op : Operator) (nullCounts : Bool)
    (word : Word) (value : Option Text) : ShellM (List Atom) :=
  match fuel with
  | 0 => throw .timeIsUp
  | fuel + 1 => do
    let alternative : ShellM (List Atom) := do
      let atoms ← expand fuel splits word
      return if q then .present :: atoms
        else atoms.map fun a => match a with
          | .letter c .script => .letter c .expansion
          | a => a
    let isWanting := match op with
      | .value => true
      | .length => true
      | .dropFront _ => true
      | .dropEnd _ => true
      | _ => false
    if isWanting && value.isNone && name != ['@'] && name != ['*'] && (← hasOption 'u') then
      fail (name ++ ": parameter not set".toList)
    match op, value with
    | .length, v => return valueAtoms q (ofNat (v.getD []).length)
    | .default, none => alternative
    | .assign, none => do
      let s ← textOf fuel word
      setVar name s
      return valueAtoms q s
    | .demand, none => do
      let message ← textOf fuel word
      fail (name ++ ": ".toList ++
        (if word.isEmpty then
          "parameter not set".toList ++ (if nullCounts then " or null".toList else [])
        else message))
    | .alternative, some _ => alternative
    | .alternative, none => return if q then [.present] else []
    | .dropFront isLongest, some s => do
      let p := patternOf (← expand fuel false word)
      return valueAtoms q (s.drop ((p.frontLength? isLongest s).getD 0))
    | .dropEnd isLongest, some s => do
      let p := patternOf (← expand fuel false word)
      return valueAtoms q (s.take ((p.lengthBefore? isLongest s).getD s.length))
    | _, v => return valueAtoms q (v.getD [])

/-- The text of a word that is not split. -/
def textOf (fuel : Nat) (w : Word) : ShellM Text :=
  match fuel with
  | 0 => throw .timeIsUp
  | fuel + 1 => do
    let atoms ← expand fuel false w
    return Atom.toText [' '] atoms

/-- The text of a word that is the value of an assignment. -/
def valueOf (fuel : Nat) (w : Word) : ShellM Text :=
  match fuel with
  | 0 => throw .timeIsUp
  | fuel + 1 => do
    let home := (← lookup "HOME".toList).getD ['~']
    let size := w.foldl (fun n p => match p with
      | .plain s => n + s.length + 1
      | _ => n + 1) 1
    textOf fuel (fromHomes home size true w)

/-- The fields of a word. -/
def fieldsOf (fuel : Nat) (w : Word) : ShellM (List Text) :=
  match fuel with
  | 0 => throw .timeIsUp
  | fuel + 1 => do
    let atoms ← expand fuel true w
    let names ← (fields (← separators) atoms).mapM fileNames
    return names.flatten

/-- What a command prints, without newlines at the end. -/
def outputOf (fuel : Nat) (body : Option Command) : ShellM Text :=
  match fuel with
  | 0 => throw .timeIsUp
  | fuel + 1 => do
    match body with
    | none => return []
    | some c =>
      let (id, w) := (← world).openStream []
      modifyWorld fun _ => w
      let status ← isolated fuel do
        setChannel 1 (some (.stream id))
        run fuel false c
      awaitWriters id
      modifyEnv fun e => { e with outputStatus := status }
      let s := (← world).contentOf id
      return dropEndWhile (· == '\n') (s.filter (· != '\x00'))

/-- Carry out a step in a shell of its own. -/
def isolated (fuel : Nat) (m : ShellM Nat) : ShellM Nat :=
  match fuel with
  | 0 => throw .timeIsUp
  | fuel + 1 => do
    let before ← env
    modifyEnv fun e => { e with
      traps := e.traps.filter (·.2.isEmpty), isSubshell := true, jobs := [] }
    let r ← attempt do
      match ← attempt m with
      | .ok status => atExit fuel status
      | .error (.exit status) => atExit fuel (status % 256)
      | .error (.fault status) => atExit fuel status
      | .error (.back status) => atExit fuel (status % 256)
      | .error (.leave _) => atExit fuel 0
      | .error (.again _) => atExit fuel 0
      | .error e => throw e
    modifyEnv fun _ => before
    match r with
    | .ok status => return status
    | .error (.killed n) =>
      let _ ← emit 2 (deathNotice n)
      return 128 + n
    | .error e => throw e

/-- Do what is to be done at the end of a shell. -/
def atExit (fuel : Nat) (status : Nat) : ShellM Nat :=
  match fuel with
  | 0 => throw .timeIsUp
  | fuel + 1 => do
    match (← env).traps.lookup 0 with
    | none => return status
    | some action =>
      modifyEnv fun e => { e with status, traps := e.traps.filter (·.1 != 0) }
      match ← attempt (lines fuel true 0 { rest := action }) with
      | .ok _ => return status
      | .error (.exit s) => return s % 256
      | .error (.fault s) => return s
      | .error (.killed n) => throw (.killed n)
      | .error .timeIsUp => throw .timeIsUp
      | .error _ => return status

/-- Do what is to be done at the signals that have come. -/
def answerSignals (fuel : Nat) : ShellM Unit :=
  match fuel with
  | 0 => throw .timeIsUp
  | fuel + 1 => do
    match ← signalBefore? (← world).clock with
    | none => pure ()
    | some s =>
      modifyWorld fun w => { w with signals := w.signals.erase s }
      match reaction (← env).traps s.signal with
      | .nothing => pure ()
      | .halt => throw .timeIsUp
      | .death => throw (.killed s.signal)
      | .action script =>
        let status := (← env).status
        let _ ← lines fuel true 0 { rest := script }
        let _ ← ended status
      answerSignals fuel

/-- Carry out the lines of a script; how the last command ended, which is `last` if there is
none. -/
def lines (fuel : Nat) (isTest : Bool) (last : Nat) (r : Reader) : ShellM Nat :=
  match fuel with
  | 0 => throw .timeIsUp
  | fuel + 1 => do
    let aliases := (← env).aliases
    match Reader.line? { r with documents := (← world).documents, aliases } with
    | .error e => failSyntax e
    | .ok none => return last
    | .ok (some (c, after)) =>
      modifyWorld fun w => { w with documents := after.documents }
      let status ← match c with
        | some c => run fuel isTest c
        | none => pure last
      lines fuel isTest status after

/-- The text of the target of a redirection. -/
def targetText (fuel : Nat) (r : Redirect) : ShellM Text :=
  match fuel with
  | 0 => throw .timeIsUp
  | fuel + 1 => do
    match r with
    | .mk _ (.document _) _ => return []
    | .mk _ .copy target => do
      let s ← textOf fuel target
      if s = ['-'] || (s.length = 1 && s.all Char.isDigit) then return s
      else fail ("Syntax error: ".toList ++ SyntaxFault.descriptor.message)
    | .mk _ _ target => textOf fuel target

/-- Open a redirection whose target has a text. -/
def redirect (fuel : Nat) (r : Redirect × Text) : ShellM Unit :=
  match fuel with
  | 0 => throw .timeIsUp
  | fuel + 1 => do
    match r with
    | (.mk n (.document index) _, _) =>
      let s ← textOf fuel (((← world).documents[index]?).getD [])
      let (id, w) := (← world).openStream s
      modifyWorld fun _ => w
      setChannel n (some (.stream id))
    | (.mk n .copy _, s) => copyChannel n s
    | (.mk n opening _, s) => do
      let c ← openFile opening s
      setChannel n (some c)

/-- Open redirections; a fault in their targets is one of the shell, and the first that cannot be
opened is a fault of the command. -/
def openAll (fuel : Nat) (rs : List Redirect) : ShellM (Except Stop Unit) :=
  match fuel with
  | 0 => throw .timeIsUp
  | fuel + 1 => do
    let texts ← rs.mapM (targetText fuel)
    attempt ((rs.zip texts).forM (redirect fuel))

/-- Carry out a command. Its failure does not end the shell if it is a test. -/
def run (fuel : Nat) (isTest : Bool) (c : Command) : ShellM Nat :=
  match fuel with
  | 0 => throw .timeIsUp
  | fuel + 1 => do
    if ← hasOption 'n' then return 0
    match c with
    | .simple line assigns words redirects => do
      let status ← simple fuel isTest line assigns words redirects
      answerSignals fuel
      endedChecked isTest status
    | .pipeline cs => do
      let status ← pipeline fuel none cs
      answerSignals fuel
      endedChecked isTest status
    | .both a b => do
      let status ← run fuel true a
      if status = 0 then run fuel isTest b else return status
    | .either a b => do
      let status ← run fuel true a
      if status = 0 then return status else run fuel isTest b
    | .sequence a b => do
      let _ ← run fuel isTest a
      run fuel isTest b
    | .negation a => do
      let status ← run fuel true a
      ended (if status = 0 then 1 else 0)
    | .background a => do
      let (out, w) := (← world).openStream []
      let (err, w) := w.openStream []
      let e ← env
      modifyWorld fun _ => { w with delayed := [] }
      let r ← attempt (isolated fuel do
        setChannel 0 (some .nowhere)
        setChannel 1 (some (.stream out))
        setChannel 2 (some (.stream err))
        run fuel false a)
      modifyEnv fun _ => e
      let time := (← world).clock
      let holdsOutput := !a.isSilent
      let done : Job := match r with
        | .ok status => { status, ending := some time, holdsOutput }
        | .error _ => { status := 0, ending := none, holdsOutput }
      let order := (← world).jobs.size
      let later := fun id n => (e.channels.lookup n).map fun c => (order, id, c)
      modifyWorld fun after => { after with
        clock := w.clock
        jobs := after.jobs.push done
        delayed :=
          w.delayed ++ after.delayed ++ (later out 1).toList ++ (later err 2).toList }
      modifyEnv fun e => { e with jobs := order :: e.jobs, lastJob := some order }
      ended 0
    | .subshell line a => do
      modifyEnv fun e => { e with line }
      let status ← isolated fuel (run fuel isTest a)
      answerSignals fuel
      endedChecked isTest status
    | .redirected line a redirects => do
      modifyEnv fun e => { e with line }
      let before := (← env).channels
      let r ← attempt do
        match ← openAll fuel redirects with
        | .ok _ => run fuel isTest a
        | .error (.fault status) => return status
        | .error e => throw e
      restoreChannels redirects before
      match r with
      | .ok status => ended status
      | .error e => throw e
    | .branch test yes no => do
      let status ← run fuel true test
      if status = 0 then run fuel isTest yes
      else
        match no with
        | some no => run fuel isTest no
        | none => ended 0
    | .loop isUntil test body => do
      let status ← loop fuel isTest isUntil test body 0
      ended status
    | .each line name words body => do
      modifyEnv fun e => { e with line }
      let values ← words.mapM (fieldsOf fuel)
      let status ← each fuel isTest name body 0 values.flatten
      ended status
    | .choose line word cs => do
      modifyEnv fun e => { e with line }
      let s ← textOf fuel word
      choose fuel isTest s cs
    | .define line name body => do
      modifyEnv fun e => { e with
        functions := (name, ⟨line, body⟩) :: e.functions.filter (·.1 != name) }
      ended 0

/-- Carry out the commands of a pipeline, the first of which reads from the stream `input`. -/
def pipeline (fuel : Nat) (input : Option Nat) (cs : List Command) : ShellM Nat :=
  match fuel with
  | 0 => throw .timeIsUp
  | fuel + 1 => do
    let receive : ShellM Unit := match input with
      | some id => setChannel 0 (some (.stream id))
      | none => pure ()
    match cs with
    | [] => return 0
    | [c] => do
      learnProgram c
      isolated fuel do
        receive
        run fuel false c
    | c :: rest =>
      learnProgram c
      let (id, w) := (← world).openStream []
      modifyWorld fun _ => w
      let _ ← isolated fuel do
        receive
        setChannel 1 (some (.stream id))
        run fuel false c
      awaitWriters id
      pipeline fuel (some id) rest

/-- Repeat the body of a loop; `last` is how it ended the last time. -/
def loop (fuel : Nat) (isTest isUntil : Bool) (test body : Command) (last : Nat) : ShellM Nat :=
  match fuel with
  | 0 => throw .timeIsUp
  | fuel + 1 => do
    match ← inLoop (run fuel true test) with
    | .left => return 0
    | .done status =>
      if (status == 0) == isUntil then return last
      else
        match ← inLoop (run fuel isTest body) with
        | .left => return 0
        | .done status => loop fuel isTest isUntil test body status

/-- Carry out the body of a loop for each of the values. -/
def each (fuel : Nat) (isTest : Bool) (name : Text) (body : Command) (last : Nat)
    (values : List Text) : ShellM Nat :=
  match fuel with
  | 0 => throw .timeIsUp
  | fuel + 1 => do
    match values with
    | [] => return last
    | v :: rest =>
      setVar name v
      match ← inLoop (run fuel isTest body) with
      | .left => return 0
      | .done status => each fuel isTest name body status rest

/-- Carry out the first case with a pattern that fits a text. -/
def choose (fuel : Nat) (isTest : Bool) (s : Text) (cs : List (List Word × Option Command)) :
    ShellM Nat :=
  match fuel with
  | 0 => throw .timeIsUp
  | fuel + 1 => do
    match cs with
    | [] => ended 0
    | (patterns, body) :: rest =>
      let isFit ← patterns.anyM fun w => do
        let p := patternOf (← expand fuel false w)
        return p.fits s
      if isFit then
        match body with
        | some c => run fuel isTest c
        | none => ended 0
      else choose fuel isTest s rest

/-- The arguments of a simple command. Those of a command that makes assignments are not split
after an equals sign. -/
def arguments (fuel : Nat) (words : List Word) : ShellM (List Text) :=
  match fuel with
  | 0 => throw .timeIsUp
  | fuel + 1 => do
    match words with
    | [] => return []
    | w :: rest =>
      let name ← fieldsOf fuel w
      let makesAssignments :=
        ["export", "readonly", "local"].any fun s => name.head? == some s.toList
      let others ← rest.mapM fun w =>
        match if makesAssignments then assignment? w else none with
        | some (name, value) => do
          let s ← valueOf fuel value
          return [name ++ '=' :: s]
        | none => fieldsOf fuel w
      return name ++ others.flatten

/-- Carry out a simple command. -/
def simple (fuel : Nat) (isTest : Bool) (line : Nat) (assigns : List (Text × Word))
    (words : List Word) (redirects : List Redirect) : ShellM Nat :=
  match fuel with
  | 0 => throw .timeIsUp
  | fuel + 1 => do
    modifyEnv fun e => { e with line, outputStatus := 0 }
    let args ← arguments fuel words
    let name := args.headD []
    let isSpecial := specialNames.contains name
    let before := (← env).channels
    let opened ← openAll fuel redirects
    match opened with
    | .error (.fault status) =>
      restoreChannels redirects before
      if isSpecial then throw (.fault status) else return status
    | .error e => throw e
    | .ok _ =>
      let isLasting := args.isEmpty || isSpecial
      let lent ← assigns.mapM fun (name, w) => do
        let s ← valueOf fuel w
        if isLasting then
          setVar name s
          return (name, s, none)
        else
          let lent ← lend name s
          return (name, s, some lent)
      if ← hasOption 'x' then
        let shown := lent.map (fun (name, s, _) => name ++ '=' :: s) ++ args
        let mark ← tracingMark fuel
        let trace := mark ++ join [' '] shown ++ ['\n']
        match before.lookup 2 with
        | some c => modifyWorld (·.write c trace)
        | none => pure ()
      let r ← attempt (invoke fuel isTest true isSpecial args)
      restore (lent.filterMap (·.2.2)).reverse
      unless Builtin.isExec args do restoreChannels redirects before
      match r with
      | .ok status => return status
      | .error e => throw e

/-- What stands before commands that are traced. -/
def tracingMark (fuel : Nat) : ShellM Text :=
  match fuel with
  | 0 => throw .timeIsUp
  | fuel + 1 => do
    let text := (← lookup "PS4".toList).getD []
    match Reader.document text with
    | .error e =>
      complain ("Syntax error: ".toList ++ e.fault.message)
      return text
    | .ok w =>
      let before := (← env).options
      modifyEnv fun e => { e with options := before.filter (· != 'x') }
      let r ← attempt (textOf fuel w)
      modifyEnv fun e => { e with options := before }
      match r with
      | .ok s => return s
      | .error (.fault _) => return text
      | .error e => throw e

/-- Carry out what the first of the arguments names. -/
def invoke (fuel : Nat) (isTest findsFunctions isSpecial : Bool) (args : List Text) :
    ShellM Nat :=
  match fuel with
  | 0 => throw .timeIsUp
  | fuel + 1 => do
    match args with
    | [] => return (← env).outputStatus
    | name :: rest =>
      let functions := (← env).functions
      match if findsFunctions then functions.lookup name else none with
      | some f => call fuel isTest f rest
      | none =>
        if name = "eval".toList then
          asBuiltin isSpecial name do
            let script := join [' '] rest
            lines fuel isTest 0 { rest := script }
        else if name = ['.'] then asBuiltin isSpecial name (fromFile fuel isTest rest)
        else if name = "exec".toList then
          match rest with
          | [] => return 0
          | program :: _ => do
            let isThere := (← programPath? program).isSome
            let status ← asBuiltin isSpecial name (start fuel rest)
            if isThere then modifyEnv fun e => { e with traps := e.traps.filter (·.1 != 0) }
            throw (.exit status)
        else if name = "command".toList then
          match Builtin.commandArgs? rest with
          | some args => invoke fuel isTest false false args
          | none => asBuiltin false name (describe rest)
        else if name = "type".toList then asBuiltin false name (typeOf rest)
        else if name = "hash".toList then asBuiltin false name (Builtin.hash isBuiltin rest)
        else
          match builtin? name with
          | some b => asBuiltin isSpecial name (b rest)
          | none => start fuel args

/-- Carry out a file in this shell. -/
def fromFile (fuel : Nat) (isTest : Bool) (args : List Text) : ShellM Nat :=
  match fuel with
  | 0 => throw .timeIsUp
  | fuel + 1 => do
    let (_, args) ← takeFlags "" args
    match args with
    | [] => return 0
    | name :: _ =>
      let w ← world
      let places ← candidates name
      let content := fun (p : Text × Text) =>
        if name.contains '/' && w.has p.2 then some ((w.file? p.2).getD []) else w.file? p.2
      match places.findSome? content with
      | some script =>
        match ← attempt (lines fuel isTest 0 { rest := script }) with
        | .ok status => return status
        | .error (.back status) => return status
        | .error e => throw e
      | none =>
        if name.contains '/' then failToOpen "open" name "No such file"
        else fail (name ++ ": not found".toList)

/-- Call a function. -/
def call (fuel : Nat) (isTest : Bool) (f : Function) (args : List Text) : ShellM Nat :=
  match fuel with
  | 0 => throw .timeIsUp
  | fuel + 1 => do
    let before ← env
    if 1000 ≤ before.depth then fail "Maximum function recursion depth (1000) reached".toList
    modifyEnv fun e => { e with
      params := args, loops := 0, depth := before.depth + 1, saved := [] :: e.saved, search := {} }
    let r ← attempt (run fuel isTest f.body)
    let saved := (← env).saved.headD []
    modifyEnv fun e => { e with
      params := before.params, loops := before.loops, depth := before.depth,
      saved := before.saved, search := before.search }
    restore saved
    match r with
    | .ok status => return status
    | .error (.back status) => return status
    | .error e => throw e

/-- Start a program. -/
def start (fuel : Nat) (args : List Text) : ShellM Nat :=
  match fuel with
  | 0 => throw .timeIsUp
  | fuel + 1 => do
    let name := args.headD []
    let launch ← launch? name
    if launch.isSome && !name.contains '/' then Builtin.learn name
    match launch with
    | some (.tool t) =>
      modifyEnv fun e => { e with hasLostOutput := false }
      let status ← t args.tail
      if (← env).hasLostOutput then Tool.failToPrint name else return status
    | some (.launcher own) =>
      if own = "sh".toList then nested fuel name args.tail
      else if own = "env".toList then inEnvironment fuel args.tail
      else if own = "xargs".toList then withArguments fuel args.tail
      else if own = "timeout".toList then inTime fuel args.tail
      else findPrograms args.tail
    | some (.script path) => nested fuel name (path :: args.tail)
    | none =>
      let isFile := (← programPath? name).isSome
      if ← isBlocked name then
        complain (name ++ ": Permission denied".toList)
        return if isFile || name.contains '/' then 126 else 127
      else
        complain (name ++ ": not found".toList)
        return 127

/-- Start a program for a launcher, which reports in its own words that there is none. -/
def startFor (fuel : Nat) (launcher : String) (args : List Text) : ShellM Nat :=
  match fuel with
  | 0 => throw .timeIsUp
  | fuel + 1 => do
    let name := args.headD []
    let shown := if launcher = "xargs" then name else Tool.inQuotes name
    let verb := if launcher = "timeout" then "failed to run command " else ""
    if (← launch? name).isSome then isolated fuel (start fuel args)
    else
      Tool.note (launcher ++ ": " ++ verb) shown ": No such file or directory"
      return 127

/-- Start a program with other variables, or print them. -/
def inEnvironment (fuel : Nat) (args : List Text) : ShellM Nat :=
  match fuel with
  | 0 => throw .timeIsUp
  | fuel + 1 => do
    match environmentOf (args.length + 1) false [] args with
    | .error c =>
      let _ ← Tool.misused "env" "invalid option -- '" [c, '\'']
      return 125
    | .ok (isEmpty, changes, rest) =>
      isolated fuel do
        modifyEnv fun e =>
          let kept := if isEmpty then [] else e.vars.filter (·.2.isExported)
          changes.foldl (fun e (name, value) => e.putVar name (value.map fun s =>
            { value := some s, isExported := true })) { e with vars := kept }
        if rest.isEmpty then
          modifyEnv fun e => { e with hasLostOutput := false }
          let status ← Tool.printenv []
          if (← env).hasLostOutput then Tool.failToPrint "env".toList else return status
        else startFor fuel "env" rest

/-- Start a program with what comes from the input as arguments. -/
def withArguments (fuel : Nat) (args : List Text) : ShellM Nat :=
  match fuel with
  | 0 => throw .timeIsUp
  | fuel + 1 => do
    let call := ArgumentCall.ofArgs (args.length + 1) {} args
    let source ← readAll 0
    match call.groups source with
    | .error message =>
      Tool.note "xargs: " message ""
      return 1
    | .ok groups =>
      groups.foldlM (fun status group => do
        if status = 127 then return status
        let s ← startFor fuel "xargs" (call.command group)
        return if s = 0 then status else if s = 127 then 127 else 123) 0

/-- Start a program that has to end in a time. -/
def inTime (fuel : Nat) (args : List Text) : ShellM Nat :=
  match fuel with
  | 0 => throw .timeIsUp
  | fuel + 1 => do
    match TimedCall.ofArgs? (args.length + 1) {} args with
    | .error message =>
      let _ ← emit 2 ((if message.isEmpty then [] else
        "timeout: ".toList ++ message ++ ['\n']) ++ Tool.hint "timeout")
      return 125
    | .ok call =>
      let before := (← world).limit
      let deadline := (← world).clock + call.duration
      let isFirst := 0 < call.duration && before.all (deadline < ·)
      if isFirst then modifyWorld fun w => { w with limit := some deadline }
      let env ← env
      let r ← attempt (startFor fuel "timeout" call.args)
      modifyWorld fun w => { w with limit := before }
      match r with
      | .error .timeIsUp =>
        if !isFirst then throw .timeIsUp
        modifyEnv fun _ => env
        modifyWorld fun w => World.release { w with clock := deadline }
        return if call.kills then 137 else 124
      | .error e => throw e
      | .ok status => return status

/-- Start another shell. -/
def nested (fuel : Nat) (name : Text) (args : List Text) : ShellM Nat :=
  match fuel with
  | 0 => throw .timeIsUp
  | fuel + 1 => do
    let perform := fun (options name : Text) (params : List Text) (script : Text) =>
      isolated fuel do
        modifyEnv fun e => { e.child name params with options }
        refuseControl
        lines fuel false 0 { rest := script }
    let refuse := fun (reason : Text) => do
      let _ ← emit 2 (name ++ ": 0: ".toList ++ reason ++ ['\n'])
      return 2
    match Request.ofArgs name args with
    | .script options source name params => perform options name params source
    | .input options params => do
      let source ← readAll 0
      perform options name params source
    | .file options path params =>
      match (← world).file? (← absolute path) with
      | some source => perform options path params source
      | none => refuse ("cannot open ".toList ++ path ++ ": No such file".toList)
    | .refused reason => refuse reason

end

/-! ## Whole scripts -/

/-- How many steps deep a script may go, or how many rounds a loop may have. -/
def stepLimit : Nat := 200000

/-- How a script ended. -/
inductive Ending where
  | exited (status : Nat)
  | killed (signal : Nat)
  | timedOut
  deriving Repr, DecidableEq

/-- What became of a script. -/
structure Result where
  ending : Ending
  out : Text
  err : Text
  deriving Repr, DecidableEq

/-- The folders that are there at the start, beside those above the folder of the shell. -/
def commonFolders : List Text :=
  ["/tmp", "/bin", "/usr", "/usr/bin", "/etc", "/dev", "/var", "/home", "/root"].map String.toList

/-- Let the time pass until nothing keeps the output open. -/
def awaitOutput : ShellM Unit := do
  let streams := (← world).delayed.filter fun (_, _, c) => c.isStream
  streams.forM fun (order, _, _) => do
    let j ← job order
    if j.holdsOutput then passUntil j.ending
  streams.forM fun _ => modifyWorld (·.release)

/-- Carry out a script with options and parameters in a folder, which has to end before a limit in
microseconds. It takes a millisecond to start. -/
def script (name : Text) (params : List Text) (options : Text) (folder : Text)
    (limit : Option Nat) (source : Text) : Result :=
  let start : World := {
    streams := #[{}, {}]
    folders := (Tool.ancestors folder ++ commonFolders).eraseDups
    clock := 1000
    limit }
  let e : Env := {
    name, params, folder, options
    number := shellNumber
    channels := [(0, .nowhere), (1, .stream 0), (2, .stream 1)]
    vars := defaultVars ++ [("PATH".toList, "/usr/local/bin:/usr/bin:/bin".toList),
      ("HOME".toList, "/root".toList), ("PWD".toList, folder)].map fun (name, value) =>
        (name, { value := some value, isExported := true }) }
  let steps : ShellM (Except Stop Nat) := attempt do
    Tool.pause 0
    refuseControl
    let r ← attempt (lines stepLimit false 0 { rest := source })
    let status ← match r with
      | .ok status => pure status
      | .error (.exit status) => pure (status % 256)
      | .error (.fault status) => pure status
      | .error (.back status) => pure (status % 256)
      | .error (.leave _) => pure 0
      | .error (.again _) => pure 0
      | .error e => throw e
    atExit stepLimit status
  let (r, s) := (steps <* awaitOutput).run.run { env := e, world := start }
  let ending := match r with
    | .ok (.ok status) => .exited status
    | .ok (.error (.killed n)) => .killed n
    | _ => .timedOut
  { ending, out := s.world.contentOf 0, err := s.world.contentOf 1 }

end Localizer.Host.Shell
