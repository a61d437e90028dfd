import Localizer.Host.Shell.Field
import Localizer.Host.Shell.Format
import Localizer.Host.Shell.State

/-!
# Tools

Programs that scripts use beside the commands of the shell itself. Each takes its arguments,
reads from its input or from files, and says how it ended; zero is success. Here are what all of
them share, and those that print, wait, and deal with files and folders.
-/

namespace Localizer.Host.Shell

open Text

namespace Tool

/-- Report something wrong with a call of a tool. -/
def note (message : String) (about : Text) (rest : String) : ShellM Unit := do
  let _ ← emit 2 (message.toList ++ about ++ rest.toList ++ ['\n'])

/-- The hint at the help of a tool. -/
def hint (tool : String) : Text :=
  "Try '".toList ++ tool.toList ++ " --help' for more information.\n".toList

/-- A tool whose call is wrong in a way that its help explains. -/
def misused (tool message : String) (about : Text) : ShellM Nat := do
  let _ ← emit 2 (tool.toList ++ ": ".toList ++ message.toList ++ about ++ '\n' :: hint tool)
  return 1

/-- A text between the quotes that stand around it in messages. -/
def inQuotes (s : Text) : Text := "\xe2\x80\x98".toList ++ s ++ "\xe2\x80\x99".toList

/-! ## Options -/

/-- The options of a call by their letters, with their values, and its other arguments. -/
abbrev Options := List (Char × Text) × List Text

/-- Read options among arguments: those of the letters `plain` have no values and those of `valued`
have one. `letters` are those left of an argument. -/
def readOptions (plain valued : Text) :
    (fuel : Nat) → (letters : Text) → List Text → Except Text Options
  | 0, _, args => .ok ([], args)
  | fuel + 1, [], args =>
    match args with
    | [] => .ok ([], [])
    | ['-', '-'] :: rest => .ok ([], rest)
    | ('-' :: '-' :: name) :: _ =>
      .error ("unrecognized option '--".toList ++ name ++ ['\''])
    | ('-' :: c :: cs) :: rest => readOptions plain valued fuel (c :: cs) rest
    | name :: rest => do
      let (flags, names) ← readOptions plain valued fuel [] rest
      return (flags, name :: names)
  | fuel + 1, c :: cs, args =>
    if valued.contains c then
      match cs, args with
      | [], [] => .error ("option requires an argument -- '".toList ++ [c, '\''])
      | [], v :: rest => do
        let (flags, names) ← readOptions plain valued fuel [] rest
        return ((c, v) :: flags, names)
      | cs, args => do
        let (flags, names) ← readOptions plain valued fuel [] args
        return ((c, cs) :: flags, names)
    else if plain.contains c then do
      let (flags, names) ← readOptions plain valued fuel cs args
      return ((c, []) :: flags, names)
    else .error ("invalid option -- '".toList ++ [c, '\''])

/-- Whether a letter is among options. -/
def hasFlag (flags : List (Char × Text)) (c : Char) : Bool := flags.any (·.1 == c)

/-- Carry out a tool with its options; one whose options are wrong ends with `status`. -/
def withOptions (tool : String) (status : Nat) (plain valued : String) (args : List Text)
    (run : List (Char × Text) → List Text → ShellM Nat) : ShellM Nat := do
  let fuel := args.flatten.length + 2 * args.length + 1
  match readOptions plain.toList valued.toList fuel [] args with
  | .ok (flags, names) => run flags names
  | .error message =>
    let _ ← misused tool "" message
    return status

/-! ## Texts and times -/

/-- The input of a tool, if there is one. -/
def inputOf (tool : String) : ShellM (Option Text) := do
  let w ← world
  if (← channel? 0).any w.isReadable then return some (← readAll 0)
  else
    let shown := match tool with
      | "grep" => "(standard input)"
      | "head" => "error reading 'standard input'"
      | "tail" => "error reading 'standard input'"
      | "sed" => "read error on stdin"
      | _ => "-"
    note (tool ++ ": " ++ shown) [] ": Bad file descriptor"
    if tool = "cat" && (← channel? 0).isNone then
      note "cat: closing standard input: Bad file descriptor" [] ""
    return none

/-- Let what a tool has not used of its input be read by others. Only a file lets that be. -/
def giveBack (rest : Text) : ShellM Unit := do
  match ← channel? 0 with
  | some (.file id) => modifyWorld (·.putBack (.file id) rest)
  | _ => pure ()

/-- The content of a file that a tool is told to read, or of its input. What stands around the name
of a file that is not there differs among tools. -/
def contentOf (tool before after : String) (name : Text) : ShellM (Option Text) := do
  if name = ['-'] then return (← inputOf tool)
  let path ← absolute name
  if path = "/dev/null".toList then return some []
  if path = "/dev/stdin".toList then return some (← readAll 0)
  match (← world).file? path with
  | some content => return some content
  | none =>
    if (← world).folders.contains path then
      note (tool ++ ": ") name ": Is a directory"
    else note (tool ++ ": " ++ before) name (after ++ ": No such file or directory")
    return none

/-- Print the arguments. Escape sequences are resolved only if that is asked for. -/
def echo (args : List Text) : ShellM Nat := do
  let isFlags := fun s : Text => s.length > 1 && s.head? == some '-' &&
    s.tail.all fun c => "neE".toList.contains c
  let flags := (args.takeWhile isFlags).flatMap List.tail
  let s := join [' '] (args.dropWhile isFlags)
  let (s, stops) := if flags.contains 'e' then unescape (s.length + 1) s else (s, false)
  let _ ← emit 1 (if stops || flags.contains 'n' then s else s ++ ['\n'])
  return 0

/-- The lines of a text, each with the newline that ends it. -/
def wholeLines (s : Text) : List Text :=
  let ls := lines s
  ls.dropLast.map (· ++ ['\n']) ++ (if (ls.getLastD []).isEmpty then [] else [ls.getLastD []])

/-- A number at the right of a field. -/
def rightAligned (width n : Nat) : Text :=
  List.replicate (width - (ofNat n).length) ' ' ++ ofNat n

/-- A byte as it is shown where only letters, digits and signs can be. -/
def visible (c : Char) : Text :=
  let low := fun n : Nat =>
    if n < 32 then ['^', Char.ofNat (n + 64)]
    else if n = 127 then ['^', '?']
    else [Char.ofNat n]
  if c == '\n' || c == '\t' then [c]
  else if c.toNat < 128 then low c.toNat
  else 'M' :: '-' :: low (c.toNat - 128)

/-- The contents of files, or of the input if there are none, and whether all of them are there. -/
def contentsOf (tool before after : String) (names : List Text) : ShellM (List Text × Bool) := do
  let names := if names.isEmpty then [['-']] else names
  let contents ← names.mapM (contentOf tool before after)
  return (contents.map (·.getD []), contents.all Option.isSome)

/-- The path of the file that a descriptor refers to. -/
def pathAt? (n : Nat) : ShellM (Option Text) := do
  match ← channel? n with
  | some (.file id) =>
    return (((← world).opened[id]?).filter (·.orphan.isNone)).map (·.path)
  | _ => return none

/-- Whether a file that a tool is told to read is the one to which it prints. -/
def isOutput (name : Text) : ShellM Bool := do
  let input ← if name = ['-'] then pathAt? 0 else some <$> absolute name
  let output ← pathAt? 1
  return output.isSome && input == output

/-- Print the contents of files, or what comes from the input. -/
def cat (args : List Text) : ShellM Nat :=
  withOptions "cat" 1 "nbsETAvuet" "" args fun flags names => do
    let has := fun cs : String => cs.toList.any (hasFlag flags)
    let names := if names.isEmpty then [['-']] else names
    let (contents, isComplete) ← names.foldlM (fun (seen : List Text × Bool) name => do
      match ← contentOf "cat" "" "" name with
      | none => return (seen.1, false)
      | some s =>
        if (← isOutput name) && !(seen.1.all List.isEmpty && s.isEmpty) then
          note "cat: " name ": input file is output file"
          return (seen.1, false)
        else return (s :: seen.1, seen.2)) ([], true)
    let squeezed := (wholeLines contents.reverse.flatten).foldl (fun (seen : Nat × List Text) l =>
      let blanks := if l = ['\n'] then seen.1 + 1 else 0
      (blanks, if has "s" && 1 < blanks then seen.2 else l :: seen.2)) (0, [])
    let shown := fun l : Text =>
      let l := if has "Avet" then l.flatMap visible else l
      let l := if has "TAt" then l.flatMap fun c => if c == '\t' then "^I".toList else [c] else l
      if has "EAe" && l.getLast? = some '\n' then l.dropLast ++ "$\n".toList else l
    let numbered := squeezed.2.reverse.foldl (fun (seen : Nat × List Text) l =>
      let counts := has "nb" && !(has "b" && l = ['\n'])
      let n := if counts then seen.1 + 1 else seen.1
      (n, (if counts then rightAligned 6 n ++ '\t' :: shown l else shown l) :: seen.2)) (0, [])
    let _ ← emit 1 numbered.2.reverse.flatten
    return if isComplete then 0 else 1

/-- Let time pass. -/
def pause (microseconds : Nat) : ShellM Unit := do
  modifyWorld fun w => World.release { w with clock := w.clock + microseconds }
  let w ← world
  match w.limit with
  | some limit => if limit ≤ w.clock then throw .timeIsUp
  | none => pure ()

/-- A time in seconds, or in the unit that its last letter names. -/
def interval? (s : Text) : Option Nat :=
  let (number, unit) := match s.getLast? with
    | some 's' => (s.dropLast, 1)
    | some 'm' => (s.dropLast, 60)
    | some 'h' => (s.dropLast, 3600)
    | some 'd' => (s.dropLast, 86400)
    | _ => (s, 1)
  let whole := number.takeWhile Char.isDigit
  let fraction := match number.dropWhile Char.isDigit with
    | '.' :: r => r
    | [] => []
    | _ => ['x']
  if (whole.isEmpty && fraction.isEmpty) || !fraction.all Char.isDigit then none
  else
    let n := numberOf 10 (whole ++ fraction)
    some (n * unit * 1000000 / Nat.pow 10 fraction.length)

/-- Wait for the sum of the given times. -/
def sleep (args : List Text) : ShellM Nat := do
  let isOption := fun s : Text => s.head? == some '-' && s.length > 1
  if args.isEmpty then misused "sleep" "missing operand" []
  else if args.any isOption then
    let option := ((args.find? isOption).getD []).getD 1 ' '
    misused "sleep" "invalid option -- '" [option, '\'']
  else if args.contains "infinity".toList then throw .timeIsUp
  else
    match args.find? fun a => (interval? a).isNone with
    | some a => misused "sleep" "invalid time interval " (inQuotes a)
    | none =>
      pause (args.foldl (fun n a => n + (interval? a).getD 0) 0)
      return 0

/-! ## Paths -/

/-- The last name of a path without an ending. -/
def lastName (ending name : Text) : Text :=
  let stripped := dropEndWhile (· == '/') name
  let last := (stripped.splitOn '/').getLastD []
  let last := if ending.isSuffixOf last && ending != last
    then last.take (last.length - ending.length) else last
  (if stripped.isEmpty && !name.isEmpty then ['/'] else last) ++ ['\n']

/-- Print the last names of paths without an ending. -/
def basename (args : List Text) : ShellM Nat :=
  withOptions "basename" 1 "a" "s" args fun flags names => do
    match names with
    | [] => misused "basename" "missing operand" []
    | name :: rest =>
      if !flags.isEmpty then
        let _ ← emit 1 (names.flatMap (lastName ((flags.lookup 's').getD [])))
        return 0
      else
        match rest with
        | _ :: extra :: _ => misused "basename" "extra operand " (inQuotes extra)
        | rest =>
          let _ ← emit 1 (lastName (rest.headD []) name)
          return 0

/-- Print paths without their last names. -/
def dirname (args : List Text) : ShellM Nat :=
  withOptions "dirname" 1 "" "" args fun _ names => do
    let parent := fun name : Text =>
      let stripped := dropEndWhile (· == '/') name
      match cutLast? ['/'] stripped with
      | some (front, _) =>
        let front := dropEndWhile (· == '/') front
        if front.isEmpty then ['/'] else front
      | none => if stripped.isEmpty && !name.isEmpty then ['/'] else ['.']
    if names.isEmpty then misused "dirname" "missing operand" []
    else
      let _ ← emit 1 (names.flatMap fun n => parent n ++ ['\n'])
      return 0

/-! ## Files and folders -/

/-- The folder around a path. -/
def parentOf (path : Text) : Text :=
  match cutLast? ['/'] path with
  | some (front, _) => if front.isEmpty then ['/'] else front
  | none => ['/']

/-- The folders above a path, the outermost first, and the path itself. -/
def ancestors (path : Text) : List Text :=
  let names := (path.splitOn '/').filter (!·.isEmpty)
  (List.range (names.length + 1)).map fun n => '/' :: join ['/'] (names.take n)

/-- What the path of a folder starts with that is not a folder above a path. -/
def isBelow (path p : Text) : Bool := p == path || (path ++ ['/']).isPrefixOf p

/-- Make a folder, and those above it if that is asked for. -/
def makeFolder (withParents : Bool) (name : Text) : ShellM Bool := do
  let path ← absolute name
  let w ← world
  let isFile := (w.file? path).isSome
  let refuse := fun reason => do
    note "mkdir: cannot create directory " (inQuotes name) reason
    return false
  if isFile || (w.folders.contains path && !withParents) then refuse ": File exists"
  else if withParents then
    let missing := (ancestors path).filter fun p => !w.folders.contains p
    modifyWorld fun w => { w with folders := w.folders ++ missing }
    return true
  else if w.folders.contains (parentOf path) then
    modifyWorld fun w => { w with folders := w.folders ++ [path] }
    return true
  else refuse ": No such file or directory"

/-- Carry out a step for each of some names; whether one has failed. -/
def forEach (names : List Text) (step : Text → ShellM Bool) : ShellM Nat :=
  names.foldlM (fun status name => do return if ← step name then status else 1) 0

/-- Make folders. -/
def mkdir (args : List Text) : ShellM Nat :=
  withOptions "mkdir" 1 "pvZ" "m" args fun flags names => do
    if names.isEmpty then misused "mkdir" "missing operand" []
    else
      forEach names fun name => do
        let isMade ← makeFolder (hasFlag flags 'p') name
        if isMade && hasFlag flags 'v' then
          let _ ← emit 1 ("mkdir: created directory '".toList ++ name ++ "'\n".toList)
        return isMade

/-- Remove an empty folder. -/
def rmdir (args : List Text) : ShellM Nat :=
  withOptions "rmdir" 1 "pv" "" args fun _ names => do
    if names.isEmpty then misused "rmdir" "missing operand" []
    else
      forEach names fun name => do
        let path ← absolute name
        let w ← world
        let refuse := fun reason => do
          note "rmdir: failed to remove '" name reason
          return false
        let inside := fun p : Text => p != path && isBelow path p
        if (w.file? path).isSome then refuse "': Not a directory"
        else if !w.folders.contains path then refuse "': No such file or directory"
        else if w.files.any (inside ·.1) || w.folders.any inside then
          refuse "': Directory not empty"
        else
          modifyWorld fun w => { w with folders := w.folders.filter (· != path) }
          return true

/-- Remove all that a path names. -/
def World.remove (w : World) (path : Text) : World :=
  let w := w.releasePaths (isBelow path)
  { w with
    files := w.files.filter fun f => !isBelow path f.1
    folders := w.folders.filter (!isBelow path ·)
    executables := w.executables.filter (!isBelow path ·) }

/-- Remove files, and folders if that is asked for. -/
def rm (args : List Text) : ShellM Nat :=
  withOptions "rm" 1 "rRfvdiI" "" args fun flags names => do
    let has := hasFlag flags
    if names.isEmpty && !has 'f' then misused "rm" "missing operand" []
    else
      forEach names fun name => do
        let path ← absolute name
        let w ← world
        let isFolder := w.folders.contains path
        let refuse := fun reason => do
          note "rm: cannot remove '" name reason
          return false
        let inside := fun p : Text => p != path && isBelow path p
        let isEmpty := !(w.files.any (inside ·.1) || w.folders.any inside)
        if isFolder && !(has 'r' || has 'R') && !(has 'd' && isEmpty) then
          refuse (if has 'd' then "': Directory not empty" else "': Is a directory")
        else if isFolder || (w.file? path).isSome then
          modifyWorld (World.remove · path)
          if has 'v' then
            let what := if isFolder then "removed directory '" else "removed '"
            let _ ← emit 1 (what.toList ++ name ++ "'\n".toList)
          return true
        else if has 'f' then return true
        else refuse "': No such file or directory"

/-- Make files that are not there. -/
def touch (args : List Text) : ShellM Nat :=
  withOptions "touch" 1 "acmh" "dtr" args fun flags names => do
    if names.isEmpty then misused "touch" "missing file operand" []
    else
      forEach names fun name => do
        let path ← absolute name
        let w ← world
        if (w.file? path).isSome || w.folders.contains path || hasFlag flags 'c' then return true
        else if w.folders.contains (parentOf path) then
          modifyWorld (·.setFile path [])
          return true
        else
          note "touch: cannot touch '" name "': No such file or directory"
          return false

/-- Give a path the content of another one, with all below it. -/
def World.copy (w : World) (source target : Text) : World :=
  let moved := fun p : Text => target ++ p.drop source.length
  let files := (w.files.filter fun f => isBelow source f.1).map fun f => (moved f.1, f.2)
  let folders := (w.folders.filter (isBelow source)).map moved
  { w with
    files := files ++ w.files.filter fun f => !(files.any fun g => g.1 == f.1)
    folders := w.folders ++ folders.filter (!w.folders.contains ·)
    executables := w.executables ++ (w.executables.filter (isBelow source)).map moved }

/-- Give another path to what a path names, with all below it. -/
def World.move (w : World) (source target : Text) : World :=
  let w := w.releasePaths (isBelow target)
  let opened := w.opened.map fun o =>
    if o.orphan.isNone && isBelow source o.path then
      { o with path := target ++ o.path.drop source.length }
    else o
  World.remove { World.copy w source target with opened } source

/-- Copy files or move them to another name, or into a folder. -/
def transfer (tool : String) (keeps withFolders : Bool) (names : List Text) : ShellM Nat := do
  match names.reverse with
  | [] => misused tool "missing file operand" []
  | [name] => misused tool "missing destination file operand after '" (name ++ ['\''])
  | last :: sources =>
    let target ← absolute last
    let w ← world
    let isFolder := w.folders.contains target
    if 1 < sources.length && !isFolder then
      let reason := if (w.file? target).isSome then "Not a directory"
        else "No such file or directory"
      note (tool ++ ": target '") last ("': " ++ reason)
      return 1
    forEach sources.reverse fun name => do
      let path ← absolute name
      let w ← world
      let into := if isFolder then target ++ '/' :: (path.splitOn '/').getLastD [] else target
      let shown := if isFolder then dropEndWhile (· == '/') last ++ '/' ::
        (path.splitOn '/').getLastD [] else last
      if !(w.folders.contains path || (w.file? path).isSome) then
        note (tool ++ ": cannot stat '") name "': No such file or directory"
        return false
      else if w.folders.contains path && !withFolders then
        note (tool ++ ": -r not specified; omitting directory '") name "'"
        return false
      else if path = into then
        note (tool ++ ": '") name ("' and '" ++ String.ofList shown ++ "' are the same file")
        return false
      else if !w.folders.contains (parentOf into) then
        let verb := if keeps then "create regular file '" else "move '"
        let rest := if keeps then [] else "' to '".toList ++ shown
        note (tool ++ ": cannot " ++ verb) ((if keeps then shown else name) ++ rest)
          "': No such file or directory"
        return false
      else
        modifyWorld fun w => if keeps then World.copy w path into else World.move w path into
        return true

/-- Copy files. -/
def cp (args : List Text) : ShellM Nat :=
  withOptions "cp" 1 "rRapfvnu" "" args fun flags names =>
    transfer "cp" true ("rRa".toList.any (hasFlag flags)) names

/-- Move files. -/
def mv (args : List Text) : ShellM Nat :=
  withOptions "mv" 1 "fvnu" "" args fun _ names => transfer "mv" false true names

/-- Whether files may be carried out after a change of their permissions; none if it says nothing
about that, and an error if it is no change. -/
def execution? (mode : Text) : Except Unit (Option Bool) :=
  if !mode.isEmpty && mode.all isOctal then
    .ok (some (mode.any fun c => (c.toNat - '0'.toNat) % 2 = 1))
  else
    (mode.splitOn ',').foldlM (fun before part =>
      let rest := part.dropWhile fun c => "ugoa".toList.contains c
      match rest with
      | op :: letters =>
        if !"+-=".toList.contains op || letters.any fun c => !"rwxXstugo".toList.contains c then
          .error ()
        else if op = '=' then .ok (some (letters.contains 'x'))
        else .ok (if letters.contains 'x' then some (op == '+') else before)
      | [] => .error ()) none

/-- Change whether files may be carried out. -/
def chmod (args : List Text) : ShellM Nat := do
  let isFlags := fun a : Text => a.head? == some '-' && (a.drop 1).all "Rvcf".toList.contains
  match args.filter (!isFlags ·) with
  | [] => misused "chmod" "missing operand" []
  | [mode] => misused "chmod" "missing operand after " (inQuotes mode)
  | mode :: names =>
    match execution? (if mode.head? = some '-' then 'a' :: mode else mode) with
    | .error _ => misused "chmod" "invalid mode: " (inQuotes mode)
    | .ok change =>
      forEach names fun name => do
        let path ← absolute name
        let w ← world
        if (w.file? path).isSome || w.folders.contains path then
          match change with
          | some isOn => modifyWorld fun w => { w with
              executables := w.executables.filter (· != path) ++ (if isOn then [path] else []) }
          | none => pure ()
          return true
        else
          note "chmod: cannot access '" name "': No such file or directory"
          return false

/-- The names in a folder in order. -/
def namesIn (w : World) (folder : Text) : List Text :=
  let inside := fun p : Text => p != ['/'] && parentOf p == folder
  let name := fun p : Text => (p.splitOn '/').getLastD []
  Text.sort (((w.files.map (·.1)).filter inside ++ w.folders.filter inside).map name)

/-- Print the names in folders: first the files that are named, then the folders. -/
def ls (args : List Text) : ShellM Nat :=
  withOptions "ls" 2 "aA1drFp" "" args fun flags names => do
    let has := hasFlag flags
    let names := if names.isEmpty then [['.']] else Text.sort names
    let paths ← names.mapM fun name => do
      let path ← absolute name
      pure (name, path)
    let w ← world
    let order := fun ns : List Text => if has 'r' then ns.reverse else ns
    let mark := fun (path name : Text) =>
      if (has 'F' || has 'p') && w.folders.contains path then name ++ ['/']
      else if has 'F' && w.executables.contains path then name ++ ['*']
      else name
    let isFolder := fun p : Text × Text => w.folders.contains p.2 && !has 'd'
    let isThere := fun p : Text × Text => w.folders.contains p.2 || (w.file? p.2).isSome
    (paths.filter (!isThere ·)).forM fun p =>
      note "ls: cannot access '" p.1 "': No such file or directory"
    let files := (paths.filter fun p => isThere p && !isFolder p).map fun p => mark p.2 p.1
    let folders := paths.filter isFolder
    let list := fun p : Text × Text =>
      let dots := if has 'a' then [".".toList, "..".toList] else []
      let inside := dots ++ (namesIn w p.2).filter fun n =>
        has 'a' || has 'A' || n.head? != some '.'
      let title := if 1 < paths.length then p.1 ++ ":\n".toList else []
      title ++ (order inside).flatMap fun n => mark (p.2 ++ '/' :: n) n ++ ['\n']
    let blocks := (if files.isEmpty then [] else [(order files).flatMap (· ++ ['\n'])]) ++
      folders.map list
    let _ ← emit 1 (join ['\n'] blocks)
    return if paths.all isThere then 0 else 2

/-- Print the input and write it to files. -/
def tee (args : List Text) : ShellM Nat :=
  withOptions "tee" 1 "aip" "" args fun flags names => do
    let (outputs, status) ← names.foldlM (fun (seen : List Text × Nat) name => do
      let path ← absolute name
      let w ← world
      if path = "/dev/null".toList then return seen
      else if w.folders.contains path then
        note "tee: " name ": Is a directory"
        return (seen.1, 1)
      else if w.folders.contains (parentOf path) then
        modifyWorld (·.setFile path (if hasFlag flags 'a' then (w.file? path).getD [] else []))
        return (path :: seen.1, seen.2)
      else
        note "tee: " name ": No such file or directory"
        return (seen.1, 1)) ([], 0)
    let s ← readAll 0
    let _ ← emit 1 s
    outputs.reverse.forM fun path =>
      modifyWorld fun w => w.setFile path ((w.file? path).getD [] ++ s)
    return status

/-- Print a line until nobody reads on. An output that is read to its end has no end. -/
def yes (args : List Text) : ShellM Nat := do
  match ← channel? 1 with
  | some (.stream id) =>
    if id < 2 then throw .timeIsUp
    let line := (if args.isEmpty then ['y'] else join [' '] args) ++ ['\n']
    let _ ← emit 1 (List.replicate 100000 line).flatten
    return 141
  | _ => throw .timeIsUp

end Tool

end Localizer.Host.Shell
