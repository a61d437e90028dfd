import Localizer.Host.Shell.Expr
import Localizer.Host.Shell.Filter
import Localizer.Host.Shell.Grep
import Localizer.Host.Shell.Sed

/-!
# Programs

The programs that are there, by their names (`tool?`, `launchers`), and where they are found
(`programPath?`).
-/

namespace Localizer.Host.Shell

open Text

/-- The folders in which programs are. -/
def programFolders : List Text := ["/usr/bin".toList, "/bin".toList]

/-- The name of a program without the folder in which programs are. -/
def programName (path : Text) : Text :=
  (programFolders.findSome? fun folder => after? (folder ++ ['/']) path).getD path

namespace Tool

/-- Print the values of variables. -/
def printenv (args : List Text) : ShellM Nat := do
  let vars := (← env).vars.filter (·.2.isExported)
  let value := fun name : Text => (vars.lookup name).bind (·.value)
  if args.isEmpty then
    let _ ← emit 1 (vars.reverse.flatMap fun v =>
      ((v.2.value.map fun s => v.1 ++ '=' :: s ++ ['\n'])).getD [])
    return 0
  else
    let _ ← emit 1 (args.flatMap fun name => ((value name).map (· ++ ['\n'])).getD [])
    return if args.all fun name => (value name).isSome then 0 else 1

/-- Print who the user is. -/
def whoami (_ : List Text) : ShellM Nat := do
  let _ ← emit 1 "root\n".toList
  return 0

/-- Print the numbers and names of the user. -/
def identity (args : List Text) : ShellM Nat := do
  let flags := args.flatMap (·.drop 1)
  let isName := flags.contains 'n'
  let shown := if flags.isEmpty then "uid=0(root) gid=0(root) groups=0(root)\n"
    else if isName then "root\n" else "0\n"
  let _ ← emit 1 shown.toList
  return 0

/-- Print the name of the system. -/
def uname (_ : List Text) : ShellM Nat := do
  let _ ← emit 1 "Linux\n".toList
  return 0

/-- Print whether there is a terminal. -/
def tty (_ : List Text) : ShellM Nat := do
  let _ ← emit 1 "not a tty\n".toList
  return 1

/-- Print the path that a name stands for, from the root on. -/
def realpath (args : List Text) : ShellM Nat := do
  let names := args.filter fun a => a.head? != some '-'
  forEach names fun name => do
    let path ← absolute name
    let w ← world
    if w.folders.contains (parentOf path) then
      let _ ← emit 1 (path ++ ['\n'])
      return true
    else
      note "realpath: " name ": No such file or directory"
      return false

/-- Compare two files byte by byte. -/
def cmp (args : List Text) : ShellM Nat :=
  withOptions "cmp" 2 "s" "" args fun flags names => do
    match names with
    | a :: b :: _ =>
      let x ← contentOf "cmp" "" "" a
      let y ← contentOf "cmp" "" "" b
      match x, y with
      | some x, some y =>
        let same := ((x.zip y).takeWhile fun p => p.1 == p.2).length
        if x = y then return 0
        else
          unless hasFlag flags 's' do
            if same = x.length || same = y.length then
              let short := if same = x.length then a else b
              let text := if same = 0 then " which is empty".toList
                else " after byte ".toList ++ ofNat same ++ ", ".toList ++
                  (if (x.take same).getLast? = some '\n' then "line ".toList
                    else "in line ".toList) ++
                  ofNat (((x.take same).count '\n') +
                    (if (x.take same).getLast? = some '\n' then 0 else 1))
              note "cmp: EOF on " (short ++ text) ""
            else
              let _ ← emit 1 (a ++ ' ' :: b ++ " differ: byte ".toList ++ ofNat (same + 1) ++
                ", line ".toList ++ ofNat ((x.take same).count '\n' + 1) ++ ['\n'])
          return 1
      | _, _ => return 2
    | [a] => do
      let _ ← misused "cmp" "missing operand after '" (a ++ ['\''])
      return 2
    | [] => do
      let _ ← misused "cmp" "missing operand after 'cmp'" []
      return 2

/-- Report that the output of a tool does not take what it prints; how the tool ends. -/
def failToPrint (name : Text) : ShellM Nat := do
  let output ← channel? 1
  let reason := if output = some .full then "No space left on device" else "Bad file descriptor"
  let say := fun what => note (String.ofList name ++ ": " ++ what) [] (": " ++ reason)
  match String.ofList (programName name) with
  | "cat" =>
    say (if output.isNone then "standard output" else "write error")
    return 1
  | "tee" =>
    say "'standard output'"
    return 1
  | "sort" =>
    say "fflush failed: 'standard output'"
    note "sort: write error" [] ""
    return 2
  | "sed" =>
    say (if output.isNone then "couldn't close stdout" else "couldn't flush stdout")
    return 4
  | other =>
    say "write error"
    return if other = "env" then 125
      else if other = "expr" then 3
      else if ["grep", "egrep", "fgrep", "ls", "printenv"].contains other then 2
      else 1

end Tool

/-- A tool by its name. -/
def tool? (name : Text) : Option (List Text → ShellM Nat) :=
  match String.ofList name with
  | "cat" => some Tool.cat
  | "echo" => some Tool.echo
  | "true" => some fun _ => return 0
  | "false" => some fun _ => return 1
  | "sleep" => some Tool.sleep
  | "seq" => some Tool.seq
  | "head" => some Tool.head
  | "tail" => some Tool.tail
  | "wc" => some Tool.wc
  | "tr" => some Tool.tr
  | "sort" => some Tool.sort
  | "uniq" => some Tool.uniq
  | "cut" => some Tool.cut
  | "paste" => some Tool.paste
  | "tac" => some Tool.tac
  | "rev" => some Tool.rev
  | "nl" => some Tool.nl
  | "fold" => some Tool.fold
  | "od" => some Tool.od
  | "grep" => some Tool.grep
  | "egrep" => some fun args => Tool.grep ("-E".toList :: args)
  | "fgrep" => some fun args => Tool.grep ("-F".toList :: args)
  | "sed" => some Tool.sed
  | "expr" => some Tool.expr
  | "basename" => some Tool.basename
  | "dirname" => some Tool.dirname
  | "realpath" => some Tool.realpath
  | "mkdir" => some Tool.mkdir
  | "rmdir" => some Tool.rmdir
  | "rm" => some Tool.rm
  | "cp" => some Tool.cp
  | "mv" => some Tool.mv
  | "chmod" => some Tool.chmod
  | "touch" => some Tool.touch
  | "ls" => some Tool.ls
  | "tee" => some Tool.tee
  | "cmp" => some Tool.cmp
  | "yes" => some Tool.yes
  | "printenv" => some Tool.printenv
  | "whoami" => some Tool.whoami
  | "id" => some Tool.identity
  | "uname" => some Tool.uname
  | "tty" => some Tool.tty
  | _ => none

/-- The programs that start other programs. -/
def launchers : List Text := ["sh", "env", "xargs", "timeout", "which"].map String.toList

/-- The programs that do what built-in commands do. -/
def doubles : List Text := ["test", "[", "printf", "pwd", "kill"].map String.toList

/-- Whether there is a program of a name. -/
def isProgramName (name : Text) : Bool :=
  (tool? name).isSome || launchers.contains name || doubles.contains name

/-- Whether a path names a program. -/
def isProgram (path : Text) : Bool :=
  let name := programName path
  name != path && isProgramName name

/-- The paths at which a name is searched for, as they are shown and from the root on: the name
itself if it is a path, or the name in each of the folders in which programs are. -/
def candidates (name : Text) : ShellM (List (Text × Text)) := do
  let shown := fun folder : Text => (if folder.isEmpty then ['.'] else folder) ++ '/' :: name
  let folders ← lookup "PATH".toList
  let places := if name.contains '/' then [name]
    else ((folders.map (·.splitOn ':')).getD []).map shown
  places.mapM fun place => do
    let path ← absolute place
    return (place, path)

/-- Where the file of a name is found. -/
def programPath? (name : Text) : ShellM (Option Text) := do
  let w ← world
  let places ← candidates name
  return (places.find? fun p => isProgram p.2 || (w.file? p.2).isSome).map (·.1)

/-- Whether something of a name is found that is no file. -/
def isBlocked (name : Text) : ShellM Bool := do
  let w ← world
  let places ← candidates name
  return places.any fun p => w.has p.2 || programFolders.contains p.2

end Localizer.Host.Shell
