import Localizer.Path.Rule
import Localizer.Workspace.Access

/-!
# Finding the sources

The sources are the Dart files below a folder, without those that a code generator owns, those in
folders of tools, and those that a rule excludes. The rules are the lines of the root's ignore
file and then those of the settings; they speak of paths relative to the root, and of what lies in
folders outside it by the full path.
-/

namespace Localizer.Workspace

open Text Localizer.Path

/-- Folders of tools, which hold no sources. -/
def toolFolders : List Text :=
  [".git".toList, ".hg".toList, ".svn".toList, ".dart_tool".toList, ".idea".toList,
   ".vscode".toList, ".fvm".toList, "build".toList, "node_modules".toList]

/-- The endings of the names of generated files. -/
def generatedEndings : List Text :=
  [".g.dart".toList, ".freezed.dart".toList, ".gr.dart".toList, ".config.dart".toList,
   ".mocks.dart".toList]

/-- Whether a file of that name may be a source. -/
def isSourceName (name : Text) : Bool :=
  ".dart".toList.isSuffixOf name && !generatedEndings.any (·.isSuffixOf name)

/-- A source file. -/
structure Source where
  /-- Its path relative to the root, or the absolute path if it lies elsewhere. -/
  path : Text
  /-- How many bytes it has. -/
  size : Nat
  deriving Repr, DecidableEq

/-- Why the sources could not be listed. -/
inductive DiscoveryError where
  | inputNotFound (path : Message)
  | inputNotFolder (path : Message)
  | access (e : AccessError)
  deriving Repr, DecidableEq

/-- A place by the names on the way to it: relative to the root, or in full if it lies elsewhere. -/
def placeText (root place : List Text) : Text :=
  if root.isPrefixOf place then join ['/'] (place.drop root.length)
  else '/' :: join ['/'] place

/-- An entry of the folder at `here` as rules see it: its name after the place of the folder. So the
root itself is seen in full from a folder around it. -/
def entryText (root here : List Text) (name : Text) : Text :=
  match placeText root here with
  | [] => name
  | place => place ++ '/' :: name

/-- The sources below the folder at `here`, whose entries are given. -/
def Directory.sources (rules : List Rule) (root here : List Text) : Directory → List Source
  | .empty => []
  | .file name content rest =>
    let ignored := isIgnored rules (entryText root here name) false
    let found := if isSourceName name && !ignored then
      [⟨placeText root (here ++ [name]), content.size⟩] else []
    found ++ rest.sources rules root here
  | .folder name inside rest =>
    let ignored := isIgnored rules (entryText root here name) true
    let skipped := toolFolders.contains name || ignored
    let found := if skipped then [] else inside.sources rules root (here ++ [name])
    found ++ rest.sources rules root here

/-- The name of the ignore file. -/
def ignoreFile : Text := ".gitignore".toList

/-- The rules of an ignore file; none if it is not there. -/
def Tree.loadRules (t : Tree) (p : Path) : Except AccessError (List Rule) := do
  if ← t.isFile p then
    return Rule.ofLines ((bareLines (← t.readLines p)).map Message.ofText)
  else return []

/-- The sources below `input`, or below the root, in the order of their paths. -/
def Tree.discover (t : Tree) (root : Path) (input : Option Path) (exclude : List Message) :
    Except DiscoveryError (List Source) := do
  let given := input.getD root
  let root ← (resolved root).mapError .access
  let folder ← (resolved given).mapError .access
  match ← (t.node? folder).mapError .access with
  | none => .error (.inputNotFound given.toMessage)
  | some (.file _) => .error (.inputNotFolder folder.toMessage)
  | some (.folder inside) =>
    let rules ← (t.loadRules (root.child ignoreFile)).mapError .access
    let rules := rules ++ Rule.ofLines exclude
    return (inside.sources rules root.names folder.names).mergeSort fun a b => le a.path b.path

end Localizer.Workspace
