import Localizer.Path.Basic
import Localizer.Text.CodePoint
import Localizer.Text.Lines
import Localizer.Text.Quoted
import Localizer.Workspace.Directory

/-!
# Reading and writing files

Files are opened by absolute paths. On the way along a path every name but the last must be that
of a folder, also before a `..`. The names of files are texts without the character zero and of a
limited size; a path with other names leads nowhere and cannot be opened. Some files may be closed
to reading or to writing. A text file holds its text in UTF-8.

A system may also have names whose bytes are no UTF-8, and write each such byte in a path as a code
point from U+DC80 to U+DCFF. These names are outside of the model: a tree has none of them, and a path
that holds such a code point is refused like one with any other surrogate.
-/

namespace Localizer.Workspace

open Text

/-- Why a file could not be used. -/
inductive AccessError where
  | notFound
  | notDirectory (path : Message)
  | isDirectory
  | denied
  | alreadyExists
  /-- A name on the way, or the whole path, has too many bytes. -/
  | nameTooLong
  /-- The path holds the character zero. -/
  | zeroCharacter
  /-- The bytes are no UTF-8. -/
  | notDecodable
  /-- The path or the message holds a surrogate, which UTF-8 cannot write. -/
  | notEncodable
  deriving Repr, DecidableEq

namespace AccessError

/-- What went wrong, in words. -/
def message : AccessError → Message
  | notFound => "no such file or directory".toList
  | notDirectory path => "[Errno 20] Not a directory: ".toList ++ path.inQuotes
  | isDirectory => "is a directory".toList
  | denied => "permission denied".toList
  | alreadyExists => "file exists".toList
  | nameTooLong => "file name too long".toList
  | zeroCharacter => "embedded null byte".toList
  | notDecodable => "not valid UTF-8".toList
  | notEncodable => "surrogates not allowed in UTF-8".toList

/-- Whether the path or the message is at fault, whatever files there are. -/
def isMisuse : AccessError → Bool
  | zeroCharacter => true
  | notEncodable => true
  | _ => false

end AccessError

/-- A directory tree with the files that are closed. -/
structure Tree where
  /-- The entries of the root. -/
  root : Directory := .empty
  /-- Files that cannot be opened for reading, by the names on the way to them. -/
  unreadable : List (List Text) := []
  /-- Files that cannot be opened for writing. -/
  unwritable : List (List Text) := []

/-! ## Names -/

/-- How many bytes a name may have. -/
def maxNameSize : Nat := 255

/-- How many bytes a path may have. -/
def maxPathSize : Nat := 4095

/-- How many bytes a text has. -/
def byteSize (s : Text) : Nat := s.foldl (fun n c => n + c.utf8Size) 0

/-- A name that files could have; a name with a surrogate is none, whatever byte it may stand for. -/
def checkName (part : Message) : Except AccessError Text :=
  match part.toText? with
  | none => .error .notEncodable
  | some name => if name.contains '\x00' then .error .zeroCharacter else .ok name

/-- The names of a path that can be opened; none of them has a surrogate. -/
def checkPath (p : Path) : Except AccessError (List Text) :=
  match p.parts.mapM Message.toText? with
  | none => .error .notEncodable
  | some names =>
    if names.any (·.contains '\x00') then .error .zeroCharacter
    else if maxPathSize < byteSize p.toText then .error .nameTooLong
    else .ok names

/-- A path without `..`. Each name on the way is looked up, so that no name may be one that no file
can have. -/
def resolved (p : Path) : Except AccessError Path := do
  discard (p.parts.mapM checkName)
  return p.resolve

namespace Tree

/-- The names on the way to what a path leads to from the folder at `here`. The last name need not
be there. -/
def locate (d : Directory) (full : Message) :
    (here : List Text) → List Text → Except AccessError (List Text)
  | here, [] => .ok here
  | here, part :: rest =>
    match d.get? here with
    | none => .error .notFound
    | some (.file _) => .error (.notDirectory full)
    | some (.folder inside) =>
      if part = ['.', '.'] then locate d full here.dropLast rest
      else if maxNameSize < byteSize part then .error .nameTooLong
      else if !rest.isEmpty && (inside.find? part).isNone then .error .notFound
      else locate d full (here ++ [part]) rest

/-- The names on the way to what an absolute path leads to. -/
def namesOf (t : Tree) (p : Path) : Except AccessError (List Text) := do
  locate t.root p.toMessage [] (← checkPath p)

/-- What an absolute path leads to, if anything. Names that are too long are refused. -/
def node? (t : Tree) (p : Path) : Except AccessError (Option Node) :=
  match t.namesOf p with
  | .ok names => .ok (t.root.get? names)
  | .error .nameTooLong => .error .nameTooLong
  | .error _ => .ok none

/-- Whether a path leads to anything. -/
def exists? (t : Tree) (p : Path) : Except AccessError Bool := do return (← t.node? p).isSome

/-- Whether a path leads to a folder. -/
def isFolder (t : Tree) (p : Path) : Except AccessError Bool := do
  match ← t.node? p with
  | some (.folder _) => return true
  | _ => return false

/-- Whether a path leads to a file. -/
def isFile (t : Tree) (p : Path) : Except AccessError Bool := do
  match ← t.node? p with
  | some (.file _) => return true
  | _ => return false

/-! ## Reading -/

/-- The bytes of a file. -/
def read (t : Tree) (p : Path) : Except AccessError ByteArray := do
  let names ← t.namesOf p
  if t.unreadable.contains names then .error .denied
  else match t.root.get? names with
    | none => .error .notFound
    | some (.folder _) => .error .isDirectory
    | some (.file content) => .ok content

/-- The text that bytes hold. -/
def decode (bytes : ByteArray) : Except AccessError Text :=
  match String.fromUTF8? bytes with
  | some s => .ok s.toList
  | none => .error .notDecodable

/-- The bytes of a text. -/
def encode (s : Text) : ByteArray := (String.ofList s).toUTF8

/-- The text of a file. -/
def readText (t : Tree) (p : Path) : Except AccessError Text := do decode (← t.read p)

/-- The text of a file with its line breaks as newlines. -/
def readLines (t : Tree) (p : Path) : Except AccessError Text := do
  return normalizeNewlines (← t.readText p)

/-! ## Writing -/

/-- The tree with these bytes in a file. -/
def write (t : Tree) (p : Path) (content : ByteArray) : Except AccessError Tree := do
  let names ← t.namesOf p
  if t.unwritable.contains names then .error .denied
  else match t.root.get? names with
    | some (.folder _) => .error .isDirectory
    | _ => .ok { t with root := t.root.put (.file content) names }

/-- The tree with more bytes at the end of a file, which need not be there before. -/
def append (t : Tree) (p : Path) (content : ByteArray) : Except AccessError Tree := do
  let names ← t.namesOf p
  match t.root.get? names with
  | some (.file old) => t.write p (old ++ content)
  | _ => t.write p content

/-- The tree with a message in a file, and whether it could be written. A file is emptied before
anything is written to it. -/
def writeMessage (t : Tree) (p : Path) (m : Message) : Tree × Except AccessError Unit :=
  match m.toText? with
  | some s =>
    match t.write p (encode s) with
    | .ok t => (t, .ok ())
    | .error e => (t, .error e)
  | none =>
    match t.write p .empty with
    | .ok t => (t, .error .notEncodable)
    | .error e => (t, .error e)

/-- The tree without a file. -/
def delete (t : Tree) (p : Path) : Except AccessError Tree := do
  let names ← t.namesOf p
  match t.root.get? names with
  | none => .error .notFound
  | some (.folder _) => .error .isDirectory
  | some (.file _) => .ok { t with root := t.root.erase names }

/-! ## Making folders -/

/-- The tree with one more folder. -/
def makeFolder (t : Tree) (p : Path) : Except AccessError Tree := do
  let names ← t.namesOf p
  match t.root.get? names with
  | some _ => .error .alreadyExists
  | none => .ok { t with root := t.root.put (.folder .empty) names }

/-- Make a folder that may be there already. -/
def ensureFolder (t : Tree) (p : Path) : Except AccessError Tree :=
  match t.makeFolder p with
  | .ok t => .ok t
  | .error .notFound => .error .notFound
  | .error e => if e.isMisuse then .error e else do if ← t.isFolder p then return t else .error e

/-- Make the folder of a path, and before that, if one on the way to it is missing, the folder
around it. The folders that were made stay also if the last one cannot be made. -/
def makeFolders (t : Tree) (p : Path) : Tree × Except AccessError Unit :=
  match t.ensureFolder p with
  | .ok t => (t, .ok ())
  | .error .notFound =>
    if h : p.parts = [] then (t, .error .notFound)
    else
      have : p.parent.parts.length < p.parts.length := by
        have := List.length_pos_iff.2 h
        simp only [Path.parent, List.length_dropLast]
        omega
      match t.makeFolders p.parent with
      | (t, .error e) => (t, .error e)
      | (t, .ok ()) =>
        match t.ensureFolder p with
        | .ok t => (t, .ok ())
        | .error e => (t, .error e)
  | .error e => (t, .error e)
termination_by p.parts.length

end Tree

end Localizer.Workspace
