import Localizer.Text.Basic

/-!
# Directories

A directory is a list of named entries, each a file with its bytes or a folder, which is a
directory again. Entries are reached by the names on the way to them.
-/

namespace Localizer.Workspace

/-- The entries of a directory. -/
inductive Directory where
  | empty
  /-- A file, and the entries after it. -/
  | file (name : Text) (content : ByteArray) (rest : Directory)
  /-- A folder with what is inside, and the entries after it. -/
  | folder (name : Text) (inside rest : Directory)

instance : Inhabited Directory := ⟨.empty⟩

/-- What a name stands for. -/
inductive Node where
  | file (content : ByteArray)
  | folder (inside : Directory)

namespace Directory

/-- The first entry of that name. -/
def find? (name : Text) : Directory → Option Node
  | empty => none
  | file n content rest => if n = name then some (.file content) else find? name rest
  | folder n inside rest => if n = name then some (.folder inside) else find? name rest

/-- A directory with one more entry in front. -/
def cons (name : Text) (node : Node) (rest : Directory) : Directory :=
  match node with
  | .file content => file name content rest
  | .folder inside => folder name inside rest

/-- Put an entry in the place of the first of that name, or at the end. -/
def set (name : Text) (node : Node) : Directory → Directory
  | empty => cons name node empty
  | file n content rest =>
    if n = name then cons name node rest else file n content (set name node rest)
  | folder n inside rest =>
    if n = name then cons name node rest else folder n inside (set name node rest)

theorem find?_set (name other : Text) (node : Node) (d : Directory) :
    (d.set name node).find? other = if name = other then some node else d.find? other := by
  have front (rest : Directory) : (cons name node rest).find? other =
      if name = other then some node else rest.find? other := by
    cases node <;> rfl
  induction d with
  | empty => simp [set, front, find?]
  | file n content rest ih =>
    by_cases h : n = name
    · subst h
      simp only [set, front, find?, ↓reduceIte]
      split <;> rfl
    · simp only [set, h, ↓reduceIte, find?, ih]
      split
      next h' => subst h'; simp [Ne.symm h]
      next => rfl
  | folder n inside rest _ ih =>
    by_cases h : n = name
    · subst h
      simp only [set, front, find?, ↓reduceIte]
      split <;> rfl
    · simp only [set, h, ↓reduceIte, find?, ih]
      split
      next h' => subst h'; simp [Ne.symm h]
      next => rfl

/-- The entry at the end of a list of names; the directory itself for no names. -/
def get? : List Text → Directory → Option Node
  | [], d => some (.folder d)
  | name :: names, d =>
    match d.find? name with
    | none => none
    | some (.file content) => if names.isEmpty then some (.file content) else none
    | some (.folder inside) => get? names inside

/-- The folder of that name, empty if there is none. -/
def subfolder (name : Text) (d : Directory) : Directory :=
  match d.find? name with
  | some (.folder inside) => inside
  | _ => empty

/-- Put a node at the end of a list of names, with the folders on the way to it. -/
def put (node : Node) : List Text → Directory → Directory
  | [], d => d
  | [name], d => d.set name node
  | name :: names, d => d.set name (.folder (put node names (d.subfolder name)))

/-- A directory without the entries of that name. -/
def remove (name : Text) : Directory → Directory
  | empty => empty
  | file n content rest =>
    if n = name then remove name rest else file n content (remove name rest)
  | folder n inside rest =>
    if n = name then remove name rest else folder n inside (remove name rest)

/-- A directory without the entry at the end of a list of names. -/
def erase : List Text → Directory → Directory
  | [], d => d
  | [name], d => d.remove name
  | name :: names, d =>
    match d.find? name with
    | some (.folder inside) => d.set name (.folder (erase names inside))
    | _ => d

/-- All files with the names on the way to them. -/
def files : Directory → List (List Text × ByteArray)
  | empty => []
  | file n content rest => ([n], content) :: rest.files
  | folder n inside rest => inside.files.map (fun f => (n :: f.1, f.2)) ++ rest.files

/-- The files of a directory that an earlier one lacks or holds with other bytes. -/
def changedFrom (old new : Directory) : List (List Text × ByteArray) :=
  new.files.filter fun f => !old.files.any fun g => g.1 == f.1 && g.2.data == f.2.data

/-- The files that a later directory lacks. -/
def goneFrom (old new : Directory) : List (List Text) :=
  (old.files.filter fun f => !new.files.any fun g => g.1 == f.1).map Prod.fst

end Directory

end Localizer.Workspace
