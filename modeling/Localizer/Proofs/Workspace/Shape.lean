import Localizer.Proofs.Workspace.Contents

/-!
# The shape of a tree

Where a path leads depends on the places of folders and files, not on what the files hold. So two
trees of the same shape (`Tree.SameShape`) resolve every path alike (`SameShape.namesOf`), and a
file that is the same in both is read alike (`SameShape.readText`). A file that was read can be
written unless it is closed to writing, and that keeps the shape (`writeMessage_of_readText`).
-/

namespace Localizer.Workspace

open Text

/-! ## Looking up -/

namespace Directory

/-- Names that start with those of a folder are followed in it. -/
theorem get?_append {d inside : Directory} {names : List Text}
    (h : d.get? names = some (.folder inside)) (rest : List Text) :
    d.get? (names ++ rest) = inside.get? rest := by
  induction names generalizing d with
  | nil =>
    obtain rfl : d = inside := by simpa [get?] using h
    rfl
  | cons name names ih =>
    simp only [List.cons_append, get?] at h ⊢
    split at h
    next => simp at h
    next => split at h <;> simp at h
    next below found => exact ih h

theorem look_append {d inside : Directory} {names : List Text}
    (h : d.get? names = some (.folder inside)) (rest : List Text) :
    d.look (names ++ rest) = inside.look rest := by
  rw [look, get?_append h, look]

theorem look_concat {d inside : Directory} {names : List Text}
    (h : d.get? names = some (.folder inside)) (name : Text) :
    d.look (names ++ [name]) = (inside.find? name).map Node.seen := by
  rw [look_append h, look_cons]
  cases inside.find? name with
  | none => rfl
  | some node => cases node <;> rfl

theorem look_of_get? {d : Directory} {names : List Text} {node : Node}
    (h : d.get? names = some node) : d.look names = some node.seen := by
  rw [look, h, Option.map_some]

theorem get?_eq_none_iff {d : Directory} {names : List Text} :
    d.get? names = none ↔ d.look names = none := by
  rw [look, Option.map_eq_none_iff]

theorem get?_eq_file_iff {d : Directory} {names : List Text} {content : ByteArray} :
    d.get? names = some (.file content) ↔ d.look names = some (some content) := by
  unfold look
  rcases d.get? names with - | (- | -) <;> simp [Node.seen]

theorem exists_folder_iff {d : Directory} {names : List Text} :
    (∃ inside, d.get? names = some (.folder inside)) ↔ d.look names = some none := by
  unfold look
  rcases d.get? names with - | (- | -) <;> simp [Node.seen]

/-- Folders and files are at the same places in two directories. -/
def SamePlaces (d d' : Directory) : Prop :=
  ∀ names, (d'.look names).map Option.isSome = (d.look names).map Option.isSome

namespace SamePlaces

variable {d d' : Directory} (same : SamePlaces d d') {names : List Text}
include same

theorem get?_eq_none (h : d.get? names = none) : d'.get? names = none := by
  have here := same names
  rw [get?_eq_none_iff] at h ⊢
  simpa [h] using here

theorem exists_file {content : ByteArray} (h : d.get? names = some (.file content)) :
    ∃ content', d'.get? names = some (.file content') := by
  have here := same names
  rw [look_of_get? h] at here
  obtain ⟨seen, look, isFile⟩ := Option.map_eq_some_iff.1 here
  obtain ⟨content', rfl⟩ := Option.isSome_iff_exists.1 isFile
  exact ⟨content', get?_eq_file_iff.2 look⟩

theorem exists_folder {inside : Directory} (h : d.get? names = some (.folder inside)) :
    ∃ inside', d'.get? names = some (.folder inside') := by
  have here := same names
  rw [look_of_get? h] at here
  obtain ⟨seen, look, isFile⟩ := Option.map_eq_some_iff.1 here
  obtain rfl : seen = none := by simpa [Node.seen] using isFile
  exact exists_folder_iff.2 look

/-- Paths are followed alike where folders and files are at the same places. -/
theorem locate (full : Message) (here parts : List Text) :
    Tree.locate d' full here parts = Tree.locate d full here parts := by
  induction parts generalizing here with
  | nil => rfl
  | cons part rest ih =>
    cases found : d.get? here with
    | none => simp only [Tree.locate, found, same.get?_eq_none found]
    | some node =>
      cases node with
      | file content =>
        obtain ⟨content', found'⟩ := same.exists_file found
        simp only [Tree.locate, found, found']
      | folder inside =>
        obtain ⟨inside', found'⟩ := same.exists_folder found
        have next : (inside'.find? part).isNone = (inside.find? part).isNone := by
          have below := congrArg Option.isNone (same (here ++ [part]))
          simpa [look_concat found, look_concat found'] using below
        simp only [Tree.locate, found, found', next, ih]

end SamePlaces

end Directory

namespace Tree

/-! ## Trees of the same shape -/

/-- Two trees with folders and files at the same places, and the same files closed. -/
structure SameShape (t t' : Tree) : Prop where
  places : t.root.SamePlaces t'.root
  unreadable : t'.unreadable = t.unreadable
  unwritable : t'.unwritable = t.unwritable

namespace SameShape

theorem refl (t : Tree) : SameShape t t := ⟨fun _ => rfl, rfl, rfl⟩

theorem trans {t t' t'' : Tree} (first : SameShape t t') (second : SameShape t' t'') :
    SameShape t t'' :=
  ⟨fun names => (second.places names).trans (first.places names),
    second.unreadable.trans first.unreadable, second.unwritable.trans first.unwritable⟩

variable {t t' : Tree} (same : SameShape t t')
include same

theorem namesOf (p : Path) : t'.namesOf p = t.namesOf p := by
  simp only [Tree.namesOf, same.places.locate]

/-- A file that is the same in both trees is read alike. -/
theorem read {p : Path} (content : t'.content? (address p) = t.content? (address p)) :
    t'.read p = t.read p := by
  simp only [Tree.read, same.namesOf, same.unreadable, bind, Except.bind]
  cases place : t.namesOf p with
  | error e => rfl
  | ok names =>
    obtain ⟨rfl, -⟩ := namesOf_eq_ok place
    dsimp only
    split
    next => rfl
    next =>
      cases found : t.root.get? (address p) with
      | none => rw [same.places.get?_eq_none found]
      | some node =>
        cases node with
        | folder inside =>
          obtain ⟨inside', found'⟩ := same.places.exists_folder found
          rw [found']
        | file bytes =>
          obtain ⟨bytes', found'⟩ := same.places.exists_file found
          have eq : bytes' = bytes := by
            simpa [content?, Directory.content?, found, found'] using content
          rw [found', eq]

theorem readText {p : Path} (content : t'.content? (address p) = t.content? (address p)) :
    t'.readText p = t.readText p := by
  rw [Tree.readText, Tree.readText, same.read content]

/-- A path leads to nodes of the same kind, if it leads anywhere. -/
theorem node? (p : Path) :
    (∃ e, t.node? p = .error e ∧ t'.node? p = .error e) ∨
    (t.node? p = .ok none ∧ t'.node? p = .ok none) ∨
    (∃ content content', t.node? p = .ok (some (.file content)) ∧
      t'.node? p = .ok (some (.file content'))) ∨
    (∃ inside inside', t.node? p = .ok (some (.folder inside)) ∧
      t'.node? p = .ok (some (.folder inside'))) := by
  simp only [Tree.node?, same.namesOf]
  split
  next names _ =>
    cases found : t.root.get? names with
    | none => exact .inr (.inl ⟨rfl, congrArg _ (same.places.get?_eq_none found)⟩)
    | some node =>
      cases node with
      | file content =>
        obtain ⟨content', found'⟩ := same.places.exists_file found
        exact .inr (.inr (.inl ⟨content, content', rfl, congrArg _ found'⟩))
      | folder inside =>
        obtain ⟨inside', found'⟩ := same.places.exists_folder found
        exact .inr (.inr (.inr ⟨inside, inside', rfl, congrArg _ found'⟩))
  next => exact .inl ⟨_, rfl, rfl⟩
  next => exact .inr (.inl ⟨rfl, rfl⟩)

theorem isFile (p : Path) : t'.isFile p = t.isFile p := by
  rcases same.node? p with ⟨e, h, h'⟩ | ⟨h, h'⟩ | ⟨_, _, h, h'⟩ | ⟨_, _, h, h'⟩ <;>
    simp only [Tree.isFile, h, h', bind, Except.bind]

theorem isFolder (p : Path) : t'.isFolder p = t.isFolder p := by
  rcases same.node? p with ⟨e, h, h'⟩ | ⟨h, h'⟩ | ⟨_, _, h, h'⟩ | ⟨_, _, h, h'⟩ <;>
    simp only [Tree.isFolder, h, h', bind, Except.bind]

end SameShape

/-- A path leads to a folder where its address is one. -/
theorem exists_of_node?_eq_folder {t : Tree} {p : Path} {inside : Directory}
    (h : t.node? p = .ok (some (.folder inside))) :
    t.namesOf p = .ok (address p) ∧ t.root.get? (address p) = some (.folder inside) := by
  unfold node? at h
  split at h
  next names place =>
    obtain ⟨rfl, -⟩ := namesOf_eq_ok place
    exact ⟨place, Except.ok.inj h⟩
  next => simp at h
  next => simp at h

/-! ## Writing a file that was read -/

/-- A file that is put in the place of a file keeps the shape. -/
theorem samePlaces_put {d : Directory} {names : List Text} {old : ByteArray}
    (h : d.get? names = some (.file old)) (new : ByteArray) :
    d.SamePlaces (d.put (.file new) names) := by
  obtain rfl | ⟨folder, name, rfl⟩ := List.eq_nil_or_concat names
  · simp [Directory.get?] at h
  · rw [List.concat_eq_append] at h ⊢
    obtain ⟨inside, hinside, -⟩ := Directory.get?_concat h
    intro other
    rw [Directory.look_put hinside]
    split
    next below =>
      obtain ⟨rest, rfl⟩ := below
      rw [List.drop_left' (by simp)]
      cases rest with
      | nil =>
        rw [List.append_nil, Directory.look_of_get? h]
        rfl
      | cons first rest =>
        -- nothing is below a file
        have nothing : d.get? (folder ++ [name] ++ first :: rest) = none := by
          rw [List.append_assoc, Directory.get?_append hinside]
          have found : inside.find? name = some (.file old) := by
            obtain ⟨inside', hinside', found⟩ := Directory.get?_concat h
            obtain rfl : inside = inside' := by simpa [hinside] using hinside'
            exact found
          simp [Directory.get?, found]
        rw [Directory.get?_eq_none_iff.1 nothing]
        rfl
    next => rfl

/-- A file that was read can be written, unless it is closed to that. -/
theorem write_of_readText {t : Tree} {p : Path} {text : Text} (h : t.readText p = .ok text)
    (new : ByteArray) :
    if address p ∈ t.unwritable then t.write p new = .error .denied
    else ∃ t', t.write p new = .ok t' ∧ SameShape t t' := by
  obtain ⟨old, place, found, -⟩ := exists_of_readText h
  simp only [write, place, bind, Except.bind, List.contains_iff_mem, found]
  split
  next => rfl
  next => exact ⟨_, rfl, samePlaces_put found new, rfl, rfl⟩

/-- What becomes of writing a message to a file that was read: the file is closed to that; or the
message holds a surrogate; or the file holds it, and the shape is kept. -/
theorem writeMessage_of_readText {t : Tree} {p : Path} {text : Text} (h : t.readText p = .ok text)
    (m : Message) :
    (address p ∈ t.unwritable ∧ t.writeMessage p m = (t, .error .denied)) ∨
    (address p ∉ t.unwritable ∧ ∃ t', t.writeMessage p m = (t', .error .notEncodable)) ∨
    (address p ∉ t.unwritable ∧ ∃ new t', m.toText? = some new ∧
      t.writeMessage p m = (t', .ok ()) ∧ SameShape t t' ∧ ∀ names, t'.content? names =
        if names = address p then some (encode new) else t.content? names) := by
  have written := write_of_readText h
  by_cases closed : address p ∈ t.unwritable
  · simp only [closed, ↓reduceIte] at written
    refine .inl ⟨closed, ?_⟩
    unfold writeMessage
    split <;> rw [written]
  · simp only [closed, ↓reduceIte] at written
    cases encoded : m.toText? with
    | none =>
      obtain ⟨t', ok, -⟩ := written .empty
      exact .inr (.inl ⟨closed, t', by simp only [writeMessage, encoded, ok]⟩)
    | some new =>
      obtain ⟨t', ok, shape⟩ := written (encode new)
      refine .inr (.inr ⟨closed, new, t', rfl, ?_, shape, content?_of_write ok⟩)
      simp only [writeMessage, encoded, ok]

end Tree

end Localizer.Workspace
