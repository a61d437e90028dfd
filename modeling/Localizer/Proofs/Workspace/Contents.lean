import Localizer.Workspace.Access

/-!
# What files hold

`Tree.content?` gives the bytes at the end of a list of names, and is all that is observed of a
tree here. Every path has an address, the names that are left when each `..` takes back the name
before it; where a path can be followed at all, it leads to its address (`namesOf_eq_ok`). So the
effect of each operation is said by addresses alone: a file that is written holds the new bytes and
every other file what it held (`content?_of_write`), and making folders changes no file
(`content?_makeFolders`).
-/

namespace Localizer.Workspace

open Text

/-! ## Directories -/

/-- What is seen of a node from outside: the bytes of a file, and of a folder that it is one. -/
def Node.seen : Node → Option ByteArray
  | .file content => some content
  | .folder _ => none

/-- What is seen at the end of a list of names, if anything is there. -/
def Directory.look (d : Directory) (names : List Text) : Option (Option ByteArray) :=
  (d.get? names).map Node.seen

/-- What is seen at the end of a list of names, from a node on. -/
def Node.look : Node → List Text → Option (Option ByteArray)
  | .file content, [] => some (some content)
  | .file _, _ :: _ => none
  | .folder inside, names => inside.look names

/-- The bytes of the file at the end of a list of names. -/
def Directory.content? (d : Directory) (names : List Text) : Option ByteArray :=
  match d.get? names with
  | some (.file content) => some content
  | _ => none

/-- The bytes of the file at the end of a list of names, from a node on. -/
def Node.content? : Node → List Text → Option ByteArray
  | .file content, [] => some content
  | .file _, _ :: _ => none
  | .folder inside, names => inside.content? names

theorem Directory.content?_eq_join (d : Directory) (names : List Text) :
    d.content? names = (d.look names).join := by
  unfold content? look
  cases d.get? names with
  | none => rfl
  | some node => cases node <;> rfl

theorem Node.content?_eq_join (node : Node) (names : List Text) :
    node.content? names = (node.look names).join := by
  cases node with
  | file content => cases names <;> rfl
  | folder inside => exact inside.content?_eq_join names

namespace Directory

theorem look_nil (d : Directory) : d.look [] = some none := rfl

theorem look_cons (d : Directory) (name : Text) (names : List Text) :
    d.look (name :: names) = (d.find? name).bind (·.look names) := by
  unfold look get?
  cases d.find? name with
  | none => rfl
  | some node =>
    cases node with
    | file content => cases names <;> rfl
    | folder inside => rfl

theorem content?_nil (d : Directory) : d.content? [] = none := rfl

theorem content?_cons (d : Directory) (name : Text) (names : List Text) :
    d.content? (name :: names) = (d.find? name).bind (·.content? names) := by
  rw [content?_eq_join, look_cons]
  cases d.find? name with
  | none => rfl
  | some node => exact (node.content?_eq_join names).symm

/-- Along the names to a folder or a file there are folders. -/
theorem get?_concat {d : Directory} {names : List Text} {name : Text} {node : Node}
    (h : d.get? (names ++ [name]) = some node) :
    ∃ inside, d.get? names = some (.folder inside) ∧ inside.find? name = some node := by
  induction names generalizing d with
  | nil =>
    refine ⟨d, rfl, ?_⟩
    simp only [List.nil_append, get?] at h
    cases hf : d.find? name with
    | none => simp [hf] at h
    | some node' => cases node' <;> simpa [hf, get?] using h
  | cons first names ih =>
    simp only [List.cons_append, get?] at h ⊢
    cases hf : d.find? first with
    | none => simp [hf] at h
    | some node' =>
      cases node' with
      | file content => simp [hf] at h
      | folder inside => simpa [hf] using ih (by simpa [hf] using h)

/-- A node that is put into a folder changes what lies at and below its own names only. -/
theorem look_put {d inside : Directory} {folder : List Text}
    (h : d.get? folder = some (.folder inside)) (name : Text) (node : Node)
    (names : List Text) :
    (d.put node (folder ++ [name])).look names =
      if folder ++ [name] <+: names then node.look (names.drop (folder.length + 1))
      else d.look names := by
  induction folder generalizing d names with
  | nil =>
    cases names with
    | nil => simp [put, look_nil]
    | cons first names =>
      simp only [List.nil_append, put, look_cons, find?_set, List.length_nil, Nat.zero_add,
        List.drop_succ_cons, List.drop_zero, List.cons_prefix_cons, List.nil_prefix, and_true]
      split
      next => rfl
      next => rfl
  | cons first folder ih =>
    -- the first name is that of a folder, in which the rest of the names is followed
    have down : ∃ below, d.find? first = some (.folder below) ∧
        below.get? folder = some (.folder inside) := by
      simp only [get?] at h
      split at h
      next => simp at h
      next => split at h <;> simp at h
      next below hf => exact ⟨below, hf, h⟩
    obtain ⟨below, hf, hbelow⟩ := down
    have sub : d.subfolder first = below := by simp [subfolder, hf]
    have eq : d.put node (first :: (folder ++ [name])) =
        d.set first (.folder (below.put node (folder ++ [name]))) := by
      cases folder <;> simp [put, sub]
    rw [List.cons_append, eq]
    cases names with
    | nil => simp [look_nil]
    | cons other names =>
      simp only [look_cons, find?_set, List.cons_prefix_cons, List.length_cons,
        List.drop_succ_cons]
      by_cases same : first = other
      · subst same
        simp only [↓reduceIte, Option.bind_some, Node.look, true_and, hf]
        exact ih hbelow names
      · simp [same]

/-- Likewise for the files. -/
theorem content?_put {d inside : Directory} {folder : List Text}
    (h : d.get? folder = some (.folder inside)) (name : Text) (node : Node)
    (names : List Text) :
    (d.put node (folder ++ [name])).content? names =
      if folder ++ [name] <+: names then node.content? (names.drop (folder.length + 1))
      else d.content? names := by
  rw [content?_eq_join, look_put h, apply_ite Option.join, ← Node.content?_eq_join,
    ← content?_eq_join]

end Directory

/-! ## Addresses -/

/-- One step along a path: `..` takes back the name before it. -/
def follow (here : List Text) (name : Text) : List Text :=
  if name = ['.', '.'] then here.dropLast else here ++ [name]

/-- The names to which a path leads if it can be followed. -/
def address (p : Path) : List Text := p.names.foldl follow []

/-- A message that is a text is the message of that text. -/
theorem ofText_of_toText? {m : Message} {s : Text} (h : m.toText? = some s) : Message.ofText s = m := by
  induction m generalizing s with
  | nil =>
    obtain rfl : [] = s := by simpa [Message.toText?] using h
    rfl
  | cons p m ih =>
    simp only [Message.toText?, List.mapM_cons, Option.bind_eq_bind, Option.bind_eq_some_iff,
      Option.pure_def, Option.some.injEq] at h
    obtain ⟨c, hc, r, hr, rfl⟩ := h
    have same : CodePoint.ofChar c = p := by
      unfold CodePoint.toChar? at hc
      split at hc
      next => simp at hc
      next high =>
        obtain rfl := Option.some.inj hc
        simp only [CodePoint.isSurrogate, decide_eq_true_eq] at high
        have valid : p.val.isValidChar := by
          have := p.isLt
          simp only [Nat.isValidChar]
          omega
        refine Fin.ext ?_
        show (Char.ofNat p.val).toNat = p.val
        rw [Char.ofNat, dif_pos valid]
        rfl
    simp [Message.ofText, same, ← ih hr]

theorem names_of_checkPath {p : Path} {names : List Text} (h : checkPath p = .ok names) :
    names = p.names := by
  have shown (parts : List Message) (names : List Text)
      (h : parts.mapM Message.toText? = some names) : names = parts.map Message.view := by
    induction parts generalizing names with
    | nil => simpa using h.symm
    | cons part parts ih =>
      simp only [List.mapM_cons, Option.bind_eq_bind, Option.bind_eq_some_iff, Option.pure_def,
        Option.some.injEq] at h
      obtain ⟨name, hname, rest, hrest, rfl⟩ := h
      rw [List.map_cons, ← ofText_of_toText? hname, Message.view_ofText, ← ih rest hrest]
  unfold checkPath at h
  split at h
  next => simp at h
  next names' hnames =>
    split at h
    next => simp at h
    next =>
      split at h
      next => simp at h
      next => exact Except.ok.inj h ▸ shown _ _ hnames

/-- A list of names that leads to a folder, or to a place in one. -/
def Reached (d : Directory) (names : List Text) : Prop :=
  (∃ inside, d.get? names = some (.folder inside)) ∨
    ∃ folder name inside, names = folder ++ [name] ∧ d.get? folder = some (.folder inside)

/-- Where the names of a path can be followed, they lead to where they say. -/
theorem locate_eq_ok {d : Directory} {full : Message} {here parts names : List Text}
    (h : Tree.locate d full here parts = .ok names) (reached : Reached d here) :
    names = parts.foldl follow here ∧ Reached d names := by
  induction parts generalizing here with
  | nil =>
    simp only [Tree.locate, Except.ok.injEq] at h
    exact ⟨h.symm, h ▸ reached⟩
  | cons part parts ih =>
    simp only [Tree.locate] at h
    split at h
    next => simp at h
    next => simp at h
    next inside hinside =>
      simp only [List.foldl_cons, follow]
      split at h
      next up =>
        rw [if_pos up]
        refine ih h (.inl ?_)
        rcases List.eq_nil_or_concat here with rfl | ⟨before, last, rfl⟩
        · exact ⟨d, rfl⟩
        · rw [List.concat_eq_append] at hinside ⊢
          obtain ⟨outer, houter, -⟩ := Directory.get?_concat hinside
          exact ⟨outer, by simpa using houter⟩
      next up =>
        rw [if_neg up]
        split at h
        next => simp at h
        next =>
          split at h
          next => simp at h
          next => exact ih h (.inr ⟨here, part, inside, rfl, hinside⟩)

namespace Tree

/-- A path that can be followed leads to its address. -/
theorem namesOf_eq_ok {t : Tree} {p : Path} {names : List Text} (h : t.namesOf p = .ok names) :
    names = address p ∧ Reached t.root names := by
  simp only [namesOf, bind, Except.bind] at h
  split at h
  next => simp at h
  next parts hparts =>
    rw [address, ← names_of_checkPath hparts]
    exact locate_eq_ok h (.inl ⟨t.root, rfl⟩)

/-! ## The effect of operations -/

/-- The bytes of the file at the end of a list of names. -/
def content? (t : Tree) (names : List Text) : Option ByteArray := t.root.content? names

/-- Below what is no folder there is no file. -/
theorem content?_below {d : Directory} {names rest : List Text}
    (h : ∀ inside, d.get? names ≠ some (.folder inside)) (more : rest ≠ []) :
    d.content? (names ++ rest) = none := by
  induction names generalizing d with
  | nil => exact absurd rfl (h d)
  | cons name names ih =>
    rw [List.cons_append, Directory.content?_cons]
    cases hf : d.find? name with
    | none => rfl
    | some node =>
      cases node with
      | file content =>
        obtain ⟨first, rest', eq⟩ := List.exists_cons_of_ne_nil
          (show names ++ rest ≠ [] by simp [more])
        rw [eq]
        rfl
      | folder inside => exact ih (by simpa [Directory.get?, hf] using h)

/-- A file that is put in a place where no folder is holds its bytes, and every other file what it
held. -/
theorem content?_put_file {d : Directory} {names : List Text} (reached : Reached d names)
    (h : ∀ inside, d.get? names ≠ some (.folder inside)) (content : ByteArray)
    (other : List Text) :
    (d.put (.file content) names).content? other =
      if other = names then some content else d.content? other := by
  rcases reached with ⟨inside, hinside⟩ | ⟨folder, name, inside, rfl, hinside⟩
  · exact absurd hinside (h inside)
  · rw [Directory.content?_put hinside]
    by_cases below : folder ++ [name] <+: other
    · obtain ⟨rest, rfl⟩ := below
      rw [if_pos (List.prefix_append _ _), List.drop_left' (by simp)]
      cases rest with
      | nil => simp [Node.content?]
      | cons first rest =>
        rw [if_neg (by simp), content?_below h (by simp)]
        rfl
    · have apart : other ≠ folder ++ [name] := by
        rintro rfl
        exact below List.prefix_rfl
      rw [if_neg below, if_neg apart]

/-- An empty folder that is put where nothing is changes no file. -/
theorem content?_put_folder {d : Directory} {names : List Text} (reached : Reached d names)
    (h : d.get? names = none) (other : List Text) :
    (d.put (.folder .empty) names).content? other = d.content? other := by
  rcases reached with ⟨inside, hinside⟩ | ⟨folder, name, inside, rfl, hinside⟩
  · simp [h] at hinside
  · rw [Directory.content?_put hinside]
    by_cases below : folder ++ [name] <+: other
    · obtain ⟨rest, rfl⟩ := below
      have empty : Directory.content? .empty rest = none := by
        cases rest with
        | nil => rfl
        | cons => rfl
      rw [if_pos (List.prefix_append _ _), List.drop_left' (by simp)]
      cases rest with
      | nil => simp [Node.content?, Directory.content?, Directory.get?, h]
      | cons first rest =>
        rw [content?_below (by simp [h]) (by simp)]
        exact empty
    · rw [if_neg below]

/-- A file that is written holds the new bytes, and every other file what it held. -/
theorem content?_of_write {t t' : Tree} {p : Path} {content : ByteArray}
    (h : t.write p content = .ok t') (names : List Text) :
    t'.content? names = if names = address p then some content else t.content? names := by
  simp only [write, bind, Except.bind] at h
  split at h
  next => simp at h
  next place hplace =>
    obtain ⟨rfl, reached⟩ := namesOf_eq_ok hplace
    split at h
    next => simp at h
    next =>
      split at h
      next => simp at h
      next free =>
        obtain rfl := Except.ok.inj h
        exact content?_put_file reached free content names

theorem content?_makeFolder {t t' : Tree} {p : Path} (h : t.makeFolder p = .ok t')
    (names : List Text) : t'.content? names = t.content? names := by
  simp only [makeFolder, bind, Except.bind] at h
  split at h
  next => simp at h
  next place hplace =>
    obtain ⟨rfl, reached⟩ := namesOf_eq_ok hplace
    split at h
    next => simp at h
    next free =>
      obtain rfl := Except.ok.inj h
      exact content?_put_folder reached free names

theorem content?_ensureFolder {t t' : Tree} {p : Path} (h : t.ensureFolder p = .ok t')
    (names : List Text) : t'.content? names = t.content? names := by
  unfold ensureFolder at h
  split at h
  next made =>
    obtain rfl := Except.ok.inj h
    exact content?_makeFolder made names
  next => simp at h
  next =>
    split at h
    next => simp at h
    next =>
      simp only [bind, Except.bind] at h
      split at h
      next => simp at h
      next =>
        split at h
        next =>
          obtain rfl := Except.ok.inj h
          rfl
        next => simp at h

/-- Making folders changes no file. -/
theorem content?_makeFolders (t : Tree) (p : Path) (names : List Text) :
    (t.makeFolders p).1.content? names = t.content? names := by
  fun_induction makeFolders t p with
  | case1 p t' made => exact content?_ensureFolder made names
  | case2 => rfl
  | case3 p _ _ _ t' e hparent ih => simpa [hparent] using ih
  | case4 p _ _ _ t' hparent t'' made ih =>
    rw [content?_ensureFolder made]
    simpa [hparent] using ih
  | case5 p _ _ _ t' hparent e made ih => simpa [hparent] using ih
  | case6 => rfl

/-- What becomes of writing a message: the file holds it; or nothing has changed; or the message
holds a surrogate, and the file is empty. -/
theorem writeMessage_cases (t : Tree) (p : Path) (m : Message) :
    (∃ text t', m.toText? = some text ∧ t.writeMessage p m = (t', .ok ()) ∧
      ∀ names, t'.content? names =
        if names = address p then some (encode text) else t.content? names) ∨
    (∃ e, t.writeMessage p m = (t, .error e)) ∨
    (∃ t', t.writeMessage p m = (t', .error .notEncodable) ∧
      ∀ names, names ≠ address p → t'.content? names = t.content? names) := by
  cases htext : m.toText? with
  | some text =>
    cases written : t.write p (encode text) with
    | ok t' =>
      refine .inl ⟨text, t', rfl, ?_, content?_of_write written⟩
      simp only [writeMessage, htext, written]
    | error e => exact .inr (.inl ⟨e, by simp only [writeMessage, htext, written]⟩)
  | none =>
    cases written : t.write p .empty with
    | ok t' =>
      refine .inr (.inr ⟨t', by simp only [writeMessage, htext, written], ?_⟩)
      intro names apart
      rw [content?_of_write written, if_neg apart]
    | error e => exact .inr (.inl ⟨e, by simp only [writeMessage, htext, written]⟩)

/-- A path from which a text was read can be followed, to the file that holds it. -/
theorem exists_of_readText {t : Tree} {p : Path} {text : Text} (h : t.readText p = .ok text) :
    ∃ bytes, t.namesOf p = .ok (address p) ∧ t.root.get? (address p) = some (.file bytes) ∧
      decode bytes = .ok text := by
  simp only [readText, bind, Except.bind] at h
  split at h
  next => simp at h
  next bytes hread =>
    simp only [read, bind, Except.bind] at hread
    split at hread
    next => simp at hread
    next place hplace =>
      obtain ⟨rfl, -⟩ := namesOf_eq_ok hplace
      split at hread
      next => simp at hread
      next =>
        split at hread
        next => simp at hread
        next => simp at hread
        next content found =>
          obtain rfl := Except.ok.inj hread
          exact ⟨content, hplace, found, h⟩

/-- A text that was read is that of the file at the address. -/
theorem readText_eq_ok {t : Tree} {p : Path} {text : Text} (h : t.readText p = .ok text) :
    ∃ bytes, t.content? (address p) = some bytes ∧ decode bytes = .ok text := by
  obtain ⟨bytes, -, found, decoded⟩ := exists_of_readText h
  exact ⟨bytes, by simp [content?, Directory.content?, found], decoded⟩

/-- The text that was encoded is read back. -/
theorem decode_encode (s : Text) : decode (encode s) = .ok s := by
  have valid : (encode s).IsValidUTF8 := (String.ofList s).isValidUTF8
  have found : String.fromUTF8? (encode s) = some (String.ofList s) := dif_pos valid
  rw [decode, found]
  exact congrArg Except.ok (String.toList_ofList)

end Tree

end Localizer.Workspace
