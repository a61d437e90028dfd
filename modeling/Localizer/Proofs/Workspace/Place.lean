import Mathlib.Data.List.Nodup
import Localizer.Proofs.Workspace.Shape
import Localizer.Workspace.Sources

/-!
# Places and what they are called

In a proper directory every folder gives its entries different names, none of them empty, a dot, two
dots or with a slash. Then the files of the directory are just those that can be looked up
(`mem_files_iff`), and each of them is listed once (`nodup_files`).

A place is called by its path from a root, or by its full path (`placeText`). Read as a path from
that root again, this leads back to the place (`address_child_placeText`), so that two places never
have the same path.
-/

namespace Localizer.Workspace

open Text Message

/-! ## Proper directories -/

/-- A name that an entry of a folder can have. -/
structure ProperName (name : Text) : Prop where
  nonempty : name ≠ []
  notHere : name ≠ ['.']
  notUp : name ≠ ['.', '.']
  noSlash : '/' ∉ name

instance (name : Text) : Decidable (ProperName name) :=
  decidable_of_iff (name ≠ [] ∧ name ≠ ['.'] ∧ name ≠ ['.', '.'] ∧ '/' ∉ name)
    ⟨fun ⟨a, b, c, d⟩ => ⟨a, b, c, d⟩, fun ⟨a, b, c, d⟩ => ⟨a, b, c, d⟩⟩

namespace Directory

/-- Every folder gives its entries different names, which an entry can have. -/
def Proper : Directory → Prop
  | empty => True
  | file name _ rest => ProperName name ∧ (rest.find? name).isNone ∧ rest.Proper
  | folder name inside rest =>
    ProperName name ∧ (rest.find? name).isNone ∧ inside.Proper ∧ rest.Proper

/-- Whether a directory is proper can be decided entry by entry. -/
instance decidableProper : (d : Directory) → Decidable d.Proper
  | empty => isTrue trivial
  | file name _ rest =>
    have := decidableProper rest
    inferInstanceAs (Decidable (ProperName name ∧ (rest.find? name).isNone ∧ rest.Proper))
  | folder name inside rest =>
    have := decidableProper inside
    have := decidableProper rest
    inferInstanceAs
      (Decidable (ProperName name ∧ (rest.find? name).isNone ∧ inside.Proper ∧ rest.Proper))

variable {d : Directory}

/-- The folders of a proper directory are proper, and so are the names on the way to them. -/
theorem Proper.of_get? (h : d.Proper) {names : List Text} {inside : Directory}
    (found : d.get? names = some (.folder inside)) :
    inside.Proper ∧ ∀ name ∈ names, ProperName name := by
  have down {d : Directory} (h : d.Proper) {name : Text} {inside : Directory}
      (found : d.find? name = some (.folder inside)) : ProperName name ∧ inside.Proper := by
    induction d with
    | empty => simp [find?] at found
    | file first content rest ih =>
      obtain ⟨-, -, proper⟩ := h
      simp only [find?] at found
      split at found
      next => simp at found
      next => exact ih proper found
    | folder first below rest _ ih =>
      obtain ⟨name, -, below, proper⟩ := h
      simp only [find?] at found
      split at found
      next same =>
        simp only [Option.some.injEq, Node.folder.injEq] at found
        exact ⟨same ▸ name, found ▸ below⟩
      next => exact ih proper found
  induction names generalizing d with
  | nil =>
    obtain rfl : d = inside := by simpa [get?] using found
    exact ⟨h, by simp⟩
  | cons name names ih =>
    simp only [get?] at found
    split at found
    next => simp at found
    next => split at found <;> simp at found
    next below hbelow =>
      obtain ⟨proper, inner⟩ := down h hbelow
      obtain ⟨insideProper, names⟩ := ih inner found
      exact ⟨insideProper, List.forall_mem_cons.2 ⟨proper, names⟩⟩

theorem ne_nil_of_mem_files {f : List Text × ByteArray} (mem : f ∈ d.files) : f.1 ≠ [] := by
  induction d with
  | empty => simp [files] at mem
  | file name content rest ih =>
    rcases List.mem_cons.1 mem with rfl | mem
    · simp
    · exact ih mem
  | folder name inside rest _ ih =>
    rcases List.mem_append.1 mem with mem | mem
    · obtain ⟨below, -, rfl⟩ := List.mem_map.1 mem
      simp
    · exact ih mem

theorem properName_of_mem_files (h : d.Proper) {f : List Text × ByteArray} (mem : f ∈ d.files) :
    ∀ name ∈ f.1, ProperName name := by
  induction d generalizing f with
  | empty => simp [files] at mem
  | file name content rest ih =>
    obtain ⟨proper, -, rest⟩ := h
    rcases List.mem_cons.1 mem with rfl | mem
    · simpa using proper
    · exact ih rest mem
  | folder name inside rest ihInside ih =>
    obtain ⟨proper, -, inner, rest⟩ := h
    rcases List.mem_append.1 mem with mem | mem
    · obtain ⟨below, hbelow, rfl⟩ := List.mem_map.1 mem
      exact List.forall_mem_cons.2 ⟨proper, ihInside inner hbelow⟩
    · exact ih rest mem

/-- Where no entry has a name, nothing is at names that start with it. -/
theorem content?_of_find?_eq_none {name : Text} (h : (d.find? name).isNone) (names : List Text) :
    d.content? (name :: names) = none := by
  rw [content?_cons, Option.isNone_iff_eq_none.1 h]
  rfl

/-- **The files of a proper directory are those that can be looked up.** -/
theorem mem_files_iff (h : d.Proper) {names : List Text} {content : ByteArray} :
    (names, content) ∈ d.files ↔ d.content? names = some content := by
  induction d generalizing names with
  | empty => cases names <;> simp [files, content?_nil, content?_cons, find?]
  | file name bytes rest ih =>
    obtain ⟨-, fresh, proper⟩ := h
    simp only [files, List.mem_cons, Prod.mk.injEq, ih proper]
    cases names with
    | nil => simp [content?_nil]
    | cons first names =>
      by_cases same : name = first
      · subst same
        rw [content?_of_find?_eq_none fresh]
        cases names <;> simp [content?_cons, find?, Node.content?, eq_comm]
      · simp [content?_cons, find?, same, Ne.symm same]
  | folder name inside rest ihInside ih =>
    obtain ⟨-, fresh, inner, proper⟩ := h
    simp only [files, List.mem_append, List.mem_map, Prod.exists, Prod.mk.injEq, ih proper]
    cases names with
    | nil => simp [content?_nil]
    | cons first names =>
      by_cases same : name = first
      · subst same
        rw [content?_of_find?_eq_none fresh]
        simp [content?_cons, find?, Node.content?, ihInside inner]
      · simp [content?_cons, find?, same]

/-- Each file of a proper directory is listed once. -/
theorem nodup_files (h : d.Proper) : (d.files.map Prod.fst).Nodup := by
  have apart {d : Directory} (h : d.Proper) {name : Text} (fresh : (d.find? name).isNone)
      (names : List Text) : name :: names ∉ d.files.map Prod.fst := by
    intro mem
    obtain ⟨⟨_, content⟩, mem, rfl⟩ := List.mem_map.1 mem
    rw [mem_files_iff h, content?_of_find?_eq_none fresh] at mem
    simp at mem
  induction d with
  | empty => exact List.nodup_nil
  | file name bytes rest ih =>
    obtain ⟨-, fresh, proper⟩ := h
    exact List.nodup_cons.2 ⟨apart proper fresh [], ih proper⟩
  | folder name inside rest ihInside ih =>
    obtain ⟨-, fresh, inner, proper⟩ := h
    simp only [files, List.map_append, List.map_map, List.nodup_append]
    refine ⟨?_, ih proper, ?_⟩
    · have below := (ihInside inner).map (List.cons_injective (a := name))
      simpa [List.map_map, Function.comp_def] using below
    · rintro _ mem _ other rfl
      obtain ⟨⟨names, content⟩, -, rfl⟩ := List.mem_map.1 mem
      exact apart proper fresh names other

/-- The files below a folder are looked up from it. -/
theorem content?_append {inside : Directory} {folder : List Text}
    (h : d.get? folder = some (.folder inside)) (names : List Text) :
    d.content? (folder ++ names) = inside.content? names := by
  rw [content?, get?_append h, content?]

end Directory

/-! ## Paths of places -/

section

variable {names : List Text}

theorem join_concat {α : Type} {separator : α} {parts : List (List α)} (h : parts ≠ [])
    (part : List α) :
    join [separator] (parts ++ [part]) = join [separator] parts ++ separator :: part := by
  induction parts with
  | nil => simp at h
  | cons first parts ih =>
    cases parts with
    | nil => simp [join]
    | cons second parts => simpa [join] using ih (by simp)

theorem ofText_join (names : List Text) :
    ofText (join ['/'] names) = join [Path.slash] (names.map ofText) := by
  induction names with
  | nil => rfl
  | cons first names ih =>
    cases names with
    | nil => simp [join]
    | cons second names =>
      simp only [join, ofText, List.intercalate_cons_cons, List.map_append, List.map_cons,
        List.map_nil] at ih ⊢
      rw [ih]
      rfl

/-- Names without `..` are gone down one by one. -/
theorem foldl_follow (noUp : ∀ name ∈ names, name ≠ ['.', '.']) (here : List Text) :
    names.foldl follow here = here ++ names := by
  induction names generalizing here with
  | nil => simp
  | cons name names ih =>
    obtain ⟨first, rest⟩ := List.forall_mem_cons.1 noUp
    rw [List.foldl_cons, follow, if_neg first, ih rest, List.append_assoc]
    rfl

variable (proper : ∀ name ∈ names, ProperName name)
include proper

/-- The names that are read from a path are those it was made of. -/
theorem partsOf_join : Path.partsOf (ofText (join ['/'] names)) = names.map ofText := by
  rcases List.eq_nil_or_concat names with rfl | ⟨before, last, eq⟩
  · rfl
  · have noSlash : ∀ part ∈ names.map ofText, Path.slash ∉ part := by
      intro part mem
      obtain ⟨name, hname, rfl⟩ := List.mem_map.1 mem
      exact fun slash => (proper name hname).noSlash (ofChar_mem_ofText.1 slash)
    have kept : ∀ part ∈ names.map ofText, (!part.isEmpty && part != Path.here) = true := by
      intro part mem
      obtain ⟨name, hname, rfl⟩ := List.mem_map.1 mem
      have nonempty := (proper name hname).nonempty
      have notHere : ofText name ≠ ofText ['.'] :=
        fun eq => (proper name hname).notHere (ofText_injective eq)
      have some : ofText name ≠ [] := by simpa [ofText] using nonempty
      simpa [Path.here, some] using notHere
    rw [Path.partsOf, ofText_join, join, List.splitOn_intercalate _ noSlash (by simp [eq]),
      List.filter_eq_self.2 kept]

theorem partsOf_slash_join :
    Path.partsOf (ofText ('/' :: join ['/'] names)) = names.map ofText := by
  rw [← partsOf_join proper]
  simp [Path.partsOf, ofText, Path.slash, List.splitOn_cons_eq_if_modifyHead]

theorem anchorOf_join : Path.anchorOf (join ['/'] names) = [] := by
  cases names with
  | nil => rfl
  | cons name names =>
    obtain ⟨first, -⟩ := List.forall_mem_cons.1 proper
    obtain ⟨c, chars, rfl⟩ := List.exists_cons_of_ne_nil first.nonempty
    have c_ne : c ≠ '/' := by
      rintro rfl
      exact first.noSlash List.mem_cons_self
    cases names <;> simp [join, Path.anchorOf, c_ne]

end

/-- A path without `..` from the root of the tree, whose names are texts. -/
structure IsResolved (p : Path) : Prop where
  anchor : p.anchor = ['/']
  texts : p.parts = p.names.map ofText
  noUp : ∀ name ∈ p.names, name ≠ ['.', '.']

section

variable {p q root : Path}

theorem mem_resolveParts {part : Message} {done parts : List Message}
    (mem : part ∈ Path.resolveParts done parts) :
    part ∈ done ∨ part ∈ parts ∧ part ≠ Path.up := by
  induction parts generalizing done with
  | nil => exact .inl (by simpa [Path.resolveParts] using mem)
  | cons first parts ih =>
    simp only [Path.resolveParts] at mem
    split at mem
    next =>
      rcases ih mem with done | ⟨rest, ne⟩
      · exact .inl (List.mem_of_mem_tail done)
      · exact .inr ⟨List.mem_cons_of_mem _ rest, ne⟩
    next notUp =>
      rcases ih mem with done | ⟨rest, ne⟩
      · rcases List.mem_cons.1 done with rfl | done
        · exact .inr ⟨List.mem_cons_self, notUp⟩
        · exact .inl done
      · exact .inr ⟨List.mem_cons_of_mem _ rest, ne⟩

theorem resolveParts_of_ne {done parts : List Message} (h : ∀ part ∈ parts, part ≠ Path.up) :
    Path.resolveParts done parts = done.reverse ++ parts := by
  induction parts generalizing done with
  | nil => simp [Path.resolveParts]
  | cons first parts ih =>
    obtain ⟨notUp, rest⟩ := List.forall_mem_cons.1 h
    rw [Path.resolveParts, if_neg notUp, ih rest]
    simp

theorem exists_ofText_of_checkName {parts : List Message} {names : List Text}
    (h : parts.mapM checkName = .ok names) {part : Message} (mem : part ∈ parts) :
    ∃ name, ofText name = part := by
  induction parts generalizing names with
  | nil => simp at mem
  | cons first parts ih =>
    simp only [List.mapM_cons, bind, Except.bind] at h
    split at h
    next => simp at h
    next name hname =>
      split at h
      next => simp at h
      next rest hrest =>
        rcases List.mem_cons.1 mem with rfl | mem
        · unfold checkName at hname
          split at hname
          next => simp at hname
          next text htext => exact ⟨text, ofText_of_toText? htext⟩
        · exact ih hrest mem

theorem resolved_eq_ok (h : resolved p = .ok q) : q = p.resolve := by
  simp only [resolved, bind, Except.bind, pure, Except.pure] at h
  split at h
  next => simp at h
  next => exact (Except.ok.inj h).symm

/-- What a path resolves to has no `..`. -/
theorem isResolved_of_resolved (h : resolved p = .ok q) : IsResolved q := by
  cases checked : p.parts.mapM checkName with
  | error e =>
    simp [resolved, checked, bind, Except.bind, discard, Functor.discard, Functor.mapConst,
      Except.map] at h
  | ok names =>
    obtain rfl : p.resolve = q := by
      simpa [resolved, checked, bind, Except.bind, discard, Functor.discard, Functor.mapConst,
        Except.map, pure, Except.pure] using h
    have text : ∀ part ∈ p.resolve.parts, ∃ name, ofText name = part ∧ part ≠ Path.up := by
      intro part mem
      rcases mem_resolveParts mem with done | ⟨mem, notUp⟩
      · simp at done
      · obtain ⟨name, eq⟩ := exists_ofText_of_checkName checked mem
        exact ⟨name, eq, notUp⟩
    refine ⟨rfl, ?_, ?_⟩
    · rw [Path.names, List.map_map]
      refine (List.map_id _).symm.trans (List.map_congr_left ?_)
      intro part mem
      obtain ⟨name, rfl, -⟩ := text part mem
      rw [id_eq, Function.comp_apply, view_ofText]
    · intro name mem up
      obtain ⟨part, hpart, rfl⟩ := List.mem_map.1 mem
      obtain ⟨name, rfl, notUp⟩ := text part hpart
      rw [view_ofText] at up
      exact notUp (by rw [up, Path.up])

theorem resolve_of_ne (anchor : p.anchor = ['/']) (h : ∀ part ∈ p.parts, part ≠ Path.up) :
    p.resolve = p := by
  rw [Path.resolve, resolveParts_of_ne h, ← anchor]
  rfl

theorem resolve_of_isResolved (h : IsResolved p) : p.resolve = p := by
  refine resolve_of_ne h.anchor fun part mem up => ?_
  refine h.noUp part.view (List.mem_map_of_mem mem) ?_
  rw [up, Path.up, view_ofText]

theorem resolve_resolve (p : Path) : p.resolve.resolve = p.resolve := by
  refine resolve_of_ne rfl fun part mem => ?_
  rcases mem_resolveParts mem with done | ⟨-, notUp⟩
  · simp at done
  · exact notUp

/-! ## The address of a source -/

theorem address_of_isResolved (h : IsResolved p) : address p = p.names :=
  foldl_follow h.noUp []

/-- A path of names that an entry can have is gone down one by one. -/
theorem address_ofNames {names : List Text} (noUp : ∀ name ∈ names, name ≠ ['.', '.']) :
    address ⟨['/'], names.map ofText⟩ = names := by
  have shown : Path.names ⟨['/'], names.map ofText⟩ = names := by
    simp [Path.names, Function.comp_def]
  rw [address, shown]
  exact foldl_follow noUp []

variable {names place : List Text}

/-- A path that is read from names leads down from the root. -/
theorem child_join (root : Path) (proper : ∀ name ∈ names, ProperName name) :
    root.child (ofText (join ['/'] names)) = ⟨root.anchor, root.parts ++ names.map ofText⟩ := by
  have relative : (Path.ofMessage (ofText (join ['/'] names))).isAbsolute = false := by
    simp [Path.isAbsolute, Path.ofMessage, anchorOf_join proper]
  show Path.append _ _ = _
  rw [Path.append, relative, if_neg Bool.false_ne_true, Path.ofMessage, partsOf_join proper]

/-- A path that is read from names after a slash leads down from the root of the tree. -/
theorem child_slash (root : Path) (proper : ∀ name ∈ names, ProperName name) :
    root.child (ofText ('/' :: join ['/'] names)) = ⟨['/'], names.map ofText⟩ := by
  have anchor : Path.anchorOf ('/' :: join ['/'] names) = ['/'] := by
    have front := anchorOf_join proper
    unfold Path.anchorOf at front ⊢
    split <;> simp_all
  show Path.append _ _ = _
  rw [Path.append, if_pos (by simp [Path.isAbsolute, Path.ofMessage, anchor]), Path.ofMessage,
    partsOf_slash_join proper, view_ofText, anchor]

theorem address_child_slash (root : Path) (proper : ∀ name ∈ names, ProperName name) :
    address (root.child (ofText ('/' :: join ['/'] names))) = names := by
  rw [child_slash root proper]
  exact address_ofNames fun name mem => (proper name mem).notUp

variable (h : IsResolved root)
include h

theorem address_child_join (proper : ∀ name ∈ names, ProperName name) :
    address (root.child (ofText (join ['/'] names))) = root.names ++ names := by
  rw [child_join root proper, h.anchor, h.texts, ← List.map_append]
  refine address_ofNames fun name mem => ?_
  rcases List.mem_append.1 mem with mem | mem
  · exact h.noUp name mem
  · exact (proper name mem).notUp

/-- **The path of a place is that of its names.** -/
theorem child_placeText (proper : ∀ name ∈ place, ProperName name) :
    root.child (ofText (placeText root.names place)) = ⟨['/'], place.map ofText⟩ := by
  unfold placeText
  split
  next below =>
    obtain ⟨rest, rfl⟩ := List.isPrefixOf_iff_prefix.1 below
    rw [List.drop_left, child_join root fun name mem => proper name (List.mem_append_right _ mem),
      List.map_append, ← h.texts, h.anchor]
  next => exact child_slash root proper

/-- **The path of a place leads back to it.** -/
theorem address_child_placeText (proper : ∀ name ∈ place, ProperName name) :
    address (root.child (ofText (placeText root.names place))) = place := by
  rw [child_placeText h proper]
  exact address_ofNames fun name mem => (proper name mem).notUp

omit h in
theorem child_nil (root : Path) : root.child (ofText []) = root := by
  have empty : Path.ofMessage (ofText []) = ⟨[], []⟩ := rfl
  unfold Path.child
  rw [empty]
  exact congrArg (Path.mk root.anchor) (List.append_nil _)

/-- The full path of the root leads to the root. -/
theorem toText_of_isResolved : root.toText = '/' :: join ['/'] root.names := by
  have notEmpty : (root.anchor.isEmpty && root.parts.isEmpty) = false := by simp [h.anchor]
  rw [Path.toText, Path.toMessage, notEmpty, h.anchor, h.texts, ← ofText_join]
  exact view_ofText ('/' :: join ['/'] root.names)

end

end Localizer.Workspace
