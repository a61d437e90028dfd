import Localizer.Dart.AppRoot
import Mathlib.Data.List.TakeWhile

/-!
# App root calls

The head of an app root call is a class, possibly with its variant, blanks and a bracket
(`AppRootHead`). It is read off the front of a text whatever follows it (`appRootHead_of_eq_some`,
`AppRootHead.read`), so that the search stops at the first head that stands behind no word
character: what it finds is one (`findAppRoot_eq_some`), it finds something wherever there is one
(`isSome_findAppRoot`), and there is none before it (`length_le_of_findAppRoot`). So the app root of
a buffer is its first call (`IsAppRoot`, `firstAppRoot_of_eq_some`).
-/

namespace Localizer.Dart

open Text

/-- The head of an app root call. -/
inductive AppRootHead : Text → Prop
  | mk {name variant gap : Text} (known : name ∈ appRootClasses)
    (form : variant = [] ∨ variant = ".router".toList) (blank : ∀ c ∈ gap, isBlank c = true) :
    AppRootHead (name ++ variant ++ gap ++ ['('])

/-- The class at the front of a text is found, since neither name starts with the other. -/
theorem findSome?_class {name : Text} (known : name ∈ appRootClasses) (r : Text) :
    (appRootClasses.findSome? fun n => (after? n (name ++ r)).map (n, ·)) = some (name, r) := by
  have front (n : Text) : after? n (n ++ r) = some r := after?_eq_some_iff.2 rfl
  obtain rfl | rfl : name = "MaterialApp".toList ∨ name = "CupertinoApp".toList := by
    simpa [appRootClasses] using known
  · rw [appRootClasses, List.findSome?_cons, front]
    rfl
  · have other : after? "MaterialApp".toList ("CupertinoApp".toList ++ r) = none := rfl
    rw [appRootClasses, List.findSome?_cons, other, Option.map_none, List.findSome?_cons, front]
    rfl

/-- Blanks and a bracket do not start the variant. -/
theorem after?_router_gap {gap : Text} (blank : ∀ c ∈ gap, isBlank c = true) (rest : Text) :
    after? ".router".toList (gap ++ '(' :: rest) = none := by
  cases gap with
  | nil => rfl
  | cons c gap =>
    have differs : '.' ≠ c := by
      rintro rfl
      have solid : isBlank '.' = false := by decide +kernel
      rw [blank '.' (by simp)] at solid
      contradiction
    exact if_neg differs

/-- What is read behind a class and its variant is blanks and a bracket. -/
theorem eq_of_bracket {front r head rest : Text} (h : (match r.dropWhile isBlank with
      | '(' :: rest => some (front ++ r.takeWhile isBlank ++ ['('], rest)
      | _ => none) = some (head, rest)) :
    head = front ++ r.takeWhile isBlank ++ ['('] ∧ r = r.takeWhile isBlank ++ '(' :: rest := by
  split at h
  next rest' call =>
    obtain ⟨rfl, rfl⟩ := Prod.mk.inj (Option.some.inj h)
    refine ⟨rfl, ?_⟩
    rw [← call, List.takeWhile_append_dropWhile]
  next => simp at h

/-- What is read is a head, and the rest follows it. -/
theorem appRootHead_of_eq_some {s head rest : Text} (h : appRootHead? s = some (head, rest)) :
    AppRootHead head ∧ s = head ++ rest := by
  unfold appRootHead? at h
  obtain ⟨⟨name, r⟩, found, h⟩ := Option.bind_eq_some_iff.1 h
  obtain ⟨name', known, found⟩ := List.exists_of_findSome?_eq_some found
  obtain ⟨r', after, eq⟩ := Option.map_eq_some_iff.1 found
  obtain ⟨rfl, rfl⟩ := Prod.mk.inj eq
  rw [after?_eq_some_iff] at after
  obtain ⟨variant, r, rfl, form, rfl, split⟩ : ∃ variant r, r' = variant ++ r ∧
      (variant = [] ∨ variant = ".router".toList) ∧
      head = name' ++ variant ++ r.takeWhile isBlank ++ ['('] ∧
      r = r.takeWhile isBlank ++ '(' :: rest := by
    dsimp only at h
    cases found : after? ".router".toList r' with
    | some r =>
      rw [found] at h
      exact ⟨_, r, after?_eq_some_iff.1 found, .inr rfl, eq_of_bracket h⟩
    | none =>
      rw [found] at h
      exact ⟨[], r', rfl, .inl rfl, eq_of_bracket h⟩
  refine ⟨.mk known form fun _ hc => List.mem_takeWhile_imp hc, ?_⟩
  have whole : s = name' ++ (variant ++ (r.takeWhile isBlank ++ '(' :: rest)) := by
    rw [after, ← split]
  simp [whole]

/-- A head is read, whatever follows it. -/
theorem AppRootHead.read {head : Text} (h : AppRootHead head) (rest : Text) :
    appRootHead? (head ++ rest) = some (head, rest) := by
  obtain ⟨known, form, blank⟩ := h
  rename_i name variant gap
  have solid : isBlank '(' = false := by decide +kernel
  have dropped : (gap ++ '(' :: rest).dropWhile isBlank = '(' :: rest := by
    rw [List.dropWhile_append_of_pos blank, List.dropWhile_cons_of_neg (by simp [solid])]
  have taken : (gap ++ '(' :: rest).takeWhile isBlank = gap := by
    rw [List.takeWhile_append_of_pos blank, List.takeWhile_cons_of_neg (by simp [solid]),
      List.append_nil]
  have split : name ++ variant ++ gap ++ ['('] ++ rest =
      name ++ (variant ++ (gap ++ '(' :: rest)) := by
    simp
  unfold appRootHead?
  rw [split, findSome?_class known, Option.bind_some]
  dsimp only
  rcases form with rfl | rfl
  · rw [List.nil_append, after?_router_gap blank]
    simp only [dropped, taken]
  · rw [after?_eq_some_iff.2 rfl]
    simp only [dropped, taken]

/-- What the search finds is the head of a call. -/
theorem findAppRoot_eq_some {before s a head rest : Text}
    (h : findAppRoot before s = some (a, head, rest)) :
    AppRootHead head ∧ atBoundary (a.reverse ++ before) = true ∧ s = a ++ (head ++ rest) := by
  induction s generalizing before a with
  | nil => simp [findAppRoot] at h
  | cons c r ih =>
    rw [findAppRoot] at h
    split at h
    next found =>
      obtain ⟨rfl, rfl, rfl⟩ : [] = a ∧ _ = head ∧ _ = rest := by simpa using h
      split at found
      next boundary =>
        obtain ⟨isHead, whole⟩ := appRootHead_of_eq_some found
        exact ⟨isHead, boundary, whole⟩
      next => simp at found
    next =>
      obtain ⟨⟨a', head', rest'⟩, found, eq⟩ := Option.map_eq_some_iff.1 h
      obtain ⟨rfl, rfl, rfl⟩ : c :: a' = a ∧ head' = head ∧ rest' = rest := by simpa using eq
      obtain ⟨isHead, boundary, rfl⟩ := ih found
      exact ⟨isHead, by simpa using boundary, rfl⟩

/-- Wherever the head of a call stands behind no word character, the search finds one. -/
theorem isSome_findAppRoot {before a head : Text} (isHead : AppRootHead head)
    (boundary : atBoundary (a.reverse ++ before) = true) (rest : Text) :
    (findAppRoot before (a ++ (head ++ rest))).isSome = true := by
  induction a generalizing before with
  | nil =>
    have here : atBoundary before = true := boundary
    have read := isHead.read rest
    obtain ⟨c, r, whole⟩ : ∃ c r, head ++ rest = c :: r := by
      cases isHead
      exact List.exists_cons_of_ne_nil (by simp)
    rw [whole] at read
    rw [List.nil_append, whole, findAppRoot, if_pos here, read]
    rfl
  | cons c a ih =>
    have later : (findAppRoot (c :: before) (a ++ (head ++ rest))).isSome = true :=
      ih (by simpa using boundary)
    rw [List.cons_append, findAppRoot]
    split
    next => rfl
    next => rwa [Option.isSome_map]

/-- What the search finds comes first. -/
theorem length_le_of_findAppRoot {before s a head rest a' head' rest' : Text}
    (found : findAppRoot before s = some (a, head, rest)) (isHead : AppRootHead head')
    (boundary : atBoundary (a'.reverse ++ before) = true) (split : s = a' ++ (head' ++ rest')) :
    a.length ≤ a'.length := by
  induction a' generalizing before s a head rest with
  | nil =>
    have here : atBoundary before = true := boundary
    have read := isHead.read rest'
    obtain ⟨c, r, whole⟩ : ∃ c r, head' ++ rest' = c :: r := by
      cases isHead
      exact List.exists_cons_of_ne_nil (by simp)
    rw [whole] at read
    rw [split, List.nil_append, whole, findAppRoot, if_pos here, read] at found
    obtain ⟨rfl, -⟩ := Prod.mk.inj (Option.some.inj found)
    exact Nat.zero_le _
  | cons c a' ih =>
    rw [split, List.cons_append, findAppRoot] at found
    split at found
    next =>
      obtain ⟨rfl, -⟩ := Prod.mk.inj (Option.some.inj found)
      exact Nat.zero_le _
    next =>
      obtain ⟨⟨a, head, rest⟩, later, eq⟩ := Option.map_eq_some_iff.1 found
      obtain ⟨rfl, -⟩ := Prod.mk.inj eq
      exact Nat.succ_le_succ (ih later (by simpa using boundary) rfl)

/-- An app root call of a buffer: the head of one that stands behind no word character. -/
structure IsAppRoot (s before head rest : Text) : Prop where
  isHead : AppRootHead head
  boundary : atBoundary before.reverse = true
  split : s = before ++ (head ++ rest)

/-- The first app root call of a buffer. -/
structure FirstAppRoot (s before head rest : Text) : Prop extends IsAppRoot s before head rest where
  first : ∀ before' head' rest', IsAppRoot s before' head' rest' → before.length ≤ before'.length

theorem firstAppRoot_of_eq_some {s before head rest : Text}
    (h : appRoot? s = some (before, head, rest)) : FirstAppRoot s before head rest := by
  obtain ⟨isHead, boundary, split⟩ := findAppRoot_eq_some h
  rw [List.append_nil] at boundary
  refine ⟨⟨isHead, boundary, split⟩, fun before' head' rest' other => ?_⟩
  exact length_le_of_findAppRoot h other.isHead (by rw [List.append_nil]; exact other.boundary)
    other.split

theorem not_isAppRoot_of_eq_none {s : Text} (h : appRoot? s = none) (before head rest : Text) :
    ¬ IsAppRoot s before head rest := by
  rintro ⟨isHead, boundary, rfl⟩
  have found : (appRoot? (before ++ (head ++ rest))).isSome = true :=
    isSome_findAppRoot isHead (by rw [List.append_nil]; exact boundary) rest
  rw [h] at found
  exact Bool.false_ne_true found

end Localizer.Dart
