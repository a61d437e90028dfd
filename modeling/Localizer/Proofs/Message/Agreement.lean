import Localizer.Proofs.Message.Fragment
import Localizer.Proofs.Text.Runs

/-!
# Templates and keys agree on the markers

The template of a text and the text from which its key is made come from the same two readings, but
the second reading does not read the same text: what stands there for a group is its name in braces
for the one, and a blank for the other. As long as what is put in is inert, the words that are read
are those of the text itself. So there is one way of cutting the text into fragments from which both
readings follow, whatever is put in for a group (`exists_cuts`). In a simple template all names
are identifiers, and a name in braces is inert as a blank is; hence the template and the key's text
are two renderings of the same fragments (`Template.exists_fragments_of_simple`).
-/

namespace Localizer.Message

open Text

namespace Fragment

/-- A blank for a marker, and all else as it stands. -/
def spaced : Fragment → Text
  | plain t => t
  | group _ _ _ => [' ']
  | word _ => [' ']
  | amount w => '$' :: w

/-- What the reading of words makes of a fragment when `write` tells what stands for its group. -/
def wordsBy (write : Piece → Text) : Fragment → List Piece
  | group _ name _ => (write (.marker name)).map .plain
  | word name => [.marker name]
  | x => x.text.map .plain

/-- Around the name in a group there are only blanks. -/
def IsPadded : Fragment → Prop
  | group left _ right => (∀ c ∈ left, isBlank c = true) ∧ ∀ c ∈ right, isBlank c = true
  | _ => True

theorem wordsBy_placeholder : wordsBy Piece.placeholder = words := by
  funext x
  cases x <;> rfl

theorem flatMap_spaced_wordsBy (xs : List Fragment) :
    (xs.flatMap (wordsBy Piece.spaced)).flatMap Piece.spaced = xs.flatMap spaced := by
  have single (x : Fragment) : (x.wordsBy Piece.spaced).flatMap Piece.spaced = x.spaced := by
    cases x <;> simp [wordsBy, spaced, text, List.flatMap_map, Piece.spaced]
  simp only [List.flatMap_assoc, single]

end Fragment

/-! ## Fragments of a text -/

/-- Fragments that make up a text without groups and tell its words, which are among `ps`. -/
structure WordsOf (t : Text) (ps : List Piece) (xs : List Fragment) : Prop where
  text : textOf xs = t
  padded : ∀ x ∈ xs, x.IsPadded
  ungrouped : groupedNames xs = []
  words : ∀ write, ps = xs.flatMap (Fragment.wordsBy write)

theorem WordsOf.cons {x : Fragment} {p : Piece} {t : Text} {ps : List Piece} {xs : List Fragment}
    (ungrouped : x.grouped? = none) (padded : x.IsPadded) (read : ∀ write, x.wordsBy write = [p])
    (h : WordsOf t ps xs) : WordsOf (x.text ++ t) (p :: ps) (x :: xs) where
  text := by rw [textOf, List.flatMap_cons, ← textOf, h.text]
  padded := List.forall_mem_cons.2 ⟨padded, h.padded⟩
  ungrouped := by rw [groupedNames, List.filterMap_cons, ungrouped, ← groupedNames, h.ungrouped]
  words write := by rw [List.flatMap_cons, read, ← h.words, List.singleton_append]

/-- A text without groups is made up of its words and the characters between them. -/
theorem exists_wordsOf (before : Option Char) (t : Text) :
    ∃ xs, WordsOf t (wordPieces before t) xs := by
  fun_induction wordPieces before t with
  | case1 => exact ⟨[], rfl, by simp, rfl, by simp⟩
  | case2 before r w rest h _ ih =>
    have allows : allowsSign before = true := by
      by_contra h'
      simp [h'] at h
    simp only [allows, dite_true] at h
    obtain ⟨rfl, -⟩ := eq_of_wordName? h
    obtain ⟨xs, ih⟩ := ih
    exact ⟨_, ih.cons (x := .word w) rfl trivial fun _ => rfl⟩
  | case3 before r _ ih =>
    obtain ⟨xs, ih⟩ := ih
    exact ⟨_, ih.cons (x := .plain ['$']) rfl trivial fun _ => rfl⟩
  | case4 before c r _ ih =>
    obtain ⟨xs, ih⟩ := ih
    exact ⟨_, ih.cons (x := .plain [c]) rfl trivial fun _ => rfl⟩

/-- Fragments that make up a text, of which `ps` are the groups, behind the characters `run` since
the last group, the nearest first. They tell the groups; and they tell the words, whatever inert
text is put in for the groups. -/
structure Cuts (run s : Text) (ps : List Piece) (xs : List Fragment) : Prop where
  text : textOf xs = run.reverse ++ s
  padded : ∀ x ∈ xs, x.IsPadded
  groups : groupedNames xs = ps.filterMap Piece.name?
  words : ∀ write : Piece → Text, (∀ c, write (.plain c) = [c]) →
    (∀ name, .marker name ∈ ps → Inert (write (.marker name))) →
      wordPieces none (run.reverse ++ ps.flatMap write) = xs.flatMap (Fragment.wordsBy write)

/-- A character that starts no group joins the run. -/
theorem Cuts.plain {run r : Text} {c : Char} {ps : List Piece} {xs : List Fragment}
    (h : Cuts (c :: run) r ps xs) : Cuts run (c :: r) (.plain c :: ps) xs where
  text := by simp [h.text]
  padded := h.padded
  groups := by rw [h.groups, List.filterMap_cons_none rfl]
  words write plain inert := by
    have read := h.words write plain fun name mem => inert name (List.mem_cons_of_mem _ mem)
    simpa [plain] using read

/-- A group ends the run. -/
theorem Cuts.group {run left name right s : Text} {ps : List Piece} {front xs : List Fragment}
    (before : WordsOf run.reverse (wordPieces none run.reverse) front)
    (padded : (Fragment.group left name right).IsPadded) (behind : Cuts [] s ps xs) :
    Cuts run ((Fragment.group left name right).text ++ s) (.marker name :: ps)
      (front ++ .group left name right :: xs) where
  text := by
    rw [textOf, List.flatMap_append, List.flatMap_cons, ← textOf, ← textOf, before.text,
      behind.text]
    rfl
  padded := List.forall_mem_append.2 ⟨before.padded, List.forall_mem_cons.2 ⟨padded, behind.padded⟩⟩
  groups := by
    have ungrouped : front.filterMap Fragment.grouped? = [] := before.ungrouped
    have names : xs.filterMap Fragment.grouped? = ps.filterMap Piece.name? := behind.groups
    rw [groupedNames, List.filterMap_append, ungrouped, List.nil_append, List.filterMap_cons,
      List.filterMap_cons, names]
    rfl
  words write plain inert := by
    have later := behind.words write plain fun m mem => inert m (List.mem_cons_of_mem _ mem)
    rw [List.reverse_nil, List.nil_append] at later
    rw [List.flatMap_cons, wordPieces_inert (inert name List.mem_cons_self), later,
      before.words write, List.flatMap_append, List.flatMap_cons]
    rfl

/-- **One cutting for all readings.** -/
theorem exists_cuts (before : Option Char) (run s : Text) :
    ∃ xs, Cuts run s (groupPieces before s) xs := by
  fun_induction groupPieces before s generalizing run with
  | case1 =>
    obtain ⟨xs, h⟩ := exists_wordsOf none run.reverse
    refine ⟨xs, by simpa using h.text, h.padded, h.ungrouped, ?_⟩
    intro write _ _
    simpa using h.words write
  | case2 before r e rest h _ ih =>
    have escape : before ≠ some '\\' := by
      intro h'
      simp [h'] at h
    simp only [escape, dite_false] at h
    obtain ⟨rfl, -, -⟩ := expression?_eq_some_iff.1 h
    obtain ⟨left, right, around, padded⟩ := exists_strip e
    obtain ⟨front, words⟩ := exists_wordsOf none run.reverse
    obtain ⟨xs, behind⟩ := ih []
    refine ⟨front ++ .group left (strip e) right :: xs, ?_⟩
    have cut : Cuts run _ _ (front ++ .group left (strip e) right :: xs) :=
      .group words padded behind
    rw [Fragment.text, ← around] at cut
    simpa using cut
  | case3 before r _ ih =>
    obtain ⟨xs, h⟩ := ih ('$' :: run)
    exact ⟨xs, h.plain⟩
  | case4 before c r _ ih =>
    obtain ⟨xs, h⟩ := ih (c :: run)
    exact ⟨xs, h.plain⟩

/-! ## Two renderings -/

theorem inert_blank : Inert [' '] := by
  refine ⟨by decide, ⟨' ', [], rfl, by decide +kernel⟩, ' ', rfl, by decide +kernel⟩

/-- Fragments without a marker are their text. -/
theorem flatMap_spaced_of_unmarked {xs : List Fragment} (h : ∀ x ∈ xs, x.isMarker = false) :
    xs.flatMap Fragment.spaced = textOf xs := by
  have same (x : Fragment) (hx : x ∈ xs) : x.spaced = x.text := by
    have unmarked := h x hx
    cases x with
    | plain | amount => rfl
    | group | word => simp [Fragment.isMarker] at unmarked
  rw [textOf, List.flatMap_def, List.flatMap_def, List.map_congr_left same]

/-- **Templates and keys agree on the markers.** A text with a simple template is made up of
fragments of which the template is one rendering, with each marker's name in braces, and the text
that makes its key another, with a blank for each marker. The variables are the names of the
markers, those of groups first, each of them once. A text without variables is the text that makes
its key. -/
theorem Template.exists_fragments_of_simple {s : Text} (simple : (Template.of s).isSimple = true) :
    (∃ xs : List Fragment, textOf xs = s ∧ (∀ x ∈ xs, x.IsPadded) ∧
      (Template.of s).text = xs.flatMap Fragment.placeholder ∧
      stripMarkers s = xs.flatMap Fragment.spaced ∧
      (Template.of s).names = (groupedNames xs ++ signedNames xs).eraseDups) ∧
    ((Template.of s).hasVariables = false → stripMarkers s = s) := by
  obtain ⟨xs, text, padded, grouped, words⟩ := exists_cuts none [] s
  simp only [List.reverse_nil, List.nil_append] at text words
  have named := words Piece.placeholder (fun _ => rfl) fun name mem =>
    inert_placeholder (isIdentifier_of_mem_groupPieces simple mem)
  rw [Fragment.wordsBy_placeholder] at named
  have spaced := words Piece.spaced (fun _ => rfl) fun _ _ => inert_blank
  have key : stripMarkers s = xs.flatMap Fragment.spaced := by
    rw [stripMarkers, spaced, Fragment.flatMap_spaced_wordsBy]
  have names : (Template.of s).names = (groupedNames xs ++ signedNames xs).eraseDups := by
    simp only [Template.of]
    rw [named, List.filterMap_append, filterMap_name?_words, grouped]
  refine ⟨⟨xs, text, padded, ?_, key, names⟩, ?_⟩
  · simp only [Template.of]
    rw [named, flatMap_placeholder_words]
  · intro bare
    have unnamed (name : Text) : name ∉ (Template.of s).names := by
      intro mem
      rw [Template.hasVariables_iff.2 ⟨name, mem⟩] at bare
      contradiction
    rw [key, flatMap_spaced_of_unmarked, text]
    intro x hx
    rw [Bool.eq_false_iff, Ne, Fragment.isMarker_iff]
    rintro ⟨name, marks⟩
    refine unnamed name ?_
    rw [names, List.mem_eraseDups, Message.mem_names_iff]
    exact ⟨x, hx, marks⟩

/-- A group with blanks and words next to one another, a sign before a group, an amount, and a word
behind a backslash. -/
def receipt : Text := "$${ total }$unit of $50k, \\$tax".toList

theorem Template.exists_fragments_of_simple_receipt : (Template.of receipt).isSimple = true ∧
    (∃ xs : List Fragment, textOf xs = receipt ∧ (∀ x ∈ xs, x.IsPadded) ∧
      (Template.of receipt).text = xs.flatMap Fragment.placeholder ∧
      stripMarkers receipt = xs.flatMap Fragment.spaced ∧
      (Template.of receipt).names = (groupedNames xs ++ signedNames xs).eraseDups) ∧
    ((Template.of receipt).hasVariables = false → stripMarkers receipt = receipt) := by
  have simple : (Template.of receipt).isSimple = true := by decide +kernel
  exact ⟨simple, exists_fragments_of_simple simple⟩

end Localizer.Message
