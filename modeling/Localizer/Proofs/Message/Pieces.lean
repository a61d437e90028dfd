import Localizer.Proofs.Message.Interpolation

/-!
# One segmentation of a text

The second reading of a text reads what the first has put in for its groups. As long as nothing is put in
that holds a sign or that a word could run into (`Inert`), the words that it finds are those between the
groups (`wordPieces_inert`); so both readings come to one segmentation (`pieces`), whatever is put in.
Where the template of a text is simple, it has the placeholders of this segmentation and names its markers
(`text_of_simple`, `mem_names_iff_of_simple`). No marker follows a backslash (`unmarked_pieces`).
-/

namespace Localizer.Message

open Text

/-- The pieces of a text whose groups were read: the words in each run of characters between groups are
read, too. `run` has the characters since the last group, the nearest first. -/
def readRuns (run : Text) : List Piece → List Piece
  | [] => wordPieces none run.reverse
  | .plain c :: ps => readRuns (c :: run) ps
  | .marker name :: ps => wordPieces none run.reverse ++ .marker name :: readRuns [] ps

/-- The pieces of a text: its groups, and the words between them. -/
def pieces (s : Text) : List Piece := readRuns [] (groupPieces none s)

/-! ## What is put in for a marker -/

/-- A text that the reading of words passes over, whatever stands around it. -/
structure Inert (t : Text) : Prop where
  unsigned : '$' ∉ t
  starts : ∃ c r, t = c :: r ∧ isWord c = false
  ends : ∃ c, t.getLast? = some c ∧ allowsSign (some c) = true

/-- A text without a sign is its own pieces. -/
theorem wordPieces_plain {v : Text} (h : '$' ∉ v) (before : Option Char) (r : Text) :
    wordPieces before (v ++ r) = v.map .plain ++ wordPieces (v.getLast?.or before) r := by
  induction v generalizing before with
  | nil => rfl
  | cons c v ih =>
    simp only [List.mem_cons, not_or] at h
    rw [List.cons_append, wordPieces_cons fun eq => h.1 eq.symm, ih h.2, getLast?_cons_eq_or]
    simp

/-- A sign may come first in a text as well as behind a character that allows it. -/
theorem wordPieces_of_allowsSign {before : Option Char} (h : allowsSign before = true) (s : Text) :
    wordPieces before s = wordPieces none s := by
  have first : allowsSign none = true := rfl
  cases s with
  | nil => simp [wordPieces]
  | cons c r =>
    by_cases sign : c = '$'
    · subst sign
      cases hw : wordName? r with
      | none => rw [wordPieces_sign (.inr hw), wordPieces_sign (.inr hw)]
      | some w => rw [wordPieces_word h hw, wordPieces_word first hw]
    · rw [wordPieces_cons sign, wordPieces_cons sign]

/-- Words are read before and behind an inert text as if it was not there. -/
theorem wordPieces_inert {t : Text} (h : Inert t) (before : Option Char) (a b : Text) :
    wordPieces before (a ++ (t ++ b)) =
      wordPieces before a ++ (t.map .plain ++ wordPieces none b) := by
  obtain ⟨c, r, eq, stop⟩ := h.starts
  obtain ⟨d, last, allows⟩ := h.ends
  have first : a ++ (t ++ b) = a ++ c :: (r ++ b) := by
    rw [eq, List.cons_append]
  have whole : c :: (r ++ b) = t ++ b := by
    rw [eq, List.cons_append]
  rw [first, wordPieces_append stop, whole, wordPieces_plain h.unsigned, last, Option.some_or,
    wordPieces_of_allowsSign allows]

theorem flatMap_map_plain {write : Piece → Text} (plain : ∀ c, write (.plain c) = [c]) (t : Text) :
    (t.map Piece.plain).flatMap write = t := by
  simp [List.flatMap_map, plain]

/-- **Both readings come to the same pieces**, when what is written for the groups is inert. -/
theorem readRuns_spec {write : Piece → Text} (plain : ∀ c, write (.plain c) = [c])
    {ps : List Piece} (inert : ∀ name, .marker name ∈ ps → Inert (write (.marker name)))
    (run : Text) :
    (wordPieces none (run.reverse ++ ps.flatMap write)).flatMap write =
        (readRuns run ps).flatMap write ∧
      ∀ name, .marker name ∈ readRuns run ps ↔
        .marker name ∈ ps ∨ .marker name ∈ wordPieces none (run.reverse ++ ps.flatMap write) := by
  induction ps generalizing run with
  | nil => simp [readRuns]
  | cons p ps ih =>
    have later := ih fun name mem => inert name (by simp [mem])
    cases p with
    | plain c =>
      have next : run.reverse ++ (.plain c :: ps).flatMap write =
          (c :: run).reverse ++ ps.flatMap write := by
        simp [plain]
      rw [next, readRuns]
      simpa using later (c :: run)
    | marker name =>
      obtain ⟨text, names⟩ := later []
      have split := wordPieces_inert (inert name (by simp)) none run.reverse (ps.flatMap write)
      rw [List.reverse_nil, List.nil_append] at text names
      rw [List.flatMap_cons, split, readRuns]
      refine ⟨?_, ?_⟩
      · simp only [List.flatMap_append, List.flatMap_cons, flatMap_map_plain plain, text]
      · intro m
        simp only [List.mem_append, List.mem_cons, names, List.mem_map, reduceCtorEq, and_false,
          exists_false, false_or]
        simp only [or_assoc, or_left_comm]

/-! ## Simple templates -/

theorem isWord_of_isIdentifier {name : Text} (h : isIdentifier name = true) :
    ∀ c ∈ name, isWord c = true := by
  cases name with
  | nil => simp
  | cons c r =>
    simp only [isIdentifier, Bool.and_eq_true, List.all_eq_true] at h
    intro d hd
    rcases List.mem_cons.1 hd with rfl | hd
    · exact isWord_of_isPlain (isPlain_of_first h.1)
    · exact h.2 d hd

theorem inert_placeholder {name : Text} (h : isIdentifier name = true) :
    Inert (Piece.marker name).placeholder := by
  refine ⟨?_, ⟨'{', name ++ ['}'], rfl, isWord_brace⟩, '}', ?_, by decide +kernel⟩
  · have unsigned := sign_not_mem_of_isIdentifier h
    simp [Piece.placeholder, unsigned]
  · simp [Piece.placeholder, List.getLast?_cons]

section

variable {s : Text} (simple : (Template.of s).isSimple = true)
include simple

theorem isIdentifier_of_mem_groupPieces {name : Text} (mem : .marker name ∈ groupPieces none s) :
    isIdentifier name = true :=
  List.all_eq_true.1 simple name (Template.mem_names_iff.2 (.inl mem))

/-- The groups of a simple template are identifiers, so what is put in for them is inert. -/
theorem readRuns_of_simple :
    (wordPieces none ((groupPieces none s).flatMap Piece.placeholder)).flatMap Piece.placeholder =
        (pieces s).flatMap Piece.placeholder ∧
      ∀ name, .marker name ∈ pieces s ↔ .marker name ∈ groupPieces none s ∨
        .marker name ∈ wordPieces none ((groupPieces none s).flatMap Piece.placeholder) := by
  have inert (name : Text) (mem : .marker name ∈ groupPieces none s) :
      Inert (Piece.marker name).placeholder :=
    inert_placeholder (isIdentifier_of_mem_groupPieces simple mem)
  exact readRuns_spec (fun _ => rfl) inert []

/-- The text of a simple template has the placeholders of the pieces. -/
theorem text_of_simple : (Template.of s).text = (pieces s).flatMap Piece.placeholder :=
  (readRuns_of_simple simple).1

/-- The names of a simple template are those of the markers. -/
theorem mem_names_iff_of_simple {name : Text} :
    name ∈ (Template.of s).names ↔ .marker name ∈ pieces s := by
  rw [Template.mem_names_iff, (readRuns_of_simple simple).2]

theorem isIdentifier_of_mem_pieces {name : Text} (mem : .marker name ∈ pieces s) :
    isIdentifier name = true :=
  List.all_eq_true.1 simple name ((mem_names_iff_of_simple simple).2 mem)

end

/-! ## Markers and backslashes -/

/-- No marker follows a backslash among pieces behind the character `before`. -/
def Unmarked (before : Option Char) : List Piece → Prop
  | [] => True
  | .plain c :: ps => Unmarked (some c) ps
  | .marker _ :: ps => before ≠ some '\\' ∧ Unmarked none ps

theorem Unmarked.of_ne {before before' : Option Char} {ps : List Piece} (h : Unmarked before ps)
    (ne : before' ≠ some '\\') : Unmarked before' ps := by
  cases ps with
  | nil => trivial
  | cons p ps =>
    cases p with
    | plain c => exact h
    | marker name => exact ⟨ne, h.2⟩

theorem unmarked_groupPieces (before : Option Char) (s : Text) :
    Unmarked before (groupPieces before s) := by
  fun_induction groupPieces before s with
  | case1 => trivial
  | case2 before r e rest h _ ih =>
    refine ⟨?_, ih.of_ne (by simp)⟩
    rintro rfl
    simp at h
  | case3 _ _ _ ih => exact ih
  | case4 _ _ _ _ ih => exact ih

theorem ne_of_allowsSign {before : Option Char} (h : allowsSign before = true) :
    before ≠ some '\\' := by
  rintro rfl
  simp [allowsSign] at h

/-- The words of a text follow no backslash, and what comes behind it does not if it did not. -/
theorem unmarked_wordPieces_append {before : Option Char} {a : Text} {ps : List Piece}
    (h : Unmarked (a.getLast?.or before) ps) : Unmarked before (wordPieces before a ++ ps) := by
  fun_induction wordPieces before a with
  | case1 => simpa using h
  | case2 before r w rest hw _ ih =>
    have allows : allowsSign before = true := by
      by_contra h'
      simp [h'] at hw
    simp only [allows, dite_true] at hw
    obtain ⟨rfl, filled⟩ := eq_of_wordName? hw
    have last : ('$' :: (w ++ rest)).getLast?.or before = rest.getLast?.or w.getLast? := by
      obtain ⟨c, hc⟩ := Option.ne_none_iff_exists'.1 (mt List.getLast?_eq_none_iff.1 filled)
      rw [getLast?_cons_eq_or, List.getLast?_append, hc]
      simp
    rw [last] at h
    exact ⟨ne_of_allowsSign allows, (ih h).of_ne (by simp)⟩
  | case3 before r _ ih =>
    rw [getLast?_cons_eq_or, Option.or_assoc, Option.some_or] at h
    exact ih h
  | case4 before c r _ ih =>
    rw [getLast?_cons_eq_or, Option.or_assoc, Option.some_or] at h
    exact ih h

theorem unmarked_readRuns {run : Text} {ps : List Piece} (h : Unmarked run.head? ps) :
    Unmarked none (readRuns run ps) := by
  induction ps generalizing run with
  | nil =>
    have end' : Unmarked (run.reverse.getLast?.or none) [] := trivial
    simpa [readRuns] using unmarked_wordPieces_append end'
  | cons p ps ih =>
    cases p with
    | plain c => exact ih h
    | marker name =>
      refine unmarked_wordPieces_append ⟨?_, ih (h.2.of_ne (by simp))⟩
      simpa using h.1

/-- No marker of a text follows a backslash. -/
theorem unmarked_pieces (s : Text) : Unmarked none (pieces s) :=
  unmarked_readRuns (unmarked_groupPieces none s)

end Localizer.Message
