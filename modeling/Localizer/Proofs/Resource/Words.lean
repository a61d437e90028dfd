import Localizer.Resource.Key
import Localizer.Proofs.Text.Runs

/-!
# The words of a base

A base is made of a text in stages: what is no basic letter, digit or blank becomes a blank, the
blanks at the ends go, each other run of blanks becomes one `_`, and the text is cut at these. The
parts that are not empty are the words between blanks (`splitOn_underscored`), and since no basic
letter or digit is a blank (`isBlank_of_isAlphanum`), these are the maximal runs of basic letters
and digits of the text itself (`words_clean`). So a base is made of these words, and of nothing
else in the text (`camelCase_eq_words`).
-/

namespace Localizer.Resource

open Text

/-- Basic letters and digits are no blanks. -/
theorem isBlank_of_isAlphanum {c : Char} (h : c.isAlphanum = true) : isBlank c = false :=
  of_small (P := fun c => c.isAlphanum = true → isBlank c = false) (by decide +kernel)
    (toNat_lt_of_isAlphanum h) h

/-- What stands between two runs of basic letters and digits. -/
def isGap (c : Char) : Bool := !c.isAlphanum

/-- The words of a cleaned text are the maximal runs of basic letters and digits. -/
theorem words_clean (s : Text) : words (clean s) = runs isGap s := by
  refine ((isRuns_runs s).map ?_ ?_).eq_runs
  · intro c gap
    have other : c.isAlphanum = false := by simpa [isGap] using gap
    cases blank : isBlank c with
    | true => simp [other, blank]
    | false =>
      have space : isBlank ' ' = true := by decide
      simp [other, space]
  · intro c letter
    have letter : c.isAlphanum = true := by simpa [isGap] using letter
    exact ⟨by simp [letter], isBlank_of_isAlphanum letter⟩

/-- The parts of a text without `_` that are not empty, once `_` is put for its blanks, are its
words. The first part is empty just if the text starts with no word. -/
theorem splitOn_underscored {s : Text} (h : '_' ∉ s) :
    ∃ part parts, (underscored s).splitOn '_' = part :: parts ∧
      words s = (part :: parts).filter (fun w => !w.isEmpty) ∧
      (part = [] ↔ ∀ c ∈ s.head?, isBlank c = true) := by
  induction s with
  | nil => exact ⟨[], [], rfl, rfl, by simp⟩
  | cons c s ih =>
    simp only [List.mem_cons, not_or] at h
    obtain ⟨part, parts, split, read, first⟩ := ih h.2
    have new : ¬ c = '_' := Ne.symm h.1
    cases blank : isBlank c with
    | true =>
      have skipped : words (c :: s) = words s := runs_cons_gap blank s
      by_cases next : s.head?.any isBlank = true
      · have written : underscored (c :: s) = underscored s := by
          rw [underscored, if_pos blank, if_pos next]
        have empty : part = [] := first.2 fun d head => by simpa [Option.mem_def.1 head] using next
        exact ⟨part, parts, by rw [written, split], by rw [skipped, read], by simp [empty, blank]⟩
      · have written : (underscored (c :: s)).splitOn '_' = [] :: part :: parts := by
          rw [underscored, if_pos blank, if_neg next, List.splitOn_cons_eq_if_modifyHead, split]
          simp
        exact ⟨[], part :: parts, written, by rw [skipped, read]; rfl, by simp [blank]⟩
    | false =>
      have written : (underscored (c :: s)).splitOn '_' = (c :: part) :: parts := by
        rw [underscored, if_neg (by simp [blank]), List.splitOn_cons_eq_if_modifyHead, split]
        simp [new]
      refine ⟨c :: part, parts, written, ?_, by simp [blank]⟩
      by_cases ends : ∀ d ∈ s.head?, isBlank d = true
      · obtain rfl := first.2 ends
        rw [words, runs_cons_single blank ends, ← words, read]
        simp
      · have filled : part ≠ [] := fun empty => ends (first.1 empty)
        cases s with
        | nil => simp at ends
        | cons d s =>
          have letter : isBlank d = false := by simpa using ends
          have kept : words (d :: s) = part :: parts.filter fun w => !w.isEmpty := by
            simpa [filled] using read
          rw [words, runs_cons_joined blank letter kept]
          simp

theorem flatMap_capitalize_filter (parts : List Text) :
    (parts.filter fun w => !w.isEmpty).flatMap capitalize = parts.flatMap capitalize := by
  induction parts with
  | nil => rfl
  | cons part parts ih => cases part <;> simp [capitalize, ih]

theorem underscore_not_mem (s : Text) : '_' ∉ strip (clean s) := by
  obtain ⟨left, right, eq, -, -⟩ := exists_strip (clean s)
  intro mem
  have inside : '_' ∈ clean s := by
    rw [eq]
    simp [mem]
  obtain ⟨c, -, cleaned⟩ := List.mem_map.1 inside
  have other : ('_'.isAlphanum || isBlank '_') = false := by decide
  split at cleaned
  next kept =>
    rw [cleaned, other] at kept
    contradiction
  next => exact absurd cleaned (by decide)

/-- A text in camel case is made of its words. -/
theorem camelCase_eq_words (s : Text) :
    camelCase s = match words (clean s) with
      | [] => []
      | w :: ws => w.map Char.toLower ++ ws.flatMap capitalize := by
  obtain ⟨part, parts, split, read, first⟩ := splitOn_underscored (underscore_not_mem s)
  rw [words_strip] at read
  have skipped := flatMap_capitalize_filter parts
  rw [camelCase, split, read]
  by_cases empty : part = []
  -- a stripped text that starts with no word is empty, and has no words at all
  · have nothing : strip (clean s) = [] := by
      cases stripped : strip (clean s) with
      | nil => rfl
      | cons c t =>
        have head : c ∈ (strip (clean s)).head? := by simp [stripped]
        have letter := isBlank_head_strip head
        rw [first.1 empty c head] at letter
        contradiction
    have none : words (clean s) = [] := by rw [← words_strip, nothing]; rfl
    have rest : (parts.filter fun w => !w.isEmpty) = [] := by
      simpa [none, empty] using read.symm
    rw [rest] at skipped
    simp [empty, rest, ← skipped]
  · have kept : (part :: parts).filter (fun w => !w.isEmpty) =
        part :: parts.filter fun w => !w.isEmpty := by
      simp [empty]
    rw [kept]
    exact congrArg (part.map Char.toLower ++ ·) skipped.symm

end Localizer.Resource
