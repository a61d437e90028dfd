import Mathlib.Data.List.TakeWhile
import Localizer.Path.Rule

/-!
# Rules without wildcards

A pattern in which nothing stands for other code points matches just itself (`matches_iff`). A line
that is the path of a folder, with a slash at its end and at least one before that, is a rule about
folders, and takes nothing back in. If it has no wildcard, it applies to the one folder whose path
from the root is that line without the slashes around it (`applies_ofLine?_folder`), letter by
letter: another path of the same folder is not that line.
-/

namespace Localizer

open Text CodePoint

/-! ## Patterns -/

/-- A message in which a pattern has no wildcard. -/
def Glob.IsLiteral (m : Message) : Prop := ∀ p ∈ m, p ∉ Message.ofText "*?[".toList

namespace Glob

variable {m path : Message}

/-- It is decided along the message, and not over all code points. -/
instance : Decidable (IsLiteral m) := List.decidableBAll (· ∉ Message.ofText "*?[".toList) m

theorem parse_of_isLiteral (h : IsLiteral m) : parse m = m.map .exactly := by
  induction m with
  | nil => simp [parse]
  | cons p m ih =>
    obtain ⟨first, rest⟩ := List.forall_mem_cons.1 h
    obtain ⟨star, one, bracket⟩ : p ≠ ofChar '*' ∧ p ≠ ofChar '?' ∧ p ≠ ofChar '[' := by
      simpa [Message.ofText] using first
    rw [parse, if_neg star, if_neg one, if_neg bracket, ih rest, List.map_cons]

theorem accepts_exactly_iff : accepts (m.map .exactly) path = true ↔ path = m := by
  induction m generalizing path with
  | nil => simp [accepts]
  | cons p m ih => cases path <;> simp [accepts, Item.accepts, ih]

/-- **A pattern without a wildcard matches itself.** -/
theorem matches_iff (h : IsLiteral m) : Glob.matches m path = true ↔ path = m := by
  rw [matches_eq, parse_of_isLiteral h, accepts_exactly_iff]

/-- A message without a wildcard does not start with a pattern that has one. -/
theorem IsLiteral.after?_eq_none (h : IsLiteral m) {pattern : Message} {p : CodePoint}
    (mem : p ∈ pattern) (wild : p ∈ Message.ofText "*?[".toList) : after? pattern m = none := by
  refine Option.eq_none_iff_forall_not_mem.2 fun rest found => h p ?_ wild
  rw [after?_eq_some_iff.1 found]
  exact List.mem_append_left _ mem

theorem IsLiteral.reverse (h : IsLiteral m) : IsLiteral m.reverse :=
  fun p mem => h p (List.mem_reverse.1 mem)

end Glob

/-! ## Lines -/

namespace Path.Rule

/-- Whether a message can be the front of a line that is a rule as it stands: it has no blank in
front, and not the mark of a comment or of a rule that takes back in. -/
def Begins (m : Message) : Prop :=
  ∀ p ∈ m.head?, isBlank p.shown = false ∧ p ≠ ofChar '#' ∧ p ≠ ofChar '!'

variable {m path : Message}

instance : Decidable (Begins m) := Option.decidableForallMem m.head?

/-- Whether a message neither begins nor ends with a blank. -/
def IsTrimmed (m : Message) : Prop :=
  (∀ p ∈ m.head?, isBlank p.shown = false) ∧ ∀ p ∈ m.getLast?, isBlank p.shown = false

instance : DecidablePred IsTrimmed := fun m =>
  @instDecidableAnd _ _ (Option.decidableForallMem m.head?) (Option.decidableForallMem m.getLast?)

/-- A line without blanks at its ends is taken as it is. -/
theorem content_of_isTrimmed (h : IsTrimmed m) : content m = m := by
  have same {m : Message} (h : ∀ p ∈ m.head?, isBlank p.shown = false) :
      m.dropWhile (fun p => isBlank p.shown) = m := by
    cases m with
    | nil => rfl
    | cons p m => simp [h p rfl]
  rw [content, same h.1, dropEndWhile, same (by simpa using h.2), List.reverse_reverse]

/-- A line that ends in a slash has no blanks at its ends if it does not begin with one. -/
theorem content_concat_slash (begins : Begins m) : content (m ++ [slash]) = m ++ [slash] := by
  have notBlank : isBlank slash.shown = false := by decide
  refine content_of_isTrimmed ⟨?_, by simp [notBlank]⟩
  cases m with
  | nil => simp [notBlank]
  | cons p m => simpa using (begins p rfl).1

/-- **The rule of a line that is the path of a folder.** -/
theorem ofLine?_folder (begins : Begins m) (literal : Glob.IsLiteral m) (inner : slash ∈ m)
    (ends : m.getLast? ≠ some slash) :
    ofLine? (m ++ [slash]) = some
      { pattern := m.dropWhile (· == slash), directoryOnly := true, anchored := true } := by
  obtain ⟨front, last, eq⟩ := (List.eq_nil_or_concat m).resolve_left (List.ne_nil_of_mem inner)
  have last_ne : last ≠ slash := by simpa [eq] using ends
  have shortened : dropEndWhile (· == slash) (m ++ [slash]) = m := by
    simp [dropEndWhile, eq, last_ne]
  have left : m.dropWhile (· == slash) ≠ [] := by
    simp [List.dropWhile_eq_nil_iff, eq, last_ne]
  have notEverywhere : after? (Message.ofText "**/".toList) m = none :=
    literal.after?_eq_none (p := ofChar '*') (by decide) (by decide)
  have pattern : ofPattern? (m ++ [slash]) false = some
      { pattern := m.dropWhile (· == slash), directoryOnly := true, anchored := true } := by
    simp only [ofPattern?, shortened, notEverywhere]
    simp [left, inner]
  rw [← pattern, ofLine?, content_concat_slash begins]
  cases m with
  | nil => simp at inner
  | cons p m =>
    obtain ⟨-, notComment, notNegated⟩ := begins p rfl
    exact (if_neg notComment).trans (if_neg notNegated)

/-- **The rule of a folder applies to its path.** -/
theorem applies_iff {r : Rule} (literal : Glob.IsLiteral r.pattern) (anchored : r.anchored = true) :
    r.applies path true = true ↔ path = r.pattern := by
  have notBelow : after? (Message.ofText "/**".toList.reverse) r.pattern.reverse = none :=
    literal.reverse.after?_eq_none (p := ofChar '*') (by decide) (by decide)
  rw [applies, notBelow, anchored, if_pos rfl]
  simpa using Glob.matches_iff literal

end Path.Rule

end Localizer
