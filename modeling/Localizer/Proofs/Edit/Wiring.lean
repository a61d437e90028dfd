import Localizer.Edit.Wiring
import Mathlib.Data.List.TakeWhile

/-!
# What wiring adds

`ensureImport` and `ensureDelegates` add to a buffer and take nothing from it. The import goes in
as a line of its own, with an empty line after it when it comes first (`ensureImport_inserts`); the
two properties of the app root go in at one place, indented by blanks (`ensureDelegates_inserts`).
-/

namespace Localizer.Edit

open Text Dart
open Message (newline)

/-- A buffer, and the same buffer with a statement put in as a line. -/
inductive ImportInserted (statement : Message) : Message → Message → Prop
  /-- At the top, with an empty line after it. -/
  | top (s : Message) : ImportInserted statement s (statement ++ newline :: newline :: s)
  /-- Between two lines. -/
  | between (a b : Message) :
    ImportInserted statement (a ++ newline :: b) (a ++ newline :: (statement ++ newline :: b))
  /-- After the last line. -/
  | last (s : Message) : ImportInserted statement s (s ++ newline :: statement)

/-- A buffer, and the same buffer with the two properties of an app root put in. -/
inductive DelegatesInserted (className : Message) : Message → Message → Prop
  | mk (a b : Message) (indent : Text) (blank : ∀ c ∈ indent, isBlank c = true) :
    DelegatesInserted className (a ++ b) (a ++ delegates className indent ++ b)

/-! ## The import -/

theorem unlines_lines (s : Message) : Message.unlines s.lines = s :=
  List.intercalate_splitOn newline

theorem lines_ne_nil (s : Message) : s.lines ≠ [] := List.splitOn_ne_nil _ _

theorem unlines_singleton (l : Message) : Message.unlines [l] = l := List.intercalate_singleton

theorem unlines_cons (l : Message) {ls : List Message} (h : ls ≠ []) :
    Message.unlines (l :: ls) = l ++ newline :: Message.unlines ls := by
  rw [Message.unlines, List.intercalate_cons_of_ne_nil h, List.append_assoc]
  rfl

theorem unlines_append {as bs : List Message} (ha : as ≠ []) (hb : bs ≠ []) :
    Message.unlines (as ++ bs) = Message.unlines as ++ newline :: Message.unlines bs := by
  induction as with
  | nil => exact absurd rfl ha
  | cons a as ih =>
    cases as with
    | nil => rw [List.singleton_append, unlines_cons a hb, unlines_singleton]
    | cons c cs =>
      rw [List.cons_append, unlines_cons a (by simp), unlines_cons a (by simp), ih (by simp)]
      simp

/-- A line put in after the first `n` lines of a buffer. -/
theorem importInserted_unlines (statement s : Message) {n : Nat} (pos : n ≠ 0) :
    ImportInserted statement s
      (Message.unlines (s.lines.take n ++ statement :: s.lines.drop n)) := by
  have front : s.lines.take n ≠ [] := by
    intro h
    rcases List.take_eq_nil_iff.1 h with h | h
    · exact pos h
    · exact lines_ne_nil s h
  have cut := List.take_append_drop n s.lines
  rw [unlines_append front (by simp)]
  by_cases back : s.lines.drop n = []
  · rw [back, List.append_nil] at cut
    rw [back, cut, unlines_lines, unlines_singleton]
    exact .last s
  · have halves : s = Message.unlines (s.lines.take n) ++
        newline :: Message.unlines (s.lines.drop n) := by
      rw [← unlines_append front back, cut, unlines_lines]
    rw [unlines_cons statement back]
    have between : ImportInserted statement _ _ :=
      .between (Message.unlines (s.lines.take n)) (Message.unlines (s.lines.drop n))
    rwa [← halves] at between

/-- **The import is a line of its own.** -/
theorem ensureImport_inserts (statement s : Message) :
    ensureImport statement s = s ∨ ImportInserted statement s (ensureImport statement s) := by
  unfold ensureImport
  split
  next => exact .inl rfl
  next =>
    right
    dsimp only
    split
    next =>
      rw [unlines_cons statement (by simp), unlines_cons [] (lines_ne_nil s), unlines_lines]
      exact .top s
    next n zero => exact importInserted_unlines statement s fun h => zero h

/-! ## The app root -/

/-- **The properties of the app root go in at one place.** -/
theorem ensureDelegates_inserts (className s : Message) :
    ensureDelegates className s = s ∨ DelegatesInserted className s (ensureDelegates className s) := by
  unfold ensureDelegates
  split
  next => exact .inl rfl
  next =>
    split
    next => exact .inl rfl
    next before head _ _ =>
      right
      dsimp only
      generalize before.length + head.length = place
      have blank : ∀ c ∈ indentation (before.reverse.takeWhile (· != '\n')).reverse ++ [' ', ' '],
          isBlank c = true := by
        intro c hc
        rcases List.mem_append.1 hc with hc | hc
        · exact List.mem_takeWhile_imp hc
        · obtain rfl : c = ' ' := by simpa using hc
          decide
      have inserted : DelegatesInserted className _ _ :=
        .mk (s.take place) (s.drop place) _ blank
      rwa [List.take_append_drop] at inserted

end Localizer.Edit
