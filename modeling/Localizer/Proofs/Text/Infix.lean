import Localizer.Text.Basic
import Mathlib.Data.List.Infix

/-!
# Marked parts of a list

Where an item of two lists in a row stands (`split_append`), and where a part in marks stands in a list
that has such a part in it: since marks do not stand between marks, no two marked parts overlap, so it
stands before that part or behind it, or is that part (`infix_marked_iff`).
-/

namespace Localizer.Text

variable {α : Type}

/-- An item of two lists in a row is one of the first or one of the second. -/
theorem split_append {as bs before after : List α} {x : α}
    (h : as ++ bs = before ++ x :: after) :
    (∃ cs, as = before ++ x :: cs ∧ after = cs ++ bs) ∨
      ∃ cs, before = as ++ cs ∧ bs = cs ++ x :: after := by
  rcases List.append_eq_append_iff.1 h with ⟨cs, rfl, hcs⟩ | ⟨cs, rfl, hcs⟩
  · exact .inr ⟨cs, rfl, hcs⟩
  · cases cs with
    | nil => exact .inr ⟨[], by simp, by simpa using hcs.symm⟩
    | cons y cs =>
      obtain ⟨rfl, rfl⟩ := List.cons.inj hcs
      exact .inl ⟨cs, rfl, rfl⟩

/-- A list between two marks. -/
def marked (first last : α) (m : List α) : List α := first :: (m ++ [last])

/-- Lists without an item are cut alike at the first one. -/
theorem append_cons_inj {m n r t : List α} {x : α} (hm : x ∉ m) (hn : x ∉ n)
    (h : m ++ x :: r = n ++ x :: t) : m = n ∧ r = t := by
  rcases split_append h with ⟨cs, rfl, -⟩ | ⟨cs, rfl, behind⟩
  · exact absurd (by simp) hm
  · cases cs with
    | nil => simpa using behind
    | cons y cs =>
      obtain ⟨rfl, -⟩ := List.cons.inj behind
      exact absurd (by simp) hn

/-- **A marked part stands in a list with a marked part** if it is that part or stands on one side of it. -/
theorem infix_marked_iff {first last : α} (ne : first ≠ last) {m n x y : List α}
    (hm : first ∉ m ∧ last ∉ m) (hn : first ∉ n ∧ last ∉ n) :
    marked first last m <:+: x ++ (marked first last n ++ y) ↔
      marked first last m <:+: x ∨ m = n ∨ marked first last m <:+: y := by
  constructor
  · rintro ⟨a, b, h⟩
    have place : x ++ (marked first last n ++ y) = a ++ first :: (m ++ last :: b) := by
      rw [← h]
      simp [marked]
    rcases split_append place with ⟨u, rfl, behind⟩ | ⟨u, -, place⟩
    · -- it starts before the part, and the mark of the part is behind its own last one
      rcases split_append behind.symm with ⟨v, rfl, -⟩ | ⟨v, rfl, front⟩
      · exact .inl ⟨a, v, by simp [marked]⟩
      · cases v with
        | nil => exact absurd (List.cons.inj front).1 ne
        | cons z v =>
          obtain ⟨rfl, -⟩ := List.cons.inj front
          exact absurd (by simp) hm.1
    · rcases split_append place with ⟨v, front, behind⟩ | ⟨v, -, rfl⟩
      · -- it starts in the part, that is, with it
        cases u with
        | nil =>
          obtain rfl : n ++ [last] = v := (List.cons.inj front).2
          rw [List.append_assoc] at behind
          exact .inr (.inl (append_cons_inj hm.2 hn.2 behind).1)
        | cons z u =>
          have inside : first ∈ n ++ [last] := by
            rw [(List.cons.inj front).2]
            simp
          rcases List.mem_append.1 inside with mem | mem
          · exact absurd mem hn.1
          · exact absurd (List.mem_singleton.1 mem) ne
      · exact .inr (.inr ⟨v, b, by simp [marked]⟩)
  · rintro (⟨a, b, rfl⟩ | rfl | ⟨a, b, rfl⟩)
    · exact ⟨a, b ++ (marked first last n ++ y), by simp⟩
    · exact ⟨x, y, by simp⟩
    · exact ⟨x ++ (marked first last n ++ a), b, by simp⟩

end Localizer.Text
