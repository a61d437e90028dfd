import Localizer.Text.Blank
import Mathlib.Data.List.DropRight
import Mathlib.Data.List.TakeWhile

/-!
# Runs

`runs` cuts a text at the characters of a class. What it gives are the maximal runs of the other
characters, in order (`runs_eq_iff`): `IsRuns` says what that is without the recursion of `runs`,
by cutting the text into gaps and runs by turns. So characters of the class at the ends of a text
do not count (`runs_append_gap`, `words_strip`), and neither does it matter which they are
(`IsRuns.map`).
-/

namespace Localizer.Text

variable {sep : Char → Bool}

/-- The lists are the maximal runs of characters outside the class `sep`, in order. -/
inductive IsRuns (sep : Char → Bool) : List (List Char) → List Char → Prop
  | none {gap : List Char} (blank : ∀ c ∈ gap, sep c = true) : IsRuns sep [] gap
  | run {gap w rest : List Char} {ws : List (List Char)} (blank : ∀ c ∈ gap, sep c = true)
    (filled : w ≠ []) (letters : ∀ c ∈ w, sep c = false) (ends : ∀ c ∈ rest.head?, sep c = true)
    (behind : IsRuns sep ws rest) : IsRuns sep (w :: ws) (gap ++ (w ++ rest))

theorem runs_cons_gap {c : Char} (blank : sep c = true) (s : List Char) :
    runs sep (c :: s) = runs sep s := by
  rw [runs.eq_def]
  simp [blank]

theorem runs_append_gap {gap : List Char} (blank : ∀ c ∈ gap, sep c = true) (s : List Char) :
    runs sep (gap ++ s) = runs sep s := by
  induction gap with
  | nil => rfl
  | cons c gap ih =>
    obtain ⟨first, others⟩ := List.forall_mem_cons.1 blank
    rw [List.cons_append, runs_cons_gap first, ih others]

/-- A character outside the class with one of the class, or nothing, behind it is a run. -/
theorem runs_cons_single {c : Char} {s : List Char} (letter : sep c = false)
    (ends : ∀ d ∈ s.head?, sep d = true) : runs sep (c :: s) = [c] :: runs sep s := by
  rw [runs.eq_def]
  cases s with
  | nil => simp [letter, runs]
  | cons d s =>
    have blank : sep d = true := ends d rfl
    simp [letter, blank]

/-- A character outside the class joins the run behind it. -/
theorem runs_cons_joined {c d : Char} {s w : List Char} {ws : List (List Char)}
    (letter : sep c = false) (next : sep d = false) (h : runs sep (d :: s) = w :: ws) :
    runs sep (c :: d :: s) = (c :: w) :: ws := by
  rw [runs.eq_def]
  simp only [letter, next, h, Bool.false_eq_true, if_false]

/-- A run that ends where a character of the class, or nothing, follows is the first of the runs.
-/
theorem runs_append_run {w rest : List Char} (filled : w ≠ []) (letters : ∀ c ∈ w, sep c = false)
    (ends : ∀ c ∈ rest.head?, sep c = true) : runs sep (w ++ rest) = w :: runs sep rest := by
  induction w with
  | nil => contradiction
  | cons c w ih =>
    obtain ⟨letter, letters⟩ := List.forall_mem_cons.1 letters
    cases w with
    | nil => exact runs_cons_single letter ends
    | cons d w =>
      have next : sep d = false := letters d List.mem_cons_self
      exact runs_cons_joined letter next (ih (List.cons_ne_nil d w) letters)

namespace IsRuns

variable {ws : List (List Char)} {s : List Char}

/-- A character of the class in front joins the first gap. -/
theorem cons_gap {c : Char} (blank : sep c = true) (h : IsRuns sep ws s) :
    IsRuns sep ws (c :: s) := by
  cases h with
  | none gap => exact .none (List.forall_mem_cons.2 ⟨blank, gap⟩)
  | run gap filled letters ends behind =>
    exact .run (List.forall_mem_cons.2 ⟨blank, gap⟩) filled letters ends behind

/-- Another character in front joins the first run, or is one. -/
theorem cons_letter {c : Char} (letter : sep c = false) (h : IsRuns sep ws s) :
    ∃ vs, IsRuns sep vs (c :: s) := by
  have single : ∀ d ∈ [c], sep d = false := List.forall_mem_singleton.2 letter
  have noGap : ∀ d ∈ ([] : List Char), sep d = true := by simp
  have alone (ends : ∀ d ∈ s.head?, sep d = true) : ∃ vs, IsRuns sep vs (c :: s) :=
    ⟨[c] :: ws, .run noGap (by simp) single ends h⟩
  cases h with
  | none gap => exact alone fun d hd => gap d (List.mem_of_mem_head? hd)
  | @run gap w rest ws blank filled letters ends behind =>
    cases gap with
    | nil =>
      have joined : ∀ d ∈ c :: w, sep d = false := List.forall_mem_cons.2 ⟨letter, letters⟩
      exact ⟨(c :: w) :: ws, .run noGap (by simp) joined ends behind⟩
    | cons d gap =>
      refine alone ?_
      rintro e ⟨⟩
      exact blank d List.mem_cons_self

/-- Characters of the class at the end join the last gap. -/
theorem append_gap {gap : List Char} (blank : ∀ c ∈ gap, sep c = true) (h : IsRuns sep ws s) :
    IsRuns sep ws (s ++ gap) := by
  induction h with
  | none last => exact .none (List.forall_mem_append.2 ⟨last, blank⟩)
  | @run front w rest ws first filled letters ends _ ih =>
    rw [List.append_assoc, List.append_assoc]
    refine .run first filled letters ?_ ih
    intro c head
    cases rest with
    | nil => exact blank c (List.mem_of_mem_head? head)
    | cons d rest => exact ends c head

/-- Texts whose characters lie in classes that correspond have the same runs. -/
theorem map {sep' : Char → Bool} {f : Char → Char} (gaps : ∀ c, sep c = true → sep' (f c) = true)
    (kept : ∀ c, sep c = false → f c = c ∧ sep' c = false) (h : IsRuns sep ws s) :
    IsRuns sep' ws (s.map f) := by
  have gap {g : List Char} (blank : ∀ c ∈ g, sep c = true) : ∀ c ∈ g.map f, sep' c = true :=
    List.forall_mem_map.2 fun c hc => gaps c (blank c hc)
  induction h with
  | none blank => exact .none (gap blank)
  | @run front w rest ws blank filled letters ends _ ih =>
    have same : w.map f = w := by
      rw [List.map_congr_left fun c hc => (kept c (letters c hc)).1, List.map_id']
    rw [List.map_append, List.map_append, same]
    refine .run (gap blank) filled (fun c hc => (kept c (letters c hc)).2) ?_ ih
    rw [List.head?_map]
    rintro c head
    obtain ⟨d, hd, rfl⟩ := Option.map_eq_some_iff.1 head
    exact gaps d (ends d hd)

/-- A run is not empty, and its characters are characters of the text outside the class. -/
theorem of_mem (h : IsRuns sep ws s) {w : List Char} (mem : w ∈ ws) :
    w ≠ [] ∧ ∀ c ∈ w, c ∈ s ∧ sep c = false := by
  induction h with
  | none => simp at mem
  | run _ filled letters _ _ ih =>
    rcases List.mem_cons.1 mem with rfl | mem
    · exact ⟨filled, fun c hc => ⟨by simp [hc], letters c hc⟩⟩
    · obtain ⟨filled, chars⟩ := ih mem
      exact ⟨filled, fun c hc => ⟨by simp [(chars c hc).1], (chars c hc).2⟩⟩

theorem eq_runs (h : IsRuns sep ws s) : runs sep s = ws := by
  induction h with
  | none blank =>
    have all := runs_append_gap blank []
    rwa [List.append_nil] at all
  | run blank filled letters ends _ ih =>
    rw [runs_append_gap blank, runs_append_run filled letters ends, ih]

end IsRuns

theorem exists_isRuns (s : List Char) : ∃ ws, IsRuns sep ws s := by
  induction s with
  | nil => exact ⟨[], .none (by simp)⟩
  | cons c s ih =>
    obtain ⟨ws, h⟩ := ih
    cases class_c : sep c with
    | true => exact ⟨ws, h.cons_gap class_c⟩
    | false => exact h.cons_letter class_c

/-- **The runs of a text** are its maximal runs of characters outside the class. -/
theorem runs_eq_iff {ws : List (List Char)} {s : List Char} :
    runs sep s = ws ↔ IsRuns sep ws s := by
  constructor
  · rintro rfl
    obtain ⟨ws, h⟩ : ∃ ws, IsRuns sep ws s := exists_isRuns s
    rwa [h.eq_runs]
  · exact IsRuns.eq_runs

theorem isRuns_runs (s : List Char) : IsRuns sep (runs sep s) s := runs_eq_iff.1 rfl

/-! ## Blanks -/

/-- The blanks around a stripped text. -/
theorem exists_strip (s : List Char) : ∃ left right, s = left ++ (strip s ++ right) ∧
    (∀ c ∈ left, isBlank c = true) ∧ ∀ c ∈ right, isBlank c = true := by
  refine ⟨s.takeWhile isBlank, ((stripLeft s).reverse.takeWhile isBlank).reverse, ?_,
    fun c hc => List.mem_takeWhile_imp hc,
    fun c hc => List.mem_takeWhile_imp (List.mem_reverse.1 hc)⟩
  have back : strip s ++ ((stripLeft s).reverse.takeWhile isBlank).reverse = stripLeft s := by
    rw [strip, stripRight, ← List.reverse_append, List.takeWhile_append_dropWhile,
      List.reverse_reverse]
  rw [back, stripLeft, List.takeWhile_append_dropWhile]

/-- Blanks at the ends of a text are in none of its words. -/
theorem words_strip (s : List Char) : words (strip s) = words s := by
  obtain ⟨left, right, eq, before, behind⟩ := exists_strip s
  have whole : words s = words (strip s ++ right) := by
    conv_lhs => rw [eq]
    exact runs_append_gap before _
  rw [whole]
  exact ((isRuns_runs (strip s)).append_gap behind).eq_runs.symm

/-- A stripped text starts with no blank. -/
theorem isBlank_head_strip {s : List Char} {c : Char} (head : c ∈ (strip s).head?) :
    isBlank c = false := by
  have front : strip s <+: stripLeft s := List.rdropWhile_prefix isBlank (stripLeft s)
  obtain ⟨rest, eq⟩ : ∃ rest, stripLeft s = c :: rest := by
    obtain ⟨more, eq⟩ := front
    cases stripped : strip s with
    | nil => simp [stripped] at head
    | cons d t =>
      obtain rfl : d = c := by simpa [stripped] using head
      exact ⟨t ++ more, by rw [← eq, stripped]; rfl⟩
  have first := List.head?_dropWhile_not isBlank s
  rw [← stripLeft, eq] at first
  simpa using first

end Localizer.Text
