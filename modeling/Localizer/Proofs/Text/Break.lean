import Localizer.Text.Basic

/-!
# Searches up to a break

What is looked for does not go past a character that it does not hold. So a search in a list that such
a character breaks gives what it gives in the part before the break, with more to read behind it
(`before`), and where it finds nothing there it goes on behind the break.
-/

namespace Localizer.Text

section

variable {α : Type} {c : α} {a b : List α} {class' : α → Bool}

theorem takeWhile_append_cons (stop : class' c = false) :
    (a ++ c :: b).takeWhile class' = a.takeWhile class' := by
  induction a with
  | nil => simp [stop]
  | cons d a ih => simp [List.takeWhile_cons, ih]

theorem dropWhile_append_cons (stop : class' c = false) :
    (a ++ c :: b).dropWhile class' = a.dropWhile class' ++ c :: b := by
  induction a with
  | nil => simp [stop]
  | cons d a ih =>
    simp only [List.cons_append, List.dropWhile_cons, ih]
    split
    next => rfl
    next => rfl

end

/-- What was read, with more behind what is left to read. -/
def before (t : Text) (read : Option (Text × Text)) : Option (Text × Text) :=
  read.map fun p => (p.1, p.2 ++ t)

@[simp] theorem before_none (t : Text) : before t none = none := rfl

@[simp] theorem before_some (t a b : Text) : before t (some (a, b)) = some (a, b ++ t) := rfl

theorem before_prepend (t front : Text) (read : Option (Text × Text)) :
    before t (prepend front read) = prepend front (before t read) := by
  cases read <;> rfl

section

variable {pattern p r : Text} {c : Char}

/-- What is looked for does not go past a character that it does not hold. -/
theorem after?_append_cons (free : c ∉ pattern) :
    after? pattern (p ++ c :: r) = (after? pattern p).map (· ++ c :: r) := by
  induction pattern generalizing p with
  | nil => rfl
  | cons x pattern ih =>
    simp only [List.mem_cons, not_or] at free
    cases p with
    | nil => simp [after?, Ne.symm free.1]
    | cons d p =>
      simp only [List.cons_append, after?]
      split
      next => exact ih free.2
      next => rfl

/-- A prefix that lacks the next item ends before it. -/
theorem prefix_of_not_mem {α : Type} {p l a : List α} (h : p <+: l ++ a)
    (apart : ∀ c ∈ a.head?, c ∉ p) : p <+: l := by
  obtain ⟨rest, eq⟩ := h
  rcases List.append_eq_append_iff.1 eq with ⟨z, rfl, -⟩ | ⟨z, rfl, rfl⟩
  · exact List.prefix_append _ _
  · cases z with
    | nil => simp
    | cons c z => exact absurd (by simp) (apart c rfl)

theorem isPrefix_append_cons (free : c ∉ pattern) : pattern <+: p ++ c :: r ↔ pattern <+: p :=
  ⟨fun front => prefix_of_not_mem front (by simpa using free),
    fun front => front.trans (List.prefix_append _ _)⟩

theorem cut?_eq_none (h : ¬pattern <:+: p) : cut? pattern p = none := by
  cases hp : cut? pattern p with
  | none => rfl
  | some found => exact absurd ⟨found.1, found.2, (eq_of_cut? hp).symm⟩ h

theorem cutLast?_eq_none (h : ¬pattern <:+: p) : cutLast? pattern p = none := by
  cases hp : cutLast? pattern p with
  | none => rfl
  | some found => exact absurd ⟨found.1, found.2, (eq_of_cutLast? hp).symm⟩ h

/-- A pattern that is not empty stands behind a character that it does not hold, if it does with it. -/
theorem not_infix_cons (free : c ∉ pattern) (ne : pattern ≠ []) (h : ¬pattern <:+: r) :
    ¬pattern <:+: c :: r := by
  intro mem
  rcases List.infix_cons_iff.1 mem with front | mem
  · cases pattern with
    | nil => exact ne rfl
    | cons x pattern => exact free (by simp [(List.cons_prefix_cons.1 front).1])
  · exact h mem

theorem isInfix_append_cons (free : c ∉ pattern) (ne : pattern ≠ []) :
    pattern <:+: p ++ c :: r → pattern <:+: p ∨ pattern <:+: r := by
  induction p with
  | nil => exact fun mem => .inr (Classical.byContradiction fun h => not_infix_cons free ne h mem)
  | cons d p ih =>
    intro mem
    rcases List.infix_cons_iff.1 mem with front | mem
    · exact .inl ((isPrefix_append_cons (p := d :: p) free).1 front).isInfix
    · exact (ih mem).imp_left List.infix_cons

theorem cut?_append_cons (free : c ∉ pattern) (ne : pattern ≠ [])
    (found : cut? pattern p ≠ none ∨ ¬pattern <:+: r) :
    cut? pattern (p ++ c :: r) = before (c :: r) (cut? pattern p) := by
  induction p with
  | nil =>
    have none : cut? pattern [] = none := by simp [cut?, ne]
    rw [none, List.nil_append, cut?_eq_none (not_infix_cons free ne ?_), before_none]
    exact found.resolve_left fun some => some none
  | cons d p ih =>
    have here := after?_append_cons (p := d :: p) (r := r) free
    rw [List.cons_append] at here ⊢
    cases first : after? pattern (d :: p) with
    | some rest => simp [cut?, here, first]
    | none =>
      have step : cut? pattern (d :: p) = prepend [d] (cut? pattern p) := by simp [cut?, first]
      rw [step] at found ⊢
      rw [before_prepend, ← ih (found.imp_left fun some none => some (by rw [none]; rfl))]
      simp [cut?, here, first]

theorem cutLast?_append_cons (free : c ∉ pattern) (ne : pattern ≠ []) (h : ¬pattern <:+: r) :
    cutLast? pattern (p ++ c :: r) = before (c :: r) (cutLast? pattern p) := by
  induction p with
  | nil =>
    have none : cutLast? pattern [] = none := by simp [cutLast?, ne]
    rw [none, List.nil_append, cutLast?_eq_none (not_infix_cons free ne h), before_none]
  | cons d p ih =>
    have here := after?_append_cons (p := d :: p) (r := r) free
    rw [List.cons_append] at here ⊢
    simp only [cutLast?, here, ih]
    cases cutLast? pattern p with
    | some found => rfl
    | none => cases after? pattern (d :: p) <;> rfl

end

end Localizer.Text
