import Localizer.Text.Lines
import Mathlib.Data.List.Basic

/-!
# Lines that end at newlines

Besides `brokenLines`, where many characters end a line, there are the lines that only newlines end
(`newlineLines`). The two agree on a message whose lines all end in a newline but perhaps the last
one (`Plain.newlineLines_eq`). Lines that are written one after the other are found again if each of
them but the last ends in a newline (`newlineLines_flatten`); a line that does not becomes one with
what stands behind it (`IsLine.exists_newlineLines_append`).
-/

namespace Localizer.Message

open Text

/-- Put a code point at the front of the first line. -/
def consLine (p : CodePoint) : List Message → List Message
  | [] => [[p]]
  | l :: ls => (p :: l) :: ls

/-- The lines of a message with their newlines, where nothing else ends a line; the last one may
have none. -/
def newlineLines : Message → List Message
  | [] => []
  | p :: m => if p = newline then [p] :: newlineLines m else consLine p (newlineLines m)

/-- A message that is one line: it has no newline but perhaps at its end. -/
structure IsLine (m : Message) : Prop where
  nonempty : m ≠ []
  unbroken : newline ∉ m.dropLast

/-- A message whose last code point is a newline. -/
def Ended (m : Message) : Prop := m.getLast? = some newline

instance (m : Message) : Decidable m.Ended := inferInstanceAs (Decidable (_ = _))

theorem IsLine.cons {p : CodePoint} {l : Message} (line : IsLine l) (other : p ≠ newline) :
    IsLine (p :: l) := by
  refine ⟨by simp, ?_⟩
  rw [List.dropLast_cons_of_ne_nil line.nonempty, List.mem_cons, not_or]
  exact ⟨Ne.symm other, line.unbroken⟩

theorem Ended.cons {l : Message} (ended : Ended l) (p : CodePoint) : Ended (p :: l) := by
  rw [Ended, List.getLast?_cons, ended]
  rfl

theorem Ended.of_cons {p : CodePoint} {l : Message} (ended : Ended (p :: l)) (other : p ≠ newline) :
    Ended l := by
  cases l with
  | nil => exact absurd (Option.some.inj ended) other
  | cons q l => rwa [Ended, List.getLast?_cons_cons] at ended

/-- A message in which nothing but newlines ends a line, except perhaps the last one. -/
def Plain (m : Message) : Prop := ∀ l ∈ m.brokenLines.dropLast, Ended l

instance (m : Message) : Decidable m.Plain := inferInstanceAs (Decidable (∀ _ ∈ _, _))

/-! ## Lines at newlines -/

theorem exists_newlineLines {m : Message} (h : m ≠ []) :
    ∃ first rest, newlineLines m = first :: rest ∧ first ≠ [] := by
  cases m with
  | nil => exact absurd rfl h
  | cons p m =>
    unfold newlineLines consLine
    split
    next => exact ⟨[p], _, rfl, by simp⟩
    next =>
      split
      next => exact ⟨[p], [], rfl, by simp⟩
      next l ls _ => exact ⟨p :: l, ls, rfl, by simp⟩

/-- What stands before a line without ending becomes a part of it. -/
theorem newlineLines_append {l m : Message} (open_ : newline ∉ l) {first : Message}
    {rest : List Message} (h : newlineLines m = first :: rest) :
    newlineLines (l ++ m) = (l ++ first) :: rest := by
  induction l with
  | nil => exact h
  | cons p l ih =>
    simp only [List.mem_cons, not_or] at open_
    simp [newlineLines, Ne.symm open_.1, ih open_.2, consLine]

namespace IsLine

variable {l m : Message}

theorem newlineLines_append (line : IsLine l) (ended : Ended l) (m : Message) :
    newlineLines (l ++ m) = l :: newlineLines m := by
  have whole : l.dropLast ++ [newline] = l := List.dropLast_append_getLast? newline ended
  have first : newlineLines ([newline] ++ m) = [newline] :: newlineLines m := by
    rw [List.singleton_append, newlineLines, if_pos rfl]
  calc newlineLines (l ++ m)
      = newlineLines (l.dropLast ++ ([newline] ++ m)) := by rw [← List.append_assoc, whole]
    _ = (l.dropLast ++ [newline]) :: newlineLines m :=
        Message.newlineLines_append line.unbroken first
    _ = l :: newlineLines m := by rw [whole]

theorem newlineLines_eq (line : IsLine l) : newlineLines l = [l] := by
  have whole : l.dropLast ++ [l.getLast line.nonempty] = l := List.dropLast_concat_getLast _
  have last (p : CodePoint) : newlineLines [p] = [[p]] := by
    simp [newlineLines, consLine]
  have := Message.newlineLines_append line.unbroken (last (l.getLast line.nonempty))
  rwa [whole] at this

/-- A line that does not end becomes one with the first of the lines behind it. -/
theorem exists_newlineLines_append (line : IsLine l) (open_ : ¬Ended l) (more : m ≠ []) :
    ∃ first rest, first ≠ [] ∧ newlineLines (l ++ m) = (l ++ first) :: rest := by
  obtain ⟨first, rest, lines, nonempty⟩ := exists_newlineLines more
  have free : newline ∉ l := by
    intro mem
    rw [← List.dropLast_concat_getLast line.nonempty, List.mem_append, List.mem_singleton] at mem
    rcases mem with inside | last
    · exact line.unbroken inside
    · exact open_ (by rw [Ended, List.getLast?_eq_some_getLast line.nonempty, last])
  exact ⟨first, rest, nonempty, Message.newlineLines_append free lines⟩

end IsLine

theorem isLine_of_mem_newlineLines {m l : Message} (mem : l ∈ newlineLines m) : IsLine l := by
  induction m generalizing l with
  | nil => simp [newlineLines] at mem
  | cons p m ih =>
    rw [newlineLines] at mem
    split at mem
    next =>
      rcases List.mem_cons.1 mem with rfl | mem
      · exact ⟨by simp, by simp⟩
      · exact ih mem
    next other =>
      unfold consLine at mem
      split at mem
      next =>
        obtain rfl := List.mem_singleton.1 mem
        exact ⟨by simp, by simp⟩
      next first rest lines =>
        rcases List.mem_cons.1 mem with rfl | mem
        · exact (ih (by simp [lines])).cons other
        · exact ih (by simp [lines, mem])

/-- Lines that end are found again, whatever stands behind them. -/
theorem newlineLines_flatten_append {front back : List Message} (lines : ∀ l ∈ front, IsLine l)
    (ended : ∀ l ∈ front, Ended l) :
    newlineLines (front ++ back).flatten = front ++ newlineLines back.flatten := by
  induction front with
  | nil => rfl
  | cons l front ih =>
    rw [List.forall_mem_cons] at lines ended
    rw [List.cons_append, List.flatten_cons, lines.1.newlineLines_append ended.1,
      ih lines.2 ended.2, List.cons_append]

/-- Lines of which each but the last ends are found again. -/
theorem newlineLines_flatten {ls : List Message} (lines : ∀ l ∈ ls, IsLine l)
    (ended : ∀ l ∈ ls.dropLast, Ended l) : newlineLines ls.flatten = ls := by
  rcases List.eq_nil_or_concat ls with rfl | ⟨front, last, rfl⟩
  · rfl
  · rw [List.concat_eq_append] at *
    rw [List.dropLast_concat] at ended
    have lastLine : newlineLines [last].flatten = [last] := by
      simpa using (lines last (by simp)).newlineLines_eq
    rw [newlineLines_flatten_append (fun l mem => lines l (by simp [mem])) ended, lastLine]

/-! ## Lines at line breaks -/

theorem view_pieces (ns : List Nat) (m : Message) :
    (pieces ns m).map view = pieces ns m.view := by
  induction ns generalizing m with
  | nil => rfl
  | cons n ns ih => simp [pieces, ih, view, List.map_take, List.map_drop]

theorem pieces_flatten {α : Type} (ls : List (List α)) :
    pieces (ls.map List.length) ls.flatten = ls := by
  induction ls with
  | nil => rfl
  | cons l ls ih => simp [pieces, ih]

/-- The lines of a message are shown as the lines of what it is shown as. -/
theorem view_brokenLines (m : Message) : m.brokenLines.map view = Text.brokenLines m.view := by
  have whole := pieces_flatten (Text.brokenLines m.view)
  rw [Text.flatten_brokenLines] at whole
  rw [brokenLines, view_pieces, whole]

/-- A line break after a newline cuts a text, so that a line has no newline but at its end. -/
theorem unbroken_of_mem_brokenLines {s l : Text} (h : l ∈ Text.brokenLines s) :
    l ≠ [] ∧ '\n' ∉ l.dropLast := by
  fun_induction Text.brokenLines s generalizing l with
  | case1 => simp at h
  | case2 r ih =>
    rcases List.mem_cons.1 h with rfl | h
    · decide
    · exact ih h
  | case3 c r apart breaks ih =>
    rcases List.mem_cons.1 h with rfl | h
    · simp
    · exact ih h
  | case4 c r apart inside ih =>
    have other : c ≠ '\n' := by
      rintro rfl
      exact inside (by decide)
    cases lines : Text.brokenLines r with
    | nil =>
      rw [lines, Text.consLine, List.mem_singleton] at h
      simp [h]
    | cons first rest =>
      rw [lines, Text.consLine, List.mem_cons] at h
      rcases h with rfl | h
      · obtain ⟨nonempty, unbroken⟩ := ih (l := first) (by simp [lines])
        rw [List.dropLast_cons_of_ne_nil nonempty]
        exact ⟨by simp, by simp [Ne.symm other, unbroken]⟩
      · exact ih (by simp [lines, h])

theorem shown_newline : newline.shown = '\n' := CodePoint.shown_ofChar '\n'

theorem isLine_of_view {m : Message} (nonempty : m.view ≠ []) (unbroken : '\n' ∉ m.view.dropLast) :
    IsLine m := by
  refine ⟨fun h => nonempty (by rw [h]; rfl), fun mem => unbroken ?_⟩
  have shown : newline.shown ∈ m.dropLast.map CodePoint.shown := List.mem_map_of_mem mem
  rwa [shown_newline, List.map_dropLast] at shown

theorem isLine_of_mem_brokenLines {m l : Message} (h : l ∈ m.brokenLines) : IsLine l := by
  have mem : l.view ∈ Text.brokenLines m.view := by
    rw [← view_brokenLines]
    exact List.mem_map_of_mem h
  obtain ⟨nonempty, unbroken⟩ := unbroken_of_mem_brokenLines mem
  exact isLine_of_view nonempty unbroken

theorem Plain.newlineLines_eq {m : Message} (plain : m.Plain) :
    newlineLines m = m.brokenLines := by
  have := newlineLines_flatten (fun l => isLine_of_mem_brokenLines) plain
  rwa [flatten_brokenLines] at this

end Localizer.Message
