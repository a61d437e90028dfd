import Localizer.Proofs.Diff.Render

/-!
# Diffs that are patches

A diff is one message, in which the lines of the hunks stand one after the other. Its own lines end
at newlines, while the lines of the two files may end otherwise, the last one also at the end of the
file. So the lines of the hunks are found again in the diff just if each of them but the last ends
in a newline, and just then the diff is a patch (`isPatch_unified_iff`). That is so if all lines of
both files end in newlines (`legible_of_ended`), and is not so if the last lines of both do not and
are different (`not_legible_of_last`).

A line that has become one with the next leads elsewhere: as an old line it is none of the file, and
as a new line it is another one (`Cursor.ended_of_run`).
-/

namespace Localizer.Diff

open Text Message

namespace Cursor

variable {p : Cursor} {line : Message} {patch old new : List Message} {s : Step}

/-- A line of a patch is a header where there is no hunk to follow, and a line with a mark
elsewhere. -/
theorem step_cases (h : p.step line old = some s) :
    p.isFree = true ∧ (∃ e, readHeader? line = some e) ∧ old = s.written ++ s.left ∨
      p.isFree = false ∧ ∃ mark l, line = mark :: l ∧
        (mark.shown = ' ' ∧ old = l :: s.left ∧ s.written = [l] ∨
          mark.shown = '-' ∧ old = l :: s.left ∧ s.written = [] ∨
          mark.shown = '+' ∧ old = s.left ∧ s.written = [l]) := by
  unfold step at h
  split at h
  next free =>
    obtain ⟨e, header, h⟩ := Option.bind_eq_some_iff.1 h
    simp only [enter] at h
    split at h
    next =>
      cases h
      exact .inl ⟨free, ⟨e, header⟩, (List.take_append_drop _ _).symm⟩
    next => simp at h
  next busy =>
    refine .inr ⟨by simpa using busy, ?_⟩
    cases line with
    | nil => simp [follow] at h
    | cons mark l =>
      refine ⟨mark, l, rfl, ?_⟩
      simp only [follow] at h
      split at h
      next blank _ _ =>
        split at h
        next same =>
          cases h
          exact .inl ⟨blank, by rw [same], rfl⟩
        next => simp at h
      next minus _ =>
        split at h
        next same =>
          cases h
          exact .inr (.inl ⟨minus, by rw [same], rfl⟩)
        next => simp at h
      next plus _ =>
        cases h
        exact .inr (.inr ⟨plus, rfl, rfl⟩)
      next => simp at h

theorem run_cons_eq_some (h : p.run (line :: patch) old = some new) :
    ∃ s new', p.step line old = some s ∧ s.place.run patch s.left = some new' ∧
      new = s.written ++ new' := by
  obtain ⟨s, step, h⟩ := Option.bind_eq_some_iff.1 h
  obtain ⟨new', rest, rfl⟩ := Option.map_eq_some_iff.1 h
  exact ⟨s, new', step, rest, rfl⟩

/-- The old lines that are left are the last of those that there were. -/
theorem left_isSuffix (h : p.step line old = some s) : s.left <:+ old := by
  rcases step_cases h with ⟨-, -, old⟩ | ⟨-, mark, l, -, ⟨-, old, -⟩ | ⟨-, old, -⟩ | ⟨-, old, -⟩⟩
  · exact ⟨_, old.symm⟩
  · exact ⟨[l], old.symm⟩
  · exact ⟨[l], old.symm⟩
  · exact ⟨[], old.symm⟩

/-- The lines of a patch that can be followed are headers, and lines of the two files with a
mark. -/
theorem mem_of_run (h : p.run patch old = some new) (mem : line ∈ patch) :
    (∃ e, readHeader? line = some e) ∨
      ∃ mark l, line = mark :: l ∧ mark.shown ∈ [' ', '-', '+'] ∧ (l ∈ old ∨ l ∈ new) := by
  induction patch generalizing p old new with
  | nil => simp at mem
  | cons first patch ih =>
    obtain ⟨s, new', step, rest, rfl⟩ := run_cons_eq_some h
    rcases List.mem_cons.1 mem with rfl | later
    · rcases step_cases step with ⟨-, header, -⟩ | ⟨-, mark, l, marked, kind⟩
      · exact .inl header
      · refine .inr ⟨mark, l, marked, ?_⟩
        rcases kind with ⟨kind, rfl, -⟩ | ⟨kind, rfl, -⟩ | ⟨kind, rfl, written⟩
        · simp [kind]
        · simp [kind]
        · simp [kind, written]
    · rcases ih rest later with header | ⟨mark, l, marked, kind, file⟩
      · exact .inl header
      · refine .inr ⟨mark, l, marked, kind, ?_⟩
        exact file.imp (fun mem => (left_isSuffix step).mem mem) (List.mem_append_right _)

/-- A line of a hunk with more behind it is no old line, and another new one. -/
theorem written_ne_of_append {more : Message} {s' : Step} {a b : List Message}
    (busy : p.isFree = false) (h : p.step line old = some s)
    (h' : p.step (line ++ more) old = some s') (filled : more ≠ []) :
    s.written ++ a ≠ s'.written ++ b := by
  rcases step_cases h with ⟨free, -⟩ | ⟨-, mark, l, rfl, kind⟩
  · simp [busy] at free
  rcases step_cases h' with ⟨free, -⟩ | ⟨-, mark', l', marked, kind'⟩
  · simp [busy] at free
  obtain ⟨rfl, rfl⟩ := List.cons.inj marked
  have longer : l ≠ l ++ more := by simpa using filled
  rcases kind with ⟨blank, left, -⟩ | ⟨minus, left, -⟩ | ⟨plus, -, written⟩
  · obtain ⟨left', -⟩ : old = (l ++ more) :: s'.left ∧ _ := by simpa [blank] using kind'
    exact absurd (List.cons.inj (left.symm.trans left')).1 longer
  · obtain ⟨left', -⟩ : old = (l ++ more) :: s'.left ∧ _ := by simpa [minus] using kind'
    exact absurd (List.cons.inj (left.symm.trans left')).1 longer
  · obtain ⟨-, written'⟩ : _ ∧ s'.written = [l ++ more] := by simpa [plus] using kind'
    rw [written, written']
    exact fun same => longer (List.cons.inj same).1

/-- Where lines that follow each other have become one, a patch does not lead to the same lines. -/
theorem ended_of_run (h : p.run patch old = some new) (lines : ∀ line ∈ patch, IsLine line)
    (joined : p.run (newlineLines patch.flatten) old = some new) :
    ∀ line ∈ patch.dropLast, Ended line := by
  induction patch generalizing p old new with
  | nil => simp
  | cons first patch ih =>
    have firstLine : IsLine first := lines first List.mem_cons_self
    have others : ∀ line ∈ patch, IsLine line := fun line mem =>
      lines line (List.mem_cons_of_mem _ mem)
    obtain ⟨s, new', step, rest, rfl⟩ := run_cons_eq_some h
    cases patch with
    | nil => simp
    | cons second patch =>
      rw [List.flatten_cons] at joined
      by_cases ended : Ended first
      · rw [firstLine.newlineLines_append ended] at joined
        obtain ⟨s', new'', step', rest', same⟩ := run_cons_eq_some joined
        cases step.symm.trans step'
        obtain rfl := List.append_cancel_left same
        intro line mem
        rw [List.dropLast_cons_of_ne_nil (by simp), List.mem_cons] at mem
        rcases mem with rfl | later
        · exact ended
        · exact ih rest others rest' line later
      · have more : (second :: patch).flatten ≠ [] := by
          have := (others second List.mem_cons_self).nonempty
          simp [this]
        obtain ⟨more, after, nonempty, cut⟩ := firstLine.exists_newlineLines_append ended more
        rw [cut] at joined
        obtain ⟨s', new'', step', rest', same⟩ := run_cons_eq_some joined
        have busy : p.isFree = false := by
          rcases step_cases step with ⟨-, ⟨e, header⟩, -⟩ | ⟨busy, -⟩
          · exact absurd (isLine_of_readHeader? header).2 ended
          · exact busy
        exact absurd same (written_ne_of_append busy step step' nonempty)

/-- A step is about the same lines of both files, or about one line of one of them. -/
theorem exists_front (h : p.step line old = some s) :
    ∃ front, old = front ++ s.left ∧
      (front = s.written ∨ ∃ mark l, line = mark :: l ∧ mark ≠ newline ∧
        (front = [l] ∧ s.written = [] ∨ front = [] ∧ s.written = [l])) := by
  rcases step_cases h with ⟨-, -, old⟩ | ⟨-, mark, l, marked, kind⟩
  · exact ⟨_, old, .inl rfl⟩
  · rcases kind with ⟨blank, old, written⟩ | ⟨minus, old, written⟩ | ⟨plus, old, written⟩
    · exact ⟨[l], old, .inl written.symm⟩
    · refine ⟨[l], old, .inr ⟨mark, l, marked, ?_, .inl ⟨rfl, written⟩⟩⟩
      rintro rfl
      exact absurd (shown_newline.symm.trans minus) (by decide)
    · refine ⟨[], old, .inr ⟨mark, l, marked, ?_, .inr ⟨rfl, written⟩⟩⟩
      rintro rfl
      exact absurd (shown_newline.symm.trans plus) (by decide)

/-- A last line that does not end in a newline has nothing behind it, if all lines but the last end
in newlines. -/
theorem eq_nil_of_last {front more : List Message} {l : Message} (last : front.getLast? = some l)
    (open_ : ¬Ended l) (ended : ∀ x ∈ (front ++ more).dropLast, Ended x) : more = [] := by
  by_contra behind
  refine open_ (ended l ?_)
  rw [List.dropLast_append_of_ne_nil behind]
  exact List.mem_append_left _ (List.mem_of_getLast? last)

/-- Where every line of a patch but the last ends in a newline, the last old line cannot give way to
another one if neither of them ends in a newline. -/
theorem last_eq_of_run {l l' : Message} (h : p.run patch old = some new)
    (ended : ∀ line ∈ patch.dropLast, Ended line) (oldEnded : ∀ x ∈ old.dropLast, Ended x)
    (newEnded : ∀ x ∈ new.dropLast, Ended x) (oldLast : old.getLast? = some l)
    (newLast : new.getLast? = some l') (open_ : ¬Ended l) (open' : ¬Ended l') : l = l' := by
  induction patch generalizing p old new with
  | nil =>
    obtain ⟨-, rfl⟩ : p.isFree = true ∧ old = new := by simpa [run] using h
    exact Option.some.inj (oldLast.symm.trans newLast)
  | cons line patch ih =>
    obtain ⟨s, new', step, rest, rfl⟩ := run_cons_eq_some h
    obtain ⟨front, rfl, fronts⟩ := exists_front step
    have later (left : s.left ≠ []) (more : new' ≠ []) : l = l' := by
      rw [List.dropLast_append_of_ne_nil left, List.forall_mem_append] at oldEnded
      rw [List.dropLast_append_of_ne_nil more, List.forall_mem_append] at newEnded
      rw [List.getLast?_append_of_ne_nil _ left] at oldLast
      rw [List.getLast?_append_of_ne_nil _ more] at newLast
      refine ih rest (fun line mem => ended line ?_) oldEnded.2 newEnded.2 oldLast newLast
      rw [List.dropLast_cons_of_ne_nil (fun none => by simp [none] at mem)]
      exact List.mem_cons_of_mem _ mem
    -- The last line of the patch leaves the old lines that are left as they are.
    have atEnd (none : patch = []) : new' = s.left := by
      obtain ⟨-, same⟩ : s.place.isFree = true ∧ s.left = new' := by simpa [none, run] using rest
      exact same.symm
    have lineEnded (some_ : patch ≠ []) : Ended line := by
      refine ended line ?_
      rw [List.dropLast_cons_of_ne_nil some_]
      exact List.mem_cons_self
    rcases fronts with rfl | ⟨mark, x, rfl, other, ⟨rfl, written⟩ | ⟨rfl, written⟩⟩
    · by_cases left : s.left = []
      · rw [left, List.append_nil] at oldLast
        rw [eq_nil_of_last oldLast open_ newEnded, List.append_nil] at newLast
        exact Option.some.inj (oldLast.symm.trans newLast)
      · refine later left fun more => left ?_
        rw [more, List.append_nil] at newLast
        exact eq_nil_of_last newLast open' oldEnded
    · have more : new' ≠ [] := by
        rintro rfl
        simp [written] at newLast
      refine later (fun left => ?_) more
      obtain rfl : x = l := by simpa [left] using oldLast
      exact open_ ((lineEnded fun none => more (left ▸ atEnd none)).of_cons other)
    · have left : s.left ≠ [] := by
        intro none
        simp [none] at oldLast
      refine later left fun more => ?_
      obtain rfl : x = l' := by simpa [more, written] using newLast
      exact open' ((lineEnded fun none => left (more ▸ (atEnd none).symm)).of_cons other)

end Cursor

/-! ## The lines of a diff -/

/-- The lines of the hunks between two messages, as they are written. -/
def hunkLines (old new : Message) : List Message :=
  (hunks (script old.brokenLines new.brokenLines)).flatMap Hunk.render

/-- The diff between two messages can be read: every line of its hunks but the last ends in a
newline. -/
def Legible (old new : Message) : Prop := ∀ line ∈ (hunkLines old new).dropLast, Ended line

instance (old new : Message) : Decidable (Legible old new) :=
  inferInstanceAs (Decidable (∀ _ ∈ _, _))

/-- A diff is a patch: it makes the lines of the new message of those of the old one. The lines of
the diff itself end at newlines; `lines` says what the lines of the messages are. -/
def IsPatch (lines : Message → List Message) (oldName newName : Text) (diff old new : Message) :
    Prop :=
  patched? oldName newName (newlineLines diff) (lines old) = some (lines new)

variable {oldName newName : Text} {old new : Message}

theorem run_hunkLines (old new : Message) :
    ({} : Cursor).run (hunkLines old new) old.brokenLines = some new.brokenLines := by
  have whole := run_hunks (script old.brokenLines new.brokenLines)
  rwa [old_script, new_script] at whole

theorem hunkLines_ne_nil (differ : old ≠ new) : hunkLines old new ≠ [] := by
  intro none
  have same := run_hunkLines old new
  rw [none] at same
  have same : old.brokenLines = new.brokenLines := Option.some.inj same
  exact differ (by rw [← old.flatten_brokenLines, same, new.flatten_brokenLines])

/-- The diff between two messages that are not the same: the two lines with the names of the files
and the lines of the hunks, one after the other. -/
theorem unified_eq_flatten (differ : old ≠ new) :
    unified oldName newName old new =
      (fileHeaders oldName newName ++ hunkLines old new).flatten := by
  have filled := hunkLines_ne_nil differ
  unfold unified
  split
  next none => simp [hunkLines, none] at filled
  next =>
    have headers : ofText ("--- ".toList ++ oldName ++ "\n+++ ".toList ++ newName ++ ['\n']) =
        (fileHeaders oldName newName).flatten := by
      simp [fileHeaders, ofText]
    rw [List.flatten_append, ← headers]
    rfl

theorem mem_hunkLines {line : Message} (mem : line ∈ hunkLines old new) :
    (IsLine line ∧ Ended line) ∨ ∃ mark l, line = mark :: l ∧ mark ≠ newline ∧
      (l ∈ old.brokenLines ∨ l ∈ new.brokenLines) := by
  rcases Cursor.mem_of_run (run_hunkLines old new) mem with
    ⟨e, header⟩ | ⟨mark, l, marked, kind, file⟩
  · exact .inl (isLine_of_readHeader? header)
  · refine .inr ⟨mark, l, marked, ?_, file⟩
    rintro rfl
    rw [shown_newline] at kind
    exact absurd kind (by decide)

theorem isLine_of_mem_hunkLines {line : Message} (mem : line ∈ hunkLines old new) :
    IsLine line := by
  rcases mem_hunkLines mem with ⟨line, -⟩ | ⟨mark, l, rfl, other, file⟩
  · exact line
  · exact (file.elim isLine_of_mem_brokenLines isLine_of_mem_brokenLines).cons other

/-- Where every line of both messages ends in a newline, their diff can be read. -/
theorem legible_of_ended (ended : ∀ l ∈ old.brokenLines ++ new.brokenLines, Ended l) :
    Legible old new := by
  intro line mem
  rcases mem_hunkLines (List.dropLast_subset _ mem) with ⟨-, ended⟩ | ⟨mark, l, rfl, -, file⟩
  · exact ended
  · exact (ended l (List.mem_append.2 file)).cons mark

theorem isLine_nameLine_iff (mark : Text) {name : Text} (free : '\n' ∉ mark) :
    IsLine (ofText (mark ++ name ++ ['\n'])) ↔ '\n' ∉ name := by
  have inside : (ofText (mark ++ name ++ ['\n'])).dropLast = ofText (mark ++ name) := by
    simp [ofText]
  have mem : newline ∈ ofText (mark ++ name) ↔ '\n' ∈ name := by
    simp [newline, ofChar_mem_ofText, free]
  refine ⟨fun line named => line.unbroken ?_, fun unnamed => ⟨by simp [ofText], ?_⟩⟩
  · rwa [inside, mem]
  · rwa [inside, mem]

/-- The two lines with the names are lines just if the names have no newline. -/
theorem isLine_fileHeaders_iff : (∀ line ∈ fileHeaders oldName newName, IsLine line) ↔
    '\n' ∉ oldName ∧ '\n' ∉ newName := by
  simp only [fileHeaders, List.forall_mem_cons, List.not_mem_nil, false_imp_iff, implies_true,
    and_true, isLine_nameLine_iff "--- ".toList (by decide),
    isLine_nameLine_iff "+++ ".toList (by decide)]

theorem ended_of_mem_fileHeaders {line : Message} (mem : line ∈ fileHeaders oldName newName) :
    Ended line := by
  simp only [fileHeaders, List.mem_cons, List.not_mem_nil, or_false] at mem
  have last (s : Text) : Ended (ofText (s ++ ['\n'])) := by
    rw [Ended, ofText_append]
    exact List.getLast?_concat
  rcases mem with rfl | rfl
  · exact last _
  · exact last _

/-- The diff between two messages is a patch just if it can be read. -/
theorem isPatch_unified_iff (differ : old ≠ new) :
    IsPatch brokenLines oldName newName (unified oldName newName old new) old new ↔
      '\n' ∉ oldName ∧ '\n' ∉ newName ∧ Legible old new := by
  have lines : ∀ line ∈ hunkLines old new, IsLine line := fun _ => isLine_of_mem_hunkLines
  have read (named : ∀ line ∈ fileHeaders oldName newName, IsLine line) :
      patched? oldName newName (newlineLines (unified oldName newName old new)) old.brokenLines =
        ({} : Cursor).run (newlineLines (hunkLines old new).flatten) old.brokenLines := by
    rw [unified_eq_flatten differ,
      newlineLines_flatten_append named fun _ => ended_of_mem_fileHeaders, patched?,
      after?_eq_some_iff.2 rfl, Option.bind_some]
  rw [← and_assoc, ← isLine_fileHeaders_iff]
  constructor
  · intro patch
    have named : ∀ line ∈ fileHeaders oldName newName, IsLine line := by
      obtain ⟨rest, front, -⟩ := Option.bind_eq_some_iff.1 patch
      intro line mem
      refine isLine_of_mem_newlineLines (m := unified oldName newName old new) ?_
      rw [after?_eq_some_iff.1 front]
      exact List.mem_append_left _ mem
    refine ⟨named, Cursor.ended_of_run (run_hunkLines old new) lines ?_⟩
    rwa [← read named]
  · rintro ⟨named, legible⟩
    rw [IsPatch, read named, newlineLines_flatten lines legible]
    exact run_hunkLines old new

/-- A diff between messages of which neither ends in a newline cannot be read, if their last lines
differ. -/
theorem not_legible_of_last (oldPlain : old.Plain) (newPlain : new.Plain) {l l' : Message}
    (oldLast : old.brokenLines.getLast? = some l) (newLast : new.brokenLines.getLast? = some l')
    (open_ : ¬Ended l) (open' : ¬Ended l') (differ : l ≠ l') : ¬Legible old new := fun legible =>
  differ (Cursor.last_eq_of_run (run_hunkLines old new) legible oldPlain newPlain oldLast newLast
    open_ open')

end Localizer.Diff
