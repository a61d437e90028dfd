import Localizer.Proofs.Diff.Patch

/-!
# Rendered hunks are followed

Whatever segments an edit script has, its rendered hunks make its new lines of its old ones
(`run_hunks`). A segment is followed line by line, and a hunk from the place that its header names
(`Hunk.run_render`). The walk over the script keeps a hunk open (`run_group`): the open hunk and the
segments to come are what is left of both files, behind the lines between two hunks.
-/

namespace Localizer.Diff

open Text Message

namespace Cursor

theorem run_cons {p : Cursor} {line : Message} {old : List Message} {s : Step}
    (h : p.step line old = some s) (patch : List Message) :
    p.run (line :: patch) old = (s.place.run patch s.left).map (s.written ++ ·) := by
  rw [run, h, Option.bind_some]

variable (i j m n : Nat) (ls rest o : List Message)

theorem run_kept :
    run ⟨i, j, m + ls.length, n + ls.length⟩ (Segment.render.marked ' ' ls ++ rest) (ls ++ o) =
      (run ⟨i + ls.length, j + ls.length, m, n⟩ rest o).map (ls ++ ·) := by
  induction ls generalizing i j with
  | nil => simp [Segment.render.marked]
  | cons l ls ih =>
    have step : step ⟨i, j, m + ls.length + 1, n + ls.length + 1⟩ (.ofChar ' ' :: l)
        (l :: (ls ++ o)) = some ⟨⟨i + 1, j + 1, m + ls.length, n + ls.length⟩, [l], ls ++ o⟩ := by
      simp [step, isFree, follow, CodePoint.shown_ofChar]
    have more := run_cons step (Segment.render.marked ' ' ls ++ rest)
    have tail := ih (i + 1) (j + 1)
    simp only [Segment.render.marked, List.map_cons, List.cons_append, List.length_cons,
      ← Nat.add_assoc] at more tail ⊢
    rw [more, tail, Option.map_map]
    simp [Function.comp_def, Nat.add_assoc, Nat.add_comm 1]

theorem run_removed :
    run ⟨i, j, m + ls.length, n⟩ (Segment.render.marked '-' ls ++ rest) (ls ++ o) =
      run ⟨i + ls.length, j, m, n⟩ rest o := by
  induction ls generalizing i with
  | nil => simp [Segment.render.marked]
  | cons l ls ih =>
    have step : step ⟨i, j, m + ls.length + 1, n⟩ (.ofChar '-' :: l) (l :: (ls ++ o)) =
        some ⟨⟨i + 1, j, m + ls.length, n⟩, [], ls ++ o⟩ := by
      simp [step, isFree, follow, CodePoint.shown_ofChar]
    have more := run_cons step (Segment.render.marked '-' ls ++ rest)
    have tail := ih (i + 1)
    simp only [Segment.render.marked, List.map_cons, List.cons_append, List.length_cons,
      ← Nat.add_assoc] at more tail ⊢
    rw [more, tail]
    simp [Nat.add_assoc, Nat.add_comm 1]

theorem run_added :
    run ⟨i, j, m, n + ls.length⟩ (Segment.render.marked '+' ls ++ rest) o =
      (run ⟨i, j + ls.length, m, n⟩ rest o).map (ls ++ ·) := by
  induction ls generalizing j with
  | nil => simp [Segment.render.marked]
  | cons l ls ih =>
    have step : step ⟨i, j, m, n + ls.length + 1⟩ (.ofChar '+' :: l) o =
        some ⟨⟨i, j + 1, m, n + ls.length⟩, [l], o⟩ := by
      simp [step, isFree, follow, CodePoint.shown_ofChar]
    have more := run_cons step (Segment.render.marked '+' ls ++ rest)
    have tail := ih (j + 1)
    simp only [Segment.render.marked, List.map_cons, List.cons_append, List.length_cons,
      ← Nat.add_assoc] at more tail ⊢
    rw [more, tail, Option.map_map]
    simp [Function.comp_def, Nat.add_assoc, Nat.add_comm 1]

theorem run_segment (s : Segment) :
    run ⟨i, j, m + s.old.length, n + s.new.length⟩ (s.render ++ rest) (s.old ++ o) =
      (run ⟨i + s.old.length, j + s.new.length, m, n⟩ rest o).map (s.new ++ ·) := by
  cases s with
  | same ls => exact run_kept i j m n ls rest o
  | change old new =>
    simp only [Segment.render, Segment.old, Segment.new, List.append_assoc]
    rw [run_removed, run_added]

theorem run_segments (ss : List Segment) :
    run ⟨i, j, m + (ss.flatMap Segment.old).length, n + (ss.flatMap Segment.new).length⟩
        (ss.flatMap Segment.render ++ rest) (ss.flatMap Segment.old ++ o) =
      (run ⟨i + (ss.flatMap Segment.old).length, j + (ss.flatMap Segment.new).length, m, n⟩
        rest o).map (ss.flatMap Segment.new ++ ·) := by
  induction ss generalizing i j with
  | nil => simp
  | cons s ss ih =>
    have first := run_segment i j (m + (ss.flatMap Segment.old).length)
      (n + (ss.flatMap Segment.new).length) (ss.flatMap Segment.render ++ rest)
      (ss.flatMap Segment.old ++ o) s
    rw [ih, Option.map_map] at first
    simpa [Function.comp_def, Nat.add_assoc, Nat.add_comm, Nat.add_left_comm] using first

end Cursor

namespace Hunk

/-- A hunk starts behind a gap, which follows so many lines of each file. -/
structure Behind (h : Hunk) (gap : List Message) (p q : Nat) : Prop where
  old : h.oldStart = p + gap.length
  new : h.newStart = q + gap.length

/-- A hunk ends behind so many lines of each file. -/
structure EndsAt (h : Hunk) (i j : Nat) : Prop where
  old : h.oldStart + h.oldSize = i
  new : h.newStart + h.newSize = j

variable {h : Hunk} {s : Segment}

theorem old_push : (h.push s).segments.flatMap Segment.old =
    h.segments.flatMap Segment.old ++ s.old := by
  simp [push]

theorem new_push : (h.push s).segments.flatMap Segment.new =
    h.segments.flatMap Segment.new ++ s.new := by
  simp [push]

theorem Behind.push {gap : List Message} {p q : Nat} (behind : h.Behind gap p q) (s : Segment) :
    (h.push s).Behind gap p q := ⟨behind.old, behind.new⟩

theorem EndsAt.push {i j : Nat} (ends : h.EndsAt i j) (s : Segment) :
    (h.push s).EndsAt (i + s.old.length) (j + s.new.length) := by
  constructor
  · rw [oldSize, old_push, List.length_append, ← ends.old]
    exact (Nat.add_assoc ..).symm
  · rw [newSize, new_push, List.length_append, ← ends.new]
    exact (Nat.add_assoc ..).symm

/-- A hunk that starts with a run ends behind it. -/
theorem endsAt_same (i j : Nat) (ls : List Message) :
    EndsAt ⟨i, j, [.same ls]⟩ (i + ls.length) (j + ls.length) := by
  constructor
  · simp [oldSize, Segment.old]
  · simp [newSize, Segment.new]

theorem new_of_isIdle (idle : h.isIdle = true) :
    h.segments.flatMap Segment.new = h.segments.flatMap Segment.old := by
  unfold isIdle at idle
  split at idle
  next none => simp [none]
  next ls only => simp [only, Segment.old, Segment.new]
  next => simp at idle

/-- A hunk is followed to its end: the lines before it stay, and its old lines give way to its new
ones. -/
theorem run_render {p q i j : Nat} {gap : List Message} (behind : h.Behind gap p q)
    (ends : h.EndsAt i j) (rest o : List Message) :
    Cursor.run ⟨p, q, 0, 0⟩ (h.render ++ rest) (gap ++ (h.segments.flatMap Segment.old ++ o)) =
      (Cursor.run ⟨i, j, 0, 0⟩ rest o).map
        fun new => gap ++ (h.segments.flatMap Segment.new ++ new) := by
  have header : h.render = Extent.header ⟨h.oldStart, h.oldSize, h.newStart, h.newSize⟩ ::
      h.segments.flatMap Segment.render := rfl
  have step : Cursor.step ⟨p, q, 0, 0⟩
      (Extent.header ⟨h.oldStart, h.oldSize, h.newStart, h.newSize⟩)
      (gap ++ (h.segments.flatMap Segment.old ++ o)) =
      some ⟨⟨h.oldStart, h.newStart, h.oldSize, h.newSize⟩, gap,
        h.segments.flatMap Segment.old ++ o⟩ := by
    simp [Cursor.step, Cursor.isFree, readHeader?_header, Cursor.enter, behind.old, behind.new]
    omega
  have body := Cursor.run_segments h.oldStart h.newStart 0 0 rest o h.segments
  simp only [Nat.zero_add] at body
  rw [header, List.cons_append, Cursor.run_cons step, ← ends.old, ← ends.new]
  simp only [oldSize, newSize] at body ⊢
  rw [body, Option.map_map]
  rfl

end Hunk

/-- A long run is cut in three: its front ends the open hunk, and its back starts the next one. -/
theorem exists_group_cut (h : Hunk) (i j : Nat) (ss : List Segment) {ls : List Message}
    (long : 2 * context < ls.length) :
    ∃ front mid back, ls = front ++ (mid ++ back) ∧ front.length = context ∧
      back.length = context ∧
      group h i j (.same ls :: ss) = h.push (.same front) ::
        group ⟨i + (context + mid.length), j + (context + mid.length), [.same back]⟩
          (i + ls.length) (j + ls.length) ss := by
  have skip : ls.length - context = context + (ls.length - 2 * context) := by omega
  have midSize : ((ls.drop context).take (ls.length - 2 * context)).length =
      ls.length - 2 * context := by
    rw [List.length_take, List.length_drop]
    omega
  refine ⟨ls.take context, (ls.drop context).take (ls.length - 2 * context),
    ls.drop (ls.length - context), ?_, ?_, ?_, ?_⟩
  · rw [skip, ← List.drop_drop, List.take_append_drop, List.take_append_drop]
  · rw [List.length_take]
    omega
  · rw [List.length_drop]
    omega
  · rw [midSize, ← skip]
    simp only [group, if_pos long]

/-- The hunks of a script are followed to the end of the script, from a place before the open
hunk. -/
theorem run_group {h : Hunk} {i j p q : Nat} {gap : List Message} (behind : h.Behind gap p q)
    (ends : h.EndsAt i j) (ss : List Segment) (tail : List Message) :
    Cursor.run ⟨p, q, 0, 0⟩ ((group h i j ss).flatMap Hunk.render)
        (gap ++ (h.segments.flatMap Segment.old ++ (ss.flatMap Segment.old ++ tail))) =
      some (gap ++ (h.segments.flatMap Segment.new ++ (ss.flatMap Segment.new ++ tail))) := by
  induction ss generalizing h i j p q gap with
  | nil =>
    by_cases idle : h.isIdle = true
    · simp [group, idle, Cursor.run, Cursor.isFree, h.new_of_isIdle idle]
    · have last := h.run_render behind ends [] tail
      simpa [group, idle, Cursor.run, Cursor.isFree] using last
  | cons s ss ih =>
    -- A segment that is not cut goes into the open hunk.
    have grown := ih (behind.push s) (ends.push s)
    rw [Hunk.old_push, Hunk.new_push, List.append_assoc, List.append_assoc] at grown
    rw [List.flatMap_cons, List.flatMap_cons, List.append_assoc, List.append_assoc]
    cases s with
    | change o n => exact grown
    | same ls =>
      by_cases long : 2 * context < ls.length
      · obtain ⟨front, mid, back, whole, frontSize, backSize, cut⟩ := exists_group_cut h i j ss long
        let closed := h.push (.same front)
        let opened : Hunk := ⟨i + (context + mid.length), j + (context + mid.length), [.same back]⟩
        have size : ls.length = context + (mid.length + context) := by
          rw [whole, List.length_append, List.length_append, frontSize, backSize]
        have closedEnds : closed.EndsAt (i + context) (j + context) :=
          frontSize ▸ ends.push (.same front)
        have openedBehind : opened.Behind mid (i + context) (j + context) :=
          ⟨(Nat.add_assoc ..).symm, (Nat.add_assoc ..).symm⟩
        have openedEnds : opened.EndsAt (i + ls.length) (j + ls.length) := by
          have total (n : Nat) : n + ls.length = n + (context + mid.length) + back.length := by
            rw [size, backSize, Nat.add_assoc, Nat.add_assoc]
          rw [total, total]
          exact Hunk.endsAt_same ..
        have first := closed.run_render (behind.push _) closedEnds
          ((group opened (i + ls.length) (j + ls.length) ss).flatMap Hunk.render)
          (mid ++ (back ++ (ss.flatMap Segment.old ++ tail)))
        have next := ih openedBehind openedEnds
        simp only [opened, List.flatMap_singleton, Segment.old, Segment.new] at next
        rw [next, Hunk.old_push, Hunk.new_push] at first
        rw [cut, List.flatMap_cons]
        simpa [whole, Segment.old, Segment.new] using first
      · rw [group, if_neg long]
        exact grown

/-- What is cut off at the end of a script is in both files. -/
theorem exists_trimmed (ss : List Segment) : ∃ tail,
    ss.flatMap Segment.old = (trimEnd ss).flatMap Segment.old ++ tail ∧
      ss.flatMap Segment.new = (trimEnd ss).flatMap Segment.new ++ tail := by
  unfold trimEnd
  split
  next ls last =>
    have whole : ss.dropLast ++ [.same ls] = ss := List.dropLast_append_getLast? _ last
    refine ⟨ls.drop context, ?_, ?_⟩
    · conv_lhs => rw [← whole]
      simp [Segment.old]
    · conv_lhs => rw [← whole]
      simp [Segment.new]
  next => exact ⟨[], by simp, by simp⟩

/-- The rendered hunks of a script make its new lines of its old ones. -/
theorem run_hunks (ss : List Segment) :
    ({} : Cursor).run ((hunks ss).flatMap Hunk.render) (ss.flatMap Segment.old) =
      some (ss.flatMap Segment.new) := by
  unfold hunks
  split
  next ls rest =>
    obtain ⟨tail, old, new⟩ := exists_trimmed (.same (ls.drop (ls.length - context)) :: rest)
    have behind : Hunk.Behind ⟨ls.length - context, ls.length - context, []⟩
        (ls.take (ls.length - context)) 0 0 := ⟨by simp, by simp⟩
    have ends : Hunk.EndsAt ⟨ls.length - context, ls.length - context, []⟩ (ls.length - context)
        (ls.length - context) := ⟨rfl, rfl⟩
    have whole := run_group behind ends
      (trimEnd (.same (ls.drop (ls.length - context)) :: rest)) tail
    rw [← old, ← new] at whole
    have joined (ms : List Message) :
        ls.take (ls.length - context) ++ (ls.drop (ls.length - context) ++ ms) = ls ++ ms := by
      rw [← List.append_assoc, List.take_append_drop]
    simpa [Segment.old, Segment.new, joined] using whole
  next =>
    obtain ⟨tail, old, new⟩ := exists_trimmed ss
    have behind : Hunk.Behind ⟨0, 0, []⟩ [] 0 0 := ⟨rfl, rfl⟩
    have ends : Hunk.EndsAt ⟨0, 0, []⟩ 0 0 := ⟨rfl, rfl⟩
    have whole := run_group behind ends (trimEnd ss) tail
    rw [← old, ← new] at whole
    simpa using whole

end Localizer.Diff
