import Localizer.Text.CodePoint

/-!
# Edit scripts

An edit script takes one list of lines to another: runs of lines that stay, and places where old
lines give way to new ones. `script` finds the longest run of equal lines, the first of the longest
ones in the old list and then in the new, and goes on to its left and to its right. In a long new
list a line that comes too often starts no run; it can only prolong one.

Whatever runs are found, the old lines of the script are the old list and the new lines the new
list (`old_script`, `new_script`).
-/

namespace Localizer.Diff

/-- A part of an edit script. -/
inductive Segment where
  /-- Lines that stay. -/
  | same (lines : List Message)
  /-- Old lines that give way to new ones. -/
  | change (old new : List Message)
  deriving Repr, DecidableEq

namespace Segment

/-- The lines of a segment in the old list. -/
def old : Segment → List Message
  | same ls => ls
  | change ls _ => ls

/-- The lines of a segment in the new list. -/
def new : Segment → List Message
  | same ls => ls
  | change _ ls => ls

end Segment

/-! ## The longest run -/

/-- Whether a line comes too often in a list of so many lines to start a run: in a list of 200 lines
or more, more often than a hundredth of their number and one time more. -/
def isPopular (length count : Nat) : Bool := 200 ≤ length && length / 100 + 1 < count

/-- For each old line, the numbers of the new lines that are equal to it, in order; none if it comes
too often in the new list. -/
def partners (old new : List Message) : List (List Nat) :=
  let numbered := new.zipIdx
  let length := new.length
  old.map fun x =>
    let js := numbered.filterMap fun (y, j) => if x = y then some j else none
    if isPopular length js.length then [] else js

/-- The runs that end at an old line, by their last new lines and their sizes: `js` are the partners
of the line, and `previous` has the runs that end at the old line before it. -/
def runRow : (previous : List (Nat × Nat)) → (js : List Nat) → List (Nat × Nat)
  | _, [] => []
  | previous, j :: js =>
    let near := previous.dropWhile (·.1 + 1 < j)
    let size := match near with
      | (k, size) :: _ => if k + 1 = j then size + 1 else 1
      | [] => 1
    (j, size) :: runRow near js

/-- A run of equal lines by its ends in the two lists. -/
structure Run where
  size : Nat
  oldEnd : Nat
  newEnd : Nat
  deriving Repr, DecidableEq

/-- The better of a run and those that end at the old line `i`; only a longer one is better. -/
def bestInRow (i : Nat) (best : Run) (row : List (Nat × Nat)) : Run :=
  row.foldl (fun b (j, size) => if b.size < size then ⟨size, i + 1, j + 1⟩ else b) best

/-- The first of the longest runs in the old lines from number `i` on, given by their partners, and
the new lines from `start` up to `stop`. -/
def longestRun (start stop : Nat) :
    (i : Nat) → (previous : List (Nat × Nat)) → (best : Run) → List (List Nat) → Run
  | _, _, best, [] => best
  | i, previous, best, js :: rest =>
    let row := runRow previous (js.filter fun j => start ≤ j && j < stop)
    longestRun start stop (i + 1) row (bestInRow i best row) rest

/-- How many lines at the ends of two lists are equal; the lists are given backwards. -/
def commonBack : List Message → List Message → Nat
  | x :: xs, y :: ys => if x = y then commonBack xs ys + 1 else 0
  | _, _ => 0

/-- The lines with which two lists both start. -/
def commonFront : List Message → List Message → List Message
  | x :: xs, y :: ys => if x = y then x :: commonFront xs ys else []
  | _, _ => []

/-- Where the run to keep starts in two lists of lines; `ps` are the partners of the old ones, and
the new ones start at the number `start`. -/
def anchor (ps : List (List Nat)) (start : Nat) (old new : List Message) : Nat × Nat :=
  let run := longestRun start (start + new.length) 0 [] ⟨0, 0, 0⟩ ps
  let i := run.oldEnd - run.size
  let j := run.newEnd - run.size - start
  let back := commonBack (old.take i).reverse (new.take j).reverse
  (i - back, j - back)

/-! ## The script -/

/-- A change, unless it has no lines. -/
def changeOf (old new : List Message) : List Segment :=
  if old.isEmpty && new.isEmpty then [] else [.change old new]

/-- Add a segment in front of a script; two runs side by side become one. -/
def consSegment : Segment → List Segment → List Segment
  | .same ls, .same ms :: rest => .same (ls ++ ms) :: rest
  | s, rest => s :: rest

/-- The script from one list to another by runs of equal lines, cutting `fuel` times deep at most;
`ps` are the partners of the old lines, and the new ones start at the number `start`. -/
def scriptWith : (fuel : Nat) → (ps : List (List Nat)) → (start : Nat) →
    (old new : List Message) → List Segment
  | 0, _, _, old, new => changeOf old new
  | fuel + 1, ps, start, old, new =>
    let (i, j) := anchor ps start old new
    match commonFront (old.drop i) (new.drop j) with
    | [] => changeOf old new
    | l :: ls =>
      let right := scriptWith fuel (ps.drop (i + (ls.length + 1))) (start + (j + (ls.length + 1)))
        (old.drop (i + (ls.length + 1))) (new.drop (j + (ls.length + 1)))
      (scriptWith fuel (ps.take i) start (old.take i) (new.take j)).foldr consSegment
        (consSegment (.same (l :: ls)) right)

/-- The edit script from one list of lines to another. -/
def script (old new : List Message) : List Segment :=
  scriptWith (old.length + 1) (partners old new) 0 old new

/-! ## Nothing is lost -/

theorem commonFront_isFront (xs ys : List Message) :
    commonFront xs ys <+: xs ∧ commonFront xs ys <+: ys := by
  fun_induction commonFront xs ys with
  | case1 x xs ys ih => simpa using ih
  | case2 => simp
  | case3 => simp

theorem old_changeOf (old new : List Message) : (changeOf old new).flatMap Segment.old = old := by
  unfold changeOf
  split
  next h => simp_all
  next => simp [Segment.old]

theorem new_changeOf (old new : List Message) : (changeOf old new).flatMap Segment.new = new := by
  unfold changeOf
  split
  next h => simp_all
  next => simp [Segment.new]

theorem old_foldr_consSegment (ss rest : List Segment) :
    (ss.foldr consSegment rest).flatMap Segment.old =
      ss.flatMap Segment.old ++ rest.flatMap Segment.old := by
  have cons (s : Segment) (rest : List Segment) :
      (consSegment s rest).flatMap Segment.old = s.old ++ rest.flatMap Segment.old := by
    fun_cases consSegment s rest <;> simp [Segment.old]
  induction ss with
  | nil => rfl
  | cons s ss ih => simp [cons, ih]

theorem new_foldr_consSegment (ss rest : List Segment) :
    (ss.foldr consSegment rest).flatMap Segment.new =
      ss.flatMap Segment.new ++ rest.flatMap Segment.new := by
  have cons (s : Segment) (rest : List Segment) :
      (consSegment s rest).flatMap Segment.new = s.new ++ rest.flatMap Segment.new := by
    fun_cases consSegment s rest <;> simp [Segment.new]
  induction ss with
  | nil => rfl
  | cons s ss ih => simp [cons, ih]

theorem old_scriptWith (fuel : Nat) (ps : List (List Nat)) (start : Nat)
    (old new : List Message) : (scriptWith fuel ps start old new).flatMap Segment.old = old := by
  fun_induction scriptWith fuel ps start old new with
  | case1 => exact old_changeOf _ _
  | case2 => exact old_changeOf _ _
  | case3 fuel ps start old new i j _ l ls hf _ ihRight ihLeft =>
    obtain ⟨tail, ht⟩ := (commonFront_isFront (old.drop i) (new.drop j)).1
    rw [hf] at ht
    have rest : old.drop (i + (ls.length + 1)) = tail := by
      rw [← List.drop_drop, ← ht]; simp
    have whole : old.take i ++ (l :: ls ++ tail) = old := by
      rw [ht]; exact List.take_append_drop i old
    have step := old_foldr_consSegment [.same (l :: ls)]
      (scriptWith fuel (ps.drop (i + (ls.length + 1))) (start + (j + (ls.length + 1)))
        (old.drop (i + (ls.length + 1))) (new.drop (j + (ls.length + 1))))
    simp only [List.foldr_cons, List.foldr_nil] at step
    rw [old_foldr_consSegment, ihLeft, step, ihRight, rest]
    simpa [Segment.old] using whole

theorem new_scriptWith (fuel : Nat) (ps : List (List Nat)) (start : Nat)
    (old new : List Message) : (scriptWith fuel ps start old new).flatMap Segment.new = new := by
  fun_induction scriptWith fuel ps start old new with
  | case1 => exact new_changeOf _ _
  | case2 => exact new_changeOf _ _
  | case3 fuel ps start old new i j _ l ls hf _ ihRight ihLeft =>
    obtain ⟨tail, ht⟩ := (commonFront_isFront (old.drop i) (new.drop j)).2
    rw [hf] at ht
    have rest : new.drop (j + (ls.length + 1)) = tail := by
      rw [← List.drop_drop, ← ht]; simp
    have whole : new.take j ++ (l :: ls ++ tail) = new := by
      rw [ht]; exact List.take_append_drop j new
    have step := new_foldr_consSegment [.same (l :: ls)]
      (scriptWith fuel (ps.drop (i + (ls.length + 1))) (start + (j + (ls.length + 1)))
        (old.drop (i + (ls.length + 1))) (new.drop (j + (ls.length + 1))))
    simp only [List.foldr_cons, List.foldr_nil] at step
    rw [new_foldr_consSegment, ihLeft, step, ihRight, rest]
    simpa [Segment.new] using whole

/-- The old lines of the script are the old list. -/
theorem old_script (old new : List Message) : (script old new).flatMap Segment.old = old :=
  old_scriptWith _ _ _ _ _

/-- The new lines of the script are the new list. -/
theorem new_script (old new : List Message) : (script old new).flatMap Segment.new = new :=
  new_scriptWith _ _ _ _ _

end Localizer.Diff
