import Localizer.Text.CodePoint
import Localizer.Text.Place

/-!
# Edits

An edit puts a message in the place of a span of a buffer. Edits are applied from the last to the
first, so that the offsets of those still to come stay right, and each from the place of the one
before. The result is that of applying them one by one (`applyAll_eq_foldl`).
-/

namespace Localizer

open Text (Place)

/-- A message in the place of the code points from `start` to `stop`. -/
structure Edit where
  start : Nat
  stop : Nat
  text : Message
  deriving Repr, DecidableEq

namespace Edit

/-- Put the message of an edit in its place. -/
def apply (s : Message) (e : Edit) : Message := s.take e.start ++ e.text ++ s.drop e.stop

/-- Edits from the last start to the first; those with the same start in the given order. -/
def lastFirst (edits : List Edit) : List Edit := edits.mergeSort fun a b => b.start ≤ a.start

/-- Go to the start of an edit, and put its message there instead of what it replaces. -/
def applyAt (p : Place CodePoint) (e : Edit) : Place CodePoint :=
  let q := p.moveTo e.start
  { q with rest := e.text ++ (q.moveTo e.stop).rest }

/-- Apply edits from the last to the first. -/
def applyAll (s : Message) (edits : List Edit) : Message :=
  ((lastFirst edits).foldl applyAt (.of s s.length)).whole

/-- An edit at a place of a buffer leads to a place of the edited buffer. -/
theorem applyAt_of (s : Message) (n : Nat) (e : Edit) :
    applyAt (.of s n) e = .of (apply s e) (min e.start s.length) := by
  have front : (s.take e.start).length = min e.start s.length := List.length_take
  simp only [applyAt, apply, Place.moveTo_of]
  rw [List.append_assoc, ← front]
  simp [Place.of]

/-- The edits are applied one by one. -/
theorem applyAll_eq_foldl (s : Message) (edits : List Edit) :
    applyAll s edits = (lastFirst edits).foldl apply s := by
  have run (es : List Edit) (s : Message) (n : Nat) :
      (es.foldl applyAt (.of s n)).whole = es.foldl apply s := by
    induction es generalizing s n with
    | nil => simp
    | cons e es ih => rw [List.foldl_cons, List.foldl_cons, applyAt_of, ih]
  exact run _ _ _

end Edit

end Localizer
