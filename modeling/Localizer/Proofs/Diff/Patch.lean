import Localizer.Diff.Unified
import Localizer.Proofs.Resource.Keys
import Localizer.Proofs.Text.Line

/-!
# Following a patch

A patch is read line by line beside the old file (`Cursor.run`). A header says where the next hunk
is: the old lines up to it stay, and the numbers of both files must fit. Then each line of the hunk
has a mark, which says whether the line stays, is taken away or is put in. A line that stays or is
taken away must be the next old line, and a hunk has as many lines as its header says.

The numbers in a header are read back from what was written (`readHeader?_header`), and what is read
as a header is a line with a newline at its end (`isLine_of_readHeader?`).
-/

namespace Localizer.Diff

open Text Message

/-! ## Headers -/

/-- What the header of a hunk says: how many lines of each file come before the hunk, and how many
it is about. -/
structure Extent where
  oldStart : Nat
  oldSize : Nat
  newStart : Nat
  newSize : Nat
  deriving DecidableEq

/-- A number at the front of a message, and what comes behind it. -/
def readNumber? (m : Message) : Option (Nat × Message) :=
  let digits := m.takeWhile (·.shown.isDigit)
  if digits.isEmpty then none else some (numberOf 10 (view digits), m.drop digits.length)

/-- The place of a hunk in one of the files, at the front of a message: how many lines come before
it, and how many it has. The first line is given, and the line before it if there are none; one line
is meant if no number of lines is given. -/
def readRange? (m : Message) : Option ((Nat × Nat) × Message) := do
  let (first, m) ← readNumber? m
  match after? (ofText [',']) m with
  | some m => do
    let (size, m) ← readNumber? m
    return ((if size = 0 then first else first - 1, size), m)
  | none => return ((first - 1, 1), m)

/-- What a line says as the header of a hunk. -/
def readHeader? (line : Message) : Option Extent := do
  let m ← after? (ofText "@@ -".toList) line
  let (old, m) ← readRange? m
  let m ← after? (ofText " +".toList) m
  let (new, m) ← readRange? m
  if m = ofText " @@\n".toList then return ⟨old.1, old.2, new.1, new.2⟩ else none

/-! ## Following -/

/-- How far a patch has been followed: how many lines of each file have been passed, and how many
the hunk is still about. -/
structure Cursor where
  oldDone : Nat := 0
  newDone : Nat := 0
  oldLeft : Nat := 0
  newLeft : Nat := 0
  deriving DecidableEq

/-- What one line of a patch leads to: how far the patch has been followed then, the lines that the
new file gets, and the old lines that are left. -/
structure Step where
  place : Cursor
  written : List Message
  left : List Message

namespace Cursor

/-- Whether there is no hunk to follow. -/
def isFree (p : Cursor) : Bool := p.oldLeft == 0 && p.newLeft == 0

/-- Go to a hunk: the lines before it stay. -/
def enter (p : Cursor) (h : Extent) (old : List Message) : Option Step :=
  let gap := h.oldStart - p.oldDone
  if p.oldDone ≤ h.oldStart ∧ h.newStart = p.newDone + gap ∧ gap ≤ old.length then
    some ⟨⟨h.oldStart, h.newStart, h.oldSize, h.newSize⟩, old.take gap, old.drop gap⟩
  else none

/-- Follow a line of a hunk: it stays, is taken away or is put in, as its mark says. -/
def follow (p : Cursor) (line : Message) (old : List Message) : Option Step :=
  match line with
  | [] => none
  | mark :: l =>
    match mark.shown, p.oldLeft, p.newLeft, old with
    | ' ', m + 1, n + 1, o :: old =>
      if o = l then some ⟨⟨p.oldDone + 1, p.newDone + 1, m, n⟩, [l], old⟩ else none
    | '-', m + 1, n, o :: old =>
      if o = l then some ⟨⟨p.oldDone + 1, p.newDone, m, n⟩, [], old⟩ else none
    | '+', m, n + 1, old => some ⟨⟨p.oldDone, p.newDone + 1, m, n⟩, [l], old⟩
    | _, _, _, _ => none

/-- Follow a line of a patch. -/
def step (p : Cursor) (line : Message) (old : List Message) : Option Step :=
  if p.isFree then (readHeader? line).bind (p.enter · old) else p.follow line old

/-- The new lines that the rest of a patch makes of the rest of the old ones. -/
def run : Cursor → (patch old : List Message) → Option (List Message)
  | p, [], old => if p.isFree then some old else none
  | p, line :: patch, old =>
    (p.step line old).bind fun s => (run s.place patch s.left).map (s.written ++ ·)

end Cursor

/-- The two lines at the front of a patch, with the names of the files. -/
def fileHeaders (oldName newName : Text) : List Message :=
  [ofText ("--- ".toList ++ oldName ++ ['\n']), ofText ("+++ ".toList ++ newName ++ ['\n'])]

/-- The new lines that a patch for these files makes of the old ones. -/
def patched? (oldName newName : Text) (patch old : List Message) : Option (List Message) :=
  (after? (fileHeaders oldName newName) patch).bind (({} : Cursor).run · old)

/-! ## Headers that are read -/

theorem numberOf_ofNat (n : Nat) : numberOf 10 (ofNat n) = n := by
  have digits : ofNat n = Nat.toDigits 10 n := by simp [ofNat, Nat.repr]
  have value : numberOf 10 (ofNat n) = Nat.ofDigitChars 10 (ofNat n) 0 := by
    refine List.foldl_ext _ _ 0 fun m c hc => ?_
    simp [hexValue, Resource.Keys.isDigit_of_mem_ofNat hc]
  rw [value, digits, Nat.ofDigitChars_toDigits (by decide) (by decide)]

theorem ofText_append (s t : Text) : ofText (s ++ t) = ofText s ++ ofText t := List.map_append

theorem readNumber?_ofNat (n : Nat) {c : Char} (r : Text) (stop : c.isDigit = false) :
    readNumber? (ofText (ofNat n ++ c :: r)) = some (n, ofText (c :: r)) := by
  have digits : (ofText (ofNat n ++ c :: r)).takeWhile (·.shown.isDigit) = ofText (ofNat n) := by
    have shown : (fun p : CodePoint => p.shown.isDigit) ∘ CodePoint.ofChar = Char.isDigit :=
      funext fun d => by simp [CodePoint.shown_ofChar]
    rw [ofText, List.takeWhile_map, shown,
      List.takeWhile_append_of_pos fun _ => Resource.Keys.isDigit_of_mem_ofNat]
    simp [stop, ofText]
  have filled : ofText (ofNat n) ≠ [] := by
    simp [ofText, ofNat, Nat.repr]
  rw [readNumber?, digits]
  simp only [List.isEmpty_iff, filled, if_false, view_ofText, numberOf_ofNat, ofText_append,
    List.drop_left]

theorem readRange?_rangeText (start size : Nat) {c : Char} (r : Text) (stop : c.isDigit = false)
    (apart : c ≠ ',') :
    readRange? (ofText (rangeText start size ++ c :: r)) =
      some ((start, size), ofText (c :: r)) := by
  have behind : after? (ofText [',']) (ofText (c :: r)) = none := by
    have other : CodePoint.ofChar ',' ≠ CodePoint.ofChar c :=
      fun h => apart (CodePoint.ofChar_injective h).symm
    simp [ofText, after?, other]
  unfold rangeText
  split
  next one =>
    simp [readRange?, readNumber?_ofNat _ r stop, behind, one]
  next several =>
    rw [List.append_assoc, List.cons_append]
    have comma (m : Message) : after? (ofText [',']) (ofText [','] ++ m) = some m :=
      after?_eq_some_iff.2 rfl
    have first := readNumber?_ofNat (if size = 0 then start else start + 1)
      (ofNat size ++ c :: r) (c := ',') (by decide)
    have split : ofText (',' :: (ofNat size ++ c :: r)) =
        ofText [','] ++ ofText (ofNat size ++ c :: r) := rfl
    simp only [readRange?, first, split, comma, readNumber?_ofNat _ r stop, Option.bind_eq_bind,
      Option.bind_some, Option.pure_def]
    split <;> simp

/-- The header of a hunk with these numbers. -/
def Extent.header (e : Extent) : Message :=
  ofText ("@@ -".toList ++ rangeText e.oldStart e.oldSize ++ " +".toList ++
    rangeText e.newStart e.newSize ++ " @@\n".toList)

theorem readHeader?_header (e : Extent) : readHeader? e.header = some e := by
  have after (s t : Text) : after? (ofText s) (ofText (s ++ t)) = some (ofText t) := by
    rw [ofText_append]
    exact after?_eq_some_iff.2 rfl
  let back := rangeText e.newStart e.newSize ++ " @@\n".toList
  have header : e.header =
      ofText ("@@ -".toList ++ (rangeText e.oldStart e.oldSize ++ (" +".toList ++ back))) := by
    simp only [Extent.header, back, List.append_assoc]
  have old : readRange? (ofText (rangeText e.oldStart e.oldSize ++ (" +".toList ++ back))) =
      some ((e.oldStart, e.oldSize), ofText (" +".toList ++ back)) :=
    readRange?_rangeText _ _ ('+' :: back) (by decide) (by decide)
  have new : readRange? (ofText back) = some ((e.newStart, e.newSize), ofText " @@\n".toList) :=
    readRange?_rangeText _ _ "@@\n".toList (by decide) (by decide)
  simp only [header, readHeader?, after, old, new, Option.bind_eq_bind, Option.bind_some, if_true]
  rfl

theorem exists_digits_of_readNumber? {m m' : Message} {n : Nat}
    (h : readNumber? m = some (n, m')) : ∃ front, m = front ++ m' ∧ newline ∉ front := by
  simp only [readNumber?] at h
  split at h
  next => simp at h
  next =>
    simp only [Option.some.injEq, Prod.mk.injEq] at h
    obtain ⟨-, rfl⟩ := h
    refine ⟨m.takeWhile (·.shown.isDigit), ?_, fun mem => ?_⟩
    · exact (List.prefix_iff_eq_append.1 (List.takeWhile_prefix _)).symm
    · have digit := List.mem_takeWhile_imp mem
      rw [shown_newline] at digit
      exact absurd digit (by decide)

theorem exists_digits_of_readRange? {m m' : Message} {range : Nat × Nat}
    (h : readRange? m = some (range, m')) : ∃ front, m = front ++ m' ∧ newline ∉ front := by
  simp only [readRange?, Option.bind_eq_bind, Option.bind_eq_some_iff] at h
  obtain ⟨⟨n, m₁⟩, first, h⟩ := h
  obtain ⟨front, rfl, free⟩ := exists_digits_of_readNumber? first
  split at h
  next m₂ comma =>
    simp only [Option.bind_eq_some_iff] at h
    obtain ⟨⟨k, m₃⟩, second, h⟩ := h
    obtain ⟨front', rfl, free'⟩ := exists_digits_of_readNumber? second
    obtain ⟨-, rfl⟩ : _ ∧ m₃ = m' := by simpa using h
    obtain rfl : m₁ = ofText [','] ++ (front' ++ m₃) := after?_eq_some_iff.1 comma
    have open_ : newline ∉ ofText [','] := by decide
    exact ⟨front ++ ofText [','] ++ front', by simp, by simp [free, free', open_]⟩
  next =>
    obtain ⟨-, rfl⟩ : _ ∧ m₁ = m' := by simpa using h
    exact ⟨front, rfl, free⟩

/-- A header is a line with a newline at its end. -/
theorem isLine_of_readHeader? {line : Message} {e : Extent} (h : readHeader? line = some e) :
    IsLine line ∧ Ended line := by
  simp only [readHeader?, Option.bind_eq_bind, Option.bind_eq_some_iff, after?_eq_some_iff] at h
  obtain ⟨m₁, rfl, ⟨old, m₂⟩, hold, m₃, rfl, ⟨new, m₄⟩, hnew, h⟩ := h
  obtain ⟨front, rfl, free⟩ := exists_digits_of_readRange? hold
  obtain ⟨front', rfl, free'⟩ := exists_digits_of_readRange? hnew
  split at h
  next last =>
    subst last
    have whole : ofText "@@ -".toList ++ (front ++ (ofText " +".toList ++
        (front' ++ ofText " @@\n".toList))) = ofText "@@ -".toList ++ front ++ ofText " +".toList ++
        front' ++ ofText " @@".toList ++ [newline] := by
      simp only [List.append_assoc]
      rfl
    have open_ : newline ∉ ofText "@@ -".toList ∧ newline ∉ ofText " +".toList ∧
        newline ∉ ofText " @@".toList := by decide
    rw [whole]
    refine ⟨⟨by simp, ?_⟩, by simp [Ended]⟩
    simp only [List.dropLast_concat, List.mem_append, free, free', open_, or_self, not_false_iff]
  next => simp at h

end Localizer.Diff
