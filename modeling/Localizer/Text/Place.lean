import Localizer.Text.Basic

/-!
# Places

A place in a list is known by what stands before it, the nearest item first, and by what follows
it, so that one can look both ways from it. Going from one place to another takes as many steps as
they are apart.

Wherever one comes from, the place that one goes to is the one at that offset (`moveTo_of`); so the
places along a list of offsets are those at the offsets (`along_of`).
-/

namespace Localizer.Text

/-- A place in a list. -/
structure Place (α : Type) where
  /-- How many items stand before it. -/
  offset : Nat
  /-- What stands before it, the nearest first. -/
  back : List α
  /-- What follows it. -/
  rest : List α
  deriving Repr, DecidableEq

namespace Place

variable {α : Type}

/-- The place at an offset of a list; beyond the end of the list, its end. -/
def of (s : List α) (n : Nat) : Place α := ⟨min n s.length, (s.take n).reverse, s.drop n⟩

/-- The list that a place is in. -/
def whole (p : Place α) : List α := p.back.reverse ++ p.rest

/-- The place that comes so many items later. -/
def forth (p : Place α) (n : Nat) : Place α :=
  let passed := p.rest.take n
  ⟨p.offset + passed.length, passed.reverse ++ p.back, p.rest.drop n⟩

/-- The place that comes so many items earlier. -/
def earlier (p : Place α) (n : Nat) : Place α :=
  let passed := p.back.take n
  ⟨p.offset - passed.length, p.back.drop n, passed.reverse ++ p.rest⟩

/-- The place at an offset of the same list. -/
def moveTo (p : Place α) (n : Nat) : Place α :=
  if p.offset ≤ n then p.forth (n - p.offset) else p.earlier (p.offset - n)

/-- Items with the places at their offsets, going from each place to the next. -/
def along {β : Type} (offset : β → Nat) : Place α → List β → List (Place α × β)
  | _, [] => []
  | p, x :: xs =>
    let q := p.moveTo (offset x)
    (q, x) :: along offset q xs

/-- The items before a place, at most so many of them, in their order. -/
def window (p : Place α) (width : Nat) : List α := (p.back.take width).reverse

/-- The part of its line before a place, backwards. -/
def lineBack (p : Place Char) : Text := p.back.takeWhile (· != '\n')

@[simp] theorem whole_of (s : List α) (n : Nat) : (of s n).whole = s := by simp [of, whole]

theorem forth_of {s : List α} {i n : Nat} (h : (of s i).offset ≤ n) :
    (of s i).forth (n - (of s i).offset) = of s n := by
  simp only [of, forth, Place.mk.injEq] at h ⊢
  by_cases hi : i ≤ s.length
  · rw [Nat.min_eq_left hi] at h ⊢
    obtain ⟨k, rfl⟩ := Nat.le.dest h
    rw [Nat.add_sub_cancel_left]
    refine ⟨?_, ?_, by rw [List.drop_drop]⟩
    · simp only [List.length_take, List.length_drop]; omega
    · rw [List.take_add, List.reverse_append]
  · rw [Nat.min_eq_right (by omega)] at h ⊢
    rw [List.drop_of_length_le (by omega : s.length ≤ i), List.drop_of_length_le h,
      List.take_of_length_le (by omega : s.length ≤ i), List.take_of_length_le h]
    simp [h]

theorem earlier_of {s : List α} {i n : Nat} (h : n < (of s i).offset) :
    (of s i).earlier ((of s i).offset - n) = of s n := by
  simp only [of, earlier, Place.mk.injEq] at h ⊢
  have length : (s.take i).length = min i s.length := List.length_take
  have inside : n ≤ i ∧ n ≤ s.length := by omega
  rw [List.take_reverse, List.drop_reverse, length,
    show min i s.length - (min i s.length - n) = n by omega, List.take_take,
    Nat.min_eq_left inside.1]
  refine ⟨?_, rfl, ?_⟩
  · simp only [List.length_reverse, List.length_drop, length]; omega
  · have cut := List.take_append_drop (i - n) (s.drop n)
    rw [List.drop_drop, show n + (i - n) = i by omega] at cut
    rw [List.reverse_reverse, List.drop_take, cut]

/-- The place that one goes to is the one at the offset. -/
@[simp] theorem moveTo_of (s : List α) (i n : Nat) : (of s i).moveTo n = of s n := by
  unfold moveTo
  split
  next h => exact forth_of h
  next h => exact earlier_of (by omega)

/-- The places along a list of offsets are those at the offsets. -/
theorem along_of {β : Type} (offset : β → Nat) (s : List α) (i : Nat) (xs : List β) :
    along offset (of s i) xs = xs.map fun x => (of s (offset x), x) := by
  induction xs generalizing i with
  | nil => rfl
  | cons x xs ih => simp [along, ih]

/-- The window before an offset of a list is the slice that ends there. -/
theorem window_of {s : List α} {n : Nat} (width : Nat) (h : n ≤ s.length) :
    (of s n).window width = slice s (n - width) n := by
  simp [window, of, slice, List.take_reverse, Nat.min_eq_left h]

end Place

end Localizer.Text
