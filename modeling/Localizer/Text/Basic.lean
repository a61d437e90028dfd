/-!
# Texts

A text is a list of characters, so that every offset and length counts characters. This module
has the searches that the rest of the library shares: whether one list stands at the front of
another or anywhere in it (`after?`, `occursIn`), and where it first occurs (`cut?`). They look at
lists of any kind, because messages are lists of code points. It also has the order of texts by
code point (`le`).
-/

namespace Localizer

/-- A text: a list of characters. -/
abbrev Text := List Char

namespace Text

/-- Characters are finitely many, but what holds of those of a text is decided along the text. -/
instance (priority := 1100) decidableForall (s : Text) (p : Char → Prop) [DecidablePred p] :
    Decidable (∀ c ∈ s, p c) :=
  List.decidableBAll p s

/-- Likewise for a character that a text may start or end with. -/
instance (priority := 1100) decidableForallOption (o : Option Char) (p : Char → Prop)
    [DecidablePred p] : Decidable (∀ c ∈ o, p c) :=
  Option.decidableForallMem o

/-! ## Searching -/

section

variable {α : Type}

/-- The slice of a list from offset `i` up to offset `j`. -/
def slice (s : List α) (i j : Nat) : List α := (s.take j).drop i

theorem getElem?_slice {s : List α} {i j k : Nat} (h : i + k < j) :
    (slice s i j)[k]? = s[i + k]? := by
  simp [slice, List.getElem?_drop, h]

/-- Slices next to one another. -/
theorem slice_append_slice {s : List α} {i j k : Nat} (hij : i ≤ j) (hjk : j ≤ k) :
    slice s i j ++ slice s j k = slice s i k := by
  have cut := List.take_append_drop (j - i) (slice s i k)
  have front : (slice s i k).take (j - i) = slice s i j := by
    rw [slice, slice, List.take_drop, List.take_take, Nat.min_eq_left (by omega),
      Nat.add_sub_cancel' hij]
  have back : (slice s i k).drop (j - i) = slice s j k := by
    rw [slice, slice, List.drop_drop, Nat.add_sub_cancel' hij]
  rwa [front, back] at cut

/-- A list without the items of a class at its end. -/
def dropEndWhile (p : α → Bool) (s : List α) : List α := (s.reverse.dropWhile p).reverse

/-- Put `front` before the first part of a list that was cut in two. -/
def prepend (front : List α) (cut : Option (List α × List α)) : Option (List α × List α) :=
  cut.map fun p => (front ++ p.1, p.2)

theorem prepend_eq_some_iff {front a b : List α} {cut : Option (List α × List α)} :
    prepend front cut = some (a, b) ↔ ∃ t, cut = some (t, b) ∧ a = front ++ t := by
  simp only [prepend, Option.map_eq_some_iff, Prod.mk.injEq, Prod.exists]
  exact ⟨fun ⟨t, _, h, ha, hb⟩ => ⟨t, hb ▸ h, ha.symm⟩, fun ⟨t, h, ha⟩ => ⟨t, b, h, ha.symm, rfl⟩⟩

variable [DecidableEq α]

/-- What follows `pattern` at the front of a list, if it stands there. -/
def after? : (pattern s : List α) → Option (List α)
  | [], s => some s
  | _ :: _, [] => none
  | p :: ps, c :: cs => if p = c then after? ps cs else none

/-- A list starts with `pattern` exactly when it is `pattern` and what follows. -/
theorem after?_eq_some_iff {pattern s r : List α} :
    after? pattern s = some r ↔ s = pattern ++ r := by
  fun_induction after? pattern s with
  | case1 s => simp [eq_comm]
  | case2 => simp
  | case3 ps c cs ih => simp [ih]
  | case4 p ps c cs h => simp [Ne.symm h]

/-- Whether `pattern` occurs somewhere in a list. -/
def occursIn (pattern : List α) : List α → Bool
  | [] => pattern.isEmpty
  | c :: r => pattern.isPrefixOf (c :: r) || occursIn pattern r

theorem occursIn_iff {pattern s : List α} : occursIn pattern s = true ↔ pattern <:+: s := by
  induction s with
  | nil => simp [occursIn]
  | cons c r ih => simp [occursIn, ih, List.infix_cons_iff]

/-- The parts of a list before and after the first occurrence of `pattern`. -/
def cut? (pattern : List α) : List α → Option (List α × List α)
  | [] => if pattern.isEmpty then some ([], []) else none
  | c :: r =>
    match after? pattern (c :: r) with
    | some rest => some ([], rest)
    | none => prepend [c] (cut? pattern r)

/-- The two parts and the pattern between them make up the list. -/
theorem eq_of_cut? {pattern s a b : List α} (h : cut? pattern s = some (a, b)) :
    s = a ++ pattern ++ b := by
  induction s generalizing a with
  | nil =>
    cases pattern <;> simp_all [cut?]
  | cons c r ih =>
    unfold cut? at h
    split at h
    next rest hr =>
      simp only [Option.some.injEq, Prod.mk.injEq] at h
      obtain ⟨rfl, rfl⟩ := h
      simpa using after?_eq_some_iff.1 hr
    next =>
      obtain ⟨t, ht, rfl⟩ := prepend_eq_some_iff.1 h
      simp [ih ht]

/-- The parts of a list before and after the last occurrence of `pattern`. -/
def cutLast? (pattern : List α) : List α → Option (List α × List α)
  | [] => if pattern.isEmpty then some ([], []) else none
  | c :: r =>
    match cutLast? pattern r with
    | some p => some (c :: p.1, p.2)
    | none => (after? pattern (c :: r)).map fun rest => ([], rest)

theorem eq_of_cutLast? {pattern s a b : List α} (h : cutLast? pattern s = some (a, b)) :
    s = a ++ pattern ++ b := by
  induction s generalizing a with
  | nil =>
    cases pattern <;> simp_all [cutLast?]
  | cons c r ih =>
    unfold cutLast? at h
    split at h
    next p hp =>
      simp only [Option.some.injEq, Prod.mk.injEq] at h
      obtain ⟨rfl, rfl⟩ := h
      simp [ih hp]
    next =>
      obtain ⟨rest, hr, hq⟩ := Option.map_eq_some_iff.1 h
      simp only [Prod.mk.injEq] at hq
      obtain ⟨rfl, rfl⟩ := hq
      simpa using after?_eq_some_iff.1 hr

end

/-! ## Lines -/

/-- The lines of a text, cut at its newlines; there is one more of them than there are newlines. -/
def lines (s : Text) : List Text := s.splitOn '\n'

/-- The lines joined by newlines. -/
def unlines (ls : List Text) : Text := ['\n'].intercalate ls

/-! ## Order -/

/-- The order of texts by code point, a text coming before its extensions. -/
def le : Text → Text → Bool
  | [], _ => true
  | _ :: _, [] => false
  | a :: as, b :: bs => a < b || (a == b && le as bs)

theorem le_refl (s : Text) : le s s = true := by
  induction s with
  | nil => rfl
  | cons c r ih => simp [le, ih]

theorem le_trans {a b c : Text} (hab : le a b = true) (hbc : le b c = true) : le a c = true := by
  induction a generalizing b c with
  | nil => rfl
  | cons x xs ih =>
    cases b with
    | nil => simp [le] at hab
    | cons y ys =>
      cases c with
      | nil => simp [le] at hbc
      | cons z zs =>
        simp only [le, Bool.or_eq_true, decide_eq_true_eq, Bool.and_eq_true, beq_iff_eq] at *
        rcases hab with h₁ | ⟨rfl, h₁⟩ <;> rcases hbc with h₂ | ⟨rfl, h₂⟩
        · exact .inl (Char.lt_trans h₁ h₂)
        · exact .inl h₁
        · exact .inl h₂
        · exact .inr ⟨rfl, ih h₁ h₂⟩

theorem le_total (a b : Text) : (le a b || le b a) = true := by
  induction a generalizing b with
  | nil => simp [le]
  | cons x xs ih =>
    cases b with
    | nil => simp [le]
    | cons y ys =>
      have tail := ih ys
      have head : x < y ∨ x = y ∨ y < x := by grind
      simp only [le, Bool.or_eq_true, decide_eq_true_eq, Bool.and_eq_true, beq_iff_eq] at *
      rcases head with h | rfl | h
      · exact .inl (.inl h)
      · exact tail.imp (fun h => .inr ⟨rfl, h⟩) (fun h => .inr ⟨rfl, h⟩)
      · exact .inr (.inl h)

/-- Texts in increasing order. -/
def sort (ts : List Text) : List Text := ts.mergeSort le

/-! ## Printing -/

/-- The decimal digits of a number. -/
def ofNat (n : Nat) : Text := (toString n).toList

/-- The decimal digits of an integer, after a minus sign when it is negative. -/
def ofInt (n : Int) : Text := if n < 0 then '-' :: ofNat n.natAbs else ofNat n.natAbs

/-- Lists joined by a separator. -/
def join {α : Type} (separator : List α) (ts : List (List α)) : List α := separator.intercalate ts

end Text

end Localizer
