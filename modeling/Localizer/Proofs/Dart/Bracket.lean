import Localizer.Text.Basic
import Localizer.Text.Blank
import Mathlib.Data.List.Infix

/-!
# Open brackets

Brackets are counted without regard to their kind. Behind a bracket or a statement's end, a text may
close what was opened before it or leave that open (`KeepsOpen`); this is what tells a bracket that is
still open at a position from one whose group is closed there, and a character outside of all closed
groups from one inside of them. Read from its end, a text closes so many groups that were opened
before it (`closes`), and keeps them open if it closes none (`closes_eq_zero_iff`).
-/

namespace Localizer.Dart

open Text

/-- An opening bracket. -/
def isOpener (c : Char) : Bool := c == '(' || c == '[' || c == '{'

/-- A closing bracket. -/
def isCloser (c : Char) : Bool := c == ')' || c == ']' || c == '}'

/-- What is open before a text is open behind it, too: no part at its front closes more brackets
than it opens. -/
def KeepsOpen (s : Text) : Prop :=
  ∀ front, front <+: s → front.countP isCloser ≤ front.countP isOpener

/-- How many of the brackets that are open before a text it closes. -/
def closes : Text → Nat
  | [] => 0
  | c :: r =>
    if isCloser c then closes r + 1
    else if isOpener c then closes r - 1
    else closes r

theorem isOpener_of_isCloser {c : Char} (h : isCloser c = true) : isOpener c = false := by
  simp only [isCloser, Bool.or_eq_true, beq_iff_eq] at h
  rcases h with (rfl | rfl) | rfl <;> decide

theorem isCloser_of_isOpener {c : Char} (h : isOpener c = true) : isCloser c = false := by
  simp only [isOpener, Bool.or_eq_true, beq_iff_eq] at h
  rcases h with (rfl | rfl) | rfl <;> decide

theorem isOpener_of_isBlank {c : Char} (h : isBlank c = true) : isOpener c = false := by
  by_contra opener
  simp only [isOpener, Bool.not_eq_false, Bool.or_eq_true, beq_iff_eq] at opener
  rcases opener with (rfl | rfl) | rfl
  all_goals revert h; decide +kernel

theorem isCloser_of_isBlank {c : Char} (h : isBlank c = true) : isCloser c = false := by
  by_contra closer
  simp only [isCloser, Bool.not_eq_false, Bool.or_eq_true, beq_iff_eq] at closer
  rcases closer with (rfl | rfl) | rfl
  all_goals revert h; decide +kernel

theorem closes_le_iff {s : Text} {n : Nat} : closes s ≤ n ↔
    ∀ front, front <+: s → front.countP isCloser ≤ front.countP isOpener + n := by
  induction s generalizing n with
  | nil => simp [closes]
  | cons c r ih =>
    have fronts (p : Text → Prop) :
        (∀ front, front <+: c :: r → p front) ↔ p [] ∧ ∀ front, front <+: r → p (c :: front) := by
      simp only [List.prefix_cons_iff]
      constructor
      · intro h
        exact ⟨h [] (.inl rfl), fun front hr => h _ (.inr ⟨front, rfl, hr⟩)⟩
      · rintro ⟨empty, more⟩ front (rfl | ⟨front, rfl, hr⟩)
        · exact empty
        · exact more front hr
    rw [fronts, closes]
    cases closer : isCloser c with
    | true =>
      have opener := isOpener_of_isCloser closer
      simp only [↓reduceIte, List.countP_nil, Nat.zero_le, true_and, List.countP_cons, closer,
        opener, Bool.false_eq_true]
      cases n with
      | zero =>
        refine iff_of_false (by omega) fun h => ?_
        simpa using h [] List.nil_prefix
      | succ n =>
        rw [Nat.add_le_add_iff_right, ih]
        exact forall₂_congr fun _ _ => by omega
    | false =>
      cases opener : isOpener c with
      | true =>
        simp only [Bool.false_eq_true, ↓reduceIte, List.countP_nil, Nat.zero_le, true_and,
          List.countP_cons, closer, opener]
        rw [Nat.sub_le_iff_le_add, ih]
        exact forall₂_congr fun _ _ => by omega
      | false =>
        simp only [Bool.false_eq_true, ↓reduceIte, List.countP_nil, Nat.zero_le, true_and,
          List.countP_cons, closer, opener]
        exact ih

theorem closes_eq_zero_iff {s : Text} : closes s = 0 ↔ KeepsOpen s := by
  rw [← Nat.le_zero, closes_le_iff]
  rfl

instance (s : Text) : Decidable (KeepsOpen s) := decidable_of_iff _ closes_eq_zero_iff

namespace KeepsOpen

variable {a b : Text}

theorem of_isPrefix (h : KeepsOpen b) (front : a <+: b) : KeepsOpen a :=
  fun _ inner => h _ (inner.trans front)

theorem of_forall (h : ∀ c ∈ a, isCloser c = false) : KeepsOpen a := by
  intro front inner
  have none : front.countP isCloser = 0 :=
    List.countP_eq_zero.2 fun c hc => by simp [h c (inner.subset hc)]
  omega

theorem append (ha : KeepsOpen a) (hb : KeepsOpen b) : KeepsOpen (a ++ b) := by
  intro front inner
  rcases List.prefix_or_prefix_of_prefix inner (List.prefix_append a b) with inner | ⟨more, rfl⟩
  · exact ha _ inner
  · have first := ha a List.prefix_rfl
    have second := hb more ((List.prefix_append_right_inj a).1 inner)
    rw [List.countP_append, List.countP_append]
    omega

end KeepsOpen

/-- Every bracket of a text is closed in it, and every one that it closes is opened in it. -/
structure Balanced (s : Text) : Prop where
  keepsOpen : KeepsOpen s
  count : s.countP isOpener = s.countP isCloser

instance (s : Text) : Decidable (Balanced s) :=
  decidable_of_iff (KeepsOpen s ∧ s.countP isOpener = s.countP isCloser)
    ⟨fun ⟨a, b⟩ => ⟨a, b⟩, fun ⟨a, b⟩ => ⟨a, b⟩⟩

/-- No bracket of a balanced text is open at its end. -/
theorem Balanced.closed {a b : Text} {c : Char} (h : Balanced (a ++ c :: b))
    (opener : isOpener c = true) : ¬KeepsOpen b := by
  intro keepsOpen
  have before := h.keepsOpen a (List.prefix_append _ _)
  have behind := keepsOpen b List.prefix_rfl
  have count := h.count
  have closer := isCloser_of_isOpener opener
  simp only [List.countP_append, List.countP_cons, opener, closer, ↓reduceIte, Bool.false_eq_true]
    at count
  omega

end Localizer.Dart
