import Localizer.Proofs.Dart.Order
import Mathlib.Data.List.Forall2

/-!
# What masking keeps

The mask and the scan of a buffer go over the same lexemes, so they agree about every buffer, also
about one whose literals or comments are not closed. A lexeme is masked in its own place: each of its
characters stays or becomes a blank, and its newlines stay (`forall₂_masks_lexeme`). So the mask of a
buffer lies over the buffer character by character (`forall₂_masks_mask`), and over the span of a
candidate, which is a lexeme on one line, it is blank (`mask_blank_of_mem_scan`). `mask_covers_scan`
puts this together with the order of the candidates.
-/

namespace Localizer.Dart

open Text

/-- What masking makes of a character: it stays or becomes a blank, and newlines are the same as
before. -/
structure Masks (c m : Char) : Prop where
  same_or_blank : m = c ∨ m = ' '
  newline : m = '\n' ↔ c = '\n'

/-! ## Character by character -/

theorem forall₂_masks_blankOut (s : Text) : List.Forall₂ Masks s (blankOut s) := by
  induction s with
  | nil => exact .nil
  | cons c s ih =>
    refine .cons ?_ ih
    by_cases h : c = '\n'
    · simp only [if_pos h]
      exact ⟨.inl rfl, .rfl⟩
    · simp only [if_neg h]
      exact ⟨.inr rfl, by simp [h]⟩

theorem forall₂_masks_lexeme (x : Lexeme) : List.Forall₂ Masks x.text x.mask := by
  cases x with
  | code c => exact .cons ⟨.inl rfl, .rfl⟩ .nil
  | comment | block | literal => exact forall₂_masks_blankOut _

/-- The mask lies over the buffer. -/
theorem forall₂_masks_mask (s : Text) : List.Forall₂ Masks s (mask s) := by
  have along (xs : List Lexeme) :
      List.Forall₂ Masks (xs.flatMap Lexeme.text) (xs.flatMap Lexeme.mask) := by
    induction xs with
    | nil => exact .nil
    | cons x xs ih => exact List.rel_append (forall₂_masks_lexeme x) ih
  have whole := along (lex s)
  rwa [flatten_lex] at whole

theorem forall₂_masks_slice (s : Text) (i j : Nat) :
    List.Forall₂ Masks (slice s i j) (slice (mask s) i j) :=
  List.forall₂_drop _ (List.forall₂_take _ (forall₂_masks_mask s))

/-- What masking does at an offset. -/
theorem masks_getElem? (s : Text) (i : Nat) :
    (s[i]? = none ∧ (mask s)[i]? = none) ∨
      ∃ c m, s[i]? = some c ∧ (mask s)[i]? = some m ∧ Masks c m := by
  have at_ {s t : Text} (h : List.Forall₂ Masks s t) : (s[i]? = none ∧ t[i]? = none) ∨
      ∃ c m, s[i]? = some c ∧ t[i]? = some m ∧ Masks c m := by
    induction h generalizing i with
    | nil => exact .inl ⟨rfl, rfl⟩
    | cons h _ ih =>
      cases i with
      | zero => exact .inr ⟨_, _, rfl, rfl, h⟩
      | succ i => exact ih i
  exact at_ (forall₂_masks_mask s)

/-! ## The spans of candidates -/

theorem blankOut_of_line {s : Text} (line : '\n' ∉ s) : blankOut s = List.replicate s.length ' ' := by
  refine List.eq_replicate_iff.2 ⟨by simp [blankOut], ?_⟩
  intro m hm
  obtain ⟨c, hc, rfl⟩ := List.mem_map.1 hm
  exact if_neg fun newline : c = '\n' => line (newline ▸ hc)

/-- The mask is blank over the span of a candidate. -/
theorem mask_blank_of_mem_scan {w : Windows} {s : Text} {l : Literal} (h : l ∈ scan w s) :
    slice (mask s) l.offset l.stop = List.replicate l.text.length ' ' := by
  have mem : l.located ∈ Dart.located 0 (lex s) :=
    (scan_sublist w s).subset (List.mem_map_of_mem h)
  obtain ⟨before, after, split, offset⟩ := mem_located_iff.1 mem
  have line : '\n' ∉ l.text := (stands_of_mem_scan h).2.2
  have front : (before.flatMap Lexeme.mask).length = l.offset := by
    rw [Nat.zero_add] at offset
    rw [offset, List.length_flatMap, List.length_flatMap]
    simp only [Lexeme.length_mask]
  have masked : (Lexeme.literal l.quote l.inner).mask = List.replicate l.text.length ' ' :=
    blankOut_of_line line
  rw [mask, split, List.flatMap_append, List.flatMap_cons, masked, slice, Literal.stop,
    ← front, List.take_length_add_append, List.drop_left]
  simp

/-- **The mask and the scan of a buffer agree**, whatever it holds. The mask has the length and the
newlines of the buffer, and each of its characters is that of the buffer or a blank. The spans of the
candidates increase and do not meet; in each stands the candidate, between two quotes of a kind and on
one line; and the mask is blank over it. -/
theorem mask_covers_scan (w : Windows) (s : Text) :
    ((mask s).length = s.length ∧
      (∀ i : Nat, (mask s)[i]? = some '\n' ↔ s[i]? = some '\n') ∧
      ∀ i : Nat, i < s.length → (mask s)[i]? = s[i]? ∨ (mask s)[i]? = some ' ') ∧
    (scan w s).Pairwise (fun a b => a.offset < b.offset ∧ a.stop ≤ b.offset) ∧
    ∀ l ∈ scan w s, l.stop ≤ s.length ∧ slice s l.offset l.stop = l.text ∧
      l.text = l.quote :: (l.inner ++ [l.quote]) ∧ IsQuote l.quote ∧ '\n' ∉ l.text ∧
      slice (mask s) l.offset l.stop = List.replicate l.text.length ' ' := by
  refine ⟨⟨length_mask s, ?_, ?_⟩, ?_, ?_⟩
  · intro i
    rcases masks_getElem? s i with ⟨buffer, masked⟩ | ⟨c, m, buffer, masked, masks⟩
    · simp [buffer, masked]
    · simp [buffer, masked, masks.newline]
  · intro i inside
    rcases masks_getElem? s i with ⟨buffer, -⟩ | ⟨c, m, buffer, masked, masks⟩
    · exact absurd (List.getElem?_eq_none_iff.1 buffer) (by omega)
    · rw [buffer, masked]
      exact masks.same_or_blank.imp (congrArg some) (congrArg some)
  · refine (pairwise_scan w s).imp ?_
    intro a b apart
    have filled : a.offset < a.stop := by simp [Literal.stop, Literal.text]
    exact ⟨by omega, apart⟩
  · intro l hl
    obtain ⟨stands, quote, line⟩ := stands_of_mem_scan hl
    have size := congrArg List.length stands
    refine ⟨?_, stands, rfl, quote, line, mask_blank_of_mem_scan hl⟩
    simp only [slice, List.length_drop, List.length_take, Literal.text, List.length_cons] at size
    simp only [Literal.stop, Literal.text, List.length_cons] at size ⊢
    omega

end Localizer.Dart
