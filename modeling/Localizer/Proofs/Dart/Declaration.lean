import Localizer.Proofs.Dart.Const
import Localizer.Proofs.Text.Break
import Localizer.Proofs.Text.Infix

/-!
# Behind complete declarations

Behind a balanced text no bracket is open, so the walk outwards from there goes past whole groups, and
stops at the last semicolon that stands outside of all of them or at the start of the buffer. What is
tested for a constant declaration is all that stands between (`LastStretch`), and a closing brace that
ends an earlier declaration is part of it (`isSome_enclosingConst_stretch`). Behind such a brace the test
sees nothing of what follows (`isSome_declarationConst?_brace`).
-/

namespace Localizer.Dart

open Text

/-! ## The last stretch -/

/-- What stands in a text behind the last semicolon outside of all its groups. -/
structure LastStretch (s b : Text) : Prop where
  stop : s = b ∨ ∃ a, s = a ++ ';' :: b
  keepsOpen : KeepsOpen b
  inside : ∀ x y, b = x ++ ';' :: y → ¬KeepsOpen y

theorem exists_lastStretch {s : Text} (h : KeepsOpen s) : ∃ b, LastStretch s b := by
  have last (s : Text) : (∀ x y, s = x ++ ';' :: y → ¬KeepsOpen y) ∨
      ∃ a b, s = a ++ ';' :: b ∧ KeepsOpen b ∧ ∀ x y, b = x ++ ';' :: y → ¬KeepsOpen y := by
    induction s with
    | nil => exact .inl (by simp)
    | cons c s ih =>
      rcases ih with none | ⟨a, b, rfl, keepsOpen, none⟩
      · by_cases here : c = ';' ∧ KeepsOpen s
        · exact .inr ⟨[], s, by rw [here.1]; rfl, here.2, none⟩
        · refine .inl fun x y eq keepsOpen => ?_
          cases x with
          | nil =>
            obtain ⟨rfl, rfl⟩ := List.cons.inj eq
            exact here ⟨rfl, keepsOpen⟩
          | cons d x => exact none x y (List.cons.inj eq).2 keepsOpen
      · exact .inr ⟨c :: a, b, rfl, keepsOpen, none⟩
  rcases last s with none | ⟨a, b, rfl, keepsOpen, none⟩
  · exact ⟨s, .inl rfl, h, none⟩
  · exact ⟨b, .inr ⟨a, rfl⟩, keepsOpen, none⟩

theorem LastStretch.isSuffix {s b : Text} (h : LastStretch s b) : ∃ a, s = a ++ b := by
  rcases h.stop with rfl | ⟨a, rfl⟩
  · exact ⟨[], rfl⟩
  · exact ⟨a ++ [';'], by simp⟩

/-- What follows a balanced text is constant by the declaration that its last stretch begins. -/
theorem isSome_enclosingConst_stretch {s b t rest : Text} (balanced : Balanced s)
    (last : LastStretch s b)
    (plain : ∀ c ∈ t, isOpener c = false ∧ isCloser c = false ∧ c ≠ ';') :
    (enclosingConst (s ++ t ++ rest) (s ++ t).length).isSome = (declarationConst? (b ++ t)).isSome := by
  have keepsOpen : KeepsOpen (b ++ t) := last.keepsOpen.append (.of_forall fun c hc => (plain c hc).2.1)
  have outside : ∀ x c y, b ++ t = x ++ c :: y → KeepsOpen (y ++ []) →
      isOpener c = false ∧ c ≠ ';' := by
    intro x c y eq opens
    rw [List.append_nil] at opens
    rcases split_append eq with ⟨z, hb, rfl⟩ | ⟨z, rfl, ht⟩
    · -- in the stretch all brackets are closed and all semicolons stand in groups
      have opens := opens.of_isPrefix (List.prefix_append z t)
      refine ⟨?_, ?_⟩
      · by_contra opener
        obtain ⟨a, hs⟩ := last.isSuffix
        rw [hb, ← List.append_assoc] at hs
        rw [hs] at balanced
        exact balanced.closed (by simpa using opener) opens
      · rintro rfl
        exact last.inside x z hb opens
    · have := plain c (by rw [ht]; simp)
      exact ⟨this.1, this.2.2⟩
  have walk (back : Text) : walkOut 0 true [] ((b ++ t).reverse ++ back) =
      walkOut 0 true (b ++ t) back := by
    have past := walkOut_append back true outside
    rwa [List.append_nil, closes_eq_zero_iff.2 keepsOpen] at past
  rw [enclosingConst, List.take_left' rfl, constBefore?]
  rcases last.stop with rfl | ⟨a, rfl⟩
  · have walked := walk []
    rw [List.append_nil] at walked
    rw [walked, walkOut.eq_def]
  · rw [show (a ++ ';' :: b ++ t).reverse = (b ++ t).reverse ++ ';' :: a.reverse by simp, walk,
      walkOut, if_neg (by decide), if_neg (by decide), if_pos (by decide), Option.isSome_map]

/-! ## The declaration of a stretch -/

section

variable {x r : Text}

theorem startsWithWord_append_cons {word : Text} {c : Char} (free : c ∉ word) (t : Text) :
    startsWithWord word (x ++ c :: r) = startsWithWord word (x ++ c :: t) := by
  by_cases front : word <+: x
  · obtain ⟨y, rfl⟩ := front
    have starts (z : Text) : word.isPrefixOf (word ++ z) = true :=
      List.isPrefixOf_iff_prefix.2 (List.prefix_append word z)
    cases y <;> simp [startsWithWord, atBoundary, starts]
  · have none (r : Text) : word.isPrefixOf (x ++ c :: r) = false := by
      rw [Bool.eq_false_iff, ne_eq, List.isPrefixOf_iff_prefix, isPrefix_append_cons free]
      exact front
    simp [startsWithWord, none]

/-- A text without the word `static` at its front and the blanks behind that. -/
def withoutStatic (s : Text) : Text :=
  match after? "static".toList s with
  | some (c :: rest) => if isBlank c then stripLeft rest else s
  | _ => s

theorem isSome_declarationConst? (s : Text) : (declarationConst? s).isSome =
    startsWithWord "const".toList (withoutStatic (stripLeft s)) := by
  change (if startsWithWord "const".toList (withoutStatic (stripLeft s)) then some _
    else none).isSome = _
  split <;> simp_all

theorem isBlank_brace : isBlank '}' = false := by decide +kernel

section

variable {c : Char} (solid : isBlank c = false)
include solid

theorem stripLeft_append_cons : stripLeft (x ++ c :: r) = stripLeft x ++ c :: r :=
  dropWhile_append_cons solid

/-- The test for a declaration does not look past a character that is neither a blank nor a letter of
its first word. -/
theorem withoutStatic_append_cons (free : c ∉ "static".toList) :
    withoutStatic (x ++ c :: r) = withoutStatic x ++ c :: r := by
  rw [withoutStatic, withoutStatic, after?_append_cons free]
  cases after? "static".toList x with
  | none => rfl
  | some y =>
    cases y with
    | nil => simp [solid]
    | cons d y =>
      simp only [Option.map_some, List.cons_append, stripLeft_append_cons solid]
      split <;> rfl

end

/-- A closing brace ends the test for a declaration. -/
theorem isSome_declarationConst?_brace (t : Text) :
    (declarationConst? (x ++ '}' :: r)).isSome = (declarationConst? (x ++ '}' :: t)).isSome := by
  rw [isSome_declarationConst?, isSome_declarationConst?, stripLeft_append_cons isBlank_brace,
    stripLeft_append_cons isBlank_brace, withoutStatic_append_cons isBlank_brace (by decide),
    withoutStatic_append_cons isBlank_brace (by decide), startsWithWord_append_cons (by decide) t]

end

end Localizer.Dart
