import Localizer.Text.Basic

/-!
# Messages

The text of a resource is a sequence of code points. An escape of a source literal or of a settings
file may name any code point, a lone surrogate included, so a message can hold values that no
character has; `Message.toText?` gives the text of a message that holds none. Every text is a
message, and `Message.view` shows a message as a text of the same length.
-/

namespace Localizer

/-- A code point, a surrogate or not. -/
abbrev CodePoint := Fin 0x110000

/-- A sequence of code points. -/
abbrev Message := List CodePoint

theorem Text.toNat_lt (c : Char) : c.toNat < 0x110000 := by
  have := c.valid
  simp only [UInt32.isValidChar, Nat.isValidChar] at this
  show c.val.toNat < _
  omega

/-- The letters and digits of the basic alphabet come first. -/
theorem Text.toNat_lt_of_isAlphanum {c : Char} (h : c.isAlphanum = true) : c.toNat < 128 := by
  have ranges : (decide ('A'.val ≤ c.val ∧ c.val ≤ 'Z'.val) ||
      (decide ('a'.val ≤ c.val) && decide (c.val ≤ 'z'.val)) ||
      (decide ('0'.val ≤ c.val) && decide (c.val ≤ '9'.val))) = true := h
  simp only [Bool.or_eq_true, Bool.and_eq_true, decide_eq_true_eq,
    UInt32.le_iff_toNat_le] at ranges
  have upper : 'Z'.val.toNat < 128 := by decide
  have lower : 'z'.val.toNat < 128 := by decide
  have digit : '9'.val.toNat < 128 := by decide
  show c.val.toNat < 128
  omega

/-- What holds of each of the first characters holds of a character that is one of them. -/
theorem Text.of_small {P : Char → Prop} (all : ∀ n : Fin 128, P (Char.ofNat n)) {c : Char}
    (small : c.toNat < 128) : P c := by
  simpa using all ⟨c.toNat, small⟩

namespace CodePoint

/-- The code point of a character. -/
def ofChar (c : Char) : CodePoint := ⟨c.toNat, Text.toNat_lt c⟩

/-- Whether a code point is one half of a pair and no character. -/
def isSurrogate (p : CodePoint) : Bool := decide (0xd800 ≤ p.val ∧ p.val < 0xe000)

/-- The character of a code point, unless it is a surrogate. -/
def toChar? (p : CodePoint) : Option Char := if p.isSurrogate then none else some (Char.ofNat p.val)

theorem toChar?_ofChar (c : Char) : (ofChar c).toChar? = some c := by
  have valid := c.valid
  simp only [UInt32.isValidChar, Nat.isValidChar] at valid
  have low : (ofChar c).isSurrogate = false := by
    rw [isSurrogate, decide_eq_false_iff_not]
    show ¬(0xd800 ≤ c.val.toNat ∧ c.val.toNat < 0xe000)
    omega
  rw [toChar?, low]
  simp [ofChar]

/-- The character that is shown for a code point. A surrogate is shown as the replacement character,
which is no letter, digit, blank or mark either. -/
def shown (p : CodePoint) : Char := p.toChar?.getD '\ufffd'

theorem shown_ofChar (c : Char) : (ofChar c).shown = c := by simp [shown, toChar?_ofChar]

theorem ofChar_injective {c d : Char} (h : ofChar c = ofChar d) : c = d := by
  rw [← shown_ofChar c, h, shown_ofChar]

end CodePoint

namespace Message

/-- The message that a text is. -/
def ofText (s : Text) : Message := s.map CodePoint.ofChar

/-- The text that a message is, unless it holds a surrogate. -/
def toText? (m : Message) : Option Text := m.mapM CodePoint.toChar?

theorem toText?_ofText (s : Text) : (ofText s).toText? = some s := by
  induction s with
  | nil => rfl
  | cons c r ih =>
    simp only [ofText, toText?, List.map_cons, List.mapM_cons, CodePoint.toChar?_ofChar] at ih ⊢
    simp [ih]

/-- A message is a text if it holds no surrogate. -/
theorem isSome_toText?_iff {m : Message} :
    m.toText?.isSome = true ↔ ∀ p ∈ m, p.isSurrogate = false := by
  induction m with
  | nil => simp [toText?]
  | cons p m ih =>
    rw [List.forall_mem_cons, ← ih, toText?, toText?, List.mapM_cons, CodePoint.toChar?]
    cases p.isSurrogate with
    | true => simp
    | false => cases m.mapM CodePoint.toChar? <;> simp

theorem isSurrogate_ofText {s : Text} : ∀ p ∈ ofText s, p.isSurrogate = false :=
  isSome_toText?_iff.1 (by simp [toText?_ofText])

instance : Coe Text Message := ⟨ofText⟩

/-- A message as it is shown, one character for each code point. -/
def view (m : Message) : Text := m.map CodePoint.shown

@[simp]
theorem view_ofText (s : Text) : (ofText s).view = s := by
  induction s with
  | nil => rfl
  | cons c r ih =>
    simp only [ofText, view, List.map_cons, CodePoint.shown_ofChar] at ih ⊢
    rw [ih]

theorem ofText_injective {s t : Text} (h : ofText s = ofText t) : s = t := by
  rw [← view_ofText s, h, view_ofText]

theorem ofChar_mem_ofText {c : Char} {t : Text} : CodePoint.ofChar c ∈ ofText t ↔ c ∈ t := by
  constructor
  · intro mem
    obtain ⟨d, hd, eq⟩ := List.mem_map.1 mem
    exact CodePoint.ofChar_injective eq ▸ hd
  · exact List.mem_map_of_mem

@[simp]
theorem length_view (m : Message) : m.view.length = m.length := by simp [view]

/-- The code point of a newline. -/
def newline : CodePoint := .ofChar '\n'

/-- The lines of a message, cut at its newlines. -/
def lines (m : Message) : List Message := m.splitOn newline

/-- The lines joined by newlines. -/
def unlines (ls : List Message) : Message := [newline].intercalate ls

end Message

end Localizer
