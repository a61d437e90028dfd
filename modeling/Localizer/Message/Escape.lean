import Localizer.Text.CodePoint
import Localizer.Text.Digit

/-!
# Escapes

A literal's text is written with escapes: a backslash before a code point in hexadecimal digits,
before the letter of a control character, or before any other character, which then stands for
itself. `unescape` gives the message that is shown. It fails when an escape names a number beyond
the last code point.
-/

namespace Localizer.Message

open Text

/-- An escape names no code point. -/
inductive EscapeError where
  /-- The number is beyond the last code point. -/
  | beyondUnicode (n : Nat)
  /-- The number does not even fit 31 bits. -/
  | beyondWord (n : Nat)
  deriving Repr, DecidableEq

/-- The code point of a number. -/
def codePoint (n : Nat) : Except EscapeError CodePoint :=
  if h : n < 0x110000 then .ok ⟨n, h⟩
  else if n < 0x80000000 then .error (.beyondUnicode n)
  else .error (.beyondWord n)

/-- A number of exactly `count` hexadecimal digits at the front of a text, and the rest. -/
def fixedHex? (count : Nat) (s : Text) : Option (Nat × Text) :=
  if (s.take count).length = count ∧ (s.take count).all isHexDigit then
    some (numberOf 16 (s.take count), s.drop count)
  else none

/-- A number in braces at the front of a text, of one hexadecimal digit at least, and the rest. -/
def bracedHex? (s : Text) : Option (Nat × Text) :=
  match s with
  | '{' :: r =>
    match r.takeWhile isHexDigit, r.dropWhile isHexDigit with
    | d :: ds, '}' :: rest => some (numberOf 16 (d :: ds), rest)
    | _, _ => none
  | _ => none

/-- The number that an escape names, after its backslash, and the rest. -/
def numericEscape? : Text → Option (Nat × Text)
  | 'u' :: r => (bracedHex? r).or (fixedHex? 4 r)
  | 'x' :: r => fixedHex? 2 r
  | _ => none

/-- The character that a backslash and this character stand for. -/
def namedEscape (c : Char) : Char :=
  match c with
  | 'n' => '\n'
  | 't' => '\t'
  | 'r' => '\r'
  | 'b' => '\x08'
  | 'f' => '\x0c'
  | 'v' => '\x0b'
  | c => c

theorem length_fixedHex? {k n : Nat} {s r : Text} (h : fixedHex? k s = some (n, r)) :
    r.length ≤ s.length := by
  unfold fixedHex? at h
  split at h
  next =>
    simp only [Option.some.injEq, Prod.mk.injEq] at h
    obtain ⟨-, rfl⟩ := h
    simp
  next => simp at h

theorem length_bracedHex? {n : Nat} {s r : Text} (h : bracedHex? s = some (n, r)) :
    r.length ≤ s.length := by
  unfold bracedHex? at h
  split at h
  next t =>
    split at h
    next d ds rest h₁ h₂ =>
      simp only [Option.some.injEq, Prod.mk.injEq] at h
      obtain ⟨-, rfl⟩ := h
      have := (List.dropWhile_suffix (l := t) isHexDigit).length_le
      simp [h₂] at this
      simp; omega
    next => simp at h
  next => simp at h

theorem length_numericEscape? {n : Nat} {s r : Text} (h : numericEscape? s = some (n, r)) :
    r.length < s.length := by
  unfold numericEscape? at h
  split at h
  next t =>
    rcases Option.or_eq_some_iff.1 h with h | ⟨-, h⟩
    · have := length_bracedHex? h; simp; omega
    · have := length_fixedHex? h; simp; omega
  next t => have := length_fixedHex? h; simp; omega
  next => simp at h

/-- The message that a literal's text shows. The first escape that names no code point decides the
error. -/
def unescape : Text → Except EscapeError Message
  | [] => .ok []
  | ['\\'] => .ok [CodePoint.ofChar '\\']
  | '\\' :: c :: r =>
    match h : numericEscape? (c :: r) with
    | some (n, rest) =>
      have : rest.length < r.length + 2 := by have := length_numericEscape? h; simp at this; omega
      do return (← codePoint n) :: (← unescape rest)
    | none => do return CodePoint.ofChar (namedEscape c) :: (← unescape r)
  | c :: r => do return CodePoint.ofChar c :: (← unescape r)
termination_by s => s.length

end Localizer.Message
