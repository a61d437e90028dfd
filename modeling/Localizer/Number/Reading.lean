import Localizer.Number.Double
import Localizer.Text.Basic
import Localizer.Text.Blank
import Localizer.Text.Digit

/-!
# Reading numbers

`Double.ofText?` reads a decimal number with blanks around it: a sign, digits with a point, an
exponent, or the words for infinity and for no number. Digits of any script count, and an
underscore may stand between two digits.
-/

namespace Localizer.Number

open Text

/-- Blanks that may stand around a number: of the basic characters the space and those from the tab
to the carriage return, and all blanks beyond them. -/
def isNumberBlank (c : Char) : Bool :=
  if c.toNat < 0x80 then c == ' ' || ('\t' ≤ c && c ≤ '\r') else isBlank c

/-- A text without the blanks that may stand around a number. -/
def stripNumber (s : Text) : Text := dropEndWhile isNumberBlank (s.dropWhile isNumberBlank)

/-- The text with every decimal digit as a basic one. -/
def plainDigits (s : Text) : Text :=
  s.map fun c => match decimalValue? c with
    | some n => Char.ofNat ('0'.toNat + n)
    | none => c

/-- The text without the underscores between digits; none if an underscore stands elsewhere. -/
def dropUnderscores? (before : Option Char) : Text → Option Text
  | [] => some []
  | '_' :: r =>
    if before.any Char.isDigit && r.head?.any Char.isDigit then dropUnderscores? (some '_') r
    else none
  | c :: r => (dropUnderscores? (some c) r).map (c :: ·)

/-- A sign at the front, and the rest. -/
def sign : Text → Bool × Text
  | '-' :: r => (true, r)
  | '+' :: r => (false, r)
  | r => (false, r)

/-- The exponent of a number, which must be all that is left. -/
def exponent? : Text → Option Int
  | [] => some 0
  | c :: r =>
    if c == 'e' || c == 'E' then
      let (negative, ds) := sign r
      if ds.isEmpty || !ds.all Char.isDigit then none
      else some (if negative then -(numberOf 10 ds : Int) else numberOf 10 ds)
    else none

/-- An unsigned decimal number. -/
def unsigned? (negative : Bool) (s : Text) : Option Double :=
  let whole := s.takeWhile Char.isDigit
  let r := s.dropWhile Char.isDigit
  let (fraction, r) := match r with
    | '.' :: r => (r.takeWhile Char.isDigit, r.dropWhile Char.isDigit)
    | r => ([], r)
  if whole.isEmpty && fraction.isEmpty then none
  else (exponent? r).map fun e =>
    Double.ofDecimal negative (numberOf 10 (whole ++ fraction)) (e - fraction.length)

/-- The double that a text names. -/
def Double.ofText? (s : Text) : Option Double := do
  let s ← dropUnderscores? none (plainDigits (stripNumber s))
  let (negative, r) := sign s
  let word := r.map Char.toLower
  if word = "inf".toList ∨ word = "infinity".toList then return .infinite negative
  if word = "nan".toList then return .nan
  unsigned? negative r

end Localizer.Number
