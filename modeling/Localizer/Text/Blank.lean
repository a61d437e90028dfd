import Localizer.Text.Range

/-!
# Blank characters

The blanks are the spaces, tabs, line breaks and separators of the character standard together
with the four information separators U+001C to U+001F. `strip` removes them from both ends of a
text, and `words` cuts a text at its runs of blanks.
-/

namespace Localizer.Text

/-- Runs of blank characters, in increasing order. -/
def Blank.ranges : List (Nat × Nat) :=
  [(0x09, 0x0d), (0x1c, 0x20), (0x85, 0x85), (0xa0, 0xa0), (0x1680, 0x1680), (0x2000, 0x200a),
   (0x2028, 0x2029), (0x202f, 0x202f), (0x205f, 0x205f), (0x3000, 0x3000)]

/-- Spaces, tabs, line breaks and separators. -/
def isBlank (c : Char) : Bool := inRanges Blank.ranges c.toNat

/-- The text without its leading blanks. -/
def stripLeft (s : List Char) : List Char := s.dropWhile isBlank

/-- The text without its trailing blanks. -/
def stripRight (s : List Char) : List Char := (s.reverse.dropWhile isBlank).reverse

/-- The text without the blanks at its two ends. -/
def strip (s : List Char) : List Char := stripRight (stripLeft s)

/-- The leading blanks of a text. -/
def indentation (s : List Char) : List Char := s.takeWhile isBlank

/-- The maximal runs of characters outside the class `sep`, in order. -/
def runs (sep : Char → Bool) : List Char → List (List Char)
  | [] => []
  | c :: r =>
    if sep c then runs sep r
    else match r with
      | [] => [[c]]
      | d :: _ =>
        if sep d then [c] :: runs sep r
        else match runs sep r with
          | [] => [[c]]
          | w :: ws => (c :: w) :: ws

/-- The maximal runs of characters that are not blank, in order. -/
def words (s : List Char) : List (List Char) := runs isBlank s

end Localizer.Text
