import Localizer.Text.Basic

/-!
# Reading YAML texts

A cursor stands in a YAML text and knows its line and column. The text itself may hold printable
characters only.
-/

namespace Localizer.Yaml

open Text

/-- Why a YAML text has no value. -/
inductive Error where
  /-- The text is no YAML, or asks for a kind of value that is not known. -/
  | malformed
  /-- A scalar is not of the form of the number or the date that it should be. -/
  | badScalar
  /-- A number is too large. -/
  | tooLarge
  /-- A scalar is none of the words for a truth value. -/
  | notTruth
  /-- A scalar has nothing of the form of a date. -/
  | notDate
  /-- A scalar that should be a number is empty. -/
  | emptyNumber
  /-- A mapping stands where a date should. -/
  | notText
  /-- Nodes are nested too deeply. -/
  | tooDeep
  deriving Repr, DecidableEq

/-- What is wrong with a text that is no YAML. -/
def Error.message (_ : Error) : Text := "malformed YAML".toList

/-- A whole number may have this many decimal digits at most. -/
def maxDigits : Nat := 4300

/-- A place in a YAML text. -/
structure Cursor where
  /-- The text from here on. -/
  rest : Text
  /-- How many characters the whole text has. -/
  size : Nat
  /-- How many characters come before. -/
  index : Nat := 0
  line : Nat := 0
  column : Nat := 0
  deriving Repr, DecidableEq

/-- Characters that a YAML text may hold. -/
def isPrintable (c : Char) : Bool :=
  c == '\t' || c == '\n' || c == '\r' || (' ' ≤ c && c ≤ '~') || c == '\u0085' ||
    ('\u00a0' ≤ c && c ≤ '\ud7ff') || ('\ue000' ≤ c && c ≤ '\ufffd') || 0x10000 ≤ c.toNat

/-- Characters that end a line. -/
def isBreak (c : Char) : Bool :=
  c == '\n' || c == '\r' || c == '\u0085' || c == '\u2028' || c == '\u2029'

/-- The end of a line or of the text, which reads as the character zero. -/
def endsLine (c : Char) : Bool := c == '\x00' || isBreak c

/-- The end of a line, or a space. -/
def isGap (c : Char) : Bool := endsLine c || c == ' '

/-- The end of a line, a space or a tab. -/
def isSpacing (c : Char) : Bool := isGap c || c == '\t'

/-- Characters of the names of anchors, directives and tag handles. -/
def isNameChar (c : Char) : Bool := c.isAlphanum || c == '-' || c == '_'

namespace Cursor

/-- The character `n` places ahead; the character zero beyond the end. -/
def ahead (c : Cursor) (n : Nat) : Char := (c.rest.drop n).headD '\x00'

/-- The character at the cursor. -/
def peek (c : Cursor) : Char := c.rest.headD '\x00'

/-- One character further. -/
def next (c : Cursor) : Cursor :=
  match c.rest with
  | [] => c
  | ch :: r =>
    if isBreak ch && !(ch == '\r' && r.head? == some '\n') then
      { c with rest := r, index := c.index + 1, line := c.line + 1, column := 0 }
    else if ch == '\ufeff' then { c with rest := r, index := c.index + 1 }
    else { c with rest := r, index := c.index + 1, column := c.column + 1 }

/-- Some characters further. -/
def skip : Nat → Cursor → Cursor
  | 0, c => c
  | n + 1, c => skip n c.next

/-- The characters of a class at the cursor. -/
def span (c : Cursor) (p : Char → Bool) : Text := c.rest.takeWhile p

/-- The cursor behind the characters of a class. -/
def skipWhile (c : Cursor) (p : Char → Bool) : Cursor := c.skip (c.span p).length

/-- The characters of a class at the cursor, and the cursor behind them. -/
def read (c : Cursor) (p : Char → Bool) : Text × Cursor := (c.span p, c.skipWhile p)

/-- The start of a text. -/
def start (s : Text) : Cursor := { rest := s, size := s.length }

/-- How often a loop that reads on can run at most. -/
def fuel (c : Cursor) : Nat := c.size - c.index + 1

/-- A line break at the cursor as the text that it stands for, empty if there is none, and the
cursor behind it. -/
def lineBreak (c : Cursor) : Text × Cursor :=
  match c.rest with
  | '\r' :: '\n' :: _ => (['\n'], c.skip 2)
  | ch :: _ =>
    if ch == '\r' || ch == '\n' || ch == '\u0085' then (['\n'], c.next)
    else if ch == '\u2028' || ch == '\u2029' then ([ch], c.next)
    else ([], c)
  | [] => ([], c)

/-- The cursor behind a comment, up to the end of the line. -/
def skipComment (c : Cursor) : Cursor :=
  if c.peek == '#' then c.skipWhile (!endsLine ·) else c

/-- Whether a mark of three characters and then a gap stands here. -/
def atMark (c : Cursor) (mark : Text) : Bool := mark.isPrefixOf c.rest && isSpacing (c.ahead 3)

/-- Whether a mark that separates documents stands here. -/
def atSeparator (c : Cursor) : Bool := c.atMark "---".toList || c.atMark "...".toList

end Cursor

end Localizer.Yaml
