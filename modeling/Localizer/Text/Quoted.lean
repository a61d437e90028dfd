import Localizer.Text.CodePoint
import Localizer.Text.Hidden

/-!
# Texts in quotes

Messages show a text that a user gave in single quotes, or in double quotes if it has single quotes
and no double ones. The quote, the backslash, hidden characters and surrogates are escaped.
-/

namespace Localizer

namespace Text

/-- A number in at least `width` hexadecimal digits. -/
def hexDigits (width n : Nat) : Text :=
  let digits := Nat.toDigits 16 n
  List.replicate (width - digits.length) '0' ++ digits

/-- The escape of a code point, in the shortest of three widths. -/
def codeEscape (n : Nat) : Text :=
  if n < 0x100 then "\\x".toList ++ hexDigits 2 n
  else if n < 0x10000 then "\\u".toList ++ hexDigits 4 n
  else "\\U".toList ++ hexDigits 8 n

/-- A character inside quotes. -/
def quotedChar (quote c : Char) : Text :=
  if c == quote || c == '\\' then ['\\', c]
  else if c == '\n' then ['\\', 'n']
  else if c == '\r' then ['\\', 'r']
  else if c == '\t' then ['\\', 't']
  else if isHidden c then codeEscape c.toNat
  else [c]

/-- The quote in which a text is shown. -/
def quoteFor (s : Text) : Char := if s.contains '\'' && !s.contains '"' then '"' else '\''

/-- A text in quotes. -/
def quoted (s : Text) : Text :=
  let quote := quoteFor s
  quote :: s.flatMap (quotedChar quote) ++ [quote]

/-- A code point inside quotes. -/
def quotedPoint (quote : Char) (p : CodePoint) : Text :=
  match p.toChar? with
  | some c => quotedChar quote c
  | none => codeEscape p.val

end Text

/-- A message in quotes. -/
def Message.inQuotes (m : Message) : Text :=
  let quote := Text.quoteFor m.view
  quote :: m.flatMap (Text.quotedPoint quote) ++ [quote]

end Localizer
