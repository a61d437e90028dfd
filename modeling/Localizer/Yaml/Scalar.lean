import Localizer.Text.CodePoint
import Localizer.Text.Digit
import Localizer.Yaml.Cursor

/-!
# The texts of scalars

A scalar is written between quotes, as a block of indented lines, or plainly. Line breaks inside
are folded: one becomes a space, and of several the first is dropped. Between double quotes an
escape may name any code point, so that a quoted scalar is a message.
-/

namespace Localizer.Yaml

open Text

/-- A text read from the cursor, and the cursor behind it. -/
abbrev Reading := Except Error (Text × Cursor)

/-- A message read from the cursor, and the cursor behind it. -/
abbrev MessageReading := Except Error (Message × Cursor)

/-- Put something in front of what is read next. -/
def Reading.after {α : Type} (front : List α) (r : Except Error (List α × Cursor)) :
    Except Error (List α × Cursor) :=
  r.map fun p => (front ++ p.1, p.2)

/-- Several line breaks, or their absence, after a first one: what they fold to. -/
def fold (first more : Text) : Text :=
  if first ≠ ['\n'] then first ++ more else if more.isEmpty then [' '] else more

/-! ## Quoted scalars -/

/-- The line breaks of a quoted scalar with the blanks around them dropped. -/
def quotedBreaks : Nat → Cursor → Reading
  | 0, _ => .error .malformed
  | fuel + 1, c =>
    if c.atSeparator then .error .malformed
    else
      let c := c.skipWhile fun ch => ch == ' ' || ch == '\t'
      if isBreak c.peek then
        let (br, c) := c.lineBreak
        Reading.after br (quotedBreaks fuel c)
      else .ok ([], c)

/-- What a backslash and this character stand for in double quotes. -/
def escapeOf? (c : Char) : Option Char :=
  match c with
  | '0' => some '\x00'
  | 'a' => some '\x07'
  | 'b' => some '\x08'
  | 't' => some '\t'
  | '\t' => some '\t'
  | 'n' => some '\n'
  | 'v' => some '\x0b'
  | 'f' => some '\x0c'
  | 'r' => some '\r'
  | 'e' => some '\x1b'
  | ' ' => some ' '
  | '"' => some '"'
  | '\\' => some '\\'
  | '/' => some '/'
  | 'N' => some '\u0085'
  | '_' => some '\u00a0'
  | 'L' => some '\u2028'
  | 'P' => some '\u2029'
  | _ => none

/-- How many hexadecimal digits follow a backslash and this character. -/
def escapeWidth? (c : Char) : Option Nat :=
  match c with
  | 'x' => some 2
  | 'u' => some 4
  | 'U' => some 8
  | _ => none

/-- The code point of a number. -/
def codePointOf (n : Nat) : Except Error CodePoint :=
  if h : n < 0x110000 then .ok ⟨n, h⟩
  else if n < 0x80000000 then .error .badScalar else .error .tooLarge

/-- What a backslash in double quotes stands for; the cursor is behind the backslash. -/
def escape (c : Cursor) : MessageReading :=
  match escapeOf? c.peek, escapeWidth? c.peek with
  | some ch, _ => .ok ([CodePoint.ofChar ch], c.next)
  | none, some width =>
    let digits := c.next.rest.take width
    if digits.length = width ∧ digits.all isHexDigit then
      (codePointOf (numberOf 16 digits)).map fun p => ([p], c.next.skip width)
    else .error .malformed
  | none, none =>
    if isBreak c.peek then
      let c := c.lineBreak.2
      (quotedBreaks c.fuel c).map fun p => (Message.ofText p.1, p.2)
    else .error .malformed

/-- Characters at which plain reading inside quotes stops. -/
def stopsQuoted (c : Char) : Bool := isSpacing c || c == '\'' || c == '"' || c == '\\'

/-- The characters of a quoted scalar up to a blank or the closing quote. -/
def quotedChars (double : Bool) : Nat → Cursor → MessageReading
  | 0, _ => .error .malformed
  | fuel + 1, c =>
    let (front, c) := c.read (!stopsQuoted ·)
    let ch := c.peek
    Reading.after (Message.ofText front) <|
      if !double && ch == '\'' && c.ahead 1 == '\'' then
        Reading.after [CodePoint.ofChar '\''] (quotedChars double fuel (c.skip 2))
      else if (double && ch == '\'') || (!double && (ch == '"' || ch == '\\')) then
        Reading.after [CodePoint.ofChar ch] (quotedChars double fuel c.next)
      else if double && ch == '\\' then do
        let (text, c) ← escape c.next
        Reading.after text (quotedChars double fuel c)
      else .ok ([], c)

/-- The blanks of a quoted scalar, with line breaks folded. -/
def quotedBlanks (c : Cursor) : Reading := do
  let (blanks, c) := c.read fun ch => ch == ' ' || ch == '\t'
  if c.peek == '\x00' then .error .malformed
  else if isBreak c.peek then
    let (br, c) := c.lineBreak
    let (more, c) ← quotedBreaks c.fuel c
    return (fold br more, c)
  else return (blanks, c)

/-- The inside of a quoted scalar; the cursor ends behind the closing quote. -/
def quotedInside (quote : Char) : Nat → Cursor → MessageReading
  | 0, _ => .error .malformed
  | fuel + 1, c => do
    let (text, c) ← quotedChars (quote == '"') c.fuel c
    if c.peek == quote then return (text, c.next)
    let (blanks, c) ← quotedBlanks c
    Reading.after (text ++ Message.ofText blanks) (quotedInside quote fuel c)

/-- A quoted scalar. -/
def quotedScalar (c : Cursor) : MessageReading := quotedInside c.peek c.fuel c.next

/-! ## Block scalars -/

/-- What happens to the line breaks at the end of a block. -/
inductive Chomping where
  /-- One stays. -/
  | clip
  /-- None stays. -/
  | strip
  /-- All stay. -/
  | keep
  deriving Repr, DecidableEq

/-- The chomping that a character asks for. -/
def chomping? (c : Char) : Option Chomping :=
  if c == '+' then some .keep else if c == '-' then some .strip else none

/-- The depth of indentation that a character asks for, from one to nine. -/
def increment? (c : Char) : Except Error (Option Nat) :=
  if c == '0' then .error .malformed
  else if c.isDigit then .ok (some (c.toNat - '0'.toNat))
  else .ok none

/-- The header of a block: the chomping and the depth of indentation, in either order. -/
def blockHeader (c : Cursor) : Except Error (Chomping × Option Nat × Cursor) := do
  let (chomping, increment, c) ← match chomping? c.peek with
    | some chomping => do
      let c := c.next
      match ← increment? c.peek with
      | some n => pure (chomping, some n, c.next)
      | none => pure (chomping, none, c)
    | none => do
      match ← increment? c.peek with
      | some n =>
        let c := c.next
        match chomping? c.peek with
        | some chomping => pure (chomping, some n, c.next)
        | none => pure (.clip, some n, c)
      | none => pure (.clip, none, c)
  if isGap c.peek then return (chomping, increment, c) else .error .malformed

/-- The cursor behind the rest of a line on which only a comment may stand. -/
def ignoredLine (c : Cursor) : Except Error Cursor :=
  let c := (c.skipWhile (· == ' ')).skipComment
  if endsLine c.peek then .ok c.lineBreak.2 else .error .malformed

/-- The empty lines before a block, and the greatest column that the spaces in them reach. -/
def blockIndentation : Nat → Cursor → Text → Nat → Text × Nat × Cursor
  | 0, c, breaks, deepest => (breaks, deepest, c)
  | fuel + 1, c, breaks, deepest =>
    if c.peek == ' ' then blockIndentation fuel c.next breaks (max deepest c.next.column)
    else if isBreak c.peek then
      let (br, c) := c.lineBreak
      blockIndentation fuel c (breaks ++ br) deepest
    else (breaks, deepest, c)

/-- The cursor behind the spaces of an indentation. -/
def skipIndent (indent : Nat) : Nat → Cursor → Cursor
  | 0, c => c
  | fuel + 1, c =>
    if c.column < indent && c.peek == ' ' then skipIndent indent fuel c.next else c

/-- The empty lines within a block. -/
def blockBreaks (indent : Nat) : Nat → Cursor → Text × Cursor
  | 0, c => ([], c)
  | fuel + 1, c =>
    let c := skipIndent indent c.fuel c
    if isBreak c.peek then
      let (br, c) := c.lineBreak
      let (more, c) := blockBreaks indent fuel c
      (br ++ more, c)
    else ([], c)

/-- The lines of a block after the empty lines `breaks`: their text, the last line break, the empty
lines after it, and the cursor behind all. -/
def blockLines (folded : Bool) (indent : Nat) :
    Nat → (breaks : Text) → Cursor → Text × Text × Text × Cursor
  | 0, breaks, c => ([], [], breaks, c)
  | fuel + 1, breaks, c =>
    if c.column ≠ indent ∨ c.peek = '\x00' then ([], [], breaks, c)
    else
      let flush := c.peek != ' ' && c.peek != '\t'
      let (line, c) := c.read (!endsLine ·)
      let (br, c) := c.lineBreak
      let (more, c) := blockBreaks indent c.fuel c
      if c.column = indent ∧ c.peek ≠ '\x00' then
        let joint :=
          if folded && br == ['\n'] && flush && c.peek != ' ' && c.peek != '\t' then
            if more.isEmpty then [' '] else []
          else br
        let (text, last, tail, c) := blockLines folded indent fuel more c
        (breaks ++ line ++ joint ++ text, last, tail, c)
      else (breaks ++ line, br, more, c)

/-- A block scalar inside a structure indented by `indent`; the cursor is at its mark. -/
def blockScalar (folded : Bool) (indent : Int) (c : Cursor) : Reading := do
  let (chomping, increment, c) ← blockHeader c.next
  let c ← ignoredLine c
  let least := (max 1 (indent + 1)).toNat
  let (breaks, depth, c) := match increment with
    | some n =>
      let depth := least + n - 1
      let (breaks, c) := blockBreaks depth c.fuel c
      (breaks, depth, c)
    | none =>
      let (breaks, deepest, c) := blockIndentation c.fuel c [] 0
      (breaks, max least deepest, c)
  let (text, last, tail, c) := blockLines folded depth c.fuel breaks c
  return (match chomping with
    | .clip => text ++ last
    | .strip => text
    | .keep => text ++ last ++ tail, c)

/-! ## Plain scalars -/

/-- Whether a plain scalar stops at the cursor, `n` places ahead. -/
def stopsPlain (inFlow : Bool) (ch following : Char) : Bool :=
  isSpacing ch ||
    (ch == ':' && (isSpacing following || (inFlow && ",[]\x7b\x7d".toList.contains following))) ||
    (inFlow && ",?[]\x7b\x7d".toList.contains ch)

/-- The characters of a plain scalar up to where it stops. -/
def plainChars (inFlow : Bool) : Text → Text
  | [] => []
  | ch :: r => if stopsPlain inFlow ch (r.headD '\x00') then [] else ch :: plainChars inFlow r

/-- The line breaks between the lines of a plain scalar; none before a mark that separates
documents. -/
def plainBreaks : Nat → Cursor → Option Text × Cursor
  | 0, c => (none, c)
  | fuel + 1, c =>
    if c.peek == ' ' then plainBreaks fuel c.next
    else if isBreak c.peek then
      let (br, c) := c.lineBreak
      if c.atSeparator then (none, c)
      else
        let (more, c) := plainBreaks fuel c
        (more.map (br ++ ·), c)
    else (some [], c)

/-- The blanks after a plain scalar's characters: what they fold to, whether a line ended, and the
cursor behind them. -/
def plainBlanks (c : Cursor) : Text × Bool × Cursor :=
  let (spaces, c) := c.read (· == ' ')
  if isBreak c.peek then
    let (br, c) := c.lineBreak
    if c.atSeparator then ([], true, c)
    else match plainBreaks c.fuel c with
      | (none, c) => ([], true, c)
      | (some more, c) => (fold br more, true, c)
  else (spaces, false, c)

/-- The text of a plain scalar from `blanks` on, whether it stopped at the start of a line, and the
cursor behind it. -/
def plainText (inFlow : Bool) (indent : Int) :
    Nat → (blanks : Text) → (lineStart : Bool) → Cursor → Text × Bool × Cursor
  | 0, _, lineStart, c => ([], lineStart, c)
  | fuel + 1, blanks, lineStart, c =>
    if c.peek == '#' then ([], lineStart, c)
    else
      match plainChars inFlow c.rest with
      | [] => ([], lineStart, c)
      | chars =>
        let (more, lineStart, c) := plainBlanks (c.skip chars.length)
        if more.isEmpty || c.peek == '#' || (!inFlow && c.column < indent + 1) then
          (blanks ++ chars, lineStart, c)
        else
          let (text, lineStart, c) := plainText inFlow indent fuel more lineStart c
          (blanks ++ chars ++ text, lineStart, c)

/-- A plain scalar inside a structure indented by `indent`: its text, whether it stopped at the
start of a line, and the cursor behind it. -/
def plainScalar (inFlow : Bool) (indent : Int) (c : Cursor) : Text × Bool × Cursor :=
  plainText inFlow indent c.fuel [] false c

end Localizer.Yaml
