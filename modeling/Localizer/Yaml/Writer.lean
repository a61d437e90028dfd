import Localizer.Text.CodePoint
import Localizer.Yaml.Cursor
import Localizer.Yaml.Tag

/-!
# Writing YAML

A mapping of messages and truth values is written as one entry a line. A message is written plainly
when it reads back as itself, else in single quotes, and in double quotes when it holds code points
other than the printable basic ones or blanks that folding would change. What is written is basic
characters only. Lines are broken at a space beyond the width of 80, and go on indented by two.
-/

namespace Localizer.Yaml

open Text

/-- The width beyond which a line is broken. -/
def width : Nat := 80

/-- What a broken line goes on with. -/
def continuation : Text := "\n  ".toList

/-- The column that a broken line goes on at. -/
def continuationColumn : Nat := 2

/-! ## How a text may be written -/

/-- Characters that have a meaning at the front of a scalar. -/
def isFrontMark (c : Char) : Bool := "#,[]\x7b\x7d&*!|>'\"%@`".toList.contains c

/-- Whether a blank or nothing follows. -/
def blankFollows (s : Text) : Bool := s.head?.all isSpacing

/-- Whether the front of a text has a meaning of its own in block collections. -/
def frontIsMark (s : Text) : Bool :=
  "---".toList.isPrefixOf s || "...".toList.isPrefixOf s ||
    match s with
    | c :: r => isFrontMark c || ((c == '?' || c == ':' || c == '-') && blankFollows r)
    | [] => false

/-- Whether a colon before a blank, or a number sign after one, stands behind the front. -/
def hasInnerMark : Text → Bool
  | a :: c :: r =>
    (c == ':' && blankFollows r) || (c == '#' && isSpacing a) || hasInnerMark (c :: r)
  | _ => false

/-- Whether every character is printable and basic, or a newline. -/
def isBasic (s : Text) : Bool := s.all fun c => c == '\n' || (' ' ≤ c && c ≤ '~')

/-- Whether two characters stand side by side somewhere. -/
def hasPair (a b : Char) (s : Text) : Bool := occursIn [a, b] s

/-- Whether folding keeps a text that is written in single quotes. -/
def allowsSingle (s : Text) : Bool := isBasic s && !hasPair '\n' ' ' s && !hasPair ' ' '\n' s

/-- Whether a text can be written plainly. -/
def allowsPlain (s : Text) : Bool :=
  isBasic s && !s.contains '\n' && s.head? != some ' ' && s.getLast? != some ' ' &&
    !frontIsMark s && !hasInnerMark s && Tag.ofPlain s == .str

/-! ## The styles -/

/-- The runs of spaces, of newlines, and of other characters. -/
def runsOf (s : Text) : List Text :=
  s.splitBy fun a b => (a == ' ') == (b == ' ') && (a == '\n') == (b == '\n')

/-- The rest of a plain text from a column on: a single space beyond the width breaks the line. -/
def plainFrom (column : Nat) : List Text → Text
  | [] => []
  | run :: rest =>
    if run = [' '] ∧ width < column then continuation ++ plainFrom continuationColumn rest
    else run ++ plainFrom (column + run.length) rest

/-- A run between single quotes, with the quotes in it doubled. -/
def doubleQuotes (s : Text) : Text := s.flatMap fun c => if c == '\'' then ['\'', '\''] else [c]

/-- The rest of a text between single quotes from a column on. A line break is written once more
than it comes; a space at either end of the text breaks no line. -/
def singleFrom (first : Bool) (column : Nat) : List Text → Text
  | [] => []
  | run :: rest =>
    if run.head? = some '\n' then
      '\n' :: run ++ [' ', ' '] ++ singleFrom false continuationColumn rest
    else if run = [' '] ∧ width < column ∧ !first ∧ !rest.isEmpty then
      continuation ++ singleFrom false continuationColumn rest
    else
      let text := doubleQuotes run
      text ++ singleFrom false (column + text.length) rest

/-- Upper-case hexadecimal digits of a fixed number. -/
def hexText (count n : Nat) : Text :=
  let ds := (Nat.toDigits 16 n).map Char.toUpper
  List.replicate (count - ds.length) '0' ++ ds

/-- How a code point is written between double quotes, if not as it is. -/
def escapeText? (p : CodePoint) : Option Text :=
  match p.val with
  | 0x00 => some "\\0".toList
  | 0x07 => some "\\a".toList
  | 0x08 => some "\\b".toList
  | 0x09 => some "\\t".toList
  | 0x0a => some "\\n".toList
  | 0x0b => some "\\v".toList
  | 0x0c => some "\\f".toList
  | 0x0d => some "\\r".toList
  | 0x1b => some "\\e".toList
  | 0x22 => some "\\\"".toList
  | 0x5c => some "\\\\".toList
  | 0x85 => some "\\N".toList
  | 0xa0 => some "\\_".toList
  | 0x2028 => some "\\L".toList
  | 0x2029 => some "\\P".toList
  | n =>
    if 0x20 ≤ n && n ≤ 0x7e then none
    else if n ≤ 0xff then some ("\\x".toList ++ hexText 2 n)
    else if n ≤ 0xffff then some ("\\u".toList ++ hexText 4 n)
    else some ("\\U".toList ++ hexText 8 n)

/-- A broken line between double quotes before the character `following`: a backslash, and one more
before a space. -/
def doubleBreak (following : Option Char) : Text :=
  '\\' :: continuation ++ if following = some ' ' then ['\\'] else []

/-- The column after such a break. -/
def breakColumn (following : Option Char) : Nat :=
  if following = some ' ' then continuationColumn + 1 else continuationColumn

/-- The rest of a message between double quotes. The characters of `pending`, the last first, are
not written yet; `column` is that before them. -/
def doubleFrom (first : Bool) (pending : Text) (column : Nat) : Message → Text
  | [] => pending.reverse
  | p :: r =>
    match escapeText? p with
    | some escape =>
      let column := column + pending.length + escape.length
      let front := pending.reverse ++ escape
      let following := r.head?.map CodePoint.shown
      if !first && !r.isEmpty && width + 1 < column then
        front ++ doubleBreak following ++ doubleFrom false [] (breakColumn following) r
      else front ++ doubleFrom false [] column r
    | none =>
      let c := p.shown
      if !first && !r.isEmpty && (c == ' ' || pending.isEmpty) &&
          width < column + pending.length then
        pending.reverse ++ doubleBreak (some c) ++
          doubleFrom false [c] (breakColumn (some c)) r
      else doubleFrom false (c :: pending) column r

/-- A message after a key that ends at a column. -/
def scalarText (column : Nat) (m : Message) : Text :=
  let s := m.view
  if allowsPlain s then ' ' :: plainFrom (column + 1) (runsOf s)
  else if allowsSingle s then ' ' :: '\'' :: (singleFrom true (column + 2) (runsOf s) ++ ['\''])
  else ' ' :: '"' :: (doubleFrom true [] (column + 2) m ++ ['"'])

/-! ## Mappings -/

/-- A value that can be written. -/
inductive Scalar where
  | text (m : Message)
  | bool (b : Bool)
  /-- A list without items. -/
  | emptyList
  deriving Repr, DecidableEq

/-- An entry, whose key is written plainly. -/
def entryText (key : Text) (v : Scalar) : Text :=
  key ++ ':' :: (match v with
    | .text m => scalarText (key.length + 1) m
    | .bool b => if b then " true".toList else " false".toList
    | .emptyList => " []".toList) ++ ['\n']

/-- A mapping, one entry a line. This stands for the writer of a library that is no part of the
program: what is proved of all runs uses nothing of how it writes, and holds for any writer in its
place. -/
def writeMapping (entries : List (Text × Scalar)) : Text :=
  entries.flatMap fun e => entryText e.1 e.2

end Localizer.Yaml
