import Localizer.Resource.Dictionary
import Localizer.Resource.Table

/-!
# The resource file

The resource file is a document of named members: the locale first, and then, for each key in
order, its text and, under the key after an at sign, what is known about it. A name that comes a
second time keeps its place and takes the later member. The text of the file is indented by two
spaces and holds every character as it is, but for the quote, the backslash and the control
characters.
-/

namespace Localizer.Resource.Arb

open Text Message

/-- A member of the document. -/
inductive Member where
  /-- A text. -/
  | value (m : Message)
  /-- A list without items, in the place of a locale that was not named. -/
  | emptyList
  /-- What is known about a text. -/
  | metadata (description : Text) (placeholders : List Placeholder)
  deriving Repr, DecidableEq

/-- The members of the file by name, in order. -/
abbrev Document := Dictionary Text Member

/-- The locale of a template unless another is given. -/
def defaultLocale : Member := .value "en".toList

/-- The members of an entry. -/
def members (e : Entry) : List (Text × Member) :=
  [(e.key, .value e.value),
   ('@' :: e.key, .metadata e.description (e.placeholders.getD []))]

/-- The document of a table. -/
def document (t : Table) (locale : Member) : Document :=
  Dictionary.ofPairs (("@@locale".toList, locale) :: t.entries.flatMap members)

/-! ## The text of the file -/

/-- The four hexadecimal digits of a control character. -/
def hex4 (n : Nat) : Text :=
  let digits := Nat.toDigits 16 n
  List.replicate (4 - digits.length) '0' ++ digits

/-- How a code point is written inside quotes. -/
def quoteCodePoint (p : CodePoint) : Message :=
  match p.val with
  | 0x22 => ofText "\\\"".toList
  | 0x5c => ofText "\\\\".toList
  | 0x0a => ofText "\\n".toList
  | 0x0d => ofText "\\r".toList
  | 0x09 => ofText "\\t".toList
  | 0x08 => ofText "\\b".toList
  | 0x0c => ofText "\\f".toList
  | n => if n < 0x20 then ofText ("\\u".toList ++ hex4 n) else [p]

/-- A message in quotes. -/
def quoted (m : Message) : Message :=
  ofText ['"'] ++ m.flatMap quoteCodePoint ++ ofText ['"']

/-- An object whose members' values are already written, at a depth of indentation. -/
def object (depth : Nat) (members : List (Text × Message)) : Message :=
  if members.isEmpty then ofText ['{', '}']
  else
    let pad := List.replicate (2 * (depth + 1)) ' '
    let row := fun (m : Text × Message) =>
      ofText pad ++ quoted (ofText m.1) ++ ofText ": ".toList ++ m.2
    ofText ['{', '\n'] ++ (ofText [',', '\n']).intercalate (members.map row) ++
      ofText ('\n' :: (List.replicate (2 * depth) ' ' ++ ['}']))

/-- A placeholder's attributes. -/
def renderPlaceholder (p : Placeholder) : Message :=
  object 3 (p.attributes.map fun a => (a.1, quoted (ofText a.2)))

/-- The value of a member. -/
def renderMember : Member → Message
  | .value m => quoted m
  | .emptyList => ofText ['[', ']']
  | .metadata description placeholders =>
    object 1 (("description".toList, quoted (ofText description)) ::
      if placeholders.isEmpty then []
      else [("placeholders".toList,
        object 2 (placeholders.map fun p => (p.name, renderPlaceholder p)))])

/-- The text of the file. -/
def render (d : Document) : Message :=
  object 0 (d.map fun m => (m.1, renderMember m.2)) ++ ofText ['\n']

end Localizer.Resource.Arb
