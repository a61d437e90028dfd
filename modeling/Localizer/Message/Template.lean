import Localizer.Text.Basic
import Localizer.Text.Blank
import Localizer.Text.Digit
import Localizer.Text.Word

/-!
# Templates

A literal's text may name variables, by a `$` sign before a word or by an expression in a
`$`-brace group. Its template has a placeholder in braces for each of them. The groups are read
first, and the words in the text that this leaves. A `$` sign after a backslash is plain, and so
is one before a digit, which starts an amount.

`Template.of` gives the template with its variables, and `stripMarkers` the text with a space for
each variable, from which keys are made.
-/

namespace Localizer.Message

open Text

/-- A piece of a text: a plain character, or a marker that names a variable. -/
inductive Piece where
  | plain (c : Char)
  | marker (name : Text)
  deriving Repr, DecidableEq

namespace Piece

/-- A marker's name in braces. -/
def placeholder : Piece → Text
  | plain c => [c]
  | marker name => '{' :: (name ++ ['}'])

/-- A space for a marker. -/
def spaced : Piece → Text
  | plain c => [c]
  | marker _ => [' ']

/-- The name of a marker. -/
def name? : Piece → Option Text
  | plain _ => none
  | marker name => some name

end Piece

/-- The expression of a group after its opening brace, which is not empty, and what follows the
closing brace. -/
def expression? (s : Text) : Option (Text × Text) :=
  match s.takeWhile (· != '}'), s.dropWhile (· != '}') with
  | c :: e, '}' :: rest => some (c :: e, rest)
  | _, _ => none

theorem length_expression? {s e r : Text} (h : expression? s = some (e, r)) :
    r.length < s.length := by
  unfold expression? at h
  split at h
  next c e' rest h₁ h₂ =>
    simp only [Option.some.injEq, Prod.mk.injEq] at h
    obtain ⟨rfl, rfl⟩ := h
    have := (List.dropWhile_suffix (l := s) (· != '}')).length_le
    simp [h₂] at this
    omega
  next => simp at h

/-- The pieces of a text with its groups as markers; `before` is the character before it. -/
def groupPieces (before : Option Char) : Text → List Piece
  | [] => []
  | '$' :: '{' :: r =>
    match h : if before = some '\\' then none else expression? r with
    | some (e, rest) =>
      have : rest.length < r.length := by
        split at h
        next => simp at h
        next => exact length_expression? h
      .marker (strip e) :: groupPieces (some '}') rest
    | none => .plain '$' :: groupPieces (some '$') ('{' :: r)
  | c :: r => .plain c :: groupPieces (some c) r
termination_by s => s.length

/-- The word after a `$` sign, unless it is empty or starts with a digit, and the rest. -/
def wordName? (s : Text) : Option (Text × Text) :=
  match s.takeWhile isWord with
  | [] => none
  | c :: w => if isDigit c then none else some (c :: w, s.dropWhile isWord)

theorem length_wordName? {s w r : Text} (h : wordName? s = some (w, r)) :
    r.length < s.length := by
  unfold wordName? at h
  split at h
  next => simp at h
  next c w' hw =>
    split at h
    next => simp at h
    next =>
      simp only [Option.some.injEq, Prod.mk.injEq] at h
      obtain ⟨-, rfl⟩ := h
      have := congrArg List.length (List.takeWhile_append_dropWhile (p := isWord) (l := s))
      simp [hw] at this
      omega

/-- Whether a `$` sign after this character may name a variable. -/
def allowsSign : Option Char → Bool
  | some c => !isWord c && c != '\\'
  | none => true

/-- The pieces of a text with its `$` words as markers; `before` is the character before it. -/
def wordPieces (before : Option Char) : Text → List Piece
  | [] => []
  | '$' :: r =>
    match h : if allowsSign before then wordName? r else none with
    | some (w, rest) =>
      have : rest.length < r.length := by
        split at h
        next => exact length_wordName? h
        next => simp at h
      .marker w :: wordPieces w.getLast? rest
    | none => .plain '$' :: wordPieces (some '$') r
  | c :: r => .plain c :: wordPieces (some c) r
termination_by s => s.length

/-- A text with placeholders, and the variables that they name. -/
structure Template where
  /-- The names, each once: those of groups first, then those of words. -/
  names : List Text
  /-- The text. -/
  text : Text
  deriving Repr, DecidableEq

namespace Template

/-- The template of a literal's text. -/
def of (s : Text) : Template :=
  let groups := groupPieces none s
  let words := wordPieces none (groups.flatMap Piece.placeholder)
  ⟨((groups ++ words).filterMap Piece.name?).eraseDups, words.flatMap Piece.placeholder⟩

/-- Whether a template names any variable. -/
def hasVariables (t : Template) : Bool := !t.names.isEmpty

end Template

/-- Whether a name is an identifier: a letter or underscore of the basic alphabet, and word
characters. -/
def isIdentifier : Text → Bool
  | c :: r => (c.isAlpha || c == '_') && r.all isWord
  | [] => false

/-- Whether every variable is an identifier, so that it can be passed as an argument. -/
def Template.isSimple (t : Template) : Bool := t.names.all isIdentifier

/-- A literal's text with a space for each variable. -/
def stripMarkers (s : Text) : Text :=
  (wordPieces none ((groupPieces none s).flatMap Piece.spaced)).flatMap Piece.spaced

/-! ## Documentation of the variables -/

/-- The description of a resource with these variables. -/
def describe (names : List Text) : Text :=
  if names.isEmpty then "Localized string".toList
  else "Localized string with parameters: ".toList ++ join ", ".toList names

/-- What a resource says of one of its placeholders. -/
structure Placeholder where
  /-- The name in braces. -/
  name : Text
  /-- Its attributes, in order. -/
  attributes : List (Text × Text)
  deriving Repr, DecidableEq

/-- An example value for a variable: its own name, but for a user's name. -/
def exampleOf (name : Text) : Text :=
  if name = "username".toList then "John".toList else name

/-- The placeholder of a variable: a string, with an example. -/
def Placeholder.ofVariable (name : Text) : Placeholder :=
  ⟨name, [("type".toList, "String".toList), ("example".toList, exampleOf name)]⟩

end Localizer.Message
