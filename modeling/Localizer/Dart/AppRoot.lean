import Localizer.Text.Blank
import Localizer.Text.Word
import Localizer.Text.Basic

/-!
# The app root constructor

The root widget of an app is made by the constructor of one of two classes, possibly by its
`.router` variant. `appRoot?` finds the first such call in a buffer.
-/

namespace Localizer.Dart

open Text

/-- The classes of app roots. -/
def appRootClasses : List Text := ["MaterialApp".toList, "CupertinoApp".toList]

/-- The head of an app root call at the front of a text, up to and with its parenthesis, and the
rest. -/
def appRootHead? (s : Text) : Option (Text × Text) :=
  (appRootClasses.findSome? fun name => (after? name s).map (name, ·)).bind fun (name, r) =>
    let (variant, r) := match after? ".router".toList r with
      | some r => (".router".toList, r)
      | none => ([], r)
    match r.dropWhile isBlank with
    | '(' :: rest => some (name ++ variant ++ r.takeWhile isBlank ++ ['('], rest)
    | _ => none

/-- The first app root call of a text that follows the characters `before`, the nearest of them
first: what stands before the call, the head of the call, and the rest. -/
def findAppRoot (before : Text) : Text → Option (Text × Text × Text)
  | [] => none
  | c :: r =>
    match if atBoundary before then appRootHead? (c :: r) else none with
    | some (head, rest) => some ([], head, rest)
    | none => (findAppRoot (c :: before) r).map fun (a, head, rest) => (c :: a, head, rest)

/-- The first app root call of a buffer: what stands before it, its head with the parenthesis, and
the rest. -/
def appRoot? (s : Text) : Option (Text × Text × Text) := findAppRoot [] s

end Localizer.Dart
