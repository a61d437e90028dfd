import Localizer.Text.Basic

/-!
# The context of a literal

The role that a literal plays on the screen is guessed from the source before it: the first of a
list of marks that occurs within a window of characters decides.
-/

namespace Localizer.Dart

open Text

/-- The role of a literal on the screen. -/
inductive Context where
  | text
  | title
  | appBar
  | snackBar
  | dialog
  | hintText
  | labelText
  | buttonText
  | general
  deriving Repr, DecidableEq

namespace Context

/-- The name by which a context is reported. -/
def name : Context → String
  | text => "text"
  | title => "title"
  | appBar => "appbar"
  | snackBar => "snackbar"
  | dialog => "dialog"
  | hintText => "hintText"
  | labelText => "labelText"
  | buttonText => "buttonText"
  | general => "general"

/-- All contexts. -/
def all : List Context :=
  [text, title, appBar, snackBar, dialog, hintText, labelText, buttonText, general]

/-- The context of that name. -/
def ofName? (s : String) : Option Context := all.find? (·.name == s)

/-- The marks of the contexts, the most telling first: the display-text constructor, the property
names, the containers. -/
def marks : List (Text × Context) :=
  [("Text(".toList, text),
   ("title:".toList, title),
   ("hintText:".toList, hintText),
   ("labelText:".toList, labelText),
   ("buttonText:".toList, buttonText),
   ("AppBar(".toList, appBar),
   ("SnackBar(".toList, snackBar),
   ("AlertDialog(".toList, dialog)]

end Context

/-- The characters of a buffer in the window of `width` before `position`. -/
def preceding (s : Text) (position width : Nat) : Text := slice s (position - width) position

/-- The context that a window shows: that of the first mark which occurs in it. -/
def Context.ofWindow (window : Text) : Context :=
  ((Context.marks.find? fun m => occursIn m.1 window).map Prod.snd).getD .general

/-- The context of a literal at `position`, shown by the window before it. -/
def classify (s : Text) (position width : Nat) : Context :=
  .ofWindow (preceding s position width)

end Localizer.Dart
