import Localizer.Text.Basic
import Localizer.Text.Blank
import Localizer.Text.Digit

/-!
# Which literals are translated

A literal whose text is too short, a number, a location or a name of the framework is left in the
source: to skip a text that could be translated is better than to break code.
-/

namespace Localizer.Message

open Text

/-- Texts that mark a literal as a location of a resource or a name of the framework. -/
def codeMarks : List Text := [
  "assets/".toList, "fonts/".toList, "images/".toList, ".png".toList, ".jpg".toList,
  ".jpeg".toList, ".gif".toList, ".webp".toList, ".svg".toList, ".json".toList, ".dart".toList,
  "package:".toList, "dart:".toList,
  "MaterialApp".toList, "StatelessWidget".toList, "StatefulWidget".toList, "key:".toList,
  "const ".toList, "super.key".toList, "DateTime.now()".toList, "Colors.".toList,
  "EdgeInsets.".toList, "BorderRadius.".toList, "BoxShadow(".toList, "FontWeight.".toList,
  "TextStyle(".toList, "IconData(".toList, "Alignment.".toList, "MainAxisAlignment.".toList,
  "CrossAxisAlignment.".toList, "TextDirection.".toList, "FlexFit.".toList, "Clip.".toList,
  "BlendMode.".toList, "BoxFit.".toList, "FilterQuality.".toList, "ImageRepeat.".toList,
  "Locale(".toList, "TargetPlatform.".toList, "Brightness.".toList, "ThemeMode.".toList,
  "FloatingActionButtonLocation.".toList, "TextCapitalization.".toList,
  "TextInputAction.".toList, "TextInputType.".toList, "Overflow.".toList, "StackFit.".toList,
  "WrapAlignment.".toList, "WrapCrossAlignment.".toList, "VerticalDirection.".toList,
  "Axis.".toList, "BoxShape.".toList, "BoxBorder.".toList, "BorderStyle.".toList,
  "TableBorder.".toList, "TableCellVerticalAlignment.".toList,
  "TableRowInkDecoration.".toList, "HitTestBehavior.".toList, "MaterialType.".toList,
  "MaterialTapTargetSize.".toList, "SnackBarBehavior.".toList, "SnackBarClosedReason.".toList,
  "TooltipTriggerMode.".toList, "AdaptiveTextSelectionToolbar.buttonItems".toList]

/-- Whether a text has ended, possibly with one newline still to come. -/
def atEnd (s : Text) : Bool := s.isEmpty || s == ['\n']

/-- Whether a text is a number: digits, a point at most, and digits. -/
def isNumeric (s : Text) : Bool :=
  s.head?.any isDecimal &&
    match s.dropWhile isDecimal with
    | '.' :: r => atEnd (r.dropWhile isDecimal)
    | r => atEnd r

/-- Whether a text is one letter. -/
def isSingleLetter : Text → Bool
  | c :: r => c.isAlpha && atEnd r
  | [] => false

/-- Whether a text is the path of a screen: a slash and no blank. -/
def isRoute : Text → Bool
  | '/' :: r => atEnd (r.dropWhile fun c => !isBlank c)
  | _ => false

/-- Whether a text has a slash and no space, and is cut by slashes into three parts at least or is
a route. -/
def isPathLike (s : Text) : Bool :=
  s.contains '/' && !s.contains ' ' && (2 < (s.splitOn '/').length || isRoute s)

/-- What is left in the source besides numbers, letters and locations: literals in which one of
these texts occurs. -/
structure Filter where
  /-- The texts, none of them empty. -/
  patterns : List Text
  deriving Repr, DecidableEq

/-- The marks of code together with further patterns; an empty pattern is dropped. -/
def Filter.ofExtra (extra : List Text) : Filter := ⟨codeMarks ++ extra.filter (!·.isEmpty)⟩

/-- Whether a literal's text stays in the source. -/
def Filter.ignores (f : Filter) (s : Text) : Bool :=
  s.length ≤ 1 || (strip s).isEmpty || isNumeric s || isSingleLetter s ||
    "http://".toList.isPrefixOf s || "https://".toList.isPrefixOf s || isPathLike s ||
    f.patterns.any (occursIn · s)

end Localizer.Message
