import Localizer.Dart.AppRoot
import Localizer.Dart.Context
import Localizer.Dart.Lexeme
import Localizer.Text.Place

/-!
# Candidate literals

`scan` lists the single-line literals of a buffer that may be text on the screen. A literal is
left out when it stands

* on the line of a directive,
* next to another quote of its kind or after the mark of a raw string,
* as the title of the app root,
* in a subscript or beside a comparison,
* as the first argument of a call, or the value of a property, whose text is never shown.

A literal with a `$`-brace group that is never closed was cut short; it is left out together with
everything that starts on the rest of its line.
-/

namespace Localizer.Dart

open Text

/-- A literal of a buffer. -/
structure Literal where
  /-- The quote on both sides. -/
  quote : Char
  /-- What stands between the quotes. -/
  inner : Text
  /-- The offset of the opening quote. -/
  offset : Nat
  /-- The role of the literal on the screen. -/
  context : Context
  deriving Repr, DecidableEq

namespace Literal

/-- The literal as it stands in the buffer. -/
def text (l : Literal) : Text := l.quote :: (l.inner ++ [l.quote])

/-- The offset just after the closing quote. -/
def stop (l : Literal) : Nat := l.offset + l.text.length

end Literal

/-- How many characters before a literal are looked at. -/
structure Windows where
  /-- For its context. -/
  context : Nat := 100
  /-- For the app root that it may be the title of. -/
  title : Nat := 200
  deriving Repr, DecidableEq

/-! ## Interpolation groups -/

/-- What follows the brace that closes `depth + 1` open braces. -/
def closeBraces? : (depth : Nat) → Text → Option Text
  | _, [] => none
  | depth, '{' :: r => closeBraces? (depth + 1) r
  | 0, '}' :: r => some r
  | depth + 1, '}' :: r => closeBraces? depth r
  | depth, _ :: r => closeBraces? depth r

theorem length_closeBraces? {depth : Nat} {s r : Text} (h : closeBraces? depth s = some r) :
    r.length < s.length := by
  fun_induction closeBraces? depth s with
  | case1 => simp at h
  | case2 _ _ ih => have := ih h; simp; omega
  | case3 => simp_all
  | case4 _ _ ih => have := ih h; simp; omega
  | case5 _ _ _ _ _ _ ih => have := ih h; simp; omega

/-- Whether some `$`-brace group of a text is never closed, reading on after each closed one. -/
def hasOpenGroup : Text → Bool
  | [] => false
  | '$' :: '{' :: r =>
    match h : closeBraces? 0 r with
    | none => true
    | some rest =>
      have := length_closeBraces? h
      hasOpenGroup rest
  | _ :: r => hasOpenGroup r
termination_by s => s.length

/-! ## Places that are not shown -/

/-- The words that open a directive. -/
def directiveWords : List Text :=
  ["import".toList, "export".toList, "part".toList, "library".toList]

/-- Whether a line that starts with this text is a directive. -/
def startsDirective (line : Text) : Bool :=
  directiveWords.any fun w => startsWithWord w (stripLeft line)

/-- Whether the line of `position`, up to it, starts a directive. -/
def isDirectiveLine (s : Text) (position : Nat) : Bool :=
  startsDirective (Place.of s position).lineBack.reverse

/-- Whether the title of an app root is given after a window: a call of an app root stands in it,
and its last line ends in the name of the property. -/
def namesAppTitle (window : Text) : Bool :=
  (appRoot? window).isSome &&
    match (strip ((lines window).getLastD [])).reverse with
    | ':' :: back => "title".toList.reverse.isPrefixOf (stripLeft back)
    | _ => false

/-- Whether `position` is where the title of an app root is given, by the window before it. -/
def isAppTitle (s : Text) (position width : Nat) : Bool :=
  namesAppTitle (preceding s position width)

/-- Whether a literal touches another quote of its kind, or follows the mark of a raw string; `back`
is the buffer before it, read backwards, and `rest` what follows it. -/
def isRawOrAdjacent (q : Char) (back rest : Text) : Bool :=
  match back with
  | c :: back => c == q || rest.head? == some q || (c == 'r' && atBoundary back)
  | [] => rest.head? == some q

/-- Whether a line prefix, read backwards, opens a subscript. -/
def opensSubscript (back : Text) : Bool :=
  match stripLeft back with
  | '[' :: r =>
    match stripLeft r with
    | '?' :: c :: _ => isWord c || c == ')' || c == ']'
    | c :: _ => isWord c || c == ')' || c == ']'
    | [] => false
  | _ => false

/-- Whether a line prefix, read backwards, ends in a comparison or in `case`. -/
def endsInComparison (back : Text) : Bool :=
  match stripLeft back with
  | '=' :: '=' :: _ => true
  | '=' :: '!' :: _ => true
  | r => endsInWord "case".toList r

/-- Whether a comparison starts within the first characters after a literal. -/
def comparisonFollows (rest : Text) : Bool :=
  match stripLeft (rest.take 8) with
  | '=' :: '=' :: _ => true
  | '!' :: '=' :: _ => true
  | _ => false

/-- Calls whose first argument is never shown. -/
def silentCalls : List Text :=
  ["Key".toList, "ValueKey".toList, "ObjectKey".toList, "GlobalObjectKey".toList, "RegExp".toList,
   "DateFormat".toList, "NumberFormat".toList, "Locale".toList, "AssetImage".toList,
   "NetworkImage".toList, "print".toList, "debugPrint".toList, "log".toList, "Uri.parse".toList,
   "Image.asset".toList, "Image.network".toList, "SvgPicture.asset".toList,
   "SvgPicture.network".toList]

/-- Properties whose value is never shown. -/
def silentProperties : List Text :=
  ["fontFamily".toList, "package".toList, "restorationId".toList, "heroTag".toList,
   "routeName".toList, "initialRoute".toList, "path".toList, "name".toList, "id".toList,
   "tag".toList]

/-- Whether a line prefix, read backwards, opens a call whose first argument is never shown. -/
def opensSilentCall (back : Text) : Bool :=
  match stripLeft back with
  | '(' :: r => silentCalls.any fun w => endsInWord w r
  | _ => false

/-- Whether a line prefix, read backwards, names a property whose value is never shown. -/
def namesSilentProperty (back : Text) : Bool :=
  match stripLeft back with
  | ':' :: r => silentProperties.any fun w => endsInWord w (stripLeft r)
  | _ => false

/-- Whether the literal with quote `q` at a place is no candidate; `rest` is what follows it. -/
def isExcluded (w : Windows) (q : Char) (p : Place Char) (rest : Text) : Bool :=
  let back := p.lineBack
  startsDirective back.reverse || isRawOrAdjacent q p.back rest ||
    namesAppTitle (p.window w.title) || opensSubscript back || endsInComparison back ||
    comparisonFollows rest || opensSilentCall back || namesSilentProperty back

/-! ## The scan -/

/-- The candidates among lexemes of a buffer, given with their places and offsets; those that start
before the offset `resume` are passed over. -/
def candidates (w : Windows) :
    (resume : Nat) → List (Place Char × Nat × Lexeme) → List Literal
  | _, [] => []
  | resume, (p, start, x) :: xs =>
    match x with
    | .literal q inner =>
      let rest := p.rest.drop x.text.length
      if start < resume then candidates w resume xs
      else if hasOpenGroup inner then
        candidates w (start + x.text.length + (rest.takeWhile (· != '\n')).length) xs
      else if isExcluded w q p rest then candidates w resume xs
      else ⟨q, inner, start, .ofWindow (p.window w.context)⟩ :: candidates w resume xs
    | _ => candidates w resume xs

/-- The candidate literals of a buffer, in order. -/
def scan (w : Windows) (s : Text) : List Literal :=
  candidates w 0 ((Place.of s 0).along Prod.fst (located 0 (lex s)))

end Localizer.Dart
