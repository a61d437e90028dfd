import Localizer.Text.Basic
import Localizer.Text.Blank
import Localizer.Text.Word

/-!
# Constant expressions

A literal inside a constant expression cannot become a call. `enclosingConst` looks, in a masked
buffer, outwards from a position through the brackets that are open there, until a statement or a
block begins. It finds the `const` of a constructor call or a collection, the bracket of a
collection that is the default of a parameter, or the `const` of a declaration. What it returns
depends on the characters before the position alone.
-/

namespace Localizer.Dart

open Text

/-- How far before a bracket its head is looked for. -/
def lookBack : Nat := 160

/-- Characters that can start a name. -/
def isNameStart (c : Char) : Bool := c.isAlpha || c == '_' || c == '$'

/-- Characters that can continue a name. -/
def isNamePart (c : Char) : Bool := isWord c || c == '$'

/-- What follows a name, or names joined by dots, at the front of a text. -/
def afterDottedName? : Text → Option Text
  | c :: r => if isNameStart c then some (more false r) else none
  | [] => none
where
  /-- What follows the rest of a name; `dotted` after a dot that a name must follow. -/
  more (dotted : Bool) : Text → Text
    | [] => if dotted then ['.'] else []
    | c :: r =>
      if dotted then if isNameStart c then more false r else '.' :: c :: r
      else if isNamePart c then more false r
      else if c == '.' then more true r
      else c :: r

/-- Whether a text is empty or the arguments of a type, with blanks after them. -/
def isTypeArguments (s : Text) : Bool :=
  match s with
  | [] => true
  | '<' :: r =>
    match (stripRight r).reverse with
    | '>' :: body => body.all fun c => c != ';' && c != '{' && c != '}' && c != '(' && c != ')'
    | _ => false
  | _ => false

/-- Whether a text is the head of a constant call or collection up to its bracket: `const`, blanks,
and possibly a name and type arguments. -/
def isConstHead (s : Text) : Bool :=
  match after? "const".toList s with
  | some (c :: r) =>
    isBlank c &&
      let r := stripLeft r
      isTypeArguments (match afterDottedName? r with
        | some rest => stripLeft rest
        | none => r)
  | _ => false

/-- The offset in `s` of the first head of a constant that ends where `s` ends; `before` has the
characters before `s`, the nearest first. -/
def constHead? (before : Text) : Text → Option Nat
  | [] => none
  | c :: r =>
    if atBoundary before && isConstHead (c :: r) then some 0
    else (constHead? (c :: before) r).map (· + 1)

/-- The offset of the first head of a constant that ends where a buffer ends and starts within the
look-back; the buffer is read backwards. -/
def constHeadBefore? (back : Text) : Option Nat :=
  (constHead? (back.drop lookBack) (back.take lookBack).reverse).map (back.length - lookBack + ·)

/-- Whether a brace after this text, read backwards, opens a block: bodies follow a parameter list
or a word, and literals do not. -/
def opensBlock (back : Text) : Bool :=
  match stripLeft (back.take lookBack) with
  | [] => true
  | c :: _ => c == ')' || isWord c

/-- Whether a bracket after the text `back`, read backwards, opens a parameter list whose last
parameter, in the text `inside` after it, is about to get its default. -/
def isParameterDefault (back inside : Text) : Bool :=
  (match stripLeft (back.take lookBack) with
   | c :: _ => c == '(' || c == ','
   | [] => false) &&
    (stripRight inside).getLast? == some '='

/-- The offset of the `const` of a declaration in the text that it starts. -/
def declarationConst? (s : Text) : Option Nat :=
  let r := stripLeft s
  let r := match after? "static".toList r with
    | some (c :: rest) => if isBlank c then stripLeft rest else r
    | _ => r
  if startsWithWord "const".toList r then some (s.length - r.length) else none

/-- The walk outwards: `back` is the buffer before the current character, read backwards, `inside`
the text from there to the position, `depth` how many groups that close in it are still open, and
`innermost` holds until an open bracket was passed. -/
def walkOut (depth : Nat) (innermost : Bool) (inside : Text) : (back : Text) → Option Nat
  | [] => declarationConst? inside
  | c :: back =>
    if c == ')' || c == ']' || c == '}' then walkOut (depth + 1) innermost (c :: inside) back
    else if c == '(' || c == '[' || c == '{' then
      match depth with
      | depth + 1 => walkOut depth innermost (c :: inside) back
      | 0 =>
        match constHeadBefore? back with
        | some start => some start
        | none =>
          if innermost && c != '(' && isParameterDefault back inside then some back.length
          else if c == '{' && opensBlock back then
            (declarationConst? inside).map (back.length + 1 + ·)
          else walkOut 0 false (c :: inside) back
    else if c == ';' && depth == 0 then (declarationConst? inside).map (back.length + 1 + ·)
    else walkOut depth innermost (c :: inside) back

/-- The offset of what makes the place after `back`, a masked buffer read backwards, part of a
constant expression: the `const` that governs it, or the bracket of a parameter's default. -/
def constBefore? (back : Text) : Option Nat := walkOut 0 true [] back

/-- The same for a position within a masked buffer. -/
def enclosingConst (masked : Text) (position : Nat) : Option Nat :=
  constBefore? (masked.take position).reverse

/-- A position lies beyond the end of the buffer. -/
structure OutOfRange where
  position : Nat
  deriving Repr, DecidableEq

/-- The same for any position: one beyond the end of the buffer is refused. -/
def enclosingConstAt (masked : Text) (position : Nat) : Except OutOfRange (Option Nat) :=
  if masked.length < position then .error ⟨position⟩ else .ok (enclosingConst masked position)

end Localizer.Dart
