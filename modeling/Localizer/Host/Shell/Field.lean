import Localizer.Text.Basic

/-!
# Fields and patterns

The expansion of a word gives letters that remember where they come from. Letters that come from an
unquoted expansion are split at separators into fields (`fields`), and unquoted letters may be
parts of a pattern (`Pattern.fits`).
-/

namespace Localizer.Host.Shell

/-- Where a letter comes from. -/
inductive Origin where
  /-- The script itself. -/
  | script
  /-- The value of an expansion. -/
  | expansion
  /-- Quotes, in the script or around an expansion. -/
  | quotes
  deriving Repr, DecidableEq

/-- A piece of an expanded word. -/
inductive Atom where
  | letter (c : Char) (origin : Origin)
  /-- A pair of quotes, which makes a field even if nothing stands in it. -/
  | present
  /-- The end of a field. -/
  | boundary
  deriving Repr, DecidableEq

namespace Atom

/-- The letters of a text. -/
def ofText (origin : Origin) (s : Text) : List Atom := s.map (.letter · origin)

/-- The characters of atoms; `between` stands between fields. -/
def toText (between : Text) (atoms : List Atom) : Text := atoms.flatMap fun a =>
  match a with
  | letter c _ => [c]
  | present => []
  | boundary => between

end Atom

/-! ## Fields -/

/-- Fields that are being made: the open one in reverse, and whether it is there although it may
have no letters. -/
structure Splitting where
  done : List (List Atom) := []
  current : List Atom := []
  isPresent : Bool := false
  /-- A blank has just ended a field, so that a separator after it ends none. -/
  afterBlank : Bool := false
  deriving Repr, DecidableEq

namespace Splitting

/-- End the open field. -/
def close (s : Splitting) : Splitting :=
  { done := s.current.reverse :: s.done }

/-- End the open field if there is one. -/
def finish (s : Splitting) : Splitting := if s.isPresent then s.close else s

/-- Take one atom. Blanks among the separators join to one separator; any other separator ends a
field even if it is empty. -/
def step (separators : Text) (s : Splitting) : Atom → Splitting
  | .boundary => { s.finish with afterBlank := false }
  | .present => { s with isPresent := true, afterBlank := false }
  | .letter c origin =>
    if origin = .expansion && separators.contains c then
      if c == ' ' || c == '\t' || c == '\n' then
        if s.isPresent then { s.close with afterBlank := true } else s
      else if s.afterBlank then { s with afterBlank := false }
      else s.close
    else { s with current := .letter c origin :: s.current, isPresent := true, afterBlank := false }

end Splitting

/-- The fields of an expanded word. -/
def fields (separators : Text) (atoms : List Atom) : List (List Atom) :=
  (atoms.foldl (Splitting.step separators) {}).finish.done.reverse

/-! ## Patterns -/

/-- A piece of a pattern. -/
inductive PatternItem where
  | char (c : Char)
  /-- Any one character. -/
  | any
  /-- Any characters. -/
  | many
  /-- One character of some ranges, or one of none of them. -/
  | oneOf (isNegated : Bool) (ranges : List (Char × Char))
  deriving Repr, DecidableEq

/-- A pattern for texts. -/
abbrev Pattern := List PatternItem

/-- The classes of characters that have a name. -/
def classRanges (name : Text) : List (Char × Char) :=
  match String.ofList name with
  | "digit" => [('0', '9')]
  | "lower" => [('a', 'z')]
  | "upper" => [('A', 'Z')]
  | "alpha" => [('a', 'z'), ('A', 'Z')]
  | "alnum" => [('a', 'z'), ('A', 'Z'), ('0', '9')]
  | "xdigit" => [('a', 'f'), ('A', 'F'), ('0', '9')]
  | "blank" => [(' ', ' '), ('\t', '\t')]
  | "space" => [(' ', ' '), ('\t', '\r')]
  | "punct" => [('!', '/'), (':', '@'), ('[', '`'), ('\x7b', '~')]
  | "cntrl" => [('\x00', '\x1f'), ('\x7f', '\x7f')]
  | "graph" => [('!', '~')]
  | "print" => [(' ', '~')]
  | _ => []

namespace Pattern

/-- The ranges up to the bracket that ends them, and the rest. A bracket at the very front is
one of the characters. -/
def ranges : (fuel : Nat) → (isFirst : Bool) → List Atom →
    Option (List (Char × Char) × List Atom)
  | 0, _, _ => none
  | _, _, [] => none
  | fuel + 1, isFirst, .letter c origin :: r =>
    if c == ']' && origin != .quotes && !isFirst then some ([], r)
    else
      let plain := origin != .quotes
      match r with
      | .letter ':' o :: r' =>
        if c == '[' && plain && o != .quotes then
          let name := r'.takeWhile fun a => match a with
            | .letter x _ => x.isAlpha
            | _ => false
          match r'.drop name.length with
          | .letter ':' _ :: .letter ']' _ :: rest =>
            (ranges fuel false rest).map fun (rs, rest) =>
              (classRanges (Atom.toText [] name) ++ rs, rest)
          | _ => (ranges fuel false r).map fun (rs, rest) => ((c, c) :: rs, rest)
        else (ranges fuel false r).map fun (rs, rest) => ((c, c) :: rs, rest)
      | .letter '-' o :: .letter d o' :: r' =>
        if o != .quotes && !(d == ']' && o' != .quotes) then
          (ranges fuel false r').map fun (rs, rest) => ((c, d) :: rs, rest)
        else (ranges fuel false r).map fun (rs, rest) => ((c, c) :: rs, rest)
      | r => (ranges fuel false r).map fun (rs, rest) => ((c, c) :: rs, rest)
  | fuel + 1, isFirst, _ :: r => ranges fuel isFirst r

/-- The pattern that letters denote: quoted ones stand for themselves. -/
def ofAtoms : (fuel : Nat) → List Atom → Pattern
  | 0, _ => []
  | _, [] => []
  | fuel + 1, .letter c origin :: r =>
    if origin = .quotes then .char c :: ofAtoms fuel r
    else
      match c with
      | '?' => .any :: ofAtoms fuel r
      | '*' => .many :: ofAtoms fuel r
      | '[' =>
        let (isNegated, inside) := match r with
          | .letter '!' o :: r' => if o == Origin.quotes then (false, r) else (true, r')
          | r => (false, r)
        match ranges (inside.length + 1) true inside with
        | some (rs, rest) => .oneOf isNegated rs :: ofAtoms fuel rest
        | none => .char '[' :: ofAtoms fuel r
      | '\\' =>
        match r with
        | .letter d _ :: r' => .char d :: ofAtoms fuel r'
        | r => .char '\\' :: ofAtoms fuel r
      | c => .char c :: ofAtoms fuel r
  | fuel + 1, _ :: r => ofAtoms fuel r

/-- Whether a pattern fits the whole of a text. -/
def fits : Pattern → Text → Bool
  | [], s => s.isEmpty
  | .many :: ps, s => (List.range (s.length + 1)).any fun n => fits ps (s.drop n)
  | .any :: ps, _ :: s => fits ps s
  | .char p :: ps, c :: s => p == c && fits ps s
  | .oneOf isNegated rs :: ps, c :: s =>
    (rs.any (fun r => r.1 ≤ c && c ≤ r.2) != isNegated) && fits ps s
  | _ :: _, [] => false

/-- The length of the part at the front of a text that is taken away with a pattern. -/
def frontLength? (isLongest : Bool) (p : Pattern) (s : Text) : Option Nat :=
  let ends := List.range (s.length + 1)
  (if isLongest then ends.reverse else ends).find? fun n => Pattern.fits p (s.take n)

/-- The length of what is left when the part at the end of a text that it fits is taken away. -/
def lengthBefore? (isLongest : Bool) (p : Pattern) (s : Text) : Option Nat :=
  let starts := List.range (s.length + 1)
  (if isLongest then starts else starts.reverse).find? fun n => Pattern.fits p (s.drop n)

/-- Whether a pattern has an item that matches more than one text. -/
def isWild (p : Pattern) : Bool := p.any fun i =>
  match i with
  | .char _ => false
  | _ => true

end Pattern

/-- The pattern that letters denote. -/
def patternOf (atoms : List Atom) : Pattern := Pattern.ofAtoms (atoms.length + 1) atoms

end Localizer.Host.Shell
