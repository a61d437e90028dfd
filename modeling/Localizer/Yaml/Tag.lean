import Localizer.Text.Basic
import Localizer.Text.Digit

/-!
# Tags

A tag says what kind of value a node is. A plain scalar without a tag gets one by its form: truth
values, numbers, the null value, dates, and the two marks for merging and for values are told from
other texts.
-/

namespace Localizer.Yaml

open Text

/-- The kinds of nodes. -/
inductive Tag where
  | null
  | bool
  | int
  | float
  | binary
  | timestamp
  | omap
  | pairs
  | set
  | str
  | seq
  | map
  | merge
  | value
  /-- A kind that is not known. -/
  | other
  deriving Repr, DecidableEq

/-- The text with which the known tags start. -/
def tagDomain : Text := "tag:yaml.org,2002:".toList

/-- The names of the known tags. -/
def tagNames : List (Text × Tag) :=
  [("null".toList, .null), ("bool".toList, .bool), ("int".toList, .int), ("float".toList, .float),
   ("binary".toList, .binary), ("timestamp".toList, .timestamp), ("omap".toList, .omap),
   ("pairs".toList, .pairs), ("set".toList, .set), ("str".toList, .str), ("seq".toList, .seq),
   ("map".toList, .map), ("merge".toList, .merge), ("value".toList, .value)]

/-- The tag of a full text. -/
def Tag.ofText (s : Text) : Tag :=
  match after? tagDomain s with
  | some name => ((tagNames.find? (·.1 == name)).map Prod.snd).getD .other
  | none => .other

/-! ## Forms of plain scalars -/

/-- The words for truth values. -/
def truthWords : List Text :=
  ["yes".toList, "Yes".toList, "YES".toList, "no".toList, "No".toList, "NO".toList,
   "true".toList, "True".toList, "TRUE".toList, "false".toList, "False".toList, "FALSE".toList,
   "on".toList, "On".toList, "ON".toList, "off".toList, "Off".toList, "OFF".toList]

/-- The words for the null value. -/
def nullWords : List Text := [[], "~".toList, "null".toList, "Null".toList, "NULL".toList]

/-- A number's text without its sign. -/
def unsign : Text → Text
  | '-' :: r => r
  | '+' :: r => r
  | r => r

/-- Digits with underscores between or after them. -/
def isDigitOrUnderscore (c : Char) : Bool := c.isDigit || c == '_'

/-- Whether a text is a part of a number in base sixty: one digit, or two of which the first is
below six. -/
def isSixtieth : Text → Bool
  | [d] => d.isDigit
  | [t, d] => '0' ≤ t && t ≤ '5' && d.isDigit
  | _ => false

/-- Whether a text is empty or an exponent with its sign. -/
def isExponent : Text → Bool
  | [] => true
  | e :: s :: d :: r =>
    (e == 'e' || e == 'E') && (s == '-' || s == '+') && (d :: r).all Char.isDigit
  | _ => false

/-- Whether a text has the form of a whole number. -/
def isIntForm (s : Text) : Bool :=
  match unsign s with
  | [] => false
  | ['0'] => true
  | '0' :: 'b' :: d :: r => (d :: r).all fun c => c == '0' || c == '1' || c == '_'
  | '0' :: 'x' :: d :: r => (d :: r).all fun c => isHexDigit c || c == '_'
  | '0' :: r => r.all fun c => ('0' ≤ c && c ≤ '7') || c == '_'
  | s =>
    match s.splitOn ':' with
    | whole :: parts =>
      whole.head?.any Char.isDigit && whole.all isDigitOrUnderscore && parts.all isSixtieth
    | [] => false

/-- Whether a text is digits, a point, digits and possibly an exponent. -/
def isPointForm (s : Text) : Bool :=
  s.head?.any Char.isDigit &&
    match s.dropWhile isDigitOrUnderscore with
    | '.' :: r => isExponent (r.dropWhile isDigitOrUnderscore)
    | _ => false

/-- Whether a text is a number in base sixty with a point. -/
def isSixtyForm (s : Text) : Bool :=
  match s.splitOn ':' with
  | whole :: p :: ps =>
    let parts := p :: ps
    let last := parts.getLastD []
    whole.head?.any Char.isDigit && whole.all isDigitOrUnderscore &&
      parts.dropLast.all isSixtieth && isSixtieth (last.takeWhile (· != '.')) &&
      match last.dropWhile (· != '.') with
      | '.' :: r => r.all isDigitOrUnderscore
      | _ => false
  | _ => false

/-- The words for infinity, after a point. -/
def infinityWords : List Text := [".inf".toList, ".Inf".toList, ".INF".toList]

/-- The words for no number, after a point. -/
def nanWords : List Text := [".nan".toList, ".NaN".toList, ".NAN".toList]

/-- Whether a text has the form of a number with a point. -/
def isFloatForm (s : Text) : Bool :=
  isPointForm (unsign s) || isSixtyForm (unsign s) || infinityWords.contains (unsign s) ||
    nanWords.contains s || match s with
    | '.' :: d :: r => d.isDigit && isExponent (r.dropWhile isDigitOrUnderscore)
    | _ => false

/-! ## Dates -/

/-- The digits of a date, a time and a time zone. -/
structure Stamp where
  year : Text
  month : Text
  day : Text
  /-- Hour, minute, second and fraction. -/
  time : Option (Text × Text × Text × Text) := none
  /-- Whether the zone is west, with its hours and minutes; or nothing, for the zero meridian. -/
  zone : Option (Bool × Text × Text) := none
  /-- Whether a zone is given. -/
  hasZone : Bool := false
  deriving Repr, DecidableEq

/-- A run of digits of a length between two bounds at the front of a text, and the rest. -/
def digitRun? (least most : Nat) (s : Text) : Option (Text × Text) :=
  let ds := (s.take most).takeWhile Char.isDigit
  if least ≤ ds.length then some (ds, s.drop ds.length) else none

/-- The zone at the end of a time. -/
def zone? (stamp : Stamp) (s : Text) : Option Stamp := do
  match s with
  | [] => return stamp
  | _ =>
    match s.dropWhile fun c => c == ' ' || c == '\t' with
    | ['Z'] => return { stamp with hasZone := true }
    | c :: r =>
      if c == '+' || c == '-' then
        let (hours, r) ← digitRun? 1 2 r
        let minutes ← match r with
          | [] => some []
          | ':' :: r => do
            let (minutes, r) ← digitRun? 2 2 r
            if r.isEmpty then some minutes else none
          | _ => none
        return { stamp with zone := some (c == '-', hours, minutes), hasZone := true }
      else none
    | [] => none

/-- The time after a date. -/
def clock? (stamp : Stamp) (s : Text) : Option Stamp := do
  let (hour, r) ← digitRun? 1 2 s
  let r ← after? [':'] r
  let (minute, r) ← digitRun? 2 2 r
  let r ← after? [':'] r
  let (second, r) ← digitRun? 2 2 r
  let (fraction, r) := match r with
    | '.' :: r => (r.takeWhile Char.isDigit, r.dropWhile Char.isDigit)
    | r => ([], r)
  zone? { stamp with time := some (hour, minute, second, fraction) } r

/-- The date that a text has the form of, with a time or without. -/
def stamp? (s : Text) : Option Stamp := do
  let (year, r) ← digitRun? 4 4 s
  let r ← after? ['-'] r
  let (month, r) ← digitRun? 1 2 r
  let r ← after? ['-'] r
  let (day, r) ← digitRun? 1 2 r
  let stamp : Stamp := { year, month, day }
  match r with
  | [] => return stamp
  | c :: t =>
    if c == 'T' || c == 't' then clock? stamp t
    else if c == ' ' || c == '\t' then clock? stamp (t.dropWhile fun c => c == ' ' || c == '\t')
    else none

/-- Whether a text is a date: without a time, its month and day have two digits. -/
def isDateForm (s : Text) : Bool :=
  match stamp? s with
  | some stamp => stamp.time.isSome || (stamp.month.length == 2 && stamp.day.length == 2)
  | none => false

/-- The tag of a text by its form. -/
def Tag.ofForm (s : Text) : Tag :=
  if truthWords.contains s then .bool
  else if isFloatForm s then .float
  else if isIntForm s then .int
  else if s = "<<".toList then .merge
  else if nullWords.contains s then .null
  else if isDateForm s then .timestamp
  else if s = ['='] then .value
  else if s = ['!'] ∨ s = ['&'] ∨ s = ['*'] then .other
  else .str

/-- The tag of a scalar whose form decides about it. A newline at the end does not change the form,
unless it is all there is. -/
def Tag.ofPlain (s : Text) : Tag :=
  if s = ['\n'] then .str
  else .ofForm (if s.getLast? = some '\n' then s.dropLast else s)

end Localizer.Yaml
