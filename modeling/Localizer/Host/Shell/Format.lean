import Localizer.Number.Decimal
import Localizer.Number.Reading
import Localizer.Host.Shell.Arithmetic

/-!
# Formatted output

Escape sequences and formats with directives. `unescape` resolves the sequences of a text to be
printed; `Formatting.all` fills the directives of a format with arguments and starts again with the
format while arguments are left.
-/

namespace Localizer.Host.Shell

open Text Number

/-! ## Escape sequences -/

/-- Octal digits. -/
def isOctal (c : Char) : Bool := '0' ≤ c && c ≤ '7'

/-- The byte that the text after a backslash denotes, and the rest; none if it is no sequence. -/
def escape? : Text → Option (Char × Text)
  | [] => none
  | c :: r =>
    match c with
    | 'n' => some ('\n', r)
    | 't' => some ('\t', r)
    | 'r' => some ('\r', r)
    | 'a' => some ('\x07', r)
    | 'b' => some ('\x08', r)
    | 'e' => some ('\x1b', r)
    | 'f' => some ('\x0c', r)
    | 'v' => some ('\x0b', r)
    | '\\' => some ('\\', r)
    | c =>
      let digits := ((c :: r).take 3).takeWhile isOctal
      if digits.isEmpty then none
      else some (Char.ofNat (numberOf 8 digits % 256), (c :: r).drop digits.length)

/-- A text with its sequences resolved, and whether a sequence said that nothing more follows.
A zero may stand before three octal digits. -/
def unescape : (fuel : Nat) → Text → Text × Bool
  | 0, s => (s, false)
  | _, [] => ([], false)
  | fuel + 1, '\\' :: r =>
    match r with
    | 'c' :: _ => ([], true)
    | r =>
      let digits := match r with
        | '0' :: d :: r' => if isOctal d then d :: r' else r
        | r => r
      match escape? digits with
      | some (c, rest) => let (s, stops) := unescape fuel rest; (c :: s, stops)
      | none => let (s, stops) := unescape fuel r; ('\\' :: s, stops)
  | fuel + 1, c :: r => let (s, stops) := unescape fuel r; (c :: s, stops)

/-! ## Directives -/

/-- A directive of a format. -/
structure Directive where
  flags : Text
  width : Option Int
  precision : Option Int
  conversion : Char
  deriving Repr, DecidableEq

namespace Directive

/-- Whether what is printed stands at the left of its field. -/
def isLeft (d : Directive) : Bool :=
  d.flags.contains '-' || (match d.width with
    | some w => w < 0
    | none => false)

/-- The precision, unless it is negative. -/
def digits? (d : Directive) : Option Nat :=
  match d.precision with
  | some p => if p < 0 then none else some p.toNat
  | none => none

/-- A body after a mark, such as a sign, filled up to the width. Zeros go between the two. -/
def pad (d : Directive) (withZeros : Bool) (mark body : Text) : Text :=
  let missing := (d.width.map Int.natAbs).getD 0 - (mark.length + body.length)
  if d.isLeft then mark ++ body ++ List.replicate missing ' '
  else if withZeros && d.flags.contains '0' then mark ++ List.replicate missing '0' ++ body
  else List.replicate missing ' ' ++ mark ++ body

/-- The sign of a number. -/
def signOf (d : Directive) (isNegative : Bool) : Text :=
  if isNegative then ['-']
  else if d.flags.contains '+' then ['+']
  else if d.flags.contains ' ' then [' ']
  else []

/-- A text, cut to the precision. -/
def string (d : Directive) (s : Text) : Text :=
  d.pad false [] (match d.digits? with
    | some p => s.take p
    | none => s)

/-- A whole number. -/
def integer (d : Directive) (n : Int) : Text :=
  let isSigned := d.conversion == 'd' || d.conversion == 'i'
  let size := if isSigned then n.natAbs else (n.emod (Nat.pow 2 64)).toNat
  let base := match d.conversion with
    | 'o' => 8
    | 'x' => 16
    | 'X' => 16
    | _ => 10
  let digits := Nat.toDigits base size
  let digits := if d.conversion == 'X' then digits.map Char.toUpper else digits
  let digits := match d.digits? with
    | some p =>
      if p = 0 && size = 0 then [] else List.replicate (p - digits.length) '0' ++ digits
    | none => digits
  let isAlternate := d.flags.contains '#'
  let digits :=
    if isAlternate && base = 8 && digits.head? != some '0' then '0' :: digits else digits
  let mark := if isSigned then d.signOf (n < 0)
    else if isAlternate && base = 16 && size != 0 then ['0', d.conversion] else []
  d.pad d.digits?.isNone mark digits

/-- A fraction with a fixed number of places. -/
def fixed (places : Nat) (n d : Nat) : Text :=
  let ds := ofNat (roundDiv (n * Nat.pow 10 places) d)
  let ds := List.replicate (places + 1 - ds.length) '0' ++ ds
  let whole := ds.length - places
  if places = 0 then ds else ds.take whole ++ '.' :: ds.drop whole

/-- The digits and the exponent of a fraction with one digit before the point. -/
def scientificDigits (places : Nat) (n d : Nat) : Text × Int :=
  if n = 0 then (List.replicate (places + 1) '0', 0)
  else
    let x := Double.roundedRatio (places + 1) n d
    (x.digits ++ List.replicate (places + 1 - x.digits.length) '0', x.point - 1)

/-- A fraction with an exponent. -/
def scientific (places : Nat) (n d : Nat) : Text :=
  match scientificDigits places n d with
  | (first :: ds, e) => first :: (if places = 0 then [] else '.' :: ds) ++ exponentText e
  | ([], _) => []

/-- A number without zeros at its end after the point, and without a point at its end. -/
def withoutZeros (s : Text) : Text :=
  if s.contains '.' then dropEndWhile (· == '.') (dropEndWhile (· == '0') s) else s

/-- A fraction with so many digits, with or without an exponent. -/
def general (keepsZeros : Bool) (count : Nat) (n d : Nat) : Text :=
  let count := max count 1
  let (_, e) := scientificDigits (count - 1) n d
  if e < -4 || (count : Int) ≤ e then
    let s := scientific (count - 1) n d
    if keepsZeros then s
    else withoutZeros (s.takeWhile (· != 'e')) ++ s.dropWhile (· != 'e')
  else
    let s := fixed ((count : Int) - 1 - e).toNat n d
    if keepsZeros then s else withoutZeros s

/-- A number with a fraction. -/
def real (d : Directive) (x : Double) : Text :=
  let places := d.digits?.getD 6
  let (canPad, isNegative, body) := match x with
    | .nan => (false, false, "nan".toList)
    | .infinite s => (false, s, "inf".toList)
    | .finite s m e =>
      let (n, q) := Double.toRatio m e
      (true, s, match d.conversion.toLower with
        | 'e' => scientific places n q
        | 'g' => general (d.flags.contains '#') places n q
        | _ => fixed places n q)
  let body := if d.conversion.isUpper then body.map Char.toUpper else body
  d.pad canPad (d.signOf isNegative) body

end Directive

/-! ## Formats -/

/-- What has been made of a format so far. -/
structure Formatting where
  args : List Text
  /-- The output, in reverse. -/
  chunks : List Text := []
  /-- What was wrong with arguments. -/
  complaints : List Text := []
  deriving Repr, DecidableEq

/-- Why formatting stopped. -/
inductive FormatStop where
  /-- An argument said that nothing more follows. -/
  | ended
  | fault (message : Text)
  deriving Repr, DecidableEq

namespace Formatting

/-- The output. -/
def output (f : Formatting) : Text := f.chunks.reverse.flatten

/-- Add to the output. -/
def put (f : Formatting) (s : Text) : Formatting := { f with chunks := s :: f.chunks }

/-- Take the next argument. -/
def take (f : Formatting) : Option Text × Formatting :=
  (f.args.head?, { f with args := f.args.tail })

/-- Note what is left of an argument after its number. -/
def checked (f : Formatting) (arg rest : Text) (isTooLarge : Bool) : Formatting :=
  let wrong := if rest = arg && !arg.isEmpty then some "expected numeric value"
    else if !rest.isEmpty then some "not completely converted"
    else if isTooLarge then some "Numerical result out of range"
    else none
  match wrong with
  | none => f
  | some w => { f with complaints := f.complaints ++ [arg ++ ": ".toList ++ w.toList] }

/-- Take an argument as a whole number; a quote before a character makes the number of it. -/
def takeInt (f : Formatting) (isSigned : Bool) : Int × Formatting :=
  match f.take with
  | (none, f) => (0, f)
  | (some arg, f) =>
    match arg with
    | '"' :: r => ((r.headD '\x00').toNat, f)
    | '\'' :: r => ((r.headD '\x00').toNat, f)
    | arg =>
      match leadingNumber? arg with
      | none => (0, f.checked arg arg false)
      | some (n, rest) =>
        if isSigned then (clamp n, f.checked arg rest (clamp n != n))
        else
          let top : Int := Nat.pow 2 64 - 1
          (if n.natAbs < Nat.pow 2 64 then n else top,
           f.checked arg rest (n.natAbs ≥ Nat.pow 2 64))

/-- The longest number at the front of a text, and the rest. -/
def leadingReal? (s : Text) : Option (Double × Text) :=
  (List.range s.length).findSome? fun k =>
    let front := s.take (s.length - k)
    if front.contains '_' || front.getLast? == some ' ' then none
    else (Double.ofText? front).map (·, s.drop (s.length - k))

/-- Take an argument as a number with a fraction. -/
def takeReal (f : Formatting) : Double × Formatting :=
  match f.take with
  | (none, f) => (.finite false 0 0, f)
  | (some arg, f) =>
    match arg with
    | '"' :: r => (Double.ofDecimal false (r.headD '\x00').toNat 0, f)
    | '\'' :: r => (Double.ofDecimal false (r.headD '\x00').toNat 0, f)
    | arg =>
      match leadingReal? arg with
      | some (x, rest) => (x, f.checked arg rest false)
      | none => (.finite false 0 0, f.checked arg arg false)

/-- A width or a precision, which may be an argument. -/
def takeSize (f : Formatting) (s : Text) : Option Int × Text × Formatting :=
  match s with
  | '*' :: r => let (n, f) := f.takeInt true; (some n, r, f)
  | s =>
    let digits := s.takeWhile Char.isDigit
    (if digits.isEmpty then none else some (numberOf 10 digits : Int),
     s.drop digits.length, f)

/-- Print by a directive. -/
def apply (f : Formatting) (d : Directive) (source : Text) :
    Formatting × Option FormatStop :=
  match d.conversion with
  | 's' =>
    let (arg, f) := f.take
    (f.put (d.string (arg.getD [])), none)
  | 'c' =>
    let (arg, f) := f.take
    (f.put (d.pad false [] [(arg.getD []).headD '\x00']), none)
  | 'b' =>
    let (arg, f) := f.take
    let arg := arg.getD []
    let (s, stops) := unescape (arg.length + 1) arg
    (f.put (d.string s), if stops then some .ended else none)
  | c =>
    if c == 'd' || c == 'i' || c == 'o' || c == 'u' || c == 'x' || c == 'X' then
      let (n, f) := f.takeInt (c == 'd' || c == 'i')
      (f.put (d.integer n), none)
    else if "eEfFgG".toList.contains c then
      let (x, f) := f.takeReal
      (f.put (d.real x), none)
    else (f, some (.fault (source ++ ": invalid directive".toList)))

/-- Go through a format once. -/
def once : (fuel : Nat) → Formatting → Text → Formatting × Option FormatStop
  | 0, f, _ => (f, none)
  | _, f, [] => (f, none)
  | fuel + 1, f, '\\' :: r =>
    match escape? r with
    | some (c, rest) => once fuel (f.put [c]) rest
    | none => once fuel (f.put ['\\']) r
  | fuel + 1, f, '%' :: '%' :: r => once fuel (f.put ['%']) r
  | fuel + 1, f, '%' :: s =>
    let flags := s.takeWhile fun c => "#-+ 0".toList.contains c
    let (width, rest, f) := f.takeSize (s.drop flags.length)
    let (precision, rest, f) := match rest with
      | '.' :: r =>
        let (p, r, f) := f.takeSize r
        (some (p.getD 0), r, f)
      | r => (none, r, f)
    match rest with
    | [] => (f, some (.fault "missing format character".toList))
    | c :: rest =>
      match f.apply ⟨flags, width, precision, c⟩ ('%' :: s.take (s.length - rest.length)) with
      | (f, none) => once fuel f rest
      | (f, some stop) => (f, some stop)
  | fuel + 1, f, s =>
    let isPlain := fun c : Char => c != '\\' && c != '%'
    once fuel (f.put (s.takeWhile isPlain)) (s.dropWhile isPlain)

/-- Go through a format until no argument is left. -/
def repeated (format : Text) : (fuel : Nat) → Formatting → Formatting × Option FormatStop
  | 0, f => (f, none)
  | fuel + 1, f =>
    match once (format.length + 1) f format with
    | (after, some stop) => (after, some stop)
    | (after, none) =>
      if after.args.isEmpty || after.args.length = f.args.length then (after, none)
      else repeated format fuel after

/-- Fill a format with arguments. -/
def all (format : Text) (args : List Text) : Formatting × Option FormatStop :=
  repeated format (args.length + 1) { args }

end Formatting

end Localizer.Host.Shell
