import Localizer.Number.Double
import Localizer.Text.Basic

/-!
# Doubles in decimal digits

A decimal is a row of digits with the place of the point. `Double.shortest` gives the fewest digits
that read back as a double, and of these the nearest to it; `Double.rounded` gives a chosen number
of digits. A `DecimalFormat` says how a decimal is written.
-/

namespace Localizer.Number

open Text

/-- The number `0.d₁d₂d₃… · 10 ^ point`, the digits being those of `digits`. -/
structure Decimal where
  digits : Text
  point : Int
  deriving Repr, DecidableEq

/-- The digits of a number without the zeros at the end; its point comes after `size` digits. -/
def Decimal.ofScaled (n : Nat) (exponent : Int) : Decimal :=
  let ds := Text.ofNat n
  ⟨(ds.reverse.dropWhile (· == '0')).reverse, ds.length + exponent⟩

/-- The point of a fraction: the least `k` from `k` on, looking `fuel` times at most, such that
`n / d < 10 ^ k`. -/
def pointFrom (n d : Nat) : (fuel : Nat) → Int → Int
  | 0, k => k
  | fuel + 1, k =>
    let (p, q) := scaleDown 10 k n d
    if p < q then k else pointFrom n d fuel (k + 1)

/-- The point of a fraction that a double can be. -/
def pointOf (n d : Nat) : Int := pointFrom n d 700 (-330)

namespace Double

/-- The decimal of `count` digits that is the nearest to a fraction, a tie going to the even
digit. -/
def roundedRatio (count : Nat) (n d : Nat) : Decimal :=
  let e := pointOf n d - count
  let (p, q) := scaleDown 10 e n d
  Decimal.ofScaled (roundDiv p q) e

/-- Whether `digits · 10 ^ exponent` reads back as the double of this mantissa and exponent. -/
def readsBack (m : Nat) (e : Int) (digits : Nat) (exponent : Int) : Bool :=
  ofDecimal false digits exponent == finite false m e

/-- The decimals of `count` digits around the double that read back as it, the nearest one. -/
def readsBackWith? (m : Nat) (e : Int) (count : Nat) : Option Decimal :=
  let (n, d) := toRatio m e
  let x := pointOf n d - count
  let (p, q) := scaleDown 10 x n d
  let low := p / q
  let near := roundDiv p q
  let far := if near = low then low + 1 else low
  if readsBack m e near x then some (Decimal.ofScaled near x)
  else if readsBack m e far x then some (Decimal.ofScaled far x)
  else none

/-- The fewest digits that read back, from `count` digits on. -/
def shortestFrom (m : Nat) (e : Int) : (fuel count : Nat) → Decimal
  | 0, count => let (n, d) := toRatio m e; roundedRatio count n d
  | fuel + 1, count =>
    match readsBackWith? m e count with
    | some decimal => decimal
    | none => shortestFrom m e fuel (count + 1)

/-- The fewest digits that read back as a finite double other than zero. -/
def shortest (m : Nat) (e : Int) : Decimal := shortestFrom m e 16 1

end Double

/-- How decimals are written. -/
structure DecimalFormat where
  /-- The least point for which the digits are written without an exponent. -/
  minPoint : Int
  /-- The greatest such point. -/
  maxPoint : Int
  /-- Whether a whole number written without an exponent gets a point and a zero. -/
  pointZero : Bool
  deriving Repr, DecidableEq

/-- An exponent with its sign and two digits at least. -/
def exponentText (e : Int) : Text :=
  let ds := Text.ofNat e.natAbs
  'e' :: (if e < 0 then '-' else '+') :: (List.replicate (2 - ds.length) '0' ++ ds)

/-- A decimal in a format. -/
def Decimal.render (f : DecimalFormat) (x : Decimal) : Text :=
  if f.minPoint ≤ x.point ∧ x.point ≤ f.maxPoint then
    if x.point ≤ 0 then "0.".toList ++ List.replicate x.point.natAbs '0' ++ x.digits
    else
      let whole := x.point.natAbs
      if whole < x.digits.length then x.digits.take whole ++ '.' :: x.digits.drop whole
      else x.digits ++ List.replicate (whole - x.digits.length) '0' ++
        (if f.pointZero then ".0".toList else [])
  else
    match x.digits with
    | [] => []
    | [d] => d :: exponentText (x.point - 1)
    | d :: ds => d :: '.' :: (ds ++ exponentText (x.point - 1))

/-- A double in a format, by the decimal that `digits` gives for it. -/
def Double.renderWith (f : DecimalFormat) (digits : Nat → Int → Decimal) : Double → Text
  | nan => "nan".toList
  | infinite s => if s then "-inf".toList else "inf".toList
  | finite s m e =>
    let text := if m = 0 then (if f.pointZero then "0.0".toList else ['0'])
      else (digits m e).render f
    if s then '-' :: text else text

/-- The fewest digits that read back, without an exponent from 0.0001 to below 10 to the 16th. -/
def Double.toText (x : Double) : Text := x.renderWith ⟨-3, 16, true⟩ shortest

/-- Six digits at most, without an exponent from 0.0001 to below a million. -/
def Double.brief (x : Double) : Text :=
  x.renderWith ⟨-3, 6, false⟩ fun m e => let (n, d) := toRatio m e; roundedRatio 6 n d

end Localizer.Number
