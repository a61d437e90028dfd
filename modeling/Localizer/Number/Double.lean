/-!
# Double-precision numbers

A double is a number `± mantissa · 2 ^ exponent` with a mantissa below `2 ^ 53` and an exponent
from -1074 to 971, or one of the two infinities, or not a number at all. `ofRatio` gives the double
nearest to a fraction, and of two that are equally near the one with the even mantissa.
-/

namespace Localizer.Number

/-- A double-precision number. -/
inductive Double where
  | nan
  | infinite (negative : Bool)
  /-- The number `± mantissa · 2 ^ exponent`. -/
  | finite (negative : Bool) (mantissa : Nat) (exponent : Int)
  deriving Repr, DecidableEq

/-- The quotient rounded to the nearest whole number, a half to the even one. -/
def roundDiv (n d : Nat) : Nat :=
  let q := n / d
  let r := n % d
  if 2 * r < d then q else if d < 2 * r then q + 1 else q + q % 2

/-- A fraction divided by a power of a base, as numerator and denominator. -/
def scaleDown (base : Nat) (e : Int) (n d : Nat) : Nat × Nat :=
  let power := Nat.pow base e.natAbs
  if e < 0 then (n * power, d) else (n, d * power)

namespace Double

/-- The least exponent. -/
def minExponent : Int := -1074

/-- The greatest exponent. -/
def maxExponent : Int := 971

/-- The exponent of the double nearest to `n / d`, before rounding. -/
def exponentOf (n d : Nat) : Int :=
  let e : Int := (Nat.log2 n : Int) - Nat.log2 d - 53
  let (p, q) := scaleDown 2 e n d
  let e := if Nat.pow 2 53 ≤ p / q then e + 1 else e
  if e < minExponent then minExponent else e

/-- The double nearest to `± n / d`. -/
def ofRatio (negative : Bool) (n d : Nat) : Double :=
  if n = 0 then finite negative 0 minExponent
  else
    let e := exponentOf n d
    let (p, q) := scaleDown 2 e n d
    let m := roundDiv p q
    let (m, e) := if m = Nat.pow 2 53 then (Nat.pow 2 52, e + 1) else (m, e)
    if maxExponent < e then infinite negative else finite negative m e

/-- The double nearest to `± digits · 10 ^ exponent`. -/
def ofDecimal (negative : Bool) (digits : Nat) (exponent : Int) : Double :=
  if digits = 0 then ofRatio negative 0 1
  else
    let size : Int := Nat.log2 digits
    -- Beyond these bounds the power of ten decides alone.
    if 4 * exponent + size > 1400 then infinite negative
    else if 4 * exponent + 2 * size < -4000 then ofRatio negative 0 1
    else
      let (n, d) := scaleDown 10 (-exponent) digits 1
      ofRatio negative n d

/-- The double nearest to an integer, unless it is beyond the greatest double. -/
def ofInt? (n : Int) : Option Double :=
  match ofRatio (n < 0) n.natAbs 1 with
  | finite s m e => some (finite s m e)
  | _ => none

/-- The absolute value of a finite double as a fraction. -/
def toRatio (mantissa : Nat) (exponent : Int) : Nat × Nat := scaleDown 2 (-exponent) mantissa 1

/-- The double of opposite sign. -/
def neg : Double → Double
  | nan => nan
  | infinite s => infinite (!s)
  | finite s m e => finite (!s) m e

/-- A sign as a factor. -/
def signed (negative : Bool) (n : Nat) : Int := if negative then -n else n

/-- The double nearest to the sum. -/
def add : Double → Double → Double
  | finite s m e, finite t n f =>
    let (p, q) := toRatio m e
    let (r, u) := toRatio n f
    let sum := signed s p * u + signed t r * q
    if sum = 0 then finite (s && t) 0 minExponent
    else ofRatio (sum < 0) sum.natAbs (q * u)
  | infinite s, infinite t => if s = t then infinite s else nan
  | nan, _ => nan
  | _, nan => nan
  | infinite s, _ => infinite s
  | _, infinite t => infinite t

/-- The double nearest to the product. -/
def mul : Double → Double → Double
  | finite s m e, finite t n f =>
    let (p, q) := toRatio m e
    let (r, u) := toRatio n f
    ofRatio (s != t) (p * r) (q * u)
  | nan, _ => nan
  | _, nan => nan
  | infinite s, infinite t => infinite (s != t)
  | infinite s, finite t n _ => if n = 0 then nan else infinite (s != t)
  | finite s m _, infinite t => if m = 0 then nan else infinite (s != t)

end Double

end Localizer.Number
