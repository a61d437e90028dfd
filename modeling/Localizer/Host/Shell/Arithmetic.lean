import Localizer.Text.Basic
import Localizer.Text.Digit

/-!
# Arithmetic expressions

Expressions over integers of 64 bits. `Expression.ofText` reads an expression, and
`Expression.value` computes it from the values of variables, which assignments change. A text is
computed as far as it is an expression: a fault in its form stands in the expression at its place,
so that of two faults the one that comes first is found.
-/

namespace Localizer.Host.Shell

open Text

/-- An integer brought into the range of 64 bits. -/
def wrap (n : Int) : Int := Int.bmod n (Nat.pow 2 64)

/-- The least and the greatest integer of 64 bits. -/
def clamp (n : Int) : Int :=
  max (-(Nat.pow 2 63 : Int)) (min n (Nat.pow 2 63 - 1 : Int))

/-- The digits of a number at the front of a text, its base and the rest. A leading zero marks base
eight, and `0x` base sixteen. -/
def unsignedDigits (s : Text) : Nat × Text × Text :=
  match s with
  | '0' :: x :: d :: r =>
    if (x == 'x' || x == 'X') && isHexDigit d then
      (16, (d :: r).takeWhile isHexDigit, (d :: r).dropWhile isHexDigit)
    else
      let isOctal := fun c : Char => '0' ≤ c && c ≤ '7'
      (8, s.takeWhile isOctal, s.dropWhile isOctal)
  | '0' :: _ =>
    let isOctal := fun c : Char => '0' ≤ c && c ≤ '7'
    (8, s.takeWhile isOctal, s.dropWhile isOctal)
  | s => (10, s.takeWhile Char.isDigit, s.dropWhile Char.isDigit)

/-- A number at the front of a text after blanks and a sign, and the rest; none if no digit
stands there. -/
def leadingNumber? (s : Text) : Option (Int × Text) :=
  let s := s.dropWhile fun c => c == ' ' || ('\t' ≤ c && c ≤ '\r')
  let (isNegative, s) := match s with
    | '-' :: r => (true, r)
    | '+' :: r => (false, r)
    | s => (false, s)
  let (base, digits, rest) := unsignedDigits s
  if digits.isEmpty then none
  else
    let n : Int := numberOf base digits
    some (if isNegative then -n else n, rest)

/-- The number that a text denotes as a whole, up to blanks around it; a number beyond 64 bits
becomes the nearest one. -/
def wholeNumber? (s : Text) : Option Int := do
  let (n, rest) ← leadingNumber? s
  if rest.all (fun c => c == ' ' || ('\t' ≤ c && c ≤ '\r')) then some (clamp n) else none

/-- Operations on two numbers. -/
inductive BinaryOp where
  | mul
  | div
  | rem
  | add
  | sub
  | shiftLeft
  | shiftRight
  | lt
  | le
  | gt
  | ge
  | eq
  | ne
  | bitAnd
  | bitXor
  | bitOr
  deriving Repr, DecidableEq

/-- Operations on one number. -/
inductive UnaryOp where
  | neg
  | bitNot
  | not
  deriving Repr, DecidableEq

/-- What is wrong with an expression. -/
inductive ArithmeticFault where
  | noPrimary
  | noBracket
  | noColon
  /-- Something follows the expression. -/
  | trailing
  | divisionByZero
  /-- The value of a variable is no number. -/
  | notNumber (value : Text)
  deriving Repr, DecidableEq

/-- The wording of a fault in the expression `source`. -/
def ArithmeticFault.message (source : Text) : ArithmeticFault → Text
  | noPrimary => about "expecting primary"
  | noBracket => about "expecting ')'"
  | noColon => about "expecting ':'"
  | trailing => about "expecting EOF"
  | divisionByZero => about "division by zero"
  | notNumber v => "Illegal number: ".toList ++ v
where
  /-- A wording that shows the expression. -/
  about (s : String) : Text :=
    "arithmetic expression: ".toList ++ s.toList ++ ": \"".toList ++ source ++ ['"']

/-- An arithmetic expression. -/
inductive Expression where
  | number (n : Int)
  | parameter (name : Text)
  | unary (op : UnaryOp) (e : Expression)
  | binary (op : BinaryOp) (a b : Expression)
  | and (a b : Expression)
  | or (a b : Expression)
  | ifElse (test yes no : Expression)
  /-- Give a variable a value, computed from the value before if there is an operation. -/
  | assign (name : Text) (op : Option BinaryOp) (e : Expression)
  /-- No expression. -/
  | fault (f : ArithmeticFault)
  /-- An expression, and something wrong after it. -/
  | followed (e : Expression) (f : ArithmeticFault)
  deriving Repr, DecidableEq

/-! ## Reading -/

/-- The signs of the operations, the longer of two that start alike first. The number is the rank:
operations of a lower one bind more tightly. -/
def binarySigns : List (Text × BinaryOp × Nat) :=
  [("<<".toList, .shiftLeft, 2), (">>".toList, .shiftRight, 2), ("<=".toList, .le, 3),
   (">=".toList, .ge, 3), ("==".toList, .eq, 4), ("!=".toList, .ne, 4), ("*".toList, .mul, 0),
   ("/".toList, .div, 0), ("%".toList, .rem, 0), ("+".toList, .add, 1), ("-".toList, .sub, 1),
   ("<".toList, .lt, 3), (">".toList, .gt, 3), ("&".toList, .bitAnd, 5), ("^".toList, .bitXor, 6),
   ("|".toList, .bitOr, 7)]

/-- The operations that an assignment can carry out first. -/
def assigningOps : List BinaryOp :=
  [.mul, .div, .rem, .add, .sub, .shiftLeft, .shiftRight, .bitAnd, .bitXor, .bitOr]

namespace Expression

/-- An expression that was read, and the rest; or an expression up to a fault in its form. -/
abbrev Reading := Except Expression (Expression × Text)

/-- A text without the blanks at its front. -/
def skip (s : Text) : Text := s.dropWhile fun c => c == ' ' || c == '\t' || c == '\n'

/-- A binary operation at the front of a text, with its rank and the rest. Doubled signs and
assignments are none. -/
def operation? (s : Text) : Option (BinaryOp × Nat × Text) :=
  let s := skip s
  if (after? "&&".toList s).isSome || (after? "||".toList s).isSome then none
  else
    match binarySigns.findSome? fun (sign, op, rank) => (after? sign s).map (op, rank, ·) with
    | some (op, rank, '=' :: r) =>
      if assigningOps.contains op then none else some (op, rank, '=' :: r)
    | found => found

/-- An assignment to the name at the front of a text: the name, the operation and the rest. -/
def assignment? (s : Text) : Option (Text × Option BinaryOp × Text) :=
  match skip s with
  | [] => none
  | c :: r =>
    if c.isAlpha || c == '_' then
      let name := c :: r.takeWhile fun c => c.isAlphanum || c == '_'
      let rest := skip (r.drop (name.length - 1))
      match rest with
      | '=' :: '=' :: _ => none
      | '=' :: rest => some (name, none, rest)
      | rest => binarySigns.findSome? fun (sign, op, _) =>
        if assigningOps.contains op then
          (after? (sign ++ ['=']) rest).map fun rest => (name, some op, rest)
        else none
    else none

/-- A part that was read and its rest, or what has to be computed up to a fault in it: `around` says
what the part is of. -/
def within (around : Expression → Expression) (r : Reading) : Reading := r.mapError around

mutual

/-- A whole expression. -/
def readAssignment (fuel : Nat) (s : Text) : Reading :=
  match fuel with
  | 0 => .error (.fault .noPrimary)
  | fuel + 1 =>
    match assignment? s with
    | some (name, op, rest) => do
      let (e, rest) ← within (.assign name op) (readAssignment fuel rest)
      return (.assign name op e, rest)
    | none => readChoice fuel s

/-- An expression without an assignment outside of brackets. -/
def readChoice (fuel : Nat) (s : Text) : Reading :=
  match fuel with
  | 0 => .error (.fault .noPrimary)
  | fuel + 1 => do
    let (test, rest) ← readOr fuel s
    match skip rest with
    | '?' :: rest => do
      let (yes, rest) ← within (.ifElse test · (.number 0)) (readAssignment fuel rest)
      match skip rest with
      | ':' :: rest => do
        let (no, rest) ← within (.ifElse test yes) (readChoice fuel rest)
        return (.ifElse test yes no, rest)
      | _ => .error (.followed (.ifElse test yes (.number 0)) .noColon)
    | _ => return (test, rest)

/-- Alternatives. -/
def readOr (fuel : Nat) (s : Text) : Reading :=
  match fuel with
  | 0 => .error (.fault .noPrimary)
  | fuel + 1 => do
    let (a, rest) ← readAnd fuel s
    match skip rest with
    | '|' :: '|' :: rest => do
      let (b, rest) ← within (.or a) (readOr fuel rest)
      return (.or a b, rest)
    | _ => return (a, rest)

/-- Conditions that have to hold together. -/
def readAnd (fuel : Nat) (s : Text) : Reading :=
  match fuel with
  | 0 => .error (.fault .noPrimary)
  | fuel + 1 => do
    let (a, rest) ← readPrimary fuel s
    let (a, rest) ← readOperations fuel 8 a rest
    match skip rest with
    | '&' :: '&' :: rest => do
      let (b, rest) ← within (.and a) (readAnd fuel rest)
      return (.and a b, rest)
    | _ => return (a, rest)

/-- The operations after `a` whose rank is below `limit`. -/
def readOperations (fuel : Nat) (limit : Nat) (a : Expression) (s : Text) : Reading :=
  match fuel with
  | 0 => .error (.fault .noPrimary)
  | fuel + 1 =>
    match operation? s with
    | none => .ok (a, s)
    | some (op, rank, rest) =>
      if rank < limit then do
        let (b, rest) ← within (.binary op a) (readPrimary fuel rest)
        let (b, rest) ← within (.binary op a) (readOperations fuel rank b rest)
        readOperations fuel limit (.binary op a b) rest
      else .ok (a, s)

/-- A number, a variable, an expression in brackets, or one of these after signs. -/
def readPrimary (fuel : Nat) (s : Text) : Reading :=
  match fuel with
  | 0 => .error (.fault .noPrimary)
  | fuel + 1 =>
    match skip s with
    | '(' :: rest => do
      let (e, rest) ← readAssignment fuel rest
      match skip rest with
      | ')' :: rest => return (e, rest)
      | _ => .error (.followed e .noBracket)
    | '+' :: rest => readPrimary fuel rest
    | '-' :: rest => do
      let (e, rest) ← within (.unary .neg) (readPrimary fuel rest)
      return (.unary .neg e, rest)
    | '!' :: rest => do
      let (e, rest) ← within (.unary .not) (readPrimary fuel rest)
      return (.unary .not e, rest)
    | '~' :: rest => do
      let (e, rest) ← within (.unary .bitNot) (readPrimary fuel rest)
      return (.unary .bitNot e, rest)
    | c :: rest =>
      if c.isDigit then
        let (base, digits, rest) := unsignedDigits (c :: rest)
        .ok (.number (clamp (numberOf base digits)), rest)
      else if c.isAlpha || c == '_' then
        let isPart := fun c : Char => c.isAlphanum || c == '_'
        .ok (.parameter (c :: rest.takeWhile isPart), rest.dropWhile isPart)
      else .error (.fault .noPrimary)
    | [] => .error (.fault .noPrimary)

end

/-- Read a text as an expression. -/
def ofText (s : Text) : Expression :=
  match readAssignment (16 * (s.length + 2)) s with
  | .ok (e, rest) => if (skip rest).isEmpty then e else .followed e .trailing
  | .error e => e

/-! ## Computing -/

/-- Truth as a number. -/
def truth (b : Bool) : Int := if b then 1 else 0

/-- Apply an operation on bits to the words of two numbers. -/
def onBits (f : BitVec 64 → BitVec 64 → BitVec 64) (a b : Int) : Int :=
  (f (BitVec.ofInt 64 a) (BitVec.ofInt 64 b)).toInt

/-- Carry out an operation. -/
def apply (op : BinaryOp) (a b : Int) : Except ArithmeticFault Int :=
  match op with
  | .mul => .ok (wrap (a * b))
  | .div => if b = 0 then .error .divisionByZero else .ok (wrap (a.tdiv b))
  | .rem => if b = 0 then .error .divisionByZero else .ok (wrap (a.tmod b))
  | .add => .ok (wrap (a + b))
  | .sub => .ok (wrap (a - b))
  | .shiftLeft => .ok (wrap (a * (Nat.pow 2 (b.emod 64).toNat : Nat)))
  | .shiftRight => .ok (a.fdiv (Nat.pow 2 (b.emod 64).toNat : Nat))
  | .lt => .ok (truth (a < b))
  | .le => .ok (truth (a ≤ b))
  | .gt => .ok (truth (b < a))
  | .ge => .ok (truth (b ≤ a))
  | .eq => .ok (truth (a = b))
  | .ne => .ok (truth (a ≠ b))
  | .bitAnd => .ok (onBits (· &&& ·) a b)
  | .bitXor => .ok (onBits (· ^^^ ·) a b)
  | .bitOr => .ok (onBits (· ||| ·) a b)

/-- The values of variables, which assignments put in front. -/
structure Values where
  /-- The value of a variable as a text; none if it has none. -/
  before : Text → Option Text
  assigned : List (Text × Int) := []

/-- The number that is the value of a variable; without a value it is zero. -/
def Values.get (v : Values) (name : Text) : Except ArithmeticFault Int :=
  match v.assigned.lookup name with
  | some n => .ok n
  | none =>
    match v.before name with
    | none => .ok 0
    | some s =>
      if s.all fun c => c == ' ' || ('\t' ≤ c && c ≤ '\r') then .ok 0
      else
        match wholeNumber? s with
        | some n => .ok n
        | none => .error (.notNumber s)

/-- The value of an expression, and the variables after its assignments. What does not count, since
something before it has decided, is gone through for faults in its form and changes nothing. -/
def value (counts : Bool) : Expression → Values → Except ArithmeticFault (Int × Values)
  | number n, v => .ok (n, v)
  | parameter s, v => if counts then do return (← v.get s, v) else .ok (0, v)
  | unary op e, v => do
    let (n, v) ← value counts e v
    match op with
    | .neg => return (wrap (-n), v)
    | .bitNot => return (-n - 1, v)
    | .not => return (truth (n = 0), v)
  | binary op a b, v => do
    let (m, v) ← value counts a v
    let (n, v) ← value counts b v
    if counts then return (← apply op m n, v) else return (n, v)
  | and a b, v => do
    let (m, v) ← value counts a v
    let (n, v) ← value (counts && m != 0) b v
    return (truth (m ≠ 0 ∧ n ≠ 0), v)
  | or a b, v => do
    let (m, v) ← value counts a v
    let (n, v) ← value (counts && m == 0) b v
    return (truth (m ≠ 0 ∨ n ≠ 0), v)
  | ifElse test yes no, v => do
    let (m, v) ← value counts test v
    let (y, v) ← value (counts && m != 0) yes v
    let (n, v) ← value (counts && m == 0) no v
    return (if m ≠ 0 then y else n, v)
  | assign name op e, v => do
    let (n, v) ← value counts e v
    if counts then
      let n ← match op with
        | none => pure n
        | some op => do apply op (← v.get name) n
      return (n, { v with assigned := (name, n) :: v.assigned })
    else return (n, v)
  | fault f, _ => .error f
  | followed e f, v => do
    let _ ← value counts e v
    .error f

end Expression

end Localizer.Host.Shell
