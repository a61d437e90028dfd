import Localizer.Host.Shell.Arithmetic

/-!
# Conditions

The conditions of `test`, written as a list of arguments. A word is an operator only where its
neighbours allow it, so that any word can be tested: `Condition.holds` decides a condition when it
is told what is known of files.
-/

namespace Localizer.Host.Shell

open Text

/-- The role of a word in a condition. -/
inductive ConditionWord where
  /-- A test of one operand. -/
  | unary
  /-- A comparison of two operands. -/
  | binary
  | not
  | and
  | or
  | opening
  | closing
  deriving Repr, DecidableEq

namespace Condition

/-- The tests of one operand. -/
def unaryNames : List Text :=
  ["-r", "-w", "-x", "-e", "-f", "-d", "-c", "-b", "-p", "-u", "-g", "-k", "-s", "-t", "-z", "-n",
   "-h", "-O", "-G", "-L", "-S"].map String.toList

/-- The comparisons. -/
def binaryNames : List Text :=
  ["=", "!=", "<", ">", "-eq", "-ne", "-ge", "-gt", "-le", "-lt", "-nt", "-ot", "-ef"].map
    String.toList

/-- The role that a word can have. -/
def role? (s : Text) : Option ConditionWord :=
  if unaryNames.contains s then some .unary
  else if binaryNames.contains s then some .binary
  else if s = ['!'] then some .not
  else if s = "-a".toList then some .and
  else if s = "-o".toList then some .or
  else if s = ['('] then some .opening
  else if s = [')'] then some .closing
  else none

/-- The role that the first of the words has there. -/
def roleOf? : List Text → Option ConditionWord
  | [] => none
  | s :: rest =>
    match role? s with
    | some .unary =>
      let isOperand : Bool := match rest with
        | [] => true
        | [_] => false
        | next :: _ => role? next == some .binary
      if isOperand then none else some .unary
    | some .opening => if rest.isEmpty then none else some .opening
    | r => r

/-- A whole number in decimal digits, up to blanks around it. -/
def number (s : Text) : Except Text Int :=
  let isBlank := fun c : Char => c == ' ' || ('\t' ≤ c && c ≤ '\r')
  let t := dropEndWhile isBlank (s.dropWhile isBlank)
  let (isNegative, digits) := match t with
    | '-' :: r => (true, r)
    | '+' :: r => (false, r)
    | t => (false, t)
  if digits.isEmpty || !digits.all Char.isDigit then .error ("Illegal number: ".toList ++ s)
  else
    let n : Int := numberOf 10 digits
    let n := if isNegative then -n else n
    if clamp n = n then .ok n else .error ("Illegal number: ".toList ++ s)

/-- Compare two operands. -/
def compare (file : Text → List Text → Bool) (a op b : Text) : Except Text Bool :=
  match String.ofList op with
  | "=" => .ok (a == b)
  | "!=" => .ok (a != b)
  | "<" => .ok (a != b && le a b)
  | ">" => .ok (a != b && le b a)
  | "-eq" => do return (← number a) == (← number b)
  | "-ne" => do return (← number a) != (← number b)
  | "-ge" => do return (← number a) ≥ (← number b)
  | "-gt" => do return (← number a) > (← number b)
  | "-le" => do return (← number a) ≤ (← number b)
  | "-lt" => do return (← number a) < (← number b)
  | _ => .ok (file op [a, b])

/-- A condition that was decided: its truth, and the words from its last one on. -/
abbrev Decided := Except Text (Bool × List Text)

mutual

/-- Alternatives. -/
def alternatives (file : Text → List Text → Bool) (fuel : Nat) (role : Option ConditionWord)
    (ws : List Text) : Decided :=
  match fuel with
  | 0 => .ok (false, [])
  | fuel + 1 => do
    let (a, ws) ← conjunction file fuel role ws
    if roleOf? ws.tail = some .or then
      let (b, ws) ← alternatives file fuel (roleOf? (ws.drop 2)) (ws.drop 2)
      return (a || b, ws)
    else return (a, ws)

/-- Conditions that have to hold together. -/
def conjunction (file : Text → List Text → Bool) (fuel : Nat) (role : Option ConditionWord)
    (ws : List Text) : Decided :=
  match fuel with
  | 0 => .ok (false, [])
  | fuel + 1 => do
    let (a, ws) ← negation file fuel role ws
    if roleOf? ws.tail = some .and then
      let (b, ws) ← conjunction file fuel (roleOf? (ws.drop 2)) (ws.drop 2)
      return (a && b, ws)
    else return (a, ws)

/-- A condition that may be negated. -/
def negation (file : Text → List Text → Bool) (fuel : Nat) (role : Option ConditionWord)
    (ws : List Text) : Decided :=
  match fuel with
  | 0 => .ok (false, [])
  | fuel + 1 =>
    if role = some .not then do
      if ws.tail.isEmpty then return (true, ws)
      else
        let (a, ws) ← negation file fuel (roleOf? ws.tail) ws.tail
        return (!a, ws)
    else primary file fuel role ws

/-- A single condition, or one in brackets. -/
def primary (file : Text → List Text → Bool) (fuel : Nat) (role : Option ConditionWord)
    (ws : List Text) : Decided :=
  match fuel with
  | 0 => .ok (false, [])
  | fuel + 1 =>
    match ws with
    | [] => .ok (false, [])
    | s :: rest =>
      if role = some .opening then
        if roleOf? rest = some .closing then .ok (false, rest)
        else do
          let (a, ws) ← alternatives file fuel (roleOf? rest) rest
          if roleOf? ws.tail = some .closing then return (a, ws.tail)
          else .error "closing paren expected".toList
      else if role = some .unary then
        match rest with
        | [] => .error (s ++ ": argument expected".toList)
        | operand :: _ =>
          if s = "-z".toList then .ok (operand.isEmpty, rest)
          else if s = "-n".toList then .ok (!operand.isEmpty, rest)
          else if s = "-t".toList then do
            let _ ← number operand
            return (false, rest)
          else .ok (file s [operand], rest)
      else if roleOf? rest = some .binary then
        match rest with
        | op :: b :: _ => do return (← compare file s op b, rest.tail)
        | op :: [] => .error (op ++ ": argument expected".toList)
        | [] => .ok (false, [])
      else .ok (!s.isEmpty, ws)

end

/-- Decide what is left of a condition, `isNegated` if an exclamation mark stood before it. -/
def decideRest (file : Text → List Text → Bool) (isNegated : Bool) (role : Option ConditionWord)
    (ws : List Text) : Except Text Bool := do
  let (a, ws) ← alternatives file (8 * (ws.length + 2)) role ws
  match ws with
  | w :: _ :: _ =>
    .error (if w.isEmpty then "unexpected operator".toList
      else w ++ ": unexpected operator".toList)
  | _ => return a != isNegated

/-- Decide a condition of few words by their places, and any other as it is read. -/
def holds (file : Text → List Text → Bool) : (fuel : Nat) → (isNegated : Bool) → List Text →
    Except Text Bool
  | 0, _, _ => .ok false
  | fuel + 1, isNegated, ws =>
    if ws.isEmpty then .ok isNegated
    else if ws.length = 3 && (ws[1]?.bind role?) == some .binary then
      decideRest file isNegated none ws
    else if ws.length = 3 || ws.length = 4 then
      if ws.head? = some ['('] && ws.getLast? = some [')'] then
        let inside := ws.tail.dropLast
        decideRest file isNegated (roleOf? inside) inside
      else if ws.head? = some ['!'] then holds file fuel true ws.tail
      else decideRest file isNegated (roleOf? ws) ws
    else decideRest file isNegated (roleOf? ws) ws

end Condition

end Localizer.Host.Shell
