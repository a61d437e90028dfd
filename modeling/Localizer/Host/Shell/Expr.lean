import Localizer.Host.Shell.Regex
import Localizer.Host.Shell.Tool

/-!
# Expressions as arguments

`Tool.expr` computes an expression whose parts are arguments. A text that denotes a whole number
counts as that number where one is needed; an operator compares numbers as numbers and other texts
by their characters.
-/

namespace Localizer.Host.Shell

open Text

namespace Calculation

/-- What is wrong with an expression. -/
inductive Fault where
  | missingAfter (s : Text)
  | unexpected (s : Text)
  | unexpectedClosing
  | openBracket (s : Text)
  | notInteger
  | zeroDivision
  | pattern (f : Regex.Fault)
  deriving Repr, DecidableEq

/-- The wording of a fault. -/
def Fault.message : Fault → Text
  | missingAfter s => "syntax error: missing argument after ".toList ++ Tool.inQuotes s
  | unexpected s => "syntax error: unexpected argument ".toList ++ Tool.inQuotes s
  | unexpectedClosing => "syntax error: unexpected ')'".toList
  | openBracket s => "syntax error: expecting ')' after ".toList ++ Tool.inQuotes s
  | notInteger => "non-integer argument".toList
  | zeroDivision => "division by zero".toList
  | pattern f => f.message.toList

/-- The whole number that a text denotes. -/
def integer? (s : Text) : Option Int :=
  match s with
  | '-' :: ds => if !ds.isEmpty && ds.all Char.isDigit then some (-(numberOf 10 ds : Int)) else none
  | ds => if !ds.isEmpty && ds.all Char.isDigit then some (numberOf 10 ds) else none

/-- Whether a value counts as nothing. -/
def isNull (s : Text) : Bool := s.isEmpty || integer? s == some 0

/-- The part of a text that a pattern at its front matches, or how long it is. -/
def matched (s p : Text) : Except Fault Text :=
  match Regex.ofText false p with
  | .error f => .error (.pattern f)
  | .ok r =>
    let hasGroup := occursIn "\\(".toList p
    match Regex.at? false r { rest := s } with
    | some m =>
      .ok (if hasGroup then (m.groups.lookup 1).getD [] else ofNat m.found.length)
    | none => .ok (if hasGroup then [] else ['0'])

/-- Apply an operator to two values. -/
def apply (op : String) (a b : Text) : Except Fault Text :=
  let truth := fun b : Bool => if b then ['1'] else ['0']
  let both := fun (f : Int → Int → Except Fault Text) =>
    match integer? a, integer? b with
    | some x, some y => f x y
    | _, _ => .error .notInteger
  let order := fun (onNumbers : Int → Int → Bool) (onTexts : Text → Text → Bool) =>
    match integer? a, integer? b with
    | some x, some y => .ok (truth (onNumbers x y))
    | _, _ => .ok (truth (onTexts a b))
  match op with
  | "|" => .ok (if !isNull a then a else if isNull b then ['0'] else b)
  | "&" => .ok (if isNull a || isNull b then ['0'] else a)
  | "<" => order (· < ·) fun a b => a != b && le a b
  | "<=" => order (· ≤ ·) le
  | ">" => order (· > ·) fun a b => a != b && le b a
  | ">=" => order (· ≥ ·) fun a b => le b a
  | "=" => order (· == ·) (· == ·)
  | "==" => order (· == ·) (· == ·)
  | "!=" => order (· != ·) (· != ·)
  | "+" => both fun x y => .ok (ofInt (x + y))
  | "-" => both fun x y => .ok (ofInt (x - y))
  | "*" => both fun x y => .ok (ofInt (x * y))
  | "/" => both fun x y => if y = 0 then .error .zeroDivision else .ok (ofInt (x.tdiv y))
  | "%" => both fun x y => if y = 0 then .error .zeroDivision else .ok (ofInt (x.tmod y))
  | _ => matched a b

/-- The operators, those that bind least first. -/
def levels : List (List String) :=
  [["|"], ["&"], ["<", "<=", "=", "==", "!=", ">=", ">"], ["+", "-"], ["*", "/", "%"], [":"]]

/-- An expression that was computed: its value, and the arguments after it, the last one that was
read before them. -/
abbrev Computed := Except Fault (Text × Text × List Text)

mutual

/-- An expression whose operators are of these levels. -/
def level (fuel : Nat) (ops : List (List String)) (last : Text) (args : List Text) : Computed :=
  match fuel with
  | 0 => .error (.missingAfter last)
  | fuel + 1 =>
    match ops with
    | [] => primary fuel last args
    | names :: higher => do
      let (a, last, args) ← level fuel higher last args
      levelAfter fuel names higher a last args

/-- An expression after its first operand. -/
def levelAfter (fuel : Nat) (names : List String) (higher : List (List String)) (a : Text)
    (last : Text) (args : List Text) : Computed :=
  match fuel with
  | 0 => .error (.missingAfter last)
  | fuel + 1 =>
    match args with
    | op :: rest =>
      if names.any (·.toList == op) then do
        let (b, last, rest) ← level fuel higher op rest
        let v ← apply (String.ofList op) a b
        levelAfter fuel names higher v last rest
      else .ok (a, last, args)
    | [] => .ok (a, last, [])

/-- A single operand, an expression in brackets, or a named operation. -/
def primary (fuel : Nat) (last : Text) (args : List Text) : Computed :=
  match fuel with
  | 0 => .error (.missingAfter last)
  | fuel + 1 =>
    match args with
    | [] => .error (.missingAfter last)
    | s :: rest =>
      if s = ['('] then do
        let (v, last, rest) ← level fuel levels s rest
        match rest with
        | [')'] :: rest => return (v, [')'], rest)
        | _ => .error (.openBracket last)
      else if s = [')'] then .error .unexpectedClosing
      else if s = ['+'] then
        match rest with
        | v :: rest => .ok (v, v, rest)
        | [] => .error (.missingAfter s)
      else if s = "length".toList then do
        let (v, last, rest) ← primary fuel s rest
        return (ofNat v.length, last, rest)
      else if s = "match".toList then do
        let (v, last, rest) ← primary fuel s rest
        let (p, last, rest) ← primary fuel last rest
        let m ← matched v p
        return (m, last, rest)
      else if s = "index".toList then do
        let (v, last, rest) ← primary fuel s rest
        let (cs, last, rest) ← primary fuel last rest
        return (ofNat (((v.findIdx? cs.contains).map (· + 1)).getD 0), last, rest)
      else if s = "substr".toList then do
        let (v, last, rest) ← primary fuel s rest
        let (i, last, rest) ← primary fuel last rest
        let (n, last, rest) ← primary fuel last rest
        let part := match integer? i, integer? n with
          | some i, some n => if i ≤ 0 || n ≤ 0 then [] else (v.drop (i.toNat - 1)).take n.toNat
          | _, _ => []
        return (part, last, rest)
      else .ok (s, s, rest)

end

/-- The value of an expression. -/
def valueOf (args : List Text) : Except Fault Text := do
  let (v, _, rest) ← level (16 * args.length + 16) levels [] args
  match rest with
  | [] => return v
  | [')'] :: _ => .error .unexpectedClosing
  | s :: _ => .error (.unexpected s)

end Calculation

/-- Compute an expression and print its value. -/
def Tool.expr (args : List Text) : ShellM Nat := do
  if args.isEmpty then
    let _ ← misused "expr" "missing operand" []
    return 2
  else
    match Calculation.valueOf (if args.head? = some "--".toList then args.tail else args) with
    | .ok v =>
      let _ ← emit 1 (v ++ ['\n'])
      return if Calculation.isNull v then 1 else 0
    | .error f =>
      let _ ← emit 2 ("expr: ".toList ++ f.message ++ ['\n'])
      return 2

end Localizer.Host.Shell
