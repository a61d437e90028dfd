import Localizer.Host.Shell.Field
import Localizer.Text.Digit

/-!
# Regular expressions

The expressions by which tools search in lines. `Regex.ofText` reads one in the basic or in the
extended form, and `Regex.ends` gives all places at which a match that starts at a place can end.
`Regex.first?` finds the first match of a line, the longest of those that start there.
-/

namespace Localizer.Host.Shell

open Text

/-- What has to be at a place of a line. -/
inductive Edge where
  | front
  | back
  /-- The start of a word. -/
  | wordFront
  /-- The end of a word. -/
  | wordBack
  /-- The start or the end of a word. -/
  | word
  /-- Neither the start nor the end of a word. -/
  | noWord
  deriving Repr, DecidableEq

/-- A regular expression. -/
inductive Regex where
  | empty
  /-- One character of some ranges, or one of none of them. -/
  | one (isNegated : Bool) (ranges : List (Char × Char))
  | edge (e : Edge)
  /-- An expression whose match is remembered under a number. -/
  | group (number : Nat) (body : Regex)
  /-- The match that is remembered under a number. -/
  | same (number : Nat)
  | both (first second : Regex)
  | either (first second : Regex)
  /-- An expression so many times in a row; without `most` there is no limit. -/
  | repeated (least : Nat) (most : Option Nat) (body : Regex)
  deriving Repr, DecidableEq

/-- A place in a line. -/
structure LinePlace where
  /-- What stands before it, in reverse. -/
  behind : Text := []
  rest : Text
  /-- The matches that are remembered, by their numbers. -/
  groups : List (Nat × Text) := []
  deriving Repr, DecidableEq

namespace LinePlace

/-- Characters of words. -/
def isWordChar (c : Char) : Bool := c.isAlphanum || c == '_'

/-- Whether an edge is at a place. -/
def isAt (p : LinePlace) : Edge → Bool
  | .front => p.behind.isEmpty
  | .back => p.rest.isEmpty
  | .wordFront => !p.behind.head?.any isWordChar && p.rest.head?.any isWordChar
  | .wordBack => p.behind.head?.any isWordChar && !p.rest.head?.any isWordChar
  | .word => p.behind.head?.any isWordChar != p.rest.head?.any isWordChar
  | .noWord => p.behind.head?.any isWordChar == p.rest.head?.any isWordChar

/-- The place after so many characters. -/
def forward (p : LinePlace) (n : Nat) : LinePlace :=
  { p with behind := (p.rest.take n).reverse ++ p.behind, rest := p.rest.drop n }

/-- Places of which no two have the same rest and the same matches, in their order. -/
def distinct (ps : List LinePlace) : List LinePlace :=
  (ps.foldl (fun (seen : List (Nat × List (Nat × Text)) × List LinePlace) p =>
    let key := (p.rest.length, p.groups)
    if seen.1.contains key then seen else (key :: seen.1, p :: seen.2)) ([], [])).2.reverse

/-- The places after any number of steps up to a limit, those after more steps first. A step has to
lead forward. -/
def iterate (step : LinePlace → List LinePlace) : (limit : Nat) → LinePlace → List LinePlace
  | 0, p => [p]
  | n + 1, p =>
    distinct (((step p).filter fun q => q.rest.length < p.rest.length).flatMap
      (iterate step n) ++ [p])

/-- The places after exactly so many steps. -/
def after (step : LinePlace → List LinePlace) : Nat → LinePlace → List LinePlace
  | 0, p => [p]
  | n + 1, p => distinct ((step p).flatMap (after step n))

end LinePlace

namespace Regex

/-- Whether a character is in one of some ranges, in either case if that is wanted. -/
def isIn (ignoresCase : Bool) (ranges : List (Char × Char)) (c : Char) : Bool :=
  let has := fun c : Char => ranges.any fun r => r.1 ≤ c && c ≤ r.2
  has c || (ignoresCase && (has c.toLower || has c.toUpper))

/-- The places at which a match that starts at a place can end. -/
def ends (ignoresCase : Bool) : Regex → LinePlace → List LinePlace
  | empty, p => [p]
  | one isNegated ranges, p =>
    match p.rest with
    | c :: _ => if isIn ignoresCase ranges c != isNegated then [p.forward 1] else []
    | [] => []
  | edge e, p => if p.isAt e then [p] else []
  | group n r, p => (ends ignoresCase r p).map fun q =>
      let found := p.rest.take (p.rest.length - q.rest.length)
      { q with groups := (n, found) :: q.groups.filter (·.1 != n) }
  | same n, p =>
    match p.groups.lookup n with
    | some s => if s.isPrefixOf p.rest then [p.forward s.length] else []
    | none => []
  | both a b, p => LinePlace.distinct ((ends ignoresCase a p).flatMap (ends ignoresCase b))
  | either a b, p => ends ignoresCase a p ++ ends ignoresCase b p
  | repeated least most r, p =>
    let step := ends ignoresCase r
    LinePlace.distinct ((LinePlace.after step least p).flatMap fun q =>
      LinePlace.iterate step ((most.map (· - least)).getD q.rest.length) q)

/-- A match in a line. -/
structure Match where
  before : Text
  found : Text
  after : Text
  groups : List (Nat × Text)
  deriving Repr, DecidableEq

/-- The longest match that starts at a place. -/
def at? (ignoresCase : Bool) (r : Regex) (p : LinePlace) : Option Match :=
  match ends ignoresCase r p with
  | [] => none
  | q :: qs =>
    let best := qs.foldl (fun a b => if b.rest.length < a.rest.length then b else a) q
    some {
      before := p.behind.reverse
      found := p.rest.take (p.rest.length - best.rest.length)
      after := best.rest
      groups := best.groups }

/-- The first match from a place on. -/
def firstFrom? (ignoresCase : Bool) (r : Regex) : (behind rest : Text) → Option Match
  | behind, [] => at? ignoresCase r { behind, rest := [] }
  | behind, c :: rest =>
    (at? ignoresCase r { behind, rest := c :: rest }).or
      (firstFrom? ignoresCase r (c :: behind) rest)

/-- The first match in a line. -/
def first? (ignoresCase : Bool) (r : Regex) (s : Text) : Option Match :=
  firstFrom? ignoresCase r [] s

/-! ## Reading -/

/-- What is wrong with an expression. -/
inductive Fault where
  | bracket
  | opening
  | closing
  | brace
  | repetition
  | reference
  | backslash
  deriving Repr, DecidableEq

/-- The wording of a fault. -/
def Fault.message : Fault → String
  | bracket => "Unmatched [, [^, [:, [., or [="
  | opening => "Unmatched ( or \\("
  | closing => "Unmatched ) or \\)"
  | brace => "Unmatched \\\x7b"
  | repetition => "Invalid preceding regular expression"
  | reference => "Invalid back reference"
  | backslash => "Trailing backslash"

/-- A sign of an expression. -/
inductive Sign where
  | char (c : Char)
  | any
  | set (isNegated : Bool) (ranges : List (Char × Char))
  | edge (e : Edge)
  | opening
  | closing
  | bar
  | times (least : Nat) (most : Option Nat)
  | reference (n : Nat)
  deriving Repr, DecidableEq

/-- The ranges up to the bracket that ends them. -/
def set? : (fuel : Nat) → (isFirst : Bool) → Text → Option (List (Char × Char) × Text)
  | 0, _, _ => none
  | _, _, [] => none
  | fuel + 1, isFirst, c :: r =>
    let more := fun (rs : List (Char × Char)) (rest : Text) =>
      (set? fuel false rest).map fun (others, rest) => (rs ++ others, rest)
    if c == ']' && !isFirst then some ([], r)
    else
      match c, r with
      | '[', ':' :: r =>
        match cut? ":]".toList r with
        | some (name, rest) => more (classRanges name) rest
        | none => none
      | c, '-' :: d :: rest => if d == ']' then more [(c, c)] r else more [(c, d)] rest
      | c, rest => more [(c, c)] rest

/-- The numbers of a repetition up to the brace that ends it, which `ending` is. -/
def times? (ending : Text) (s : Text) : Option (Nat × Option Nat × Text) := do
  let (inside, rest) ← cut? ending s
  let (least, most) := match cut? [','] inside with
    | some (a, b) => (a, if b.isEmpty then none else some (numberOf 10 b))
    | none => (inside, some (numberOf 10 inside))
  if (inside.filter (· != ',')).all Char.isDigit && !inside.isEmpty then
    some (numberOf 10 least, most, rest)
  else none

/-- The sign at the front of an expression, and the rest. In the extended form the signs for groups
and repetitions stand alone, and in the basic form after a backslash. `isFirst` says whether an
expression starts here. -/
def sign (isExtended isFirst : Bool) : Text → Except Fault (Sign × Text)
  | [] => .error .backslash
  | ['\\'] => .error .backslash
  | '\\' :: c :: r =>
    match c with
    | '(' => .ok (if isExtended then .char c else .opening, r)
    | ')' => .ok (if isExtended then .char c else .closing, r)
    | '|' => .ok (if isExtended then .char c else .bar, r)
    | '+' => .ok (if isExtended || isFirst then .char c else .times 1 none, r)
    | '?' => .ok (if isExtended || isFirst then .char c else .times 0 (some 1), r)
    | '{' =>
      if isExtended then .ok (.char c, r)
      else
        match times? "\\\x7d".toList r with
        | some (least, most, rest) => .ok (.times least most, rest)
        | none => .error .brace
    | 'n' => .ok (.char '\n', r)
    | 't' => .ok (.char '\t', r)
    | 'w' => .ok (.set false [('a', 'z'), ('A', 'Z'), ('0', '9'), ('_', '_')], r)
    | 'W' => .ok (.set true [('a', 'z'), ('A', 'Z'), ('0', '9'), ('_', '_')], r)
    | 's' => .ok (.set false (classRanges "space".toList), r)
    | 'S' => .ok (.set true (classRanges "space".toList), r)
    | 'b' => .ok (.edge .word, r)
    | 'B' => .ok (.edge .noWord, r)
    | '<' => .ok (.edge .wordFront, r)
    | '>' => .ok (.edge .wordBack, r)
    | c =>
      .ok (if c.isDigit && c != '0' then .reference (c.toNat - '0'.toNat) else .char c, r)
  | '.' :: r => .ok (.any, r)
  | '[' :: '^' :: r =>
    match set? (r.length + 1) true r with
    | some (ranges, rest) => .ok (.set true ranges, rest)
    | none => .error .bracket
  | '[' :: r =>
    match set? (r.length + 1) true r with
    | some (ranges, rest) => .ok (.set false ranges, rest)
    | none => .error .bracket
  | '*' :: r => .ok (if isFirst then .char '*' else .times 0 none, r)
  | '^' :: r => .ok (if isExtended || isFirst then .edge .front else .char '^', r)
  | '$' :: r =>
    let isLast := r.isEmpty || "\\)".toList.isPrefixOf r || "\\|".toList.isPrefixOf r
    .ok (if isExtended || isLast then .edge .back else .char '$', r)
  | '(' :: r => .ok (if isExtended then .opening else .char '(', r)
  | ')' :: r => .ok (if isExtended then .closing else .char ')', r)
  | '|' :: r => .ok (if isExtended then .bar else .char '|', r)
  | '+' :: r => .ok (if isExtended && !isFirst then .times 1 none else .char '+', r)
  | '?' :: r => .ok (if isExtended && !isFirst then .times 0 (some 1) else .char '?', r)
  | '{' :: r =>
    match if isExtended && !isFirst then times? ['}'] r else none with
    | some (least, most, rest) => .ok (.times least most, rest)
    | none => .ok (.char '{', r)
  | c :: r => .ok (.char c, r)

/-- The signs of an expression. -/
def signs (isExtended : Bool) : (fuel : Nat) → (isFirst : Bool) → Text → Except Fault (List Sign)
  | 0, _, _ => .ok []
  | _, _, [] => .ok []
  | fuel + 1, isFirst, s => do
    let (t, rest) ← sign isExtended isFirst s
    let isFirst := t == .opening || t == .bar || t == .edge .front
    let ts ← signs isExtended fuel isFirst rest
    return t :: ts

/-- An expression with the repetitions that follow it. -/
def suffixes (r : Regex) : List Sign → Regex × List Sign
  | .times least most :: rest => suffixes (repeated least most r) rest
  | rest => (r, rest)

/-- An expression that is being read: the signs that are left, and how many groups it has. -/
abbrev Reading := List Sign × Nat

mutual

/-- Alternatives up to a closing sign or the end. -/
def alternatives (fuel : Nat) (ts : Reading) : Except Fault (Regex × Reading) :=
  match fuel with
  | 0 => .ok (empty, ts)
  | fuel + 1 => do
    let (a, ts) ← pieces fuel empty ts
    match ts with
    | (.bar :: rest, n) =>
      let (b, ts) ← alternatives fuel (rest, n)
      return (either a b, ts)
    | ts => return (a, ts)

/-- Expressions in a row after the one in `before`. -/
def pieces (fuel : Nat) (before : Regex) (ts : Reading) : Except Fault (Regex × Reading) :=
  match fuel with
  | 0 => .ok (before, ts)
  | fuel + 1 => do
    match ts with
    | ([], n) => return (before, [], n)
    | (t :: rest, n) =>
      let single := fun r => do
        let (r, rest) := suffixes r rest
        pieces fuel (if before = empty then r else both before r) (rest, n)
      match t with
      | .bar => return (before, t :: rest, n)
      | .closing => return (before, t :: rest, n)
      | .char c => single (one false [(c, c)])
      | .any => single (one true [])
      | .set isNegated ranges => single (one isNegated ranges)
      | .edge e => single (edge e)
      | .times _ _ => .error .repetition
      | .reference k => if k ≤ n then single (same k) else .error .reference
      | .opening =>
        let (r, after, m) ← alternatives fuel (rest, n + 1)
        match after with
        | .closing :: rest =>
          let (r, rest) := suffixes (group (n + 1) r) rest
          pieces fuel (if before = empty then r else both before r) (rest, m)
        | _ => .error .opening

end
/-- The expression that a text denotes. -/
def ofText (isExtended : Bool) (s : Text) : Except Fault Regex := do
  let ts ← signs isExtended (s.length + 1) true s
  let (r, rest, _) ← alternatives (3 * ts.length + 3) (ts, 0)
  if rest.isEmpty then return r else .error .closing

/-- The expression that stands for a text itself. -/
def literal (s : Text) : Regex :=
  s.foldr (fun c r => both (one false [(c, c)]) r) empty

end Regex

end Localizer.Host.Shell
