import Localizer.Host.Shell.Call

/-!
# Calls of programs that start others

What the arguments of programs ask for that start another program: with other variables
(`environmentOf`), with arguments from the input (`ArgumentCall`), or for no longer than a time
(`TimedCall`).
-/

namespace Localizer.Host.Shell

open Text

/-- Whether a program starts without variables, which of them change, and its call; an error is an
option that is not known. -/
def environmentOf : (fuel : Nat) → (isEmpty : Bool) → (changes : List (Text × Option Text)) →
    List Text → Except Char (Bool × List (Text × Option Text) × List Text)
  | 0, isEmpty, changes, args => .ok (isEmpty, changes, args)
  | fuel + 1, isEmpty, changes, args =>
    match args with
    | ['-'] :: rest => environmentOf fuel true changes rest
    | ['-', 'i'] :: rest => environmentOf fuel true changes rest
    | ['-', 'u'] :: name :: rest => environmentOf fuel isEmpty (changes ++ [(name, none)]) rest
    | ['-', '-'] :: rest => .ok (isEmpty, changes, rest)
    | ('-' :: c :: _) :: _ => .error c
    | a :: rest =>
      match cut? ['='] a with
      | some (name, value) => environmentOf fuel isEmpty (changes ++ [(name, some value)]) rest
      | none => .ok (isEmpty, changes, args)
    | [] => .ok (isEmpty, changes, [])

/-! ## Arguments from the input -/

/-- How a program is called with what comes from the input. -/
structure ArgumentCall where
  /-- How many arguments are added at most. -/
  most : Option Nat := none
  /-- The text in the call in place of which a line stands. -/
  place : Option Text := none
  /-- What ends an argument; blanks if there is nothing else. -/
  separator : Option Char := none
  /-- Whether nothing is started without arguments. -/
  skipsEmpty : Bool := false
  /-- The call to which arguments are added. -/
  call : List Text := [['e', 'c', 'h', 'o']]
  deriving Repr, DecidableEq

namespace ArgumentCall

/-- The call that arguments denote. -/
def ofArgs : (fuel : Nat) → ArgumentCall → List Text → ArgumentCall
  | 0, c, _ => c
  | fuel + 1, c, args =>
    match args with
    | ['-', 'n'] :: n :: rest => ofArgs fuel { c with most := some (numberOf 10 n) } rest
    | ('-' :: 'n' :: n) :: rest => ofArgs fuel { c with most := some (numberOf 10 n) } rest
    | ['-', 'I'] :: s :: rest => ofArgs fuel { c with place := some s } rest
    | ('-' :: 'I' :: s) :: rest => ofArgs fuel { c with place := some s } rest
    | ['-', 'd'] :: s :: rest =>
      ofArgs fuel { c with separator := (unescape (s.length + 1) s).1.head? } rest
    | ('-' :: 'd' :: s) :: rest =>
      ofArgs fuel { c with separator := (unescape (s.length + 1) s).1.head? } rest
    | ['-', '0'] :: rest => ofArgs fuel { c with separator := some '\x00' } rest
    | ['-', 'r'] :: rest => ofArgs fuel { c with skipsEmpty := true } rest
    | [] => c
    | args => { c with call := args }

/-- The words of a text: they end at blanks outside of quotes, and a backslash keeps the next
character. With `inLines` only the end of a line ends them. -/
def words (inLines : Bool) : (fuel : Nat) → (word : Option Text) → Text → Except Text (List Text)
  | 0, _, _ => .ok []
  | fuel + 1, word, s =>
    let done := word.toList.map List.reverse
    let add := fun front : Text => some (front.reverse ++ word.getD [])
    match s with
    | [] => .ok done
    | '\\' :: c :: r => words inLines fuel (add [c]) r
    | c :: r =>
      if c == '\'' || c == '"' then
        match cut? [c] r with
        | some (inside, rest) => words inLines fuel (add inside) rest
        | none =>
          .error ("unmatched ".toList ++ (if c == '\'' then "single" else "double").toList ++
            " quote; by default quotes are special to xargs unless you use the -0 option".toList)
      else if c == '\n' || (!inLines && (c == ' ' || c == '\t')) then do
        let rest ← words inLines fuel none r
        return done ++ rest
      else if word.isNone && (c == ' ' || c == '\t') then words inLines fuel none r
      else words inLines fuel (add [c]) r

/-- Lists of so many elements, the last of which may be shorter. -/
def inGroups {α : Type} (size : Nat) : (fuel : Nat) → List α → List (List α)
  | 0, _ => []
  | fuel + 1, xs => if xs.isEmpty then [] else xs.take size :: inGroups size fuel (xs.drop size)

/-- The arguments that are added to each call. -/
def groups (c : ArgumentCall) (source : Text) : Except Text (List (List Text)) := do
  let all ← match c.separator with
    | some d =>
      let parts := source.splitOn d
      pure (if (parts.getLastD []).isEmpty then parts.dropLast else parts)
    | none => words c.place.isSome (source.length + 1) none source
  return if c.place.isSome then all.map ([·])
    else if all.isEmpty then if c.skipsEmpty then [] else [[]]
    else
      match c.most with
      | some n => inGroups (max n 1) all.length all
      | none => [all]

/-- A text in which another text takes the place of a mark. -/
def filled (mark new : Text) : (fuel : Nat) → Text → Text
  | 0, s => s
  | fuel + 1, s =>
    match cut? mark s with
    | some (front, rest) => front ++ new ++ filled mark new fuel rest
    | none => s

/-- The call with arguments. -/
def command (c : ArgumentCall) (group : List Text) : List Text :=
  match c.place with
  | some mark => c.call.map fun a => filled mark (group.headD []) (a.length + 1) a
  | none => c.call ++ group

end ArgumentCall

/-! ## Time limits -/

/-- A call of a program that has to end in a time. -/
structure TimedCall where
  /-- The time in microseconds. -/
  duration : Nat := 0
  /-- Whether the program is ended at once then. -/
  kills : Bool := false
  args : List Text := []
  deriving Repr, DecidableEq

/-- The call that arguments denote; an empty error is that some are missing. -/
def TimedCall.ofArgs? : (fuel : Nat) → TimedCall → List Text → Except Text TimedCall
  | 0, c, _ => .ok c
  | fuel + 1, c, args =>
    match args with
    | ['-', 's'] :: name :: rest =>
      let signal := signal? (if "SIG".toList.isPrefixOf name then name.drop 3 else name)
      match signal with
      | some n => ofArgs? fuel { c with kills := n == 9 } rest
      | none => .error (Tool.inQuotes name ++ ": invalid signal".toList)
    | ['-', 'k'] :: _ :: rest => ofArgs? fuel c rest
    | ('-' :: o :: _) :: _ => .error ("invalid option -- '".toList ++ [o, '\''])
    | time :: rest =>
      if rest.isEmpty then .error []
      else
        match Tool.interval? time with
        | some duration => .ok { c with duration, args := rest }
        | none => .error ("invalid time interval ".toList ++ Tool.inQuotes time)
    | [] => .error []

/-- Print where programs are. -/
def findPrograms (names : List Text) : ShellM Nat := do
  let paths ← names.mapM programPath?
  let _ ← emit 1 (paths.flatMap fun p => (p.map (· ++ ['\n'])).getD [])
  return if names.isEmpty || paths.any Option.isNone then 1 else 0

end Localizer.Host.Shell
