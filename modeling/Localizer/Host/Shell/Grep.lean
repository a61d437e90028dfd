import Localizer.Host.Shell.Regex
import Localizer.Host.Shell.Tool

/-!
# Searching lines

`Tool.grep` prints the lines of files that fit one of some patterns, or tells how many there are, in
which files, or what in them fits.
-/

namespace Localizer.Host.Shell

open Text

/-- What lines are searched for. -/
structure LineSearch where
  patterns : List Regex
  ignoresCase : Bool
  /-- Whether the whole line has to fit. -/
  isWhole : Bool
  /-- Whether what fits has to be a word. -/
  isWord : Bool
  /-- Whether the lines are wanted that do not fit. -/
  isInverted : Bool

namespace LineSearch

/-- The pattern as it has to fit. -/
def surrounded (s : LineSearch) (r : Regex) : Regex :=
  if s.isWhole then .both (.edge .front) (.both r (.edge .back))
  else if s.isWord then .both (.edge .wordFront) (.both r (.edge .wordBack))
  else r

/-- The first of all matches from a place on, the longest of those at the same place. -/
def firstFrom? (s : LineSearch) (behind rest : Text) : Option Regex.Match :=
  (s.patterns.filterMap fun r =>
    Regex.firstFrom? s.ignoresCase (s.surrounded r) behind rest).foldl (fun best m =>
      match best with
      | none => some m
      | some b =>
        if m.before.length < b.before.length ||
            (m.before.length == b.before.length && b.found.length < m.found.length)
        then some m else some b) none

/-- Whether a line is wanted. -/
def wants (s : LineSearch) (l : Text) : Bool := (s.firstFrom? [] l).isSome != s.isInverted

/-- All parts of a line that fit and are not empty. -/
def foundIn (s : LineSearch) : (fuel : Nat) → (behind rest : Text) → List Text
  | 0, _, _ => []
  | fuel + 1, behind, rest =>
    match s.firstFrom? behind rest with
    | none => []
    | some m =>
      let passed := m.before.drop behind.length ++ m.found
      if m.found.isEmpty then
        match m.after with
        | c :: after => foundIn s fuel (c :: passed.reverse ++ behind) after
        | [] => []
      else m.found :: foundIn s fuel (passed.reverse ++ behind) m.after

end LineSearch

namespace Tool

/-- How a search is called. -/
def grepUsage : Text :=
  "Usage: grep [OPTION]... PATTERNS [FILE]...\n".toList ++ hint "grep"

/-- The rows of a file that a search prints: for each line its number, whether it is wanted, and the
line. A row that only stands near one that is wanted has a dash after its number. -/
def grepRows (wants : Text → Bool) (before after : Nat) (most : Option Nat) (ls : List Text) :
    List (Nat × Bool × Text) :=
  let rows := (ls.zipIdx 1).map fun (l, n) => (n, wants l, l)
  let wanted := (rows.filter (·.2.1)).map (·.1)
  let wanted := (most.map wanted.take).getD wanted
  rows.filterMap fun (n, _, l) =>
    if wanted.contains n then some (n, true, l)
    else if wanted.any fun k => (k < n && n ≤ k + after) || (n < k && k ≤ n + before) then
      some (n, false, l)
    else none

/-- Print the lines that fit a pattern. -/
def grep (args : List Text) : ShellM Nat := do
  let plain := "vicnoqEFGwxlLhHsaZ".toList
  let args := args.map fun a =>
    if a = "--color=auto".toList || a = "--color=never".toList then "-a".toList else a
  match readOptions plain "emABC".toList (args.flatten.length + 2 * args.length + 1) [] args with
  | .error message =>
    let _ ← emit 2 ("grep: ".toList ++ message ++ '\n' :: grepUsage)
    return 2
  | .ok (flags, names) =>
    let has := hasFlag flags
    let given := (flags.filter (·.1 == 'e')).map (·.2)
    let (patterns, names) := match given, names with
      | [], p :: names => ([p], names)
      | given, names => (given, names)
    if patterns.isEmpty then
      let _ ← emit 2 grepUsage
      return 2
    let texts := patterns.flatMap lines
    match texts.mapM fun t =>
        if has 'F' then .ok (Regex.literal t) else Regex.ofText (has 'E') t with
    | .error fault =>
      note "grep: " fault.message.toList ""
      return 2
    | .ok rs =>
      let search : LineSearch :=
        { patterns := rs, ignoresCase := has 'i', isWhole := has 'x', isWord := has 'w',
          isInverted := has 'v' }
      let size := fun c => ((flags.lookup c).orElse fun _ => flags.lookup 'C').map (numberOf 10)
      let (before, after) := ((size 'B').getD 0, (size 'A').getD 0)
      let most := (flags.lookup 'm').map (numberOf 10)
      let inputs := if names.isEmpty then [['-']] else names
      let isTitled := (1 < inputs.length || has 'H') && !has 'h'
      let bare := fun l : Text => if l.getLast? = some '\n' then l.dropLast else l
      let (isFound, isWrong) ← inputs.foldlM (fun (found, wrong) name => do
        let path ← absolute name
        let isThere := name == ['-'] || path == "/dev/null".toList ||
          ((← world).file? path).isSome || (← world).folders.contains path
        if !isThere && has 's' then return (found, true)
        let label := if name = ['-'] then "(standard input)".toList else name
        if !("qclL".toList.any has) && (← isOutput name) then
          note "grep: " label ": input file is also the output"
          return (found, true)
        match ← contentOf "grep" "" "" name with
        | none => return (found, true)
        | some s =>
          let rows := grepRows search.wants before after most ((wholeLines s).map bare)
          let wanted := rows.filter (·.2.1)
          let title := if isTitled then label else []
          let front := fun (mark : Char) (n : Nat) =>
            (if title.isEmpty then [] else title ++ [mark]) ++
              (if has 'n' then ofNat n ++ [mark] else [])
          let out := if has 'q' then []
            else if has 'l' || has 'L' then
              if wanted.isEmpty == has 'L' then label ++ ['\n'] else []
            else if has 'c' then
              (if title.isEmpty then [] else title ++ [':']) ++ ofNat wanted.length ++ ['\n']
            else if has 'o' then wanted.flatMap fun (n, _, l) =>
              (search.foundIn (l.length + 1) [] l).flatMap fun m => front ':' n ++ m ++ ['\n']
            else
              let row := fun (n, isWanted, l) =>
                front (if isWanted then ':' else '-') n ++ l ++ ['\n']
              let gap := fun (a b : Nat × Bool × Text) =>
                if a.1 + 1 < b.1 && 0 < before + after then "--\n".toList else []
              (rows.zipIdx).flatMap fun (r, k) =>
                (if k = 0 then [] else ((rows[k - 1]?).map (gap · r)).getD []) ++ row r
          let _ ← emit 1 out
          match wanted.getLast? with
          | some (n, _) =>
            if name = ['-'] && some wanted.length = most then
              giveBack ((wholeLines s).drop n).flatten
          | none => pure ()
          return (found || (wanted.isEmpty == (has 'L' && !has 'q')), wrong)) (false, false)
      return if isFound && (!isWrong || has 'q') then 0 else if isWrong then 2 else 1

end Tool

end Localizer.Host.Shell
