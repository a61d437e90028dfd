import Localizer.Host.Shell.Regex
import Localizer.Host.Shell.Tool

/-!
# Editing lines

`Tool.sed` carries out a short program for each line of its input: the line can be changed, printed,
left out or kept for later. `EditProgram.ofText` reads a program, and `Editing.cycle` carries it out
for one line.
-/

namespace Localizer.Host.Shell

open Text

/-- The lines that an editing command is for. -/
inductive LineAddress where
  | number (n : Nat)
  | last
  /-- Lines that fit a pattern. -/
  | fits (r : Regex) (ignoresCase : Bool)
  /-- Every so many lines from a line on. -/
  | step (first size : Nat)
  deriving Repr, DecidableEq

/-- A piece of what takes the place of a match. -/
inductive ReplacementPart where
  | text (s : Text)
  /-- The part of the match that is remembered under a number; zero is the whole. -/
  | group (n : Nat)
  /-- What follows is in capital or in small letters, or as it is. -/
  | letters (isUpper : Option Bool)
  deriving Repr, DecidableEq

/-- What an editing command does. -/
inductive EditAction where
  /-- Replace matches from the one with a number on, one or all of them. -/
  | replace (r : Regex) (ignoresCase : Bool) (parts : List ReplacementPart) (start : Nat)
      (isGlobal prints : Bool)
  /-- Replace characters by others. -/
  | exchange (old new : Text)
  | print
  /-- Print the first line of what is edited. -/
  | printFirst
  | delete
  /-- Leave out the first line of what is edited and start again. -/
  | deleteFirst
  | quit (status : Nat) (prints : Bool)
  | lineNumber
  | next
  /-- Add the next line to what is edited. -/
  | join
  /-- Keep what is edited, or get back what was kept; `adds` puts it behind what is there. -/
  | keep (adds : Bool)
  | recall (adds : Bool)
  | swap
  | insert (s : Text)
  | append (s : Text)
  | change (s : Text)
  | label (name : Text)
  | branch (name : Text)
  /-- Go on at a label if something has been replaced. -/
  | branchIfReplaced (name : Text)
  /-- Go on after the brace that closes this one unless the line is one it is for. -/
  | opening
  | closing
  deriving Repr, DecidableEq

/-- An editing command. -/
structure EditCommand where
  first : Option LineAddress := none
  second : Option LineAddress := none
  isNegated : Bool := false
  action : EditAction
  deriving Repr, DecidableEq

/-! ## Reading programs -/

/-- What is wrong with a program, and after how many characters. -/
structure EditFault where
  position : Nat
  message : Text
  deriving Repr, DecidableEq

/-- A program that is being read. -/
structure EditReader where
  source : Text
  rest : Text
  isExtended : Bool

namespace EditReader

/-- A step of reading. -/
abbrev EditM := StateT EditReader (Except EditFault)

/-- Report a fault at the character that was read last. -/
def raise {α : Type} (message : String) : EditM α := do
  let r ← get
  throw ⟨r.source.length - r.rest.length, message.toList⟩

/-- Go on with a text. -/
def advance (rest : Text) : EditM Unit := modify fun r => { r with rest }

/-- Take characters as long as they are of a kind. -/
def takeWhile (p : Char → Bool) : EditM Text := do
  let s := (← get).rest
  advance (s.dropWhile p)
  return s.takeWhile p

/-- The text up to a separator that no backslash stands before. A backslash before the separator is
left out. -/
def upTo? (separator : Char) : Text → Option (Text × Text)
  | [] => none
  | '\\' :: c :: r =>
    if c == separator then prepend [c] (upTo? separator r)
    else prepend ['\\', c] (upTo? separator r)
  | c :: r => if c == separator then some ([], r) else prepend [c] (upTo? separator r)

/-- How many characters after an opening bracket belong to it, with the closing one. -/
def bracketSize? (s : Text) : Option Nat :=
  let front := match s with
    | '^' :: ']' :: _ => 2
    | '^' :: _ => 1
    | ']' :: _ => 1
    | _ => 0
  (inside (s.length + 1) (s.drop front)).map (front + ·)
where
  /-- The size of what is left of a bracket, in which the names of classes have brackets too. -/
  inside : (fuel : Nat) → Text → Option Nat
    | 0, _ => none
    | _, [] => none
    | fuel + 1, '[' :: ':' :: r =>
      match cut? ":]".toList r with
      | some (name, rest) => (inside fuel rest).map (name.length + 4 + ·)
      | none => (inside fuel r).map (2 + ·)
    | fuel + 1, c :: r => if c == ']' then some 1 else (inside fuel r).map (1 + ·)

/-- A pattern up to a separator that stands neither after a backslash nor in brackets. -/
def patternUpTo? (separator : Char) : (fuel : Nat) → Text → Option (Text × Text)
  | 0, _ => none
  | _, [] => none
  | fuel + 1, '\\' :: c :: r =>
    if c == separator then prepend [c] (patternUpTo? separator fuel r)
    else prepend ['\\', c] (patternUpTo? separator fuel r)
  | fuel + 1, c :: r =>
    if c == separator then some ([], r)
    else if c == '[' then
      match bracketSize? r with
      | some n => prepend (c :: r.take n) (patternUpTo? separator fuel (r.drop n))
      | none => none
    else prepend [c] (patternUpTo? separator fuel r)

/-- A pattern. -/
def pattern (s : Text) : EditM Regex := do
  match Regex.ofText (← get).isExtended s with
  | .ok r => return r
  | .error f => raise f.message

/-- The parts of a replacement. -/
def replacementParts : (fuel : Nat) → Text → List ReplacementPart
  | 0, _ => []
  | _, [] => []
  | fuel + 1, '&' :: r => .group 0 :: replacementParts fuel r
  | fuel + 1, '\\' :: c :: r =>
    let part := match c with
      | 'n' => ReplacementPart.text ['\n']
      | 't' => .text ['\t']
      | 'U' => .letters (some true)
      | 'L' => .letters (some false)
      | 'E' => .letters none
      | c => if c.isDigit then .group (c.toNat - '0'.toNat) else .text [c]
    part :: replacementParts fuel r
  | fuel + 1, c :: r => .text [c] :: replacementParts fuel r

/-- An address at the front of a command. -/
def address? : EditM (Option LineAddress) := do
  match (← get).rest with
  | '$' :: r =>
    advance r
    return some .last
  | '/' :: r =>
    match patternUpTo? '/' (r.length + 1) r with
    | none =>
      advance []
      raise "unterminated address regex"
    | some (s, rest) =>
      advance rest
      let r ← pattern s
      match (← get).rest with
      | 'I' :: rest =>
        advance rest
        return some (.fits r true)
      | _ => return some (.fits r false)
  | c :: _ =>
    if c.isDigit then
      let n := numberOf 10 (← takeWhile Char.isDigit)
      match (← get).rest with
      | '~' :: rest =>
        advance rest
        let size := numberOf 10 (← takeWhile Char.isDigit)
        return some (.step n size)
      | _ => return some (.number n)
    else return none
  | [] => return none

/-- The flags of a replacement: the number of the first match, whether all are replaced, whether
the line is printed, and whether case does not count. -/
def replaceFlags : (fuel : Nat) → Nat × Bool × Bool × Bool → EditM (Nat × Bool × Bool × Bool)
  | 0, f => return f
  | fuel + 1, (start, isGlobal, prints, ignoresCase) => do
    match (← get).rest with
    | c :: rest =>
      if c == 'g' then
        advance rest
        replaceFlags fuel (start, true, prints, ignoresCase)
      else if c == 'p' then
        advance rest
        replaceFlags fuel (start, isGlobal, true, ignoresCase)
      else if c == 'i' || c == 'I' then
        advance rest
        replaceFlags fuel (start, isGlobal, prints, true)
      else if c.isDigit then
        let n := numberOf 10 (← takeWhile Char.isDigit)
        replaceFlags fuel (n, isGlobal, prints, ignoresCase)
      else if "; \t\n\x7d#".toList.contains c then return (start, isGlobal, prints, ignoresCase)
      else
        advance rest
        raise "unknown option to `s'"
    | [] => return (start, isGlobal, prints, ignoresCase)

/-- The text after a command that adds lines. -/
def addedText : EditM Text := do
  let s := (← get).rest.dropWhile fun c => c == ' ' || c == '\t'
  let s := match s with
    | '\\' :: r =>
      match r.dropWhile fun c => c == ' ' || c == '\t' with
      | '\n' :: r => r
      | r => r
    | s => s
  let line := s.takeWhile (· != '\n')
  advance (s.drop line.length)
  if line.isEmpty then raise "expected \\ after `a', `c' or `i'"
  else return (unescape (line.length + 1) line).1 ++ ['\n']

/-- The name after a command that goes to a label. -/
def labelName : EditM Text := do
  let _ ← takeWhile fun c => c == ' ' || c == '\t'
  takeWhile fun c => !"; \t\n\x7d".toList.contains c

/-- The action that a letter stands for. -/
def action (c : Char) : EditM EditAction := do
  match c with
  | 's' =>
    match (← get).rest with
    | separator :: r =>
      match patternUpTo? separator (r.length + 1) r with
      | none =>
        advance []
        raise "unterminated `s' command"
      | some (old, r) =>
        match upTo? separator r with
        | none =>
          advance []
          raise "unterminated `s' command"
        | some (new, r) =>
          advance r
          let fuel := r.length + 1
          let (start, isGlobal, prints, ignoresCase) ← replaceFlags fuel (1, false, false, false)
          let p ← pattern old
          let parts := replacementParts (new.length + 1) new
          return .replace p ignoresCase parts start isGlobal prints
    | [] => raise "unterminated `s' command"
  | 'y' =>
    match (← get).rest with
    | separator :: r =>
      match upTo? separator r with
      | some (old, r) =>
        match upTo? separator r with
        | some (new, r) =>
          advance r
          let plain := fun s : Text => (unescape (s.length + 1) s).1
          if (plain old).length = (plain new).length then
            return .exchange (plain old) (plain new)
          else raise "strings for `y' command are different lengths"
        | none =>
          advance []
          raise "unterminated `y' command"
      | none =>
        advance []
        raise "unterminated `y' command"
    | [] => raise "unterminated `y' command"
  | 'p' => return .print
  | 'P' => return .printFirst
  | 'd' => return .delete
  | 'D' => return .deleteFirst
  | 'q' =>
    let _ ← takeWhile (· == ' ')
    let status := numberOf 10 (← takeWhile Char.isDigit)
    return .quit status true
  | 'Q' =>
    let _ ← takeWhile (· == ' ')
    let status := numberOf 10 (← takeWhile Char.isDigit)
    return .quit status false
  | '=' => return .lineNumber
  | 'n' => return .next
  | 'N' => return .join
  | 'h' => return .keep false
  | 'H' => return .keep true
  | 'g' => return .recall false
  | 'G' => return .recall true
  | 'x' => return .swap
  | 'i' => do return .insert (← addedText)
  | 'a' => do return .append (← addedText)
  | 'c' => do return .change (← addedText)
  | ':' => do return .label (← labelName)
  | 'b' => do return .branch (← labelName)
  | 't' => do return .branchIfReplaced (← labelName)
  | '{' => return .opening
  | '}' => return .closing
  | c => raise ("unknown command: `" ++ String.ofList [c] ++ "'")

/-- The commands of a program. -/
def commands : (fuel : Nat) → EditM (List EditCommand)
  | 0 => return []
  | fuel + 1 => do
    let _ ← takeWhile fun c => "; \t\n".toList.contains c
    match (← get).rest with
    | [] => return []
    | '#' :: _ =>
      let _ ← takeWhile (· != '\n')
      commands fuel
    | _ =>
      let first ← address?
      let second ← match first, (← get).rest with
        | some _, ',' :: r => do
          advance r
          let second ← address?
          if second.isNone then raise "unexpected `,'"
          pure second
        | _, _ => pure none
      let _ ← takeWhile (· == ' ')
      let isNegated := (← get).rest.head? == some '!'
      let _ ← takeWhile fun c => c == '!' || c == ' '
      match (← get).rest with
      | [] => raise "missing command"
      | c :: r =>
        advance r
        let a ← action c
        if a != .opening && a != .closing then
          let _ ← takeWhile fun c => c == ' ' || c == '\t'
          match (← get).rest with
          | d :: after =>
            if !";\n\x7d#".toList.contains d then
              advance after
              raise "extra characters after command"
          | [] => pure ()
        let others ← commands fuel
        return { first, second, isNegated, action := a } :: others

end EditReader

/-- A program for lines. -/
abbrev EditProgram := Array EditCommand

/-- The program that a text denotes. -/
def EditProgram.ofText (isExtended : Bool) (s : Text) : Except EditFault EditProgram := do
  let cs ← (EditReader.commands (s.length + 1)).run' { source := s, rest := s, isExtended }
  return cs.toArray

/-! ## Carrying out programs -/

/-- Lines that are being edited. -/
structure Editing where
  /-- The lines that are left. -/
  input : List Text
  /-- The number of the line. -/
  line : Nat := 0
  /-- What is edited. -/
  space : Text := []
  /-- What is kept. -/
  hold : Text := []
  /-- What is printed, in reverse. -/
  output : List Text := []
  /-- What is printed after the line. -/
  later : List Text := []
  hasReplaced : Bool := false
  /-- The commands that are for several lines and have begun, by their places, with the line after
  which they end if that is known. -/
  begun : List (Nat × Option Nat) := []
  isQuiet : Bool
  /-- How the program ends, if it does not go on. -/
  status : Option Nat := none

namespace Editing

/-- Print a text. -/
def put (e : Editing) (s : Text) : Editing := { e with output := s :: e.output }

/-- Whether an address is that of the line. -/
def isAt (e : Editing) : LineAddress → Bool
  | .number n => e.line == n
  | .last => e.input.isEmpty
  | .fits r ignoresCase => (r.first? ignoresCase e.space).isSome
  | .step first size =>
    if size = 0 then e.line == first else first ≤ e.line && (e.line - first) % size == 0

/-- Whether a command at a place is for the line, and what is known of lines after it. -/
def isFor (e : Editing) (place : Nat) (c : EditCommand) : Bool × Editing :=
  let (isMeant, e) := match c.first, c.second with
    | none, _ => (true, e)
    | some a, none => (e.isAt a, e)
    | some a, some b =>
      let begin := fun e : Editing =>
        let others := e.begun.filter (·.1 != place)
        { e with begun := (place, none) :: others }
      let finish := fun e : Editing => { e with begun := e.begun.filter (·.1 != place) }
      if (e.begun.lookup place).isSome then
        match b with
        | .number n => if n ≤ e.line then (n == e.line, finish e) else (true, e)
        | b => (true, if e.isAt b then finish e else e)
      else if e.isAt a then
        match b with
        | .number n => (true, if n ≤ e.line then e else begin e)
        | .last => (true, if e.input.isEmpty then e else begin e)
        | _ => (true, begin e)
      else (false, e)
  (isMeant != c.isNegated, e)

/-- What takes the place of a match. -/
def replacement (m : Regex.Match) (parts : List ReplacementPart) : Text :=
  (parts.foldl (fun (seen : Option Bool × List Text) p =>
    let form := fun s : Text => match seen.1 with
      | some true => s.map Char.toUpper
      | some false => s.map Char.toLower
      | none => s
    match p with
    | .text s => (seen.1, form s :: seen.2)
    | .group 0 => (seen.1, form m.found :: seen.2)
    | .group n => (seen.1, form ((m.groups.lookup n).getD []) :: seen.2)
    | .letters l => (l, seen.2)) (none, [])).2.reverse.flatten

/-- A text with matches replaced from the one with a number on. `isAfter` says that a match ends
here, so that no empty one follows. -/
def replaced (r : Regex) (ignoresCase : Bool) (parts : List ReplacementPart) (isGlobal : Bool) :
    (fuel : Nat) → (number : Nat) → (isAfter : Bool) → (behind rest : Text) → Option Text
  | 0, _, _, _, _ => none
  | fuel + 1, number, isAfter, behind, rest =>
    match r.firstFrom? ignoresCase behind rest with
    | none => none
    | some m =>
      let passed := m.before.drop behind.length
      if m.found.isEmpty && isAfter && passed.isEmpty then
        match rest with
        | c :: rest =>
          (replaced r ignoresCase parts isGlobal fuel number false (c :: behind) rest).map (c :: ·)
        | [] => none
      else
        let isMeant := number ≤ 1
        let new := if isMeant then replacement m parts else m.found
        let here := (passed ++ m.found).reverse ++ behind
        let more := if isMeant && !isGlobal then none
          else replaced r ignoresCase parts isGlobal fuel (number - 1) true here m.after
        match more with
        | some s => some (passed ++ new ++ s)
        | none => if isMeant then some (passed ++ new ++ m.after) else none

/-- Take the next line. -/
def advance (e : Editing) : Option (Text × Editing) :=
  match e.input with
  | [] => none
  | l :: rest => some (l, { e with input := rest, line := e.line + 1 })

/-- The place after the brace that closes the one before a place. -/
def afterClosing (p : EditProgram) : (fuel : Nat) → (depth place : Nat) → Nat
  | 0, _, place => place
  | fuel + 1, depth, place =>
    match p[place]? with
    | none => place
    | some c =>
      if c.action = .opening then afterClosing p fuel (depth + 1) (place + 1)
      else if c.action = .closing then
        if depth = 0 then place + 1 else afterClosing p fuel (depth - 1) (place + 1)
      else afterClosing p fuel depth (place + 1)

/-- The place of a label; without a name or a label it is the end. -/
def placeOf (p : EditProgram) (name : Text) : Nat :=
  if name.isEmpty then p.size
  else (p.findIdx? fun c => c.action == .label name).getD p.size

/-- Print what is edited at the end of a round, and what was added to it. -/
def finishRound (e : Editing) (prints : Bool) : Editing :=
  let e := if prints && !e.isQuiet then e.put (e.space ++ ['\n']) else e
  { (e.later.reverse.foldl put e) with later := [] }

/-- Carry out a program from a place on for what is edited, and then for all lines that are left. -/
def run (p : EditProgram) : (fuel : Nat) → (place : Nat) → Editing → Editing
  | 0, _, e => e
  | fuel + 1, place, e =>
    let nextRound := fun (e : Editing) =>
      match e.advance with
      | none => e
      | some (l, e) => run p fuel 0 { e with space := l, hasReplaced := false }
    match p[place]? with
    | none => nextRound (e.finishRound true)
    | some c =>
      let (isMeant, e) := e.isFor place c
      if !isMeant then
        run p fuel (if c.action = .opening then afterClosing p (p.size + 1) 0 (place + 1)
          else place + 1) e
      else
        let goOn := fun e => run p fuel (place + 1) e
        match c.action with
        | .replace r ignoresCase parts start isGlobal prints =>
          match replaced r ignoresCase parts isGlobal (2 * e.space.length + 2) start false []
              e.space with
          | some s =>
            let e := { e with space := s, hasReplaced := true }
            goOn (if prints then e.put (s ++ ['\n']) else e)
          | none => goOn e
        | .exchange old new =>
          goOn { e with space := e.space.map fun c => (new[old.idxOf c]?).getD c }
        | .print => goOn (e.put (e.space ++ ['\n']))
        | .printFirst => goOn (e.put (e.space.takeWhile (· != '\n') ++ ['\n']))
        | .delete => nextRound (e.finishRound false)
        | .deleteFirst =>
          match cut? ['\n'] e.space with
          | some (_, rest) => run p fuel 0 { (e.finishRound false) with space := rest }
          | none => nextRound (e.finishRound false)
        | .quit status prints => { (e.finishRound prints) with status := some status }
        | .lineNumber => goOn (e.put (ofNat e.line ++ ['\n']))
        | .next =>
          match e.advance with
          | none => e.finishRound true
          | some (l, after) =>
            goOn { (if e.isQuiet then after else after.put (e.space ++ ['\n'])) with space := l }
        | .join =>
          match e.advance with
          | none => e.finishRound true
          | some (l, after) => goOn { after with space := e.space ++ '\n' :: l }
        | .keep adds => goOn { e with hold := if adds then e.hold ++ '\n' :: e.space else e.space }
        | .recall adds =>
          goOn { e with space := if adds then e.space ++ '\n' :: e.hold else e.hold }
        | .swap => goOn { e with space := e.hold, hold := e.space }
        | .insert s => goOn (e.put s)
        | .append s => goOn { e with later := s :: e.later }
        | .change s =>
          let isRange := c.second.isSome && (e.begun.lookup place).isSome
          nextRound ((if isRange then e else e.put s).finishRound false)
        | .label _ => goOn e
        | .branch name => run p fuel (placeOf p name) e
        | .branchIfReplaced name =>
          if e.hasReplaced then run p fuel (placeOf p name) { e with hasReplaced := false }
          else goOn e
        | .opening => goOn e
        | .closing => goOn e

/-- Edit lines by a program. -/
def all (p : EditProgram) (isQuiet : Bool) (input : List Text) : Editing :=
  let start : Editing := { input, isQuiet }
  match start.advance with
  | none => start
  | some (l, e) =>
    run p (100 * (p.size + 1) * (input.length + 1) + 10000) 0 { e with space := l }

/-- Edit texts one after the other; what is printed, and how the editing ends. -/
def ofTexts (p : EditProgram) (isQuiet : Bool) (contents : List Text) : Text × Editing :=
  let ls := contents.flatMap Tool.wholeLines
  let isOpen := (ls.getLastD ['\n']).getLast? != some '\n'
  let bare := fun l : Text => if l.getLast? = some '\n' then l.dropLast else l
  let e := all p isQuiet (ls.map bare)
  let out := e.output.reverse.flatten
  (if isOpen && e.input.isEmpty then dropEndWhile (· == '\n') out else out, e)

end Editing

/-- What the copies of files have at the end of their names if files are to be edited in place, and
the arguments without the option that says so. -/
def inPlace? : List Text → Option Text × List Text
  | [] => (none, [])
  | ['-', '-'] :: rest => (none, ['-', '-'] :: rest)
  | a :: rest =>
    let (later, others) := inPlace? rest
    let plain := (a.drop 1).takeWhile "nErsuz".toList.contains
    let long := "--in-place".toList
    match a.head?, a.drop (plain.length + 1) with
    | some '-', 'i' :: copy =>
      (later.orElse fun _ => some copy,
       if plain.isEmpty then others else ('-' :: plain) :: others)
    | _, _ =>
      if a == long then (later.orElse fun _ => some [], others)
      else if (long ++ ['=']).isPrefixOf a then
        (later.orElse fun _ => some (a.drop (long.length + 1)), others)
      else (later, a :: others)

namespace Tool

/-- Edit files in place, one after the other until the program ends the editing. -/
def editFiles (p : EditProgram) (isQuiet : Bool) (copy : Text) (status : Nat) :
    List Text → ShellM Nat
  | [] => return status
  | name :: rest => do
    let path ← absolute name
    let w ← world
    match w.file? path with
    | none =>
      if w.folders.contains path then
        note "sed: couldn't edit " name ": not a regular file"
        editFiles p isQuiet copy 4 rest
      else
        note "sed: can't read " name ": No such file or directory"
        editFiles p isQuiet copy 2 rest
    | some content =>
      let (out, e) := Editing.ofTexts p isQuiet [content]
      let w := w.releasePaths (· == path)
      let w := if copy.isEmpty then w else w.setFile (path ++ copy) content
      modifyWorld fun _ => w.setFile path out
      match e.status with
      | some status => return status
      | none => editFiles p isQuiet copy status rest

/-- Edit lines of files or of the input. -/
def sed (args : List Text) : ShellM Nat := do
  let (copy, args) := inPlace? args
  withOptions "sed" 1 "nErsuz" "ef" args fun flags names => do
    let given := (flags.filter (·.1 == 'e')).map (·.2)
    let (scripts, names) := match given, names with
      | [], s :: names => ([s], names)
      | given, names => (given, names)
    if scripts.isEmpty then misused "sed" "no script specified" []
    else
      let isExtended := hasFlag flags 'E' || hasFlag flags 'r'
      match EditProgram.ofText isExtended (join ['\n'] scripts) with
      | .error f =>
        note "sed: -e expression #1, char " (ofNat f.position ++ ": ".toList ++ f.message) ""
        return 1
      | .ok p =>
        let isQuiet := hasFlag flags 'n'
        match copy with
        | some copy =>
          if names.isEmpty then
            note "sed: no input files" [] ""
            return 4
          else editFiles p isQuiet copy 0 names
        | none =>
          let (contents, isComplete) ← contentsOf "sed" "can't read " "" names
          let (out, e) := Editing.ofTexts p isQuiet contents
          let _ ← emit 1 out
          if names.all (· == ['-']) then
            giveBack ((contents.flatMap wholeLines).drop e.line).flatten
          let isMissing := names.isEmpty && !isComplete
          return e.status.getD (if isMissing then 4 else if isComplete then 0 else 2)

end Tool

end Localizer.Host.Shell
