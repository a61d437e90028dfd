import Localizer.Host.Shell.Tool

/-!
# Filters

Tools that read lines and print some of them, or something made of them: parts of a text (`head`,
`tail`, `cut`), counts (`wc`, `uniq`), other orders (`sort`, `tac`, `rev`) and other forms (`tr`,
`paste`, `fold`, `nl`, `od`). `seq` makes lines of numbers.
-/

namespace Localizer.Host.Shell.Tool

open Text

/-! ## Numbers -/

/-- A decimal number as a whole number and how many of its digits stand after the point. -/
structure Scaled where
  value : Int
  places : Nat
  deriving Repr, DecidableEq

namespace Scaled

/-- The number at the front of a text, and the rest. -/
def leading (s : Text) : Option (Scaled × Text) :=
  let (isNegative, t) := match s with
    | '-' :: r => (true, r)
    | '+' :: r => (false, r)
    | r => (false, r)
  let whole := t.takeWhile Char.isDigit
  let (fraction, rest) := match t.drop whole.length with
    | '.' :: r => (r.takeWhile Char.isDigit, r.dropWhile Char.isDigit)
    | r => ([], r)
  if whole.isEmpty && fraction.isEmpty then none
  else
    let n : Int := numberOf 10 (whole ++ fraction)
    some (⟨if isNegative then -n else n, fraction.length⟩, rest)

/-- The number that a text denotes as a whole. -/
def ofText? (s : Text) : Option Scaled :=
  match leading s with
  | some (n, []) => some n
  | _ => none

/-- The number with more digits after the point, as a whole number. -/
def atPlaces (n : Scaled) (places : Nat) : Int :=
  n.value * (Nat.pow 10 (places - n.places) : Nat)

/-- Whether a number is less than another one. -/
def lt (a b : Scaled) : Bool :=
  let places := max a.places b.places
  a.atPlaces places < b.atPlaces places

/-- A whole number of units as a decimal number. -/
def shown (places : Nat) (value : Int) : Text :=
  let ds := ofNat value.natAbs
  let ds := List.replicate (places + 1 - ds.length) '0' ++ ds
  let whole := ds.length - places
  (if value < 0 then ['-'] else []) ++ ds.take whole ++
    (if places = 0 then [] else '.' :: ds.drop whole)

end Scaled

/-- A number filled up with zeros after its sign. -/
def zeroFilled (width : Nat) (s : Text) : Text :=
  match s with
  | '-' :: r => '-' :: List.replicate (width - s.length) '0' ++ r
  | s => List.replicate (width - s.length) '0' ++ s

/-- The options of a list of numbers: what stands between them and whether they have one width.
A dash before a digit starts a number. -/
def seqOptions : (fuel : Nat) → Text × Bool → List Text → Except Text ((Text × Bool) × List Text)
  | 0, o, args => .ok (o, args)
  | fuel + 1, o, args =>
    match args with
    | ['-', 's'] :: v :: rest => seqOptions fuel (v, o.2) rest
    | ['-', 's'] :: [] => .error "option requires an argument -- 's'".toList
    | ('-' :: 's' :: v) :: rest => seqOptions fuel (v, o.2) rest
    | ['-', 'w'] :: rest => seqOptions fuel (o.1, true) rest
    | ['-', '-'] :: rest => .ok (o, rest)
    | ('-' :: c :: cs) :: rest =>
      if c.isDigit || c == '.' then .ok (o, ('-' :: c :: cs) :: rest)
      else .error ("invalid option -- '".toList ++ [c, '\''])
    | args => .ok (o, args)

/-- Print the numbers from one to another one. -/
def seq (args : List Text) : ShellM Nat := do
  match seqOptions (args.length + 1) (['\n'], false) args with
  | .error message => misused "seq" "" message
  | .ok ((separator, isFilled), args) =>
    let (first, step, last) := match args with
      | [c] => (['1'], ['1'], c)
      | [a, c] => (a, ['1'], c)
      | a :: b :: c :: _ => (a, b, c)
      | [] => ([], [], [])
    match args with
    | [] => misused "seq" "missing operand" []
    | _ :: _ :: _ :: extra :: _ => misused "seq" "extra operand " (inQuotes extra)
    | _ =>
      match Scaled.ofText? first, Scaled.ofText? step, Scaled.ofText? last with
      | some a, some b, some c =>
        if b.value = 0 then
          misused "seq" "invalid Zero increment value: " (inQuotes step)
        else
          let all := max a.places (max b.places c.places)
          let places := max a.places b.places
          let (a, b, c) := (a.atPlaces all, b.atPlaces all, c.atPlaces all)
          let count := if 0 < b then (c - a) / b + 1 else (a - c) / (-b) + 1
          let unit : Int := Nat.pow 10 (all - places)
          let number := fun k : Nat => Scaled.shown places ((a + b * k) / unit)
          let numbers := (List.range count.toNat).map number
          let width := numbers.foldl (fun w s => max w s.length) 0
          let numbers := if isFilled then numbers.map (zeroFilled width) else numbers
          unless numbers.isEmpty do
            let _ ← emit 1 (join separator numbers ++ ['\n'])
          return 0
      | _, _, _ =>
        let wrong := ([first, step, last].find? fun a => (Scaled.ofText? a).isNone).getD []
        misused "seq" "invalid floating point argument: " (inQuotes wrong)

/-! ## Parts of texts -/

/-- How much of a text is wanted. -/
structure Amount where
  /-- A sign before the number, which means all but so much, or from there on. -/
  sign : Option Char := none
  size : Nat := 10
  inBytes : Bool := false
  deriving Repr, DecidableEq

/-- An amount that a text denotes. -/
def Amount.ofText? (inBytes : Bool) (s : Text) : Option Amount :=
  let (sign, digits) := match s with
    | '-' :: r => (some '-', r)
    | '+' :: r => (some '+', r)
    | r => (none, r)
  if digits.isEmpty || !digits.all Char.isDigit then none
  else some { sign, size := numberOf 10 digits, inBytes }

/-- The arguments in which a dash before digits has become an option for lines. -/
def withLetter : List Text → List Text
  | ('-' :: c :: cs) :: rest =>
    if c.isDigit then "-n".toList :: (c :: cs) :: rest else ('-' :: c :: cs) :: rest
  | args => args

/-- Print a part of each file, under its name if there are more than one. -/
def printParts (tool : String) (args : List Text) (part : Amount → Text → Text) : ShellM Nat :=
  withOptions tool 1 "qvfz" "nc" (withLetter args) fun flags names => do
    let wanted := (flags.filter fun f => f.1 == 'n' || f.1 == 'c').getLast?
    let unit := fun f : Char × Text => if f.1 == 'c' then "bytes" else "lines"
    match wanted.map fun f => (f, Amount.ofText? (f.1 == 'c') f.2) with
    | some (f, none) =>
      note (tool ++ ": invalid number of " ++ unit f ++ ": ") (inQuotes f.2) ""
      return 1
    | wanted =>
      let amount := (wanted.bind (·.2)).getD {}
      let names := if names.isEmpty then [['-']] else names
      let hasTitles := hasFlag flags 'v' || (1 < names.length && !hasFlag flags 'q')
      if hasFlag flags 'f' then throw .timeIsUp
      let (_, status) ← names.foldlM (fun (isFirst, status) name => do
        if name = "/dev/zero".toList then
          let _ ← emit 1 (List.replicate amount.size '\x00')
          return (false, status)
        match ← contentOf tool "cannot open '" "' for reading" name with
        | none => return (isFirst, 1)
        | some s =>
          let shown := if name = ['-'] then "standard input".toList else name
          let title := "==> ".toList ++ shown ++ " <==\n".toList
          let shown := part amount s
          let _ ← emit 1 ((if hasTitles then (if isFirst then [] else ['\n']) ++ title else []) ++
            shown)
          if name = ['-'] && tool = "head" then giveBack (s.drop shown.length)
          return (false, status)) (true, 0)
      return status

/-- Print the first lines or bytes of files or of the input. -/
def head (args : List Text) : ShellM Nat :=
  printParts "head" args fun a s =>
    let size := fun n : Nat => if a.sign = some '-' then n - a.size else a.size
    if a.inBytes then s.take (size s.length)
    else let ls := wholeLines s; (ls.take (size ls.length)).flatten

/-- Print the last lines or bytes of files or of the input. -/
def tail (args : List Text) : ShellM Nat :=
  printParts "tail" args fun a s =>
    let start := fun n : Nat => if a.sign = some '+' then a.size - 1 else n - a.size
    if a.inBytes then s.drop (start s.length)
    else let ls := wholeLines s; (ls.drop (start ls.length)).flatten

/-- The inclusive ranges of a list of numbers from one on; none stands for no end. -/
def ranges? (s : Text) : Option (List (Nat × Option Nat)) :=
  (s.splitOn ',').mapM fun part =>
    let isNumber := fun t : Text => !t.isEmpty && t.all Char.isDigit
    match cut? ['-'] part with
    | some (a, b) =>
      if (isNumber a || a.isEmpty) && (isNumber b || b.isEmpty) && !(a.isEmpty && b.isEmpty) then
        some (if a.isEmpty then 1 else numberOf 10 a,
          if b.isEmpty then none else some (numberOf 10 b))
      else none
    | none => if isNumber part then some (numberOf 10 part, some (numberOf 10 part)) else none

/-- The elements whose places are in one of some ranges. -/
def chosen {α : Type} (ranges : List (Nat × Option Nat)) (xs : List α) : List α :=
  (xs.zipIdx 1).filterMap fun (x, n) =>
    if ranges.any fun r => r.1 ≤ n && r.2.all (n ≤ ·) then some x else none

/-- Print parts of lines. -/
def cut (args : List Text) : ShellM Nat :=
  withOptions "cut" 1 "sn" "bcfd" args fun flags names => do
    match flags.find? fun f => "bcf".toList.contains f.1 with
    | none => misused "cut" "you must specify a list of bytes, characters, or fields" []
    | some (kind, list) =>
      match ranges? list with
      | none =>
        let what := if kind == 'f' then "field value " else "byte/character position "
        misused "cut" ("invalid " ++ what) (inQuotes list)
      | some ranges =>
        if ranges.any fun r => r.1 == 0 || r.2 == some 0 then
          misused "cut" (if kind == 'f' then "fields are numbered from 1"
            else "byte/character positions are numbered from 1") []
        else
          let separator := ((flags.lookup 'd').getD ['\t']).headD '\x00'
          let (contents, isComplete) ← contentsOf "cut" "" "" names
          let part := fun l : Text =>
            if kind == 'f' then
              if l.contains separator then
                some (join [separator] (chosen ranges (l.splitOn separator)))
              else if hasFlag flags 's' then none else some l
            else some (chosen ranges l)
          let bare := fun l : Text => if l.getLast? = some '\n' then l.dropLast else l
          let ls := contents.flatMap wholeLines
          let _ ← emit 1 (ls.flatMap fun l => ((part (bare l)).map (· ++ ['\n'])).getD [])
          return if isComplete then 0 else 1

/-! ## Counts -/

/-- Characters between words. -/
def isSpace (c : Char) : Bool := c == ' ' || ('\t' ≤ c && c ≤ '\r')

/-- How many words a text has. -/
def countWords (s : Text) : Nat :=
  (s.foldl (fun (p : Nat × Bool) c =>
    if isSpace c then (p.1, false) else (if p.2 then p.1 else p.1 + 1, true)) (0, false)).1

/-- How many lines, words and bytes a text has, and how long its longest line is, as far as that is
wanted. -/
def countsOf (wanted : Text) (s : Text) : List Nat :=
  let isWanted := fun c => (if wanted.isEmpty then "lwc".toList else wanted).contains c
  (if isWanted 'l' then [s.count '\n'] else []) ++ (if isWanted 'w' then [countWords s] else []) ++
    (if isWanted 'm' then [s.length] else []) ++ (if isWanted 'c' then [s.length] else []) ++
    (if isWanted 'L' then [(lines s).foldl (fun n l => max n l.length) 0] else [])

/-- Count lines, words and bytes. -/
def wc (args : List Text) : ShellM Nat :=
  withOptions "wc" 1 "lwcmL" "" args fun flags names => do
    let wanted := flags.map (·.1)
    let inputs := if names.isEmpty then [['-']] else names
    let contents ← inputs.mapM fun name => do
      let content ← contentOf "wc" "" "" name
      pure (name, content)
    let texts := contents.filterMap (·.2)
    let isSingle := inputs.length = 1 && (countsOf wanted []).length = 1
    let total := texts.foldl (fun n s => n + s.length) 0
    let width := if isSingle then 1
      else max (ofNat total).length (if inputs.contains ['-'] then 7 else 1)
    let row := fun (counts : List Nat) (name : Text) =>
      join [' '] (counts.map (rightAligned width)) ++ name ++ ['\n']
    let rows := contents.filterMap fun (name, content) => content.map fun s =>
      row (countsOf wanted s) (if names.isEmpty then [] else ' ' :: name)
    let sums := texts.foldl (fun sums s =>
      (sums.zip (countsOf wanted s)).map fun p => p.1 + p.2) ((countsOf wanted []).map fun _ => 0)
    let _ ← emit 1 (rows.flatten ++ (if 1 < inputs.length then row sums " total".toList else []))
    return if contents.all (·.2.isSome) then 0 else 1

/-- Runs of lines that are the same up to a form, with how many they are. -/
def runsOf (form : Text → Text) : List Text → List (Nat × Text)
  | [] => []
  | l :: ls =>
    match runsOf form ls with
    | (n, m) :: rest => if form l = form m then (n + 1, l) :: rest else (1, l) :: (n, m) :: rest
    | [] => [(1, l)]

/-- Print one line of each run of lines that are the same. -/
def uniq (args : List Text) : ShellM Nat :=
  withOptions "uniq" 1 "cdui" "" args fun flags names => do
    match ← contentOf "uniq" "" "" (names.headD ['-']) with
    | none => return 1
    | some s =>
      let bare := fun l : Text => if l.getLast? = some '\n' then l.dropLast else l
      let form := fun l : Text => if hasFlag flags 'i' then l.map Char.toLower else l
      let runs := runsOf form ((wholeLines s).map bare)
      let isShown := fun r : Nat × Text =>
        !(hasFlag flags 'd' && r.1 == 1) && !(hasFlag flags 'u' && 1 < r.1)
      let row := fun r : Nat × Text =>
        (if hasFlag flags 'c' then rightAligned 7 r.1 ++ [' '] else []) ++ r.2 ++ ['\n']
      let _ ← emit 1 ((runs.filter isShown).flatMap row)
      return 0

/-! ## Orders -/

/-- A part of lines by which they are put in order. -/
structure SortKey where
  first : Nat := 1
  last : Option Nat := none
  flags : Text := []
  deriving Repr, DecidableEq

/-- The key that an option denotes. -/
def SortKey.ofText (s : Text) : SortKey :=
  let (a, b) := (cut? [','] s).getD (s, [])
  let number := fun t : Text => numberOf 10 (t.takeWhile Char.isDigit)
  { first := number a
    last := if b.isEmpty then none else some (number b)
    flags := (a ++ b).filter Char.isAlpha }

/-- The fields of a line. Without a separator each starts with the blanks before it. -/
def sortFields (separator : Option Char) (l : Text) : List Text :=
  match separator with
  | some c => l.splitOn c
  | none =>
    let isBlank := fun c : Char => c == ' ' || c == '\t'
    (l.foldl (fun (fields : List Text) c =>
      match fields with
      | [] => [[c]]
      | f :: fs =>
        if isBlank c && f.any (!isBlank ·) then [c] :: f :: fs else (c :: f) :: fs) [])
      |>.reverse.map List.reverse

/-- The part of a line that a key takes. -/
def SortKey.part (k : SortKey) (separator : Option Char) (l : Text) : Text :=
  let fields := sortFields separator l
  let upTo := (k.last.map fields.take).getD fields
  join (separator.toList) (upTo.drop (k.first - 1))

/-- Whether a text stands before another one, by their numbers, without regard to case, or by
their characters. -/
def isLess (flags : Text) (a b : Text) : Bool :=
  let skip := fun s : Text => s.dropWhile fun c => c == ' ' || c == '\t'
  let number := fun s : Text => ((Scaled.leading (skip s)).map (·.1)).getD ⟨0, 0⟩
  let form := fun s : Text =>
    let s := if flags.contains 'b' then skip s else s
    if flags.contains 'f' then s.map Char.toUpper else s
  if flags.contains 'n' || flags.contains 'g' then Scaled.lt (number a) (number b)
  else form a != form b && le (form a) (form b)

/-- Whether a line comes before another one by the first key that tells them apart. -/
def comesBefore (separator : Option Char) (flags : Text) : List SortKey → Text → Text → Option Bool
  | [], _, _ => none
  | k :: ks, a, b =>
    let own := if k.flags.isEmpty then flags else k.flags
    let (x, y) := (k.part separator a, k.part separator b)
    if isLess own x y then some (!own.contains 'r')
    else if isLess own y x then some (own.contains 'r')
    else comesBefore separator flags ks a b

/-- Print the lines of files or of the input in order. -/
def sort (args : List Text) : ShellM Nat :=
  withOptions "sort" 2 "nrufbcsghmC" "kto" args fun flags names => do
    let (contents, isComplete) ← contentsOf "sort" "cannot read: " "" names
    let bare := fun l : Text => if l.getLast? = some '\n' then l.dropLast else l
    let ls := (contents.flatMap wholeLines).map bare
    let separator := (flags.lookup 't').bind List.head?
    let letters := flags.map (·.1)
    let given := (flags.filter (·.1 == 'k')).map fun f => SortKey.ofText f.2
    let keys := if given.isEmpty then [{}] else given
    let byKeys := comesBefore separator letters keys
    let isReversed := letters.contains 'r'
    let whole := fun a b : Text => if isReversed then le b a else le a b
    let isBefore := fun a b : Text =>
      (byKeys a b).getD (letters.contains 's' || letters.contains 'u' || whole a b)
    if letters.contains 'c' || letters.contains 'C' then
      let wrong := (ls.zip (ls.drop 1)).findIdx? fun (a, b) =>
        !isBefore a b || (letters.contains 'u' && byKeys a b = none)
      match wrong with
      | none => return 0
      | some n =>
        let name := if names.isEmpty then ['-'] else names.headD []
        if letters.contains 'c' then
          note "sort: " (name ++ ':' :: ofNat (n + 2) ++ ": disorder: ".toList ++
            (ls[n + 1]?).getD []) ""
        return 1
    else
      let sorted := ls.mergeSort isBefore
      let distinct := sorted.foldr (fun l kept =>
        match kept with
        | m :: rest => if (byKeys l m).isNone then l :: rest else l :: m :: rest
        | [] => [l]) []
      let sorted := if letters.contains 'u' then distinct else sorted
      if !isComplete then return 2
      let text := sorted.flatMap (· ++ ['\n'])
      match flags.lookup 'o' with
      | none =>
        let _ ← emit 1 text
        return 0
      | some target =>
        let path ← absolute target
        if (← world).folders.contains (parentOf path) then
          modifyWorld (·.setFile path text)
          return 0
        else
          note "sort: open failed: " target ": No such file or directory"
          return 2

/-- Print lines in the opposite order. -/
def tac (args : List Text) : ShellM Nat :=
  withOptions "tac" 1 "br" "s" args fun _ names => do
    let (contents, isComplete) ← contentsOf "tac" "failed to open '" "' for reading" names
    let _ ← emit 1 (contents.flatMap fun s => (wholeLines s).reverse.flatten)
    return if isComplete then 0 else 1

/-- Print lines from their ends to their fronts. -/
def rev (args : List Text) : ShellM Nat :=
  withOptions "rev" 1 "" "" args fun _ names => do
    let (contents, isComplete) ← contentsOf "rev" "cannot open " "" names
    let turned := fun l : Text =>
      if l.getLast? = some '\n' then l.dropLast.reverse ++ ['\n'] else l.reverse
    let _ ← emit 1 (contents.flatMap fun s => (wholeLines s).flatMap turned)
    return if isComplete then 0 else 1

/-! ## Forms -/

/-- The characters of a set: ranges, named classes and escape sequences are written out. -/
def charSet : (fuel : Nat) → Text → Text
  | 0, _ => []
  | _, [] => []
  | fuel + 1, '[' :: ':' :: r =>
    match cut? ":]".toList r with
    | some (name, rest) =>
      (classRanges name).flatMap (fun p => between p.1 p.2) ++ charSet fuel rest
    | none => '[' :: charSet fuel (':' :: r)
  | fuel + 1, '\\' :: r =>
    match escape? r with
    | some (c, rest) => c :: charSet fuel rest
    | none => charSet fuel r
  | fuel + 1, a :: '-' :: b :: r => between a b ++ charSet fuel r
  | fuel + 1, c :: r => c :: charSet fuel r
where
  /-- The characters from one to another one. -/
  between (a b : Char) : Text :=
    (List.range (b.toNat + 1 - a.toNat)).map fun k => Char.ofNat (a.toNat + k)

/-- A text in which characters of a set that are repeated stand once. -/
def squeeze (set : Char → Bool) : Text → Text
  | a :: b :: r =>
    let rest := squeeze set (b :: r)
    if a == b && set a then rest else a :: rest
  | s => s

/-- Replace, remove or join characters of the input. -/
def tr (args : List Text) : ShellM Nat :=
  withOptions "tr" 1 "cCdst" "" args fun flags sets => do
    let has := hasFlag flags
    let needed := if has 'd' != has 's' then 1 else 2
    match sets with
    | [] => misused "tr" "missing operand" []
    | [only] =>
      if needed = 2 then
        let purpose := if has 'd' then "both deleting and squeezing repeats" else "translating"
        let why := "Two strings must be given when " ++ purpose ++ ".\n"
        let _ ← emit 2 ("tr: missing operand after ".toList ++ inQuotes only ++ '\n' ::
          why.toList ++ hint "tr")
        return 1
      else perform has only []
    | first :: second :: _ => perform has first second
where
  /-- Replace, remove or join the characters of two sets. -/
  perform (has : Char → Bool) (first second : Text) : ShellM Nat := do
    let s ← readAll 0
    let a := charSet (first.length + 1) first
    let b := charSet (second.length + 1) second
    let isComplement := has 'c' || has 'C'
    let isIn := fun c => a.contains c != isComplement
    let replace := fun c =>
      if !isIn c || b.isEmpty then c
      else if isComplement then b.getLastD c
      else (b[a.idxOf c]?).getD (b.getLastD c)
    let inSecond := fun c => b.contains c
    let result :=
      if has 'd' then
        let kept := s.filter (!isIn ·)
        if has 's' then squeeze inSecond kept else kept
      else
        let s := s.map replace
        if has 's' then squeeze (if b.isEmpty then isIn else inSecond) s else s
    let _ ← emit 1 result
    return 0

/-- The lines of several texts side by side, with the separators between them in turn. -/
def sideBySide (separators : Text) : (fuel : Nat) → List (List Text) → List Text
  | 0, _ => []
  | fuel + 1, columns =>
    if columns.all List.isEmpty then []
    else
      let cells := columns.map (·.headD [])
      let row := (cells.zipIdx).flatMap fun (cell, n) =>
        if n = 0 then cell
        else ((separators[(n - 1) % max separators.length 1]?).toList) ++ cell
      row :: sideBySide separators fuel (columns.map List.tail)

/-- Print the lines of files side by side, or those of each file in one line. -/
def paste (args : List Text) : ShellM Nat :=
  withOptions "paste" 1 "s" "d" args fun flags names => do
    let given := (flags.lookup 'd').getD ['\t']
    let separators := (unescape (given.length + 1) given).1
    let names := if names.isEmpty then [['-']] else names
    let shared := (names.filter (· == ['-'])).length
    let input ← if names.contains ['-'] then readAll 0 else pure []
    let bare := fun l : Text => if l.getLast? = some '\n' then l.dropLast else l
    let ls := (wholeLines input).map bare
    let columns ← (names.zipIdx).mapM fun (name, n) => do
      if name = ['-'] then
        let own := ((names.take n).filter (· == ['-'])).length
        pure (some ((ls.zipIdx).filterMap fun (l, k) =>
          if k % shared = own then some l else none))
      else do
        let content ← contentOf "paste" "" "" name
        pure (content.map fun s => (wholeLines s).map bare)
    if columns.any Option.isNone then return 1
    let columns := columns.map (·.getD [])
    let rows := if hasFlag flags 's' then columns.flatMap fun c =>
        let one := sideBySide separators 1 (c.map fun l => [l])
        if c.isEmpty then [[]] else one
      else sideBySide separators (columns.foldl (fun n c => max n c.length) 0 + 1) columns
    let _ ← emit 1 (rows.flatMap (· ++ ['\n']))
    return 0

/-- Print lines with their numbers. -/
def nl (args : List Text) : ShellM Nat :=
  withOptions "nl" 1 "" "bwsnvi" args fun flags names => do
    let (contents, isComplete) ← contentsOf "nl" "" "" names
    let countsAll := flags.lookup 'b' == some ['a']
    let width := ((flags.lookup 'w').map (numberOf 10)).getD 6
    let separator := (flags.lookup 's').getD ['\t']
    let numbered := (contents.flatMap wholeLines).foldl (fun (seen : Nat × List Text) l =>
      if countsAll || l != ['\n'] then
        (seen.1 + 1, (rightAligned width (seen.1 + 1) ++ separator ++ l) :: seen.2)
      else (seen.1, (List.replicate (width + separator.length) ' ' ++ l) :: seen.2)) (0, [])
    let _ ← emit 1 numbered.2.reverse.flatten
    return if isComplete then 0 else 1

/-- A line in pieces of no more than a width, which end at blanks if that is wanted. -/
def folded (atBlanks : Bool) (width : Nat) : (fuel : Nat) → Text → List Text
  | 0, s => [s]
  | fuel + 1, s =>
    if s.length ≤ width then [s]
    else
      let front := s.take width
      let upToBlank := dropEndWhile (· != ' ') front
      let piece := if atBlanks && !upToBlank.isEmpty then upToBlank else front
      piece :: folded atBlanks width fuel (s.drop piece.length)

/-- Break lines that are too long. -/
def fold (args : List Text) : ShellM Nat :=
  withOptions "fold" 1 "sb" "w" args fun flags names => do
    let (contents, isComplete) ← contentsOf "fold" "" "" names
    let width := max 1 (((flags.lookup 'w').map (numberOf 10)).getD 80)
    let broken := fun l : Text =>
      let (body, ending) := if l.getLast? = some '\n' then (l.dropLast, ['\n']) else (l, [])
      join ['\n'] (folded (hasFlag flags 's') width (body.length + 1) body) ++ ending
    let _ ← emit 1 (contents.flatMap fun s => (wholeLines s).flatMap broken)
    return if isComplete then 0 else 1

/-! ## Bytes -/

/-- How bytes are shown. -/
inductive ByteForm where
  | char
  /-- Numbers of so many bytes, with a base and a width. -/
  | number (bytes base width : Nat)
  /-- Numbers with a sign. -/
  | signed
  deriving Repr, DecidableEq

/-- The form that an option denotes. -/
def ByteForm.ofText : Text → ByteForm
  | ['c'] => .char
  | ['a'] => .char
  | ['x', '1'] => .number 1 16 2
  | ['x', '2'] => .number 2 16 4
  | ['x'] => .number 4 16 8
  | ['o', '1'] => .number 1 8 3
  | ['u', '1'] => .number 1 10 3
  | ['u', '2'] => .number 2 10 5
  | ['d', '1'] => .signed
  | _ => .number 2 8 6

/-- Digits of a number at a width, with zeros before them unless the base is ten. -/
def digitsOf (base width n : Nat) : Text :=
  let ds := Nat.toDigits base n
  List.replicate (width - ds.length) (if base = 10 then ' ' else '0') ++ ds

/-- A byte as a character or an escape sequence. -/
def byteName (c : Char) : Text :=
  match c with
  | '\x00' => "\\0".toList
  | '\x07' => "\\a".toList
  | '\x08' => "\\b".toList
  | '\t' => "\\t".toList
  | '\n' => "\\n".toList
  | '\x0b' => "\\v".toList
  | '\x0c' => "\\f".toList
  | '\r' => "\\r".toList
  | c => if ' ' ≤ c && c ≤ '~' then [c] else digitsOf 8 3 c.toNat

/-- A row of bytes in a form. -/
def ByteForm.row (f : ByteForm) (bytes : Text) : Text :=
  match f with
  | .char => bytes.flatMap fun c =>
      let s := byteName c
      List.replicate (4 - s.length) ' ' ++ s
  | .signed => bytes.flatMap fun c =>
      let n : Int := if c.toNat < 128 then c.toNat else (c.toNat : Int) - 256
      List.replicate (5 - (ofInt n).length) ' ' ++ ofInt n
  | .number size base width =>
    let groups := (List.range ((bytes.length + size - 1) / size)).map fun k =>
      (bytes.drop (k * size)).take size
    groups.flatMap fun g =>
      let n := g.foldr (fun c n => n * 256 + c.toNat) 0
      let pad := if base = 10 then width + 1 else width
      ' ' :: digitsOf base (if base = 10 then pad - 1 else width) n

/-- Print rows of sixteen bytes with their offsets; rows that are the same as the one before are
left out. -/
def dumpRows (f : ByteForm) (offset : Nat → Text) :
    (fuel : Nat) → (start : Nat) → (before : Option Text) → (isSkipping : Bool) → Text → List Text
  | 0, n, _, _, _ => [offset n]
  | fuel + 1, n, before, isSkipping, s =>
    if s.isEmpty then [offset n]
    else
      let bytes := s.take 16
      let isSame := before == some bytes && bytes.length = 16
      let rest := dumpRows f offset fuel (n + bytes.length) (some bytes) isSame (s.drop 16)
      if isSame then if isSkipping then rest else ['*'] :: rest
      else (offset n ++ f.row bytes) :: rest

/-- Print the bytes of files or of the input. -/
def od (args : List Text) : ShellM Nat :=
  withOptions "od" 1 "cbxovd" "Atjn" args fun flags names => do
    let (contents, isComplete) ← contentsOf "od" "" "" names
    let forms := flags.filterMap fun (c, v) =>
      match c with
      | 'c' => some ByteForm.char
      | 'b' => some (.number 1 8 3)
      | 'x' => some (.number 2 16 4)
      | 'd' => some (.number 2 10 5)
      | 'o' => some (.number 2 8 6)
      | 't' => some (.ofText v)
      | _ => none
    let f := forms.getLastD (.number 2 8 6)
    let offset := fun n : Nat =>
      match (flags.lookup 'A').getD ['o'] with
      | ['n'] => []
      | ['d'] => zeroFilled 7 (ofNat n)
      | ['x'] => digitsOf 16 6 n
      | _ => digitsOf 8 7 n
    let s := contents.flatten
    let rows := dumpRows f offset (s.length + 1) 0 none false s
    let rows := if (offset 0).isEmpty then rows.dropLast else rows
    let _ ← emit 1 (rows.flatMap (· ++ ['\n']))
    return if isComplete then 0 else 1

end Localizer.Host.Shell.Tool
