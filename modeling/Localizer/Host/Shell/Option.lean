import Localizer.Host.Shell.State

/-!
# Options of commands

Options are letters after a dash. `takeFlags` takes those at the front of the arguments of a
built-in command, and `OptionSearch.next` finds one after the other for a script that asks for them.
-/

namespace Localizer.Host.Shell

open Text

/-! ## Built-in commands -/

/-- The options at the front of arguments with their values, and the other arguments. The letters in
`plain` have no values, and those in `valued` have one; `letters` are those left of an argument. -/
def takeFlagsFrom (plain valued : Text) :
    (fuel : Nat) → (letters : Text) → List Text → ShellM (List (Char × Text) × List Text)
  | 0, _, args => return ([], args)
  | fuel + 1, [], args =>
    match args with
    | ['-', '-'] :: rest => return ([], rest)
    | ('-' :: c :: cs) :: rest => takeFlagsFrom plain valued fuel (c :: cs) rest
    | args => return ([], args)
  | fuel + 1, c :: cs, args => do
    if valued.contains c then
      match cs, args with
      | [], [] => fail ("No arg for -".toList ++ c :: " option".toList)
      | [], v :: rest => do
        let (flags, args) ← takeFlagsFrom plain valued fuel [] rest
        return ((c, v) :: flags, args)
      | cs, args => do
        let (flags, args) ← takeFlagsFrom plain valued fuel [] args
        return ((c, cs) :: flags, args)
    else if plain.contains c then
      let (flags, args) ← takeFlagsFrom plain valued fuel cs args
      return ((c, []) :: flags, args)
    else fail ("Illegal option -".toList ++ [c])

/-- The options at the front of arguments, and the other arguments. -/
def takeFlags (plain : String) (args : List Text) : ShellM (Text × List Text) := do
  let (flags, rest) ← takeFlagsFrom plain.toList [] (args.flatten.length + args.length + 1) [] args
  return (flags.map (·.1), rest)

/-- The option at the front of arguments, for a command that looks at no other, and the arguments
after it. -/
def takeFlag (plain : String) (args : List Text) : ShellM (Option Char × List Text) :=
  match args with
  | ['-', '-'] :: rest => return (none, rest)
  | ('-' :: c :: _) :: rest =>
    if plain.toList.contains c then return (some c, rest)
    else fail ("Illegal option -".toList ++ [c])
  | args => return (none, args)

/-! ## Options of scripts -/

/-- What a search for an option has found. -/
inductive FoundOption where
  /-- No option is left. -/
  | none
  /-- An option, and its value if it has one. -/
  | option (c : Char) (value : Text)
  | unknown (c : Char)
  /-- An option without the value that it should have. -/
  | lacksValue (c : Char)
  deriving Repr, DecidableEq

/-- Whether an option among those of a script has a value, as a colon after its letter says; none if
it is not among them. -/
def optionKind? (c : Char) : Text → Option Bool
  | [] => none
  | [q] => if q == c then some false else none
  | q :: ':' :: rest => if q == c then some true else optionKind? c rest
  | q :: rest => if q == c then some false else optionKind? c rest

namespace OptionSearch

/-- The letters of the argument that are still to be read. -/
def letters (o : OptionSearch) (args : List Text) : Text :=
  match o.offset with
  | some n => if o.index ≤ 1 then [] else ((args[o.index - 2]?).getD []).drop n
  | none => []

/-- The search with an option of an argument, after which the letters `rest` are left. -/
def afterLetter (args : List Text) (index : Nat) (rest : Text) : OptionSearch :=
  { index, offset := some (((args[index - 2]?).getD []).length - rest.length) }

/-- Read the option at the front of the letters of the argument before `index`. -/
def read (known : Text) (args : List Text) (index : Nat) (c : Char) (rest : Text) :
    FoundOption × OptionSearch :=
  match optionKind? c known with
  | none => (.unknown c, afterLetter args index rest)
  | some false => (.option c [], afterLetter args index rest)
  | some true =>
    if rest.isEmpty then
      match args[index - 1]? with
      | some value => (.option c value, { index := index + 1 })
      | none => (.lacksValue c, { index })
    else (.option c rest, { index })

/-- The next option among arguments, of which `known` are the options of the script, and how far
they have been searched then. -/
def next (o : OptionSearch) (known : Text) (args : List Text) : FoundOption × OptionSearch :=
  match o.letters args with
  | c :: rest => read known args o.index c rest
  | [] =>
    match args[o.index - 1]? with
    | some ['-', '-'] => (.none, { index := o.index + 1 })
    | some ('-' :: c :: rest) => read known args (o.index + 1) c rest
    | _ => (.none, { index := o.index })

end OptionSearch

namespace Builtin

/-- Find the next option of a script. -/
def getopts (args : List Text) : ShellM Nat := do
  match args with
  | known :: name :: rest =>
    let e ← env
    let args := if rest.isEmpty then e.params else rest
    let search := e.search
    let search := if args.length + 1 < search.index then {} else search
    let (found, after) := search.next known args
    let isQuiet := known.head? == some ':'
    let clear : ShellM Unit := modifyEnv (·.putVar "OPTARG".toList none)
    let answer ← match found with
      | .none => pure '?'
      | .option c value => do
        setVar "OPTARG".toList value
        pure c
      | .unknown c => do
        if isQuiet then setVar "OPTARG".toList [c]
        else
          let _ ← emit 2 ("Illegal option -".toList ++ [c, '\n'])
          clear
        pure '?'
      | .lacksValue c => do
        if isQuiet then
          setVar "OPTARG".toList [c]
          pure ':'
        else
          let _ ← emit 2 ("No arg for -".toList ++ c :: " option\n".toList)
          clear
          pure '?'
    setVar indexName (ofNat after.index)
    setVar name [answer]
    modifyEnv fun e => { e with search := after }
    return if found = .none then 1 else 0
  | _ => fail "Usage: getopts optstring var [arg...]".toList

end Builtin

end Localizer.Host.Shell
