import Localizer.Text.Digit
import Localizer.Text.Quoted

/-!
# Options and operands

The arguments of a command are options, each with a short or a long name, and operands. A long name
may be cut short as long as only one option begins with it. A value stands behind its option as an
argument of its own, after an equals sign, or right behind a short name; short options without a
value may share one argument, also after an equals sign. After `--` everything is an operand, and a
`--` that is attached to an option leaves the option without a value.

Arguments are first read one by one (`readArgs`). Then `walk` goes along them: options change the
choices, the first operand is taken, and what nobody takes is kept. `toCommand` goes only as far as
the first operand, which names a command that gets all the rest.
-/

namespace Localizer.Command

open Text

/-- Why arguments cannot be used. -/
inductive UsageError where
  /-- More than one option begins like this. -/
  | ambiguous (arg : Text) (names : List Text)
  /-- An option without a value got one. -/
  | ignoredValue (option value : Text)
  | missingValue (option : Text)
  | unknownCommand (name : Text) (known : List Text)
  | noCommand
  /-- Nobody takes these arguments. -/
  | unrecognized (args : List Text)
  deriving Repr, DecidableEq

/-- What is wrong with the arguments. -/
def UsageError.message : UsageError → Text
  | ambiguous arg names =>
    "ambiguous option: ".toList ++ arg ++ " could match ".toList ++ join ", ".toList names
  | ignoredValue option value =>
    "argument ".toList ++ option ++ ": ignored explicit argument ".toList ++ quoted value
  | missingValue option => "argument ".toList ++ option ++ ": expected one argument".toList
  | unknownCommand name known =>
    "argument command: invalid choice: ".toList ++ quoted name ++ " (choose from ".toList ++
      join ", ".toList (known.map quoted) ++ [')']
  | noCommand => "the following arguments are required: command".toList
  | unrecognized args => "unrecognized arguments: ".toList ++ join [' '] args

/-- Why arguments are not acted on. -/
inductive Stop where
  /-- The user asked for help. -/
  | help
  | usage (e : UsageError)
  deriving Repr, DecidableEq

/-- What an option does to the choices. -/
inductive Action (α : Type) where
  | help
  /-- The option stands alone. -/
  | flag (set : α → α)
  /-- The option takes a value. It has none if the value is the mark of two dashes, which is not
  taken for a value. -/
  | value (set : Option Text → α → α)

/-- An option. -/
structure Opt (α : Type) where
  names : List Text
  action : Action α
  /-- What it is for. -/
  purpose : Text

variable {α : Type}

/-- An option by all its names. -/
def Opt.label (o : Opt α) : Text := join ['/'] o.names

/-- The option of that name. -/
def named? (opts : List (Opt α)) (name : Text) : Option (Opt α) :=
  opts.find? fun o => o.names.contains name

/-! ## Reading one argument -/

/-- An argument. -/
inductive Arg (α : Type) where
  | operand (text : Text)
  /-- The mark after which everything is an operand. -/
  | dashes
  /-- An argument that looks like an option and is none. -/
  | unknown (text : Text)
  /-- An option by one of its names, and what is attached to the name: a value, or more options. -/
  | option (text : Text) (o : Opt α) (name : Text) (attached : Option Text)

/-- The mark after which everything is an operand. -/
def dashMark : Text := ['-', '-']

/-- The value that is attached to an option. -/
def attachedValue? (attached : Text) : Option Text :=
  if attached = dashMark then none else some attached

/-- An argument as it was given. -/
def Arg.text : Arg α → Text
  | operand text => text
  | dashes => dashMark
  | unknown text => text
  | option text _ _ _ => text

/-- Whether a name has one dash. -/
def isShort (name : Text) : Bool := name.drop 1 |>.head? |> (· != some '-')

/-- Whether an argument is a negative number, which is an operand. -/
def isNegativeNumber (arg : Text) : Bool :=
  let arg := if arg.getLast? = some '\n' then arg.dropLast else arg
  match arg with
  | '-' :: digits =>
    let whole := digits.takeWhile isDecimal
    match digits.dropWhile isDecimal with
    | [] => !whole.isEmpty
    | '.' :: decimals => !decimals.isEmpty && decimals.all isDecimal
    | _ => false
  | _ => false

/-- The options that an argument can stand for, if it is not the full name of one. -/
def candidates (opts : List (Opt α)) (arg : Text) : List (Opt α × Text × Option Text) :=
  let all := opts.flatMap fun o => o.names.map (o, ·)
  if isShort arg then
    all.filterMap fun (o, name) =>
      if name = arg.take 2 then some (o, name, some (arg.drop 2))
      else if arg.isPrefixOf name then some (o, name, none)
      else none
  else
    let (front, attached) := match cut? ['='] arg with
      | some (front, value) => (front, some value)
      | none => (arg, none)
    all.filterMap fun (o, name) =>
      if front.isPrefixOf name then some (o, name, attached) else none

/-- The option whose full name stands before an equals sign. -/
def assigned? (opts : List (Opt α)) (arg : Text) : Option (Opt α × Text × Option Text) := do
  let (name, value) ← cut? ['='] arg
  let o ← named? opts name
  return (o, name, some value)

/-- Read an argument that is not the mark of two dashes. -/
def readArg (opts : List (Opt α)) (arg : Text) : Except UsageError (Arg α) :=
  if arg.head? ≠ some '-' then .ok (.operand arg)
  else match named? opts arg with
    | some o => .ok (.option arg o arg none)
    | none =>
      if arg.length = 1 then .ok (.operand arg)
      else match assigned? opts arg with
        | some (o, name, attached) => .ok (.option arg o name attached)
        | none =>
          match candidates opts arg with
          | [(o, name, attached)] => .ok (.option arg o name attached)
          | [] =>
            if isNegativeNumber arg || arg.contains ' ' then .ok (.operand arg)
            else .ok (.unknown arg)
          | many => .error (.ambiguous arg (many.map fun c => c.2.1))

/-- Read all arguments. -/
def readArgs (opts : List (Opt α)) : List Text → Except UsageError (List (Arg α))
  | [] => .ok []
  | arg :: rest =>
    if arg = dashMark then .ok (.dashes :: rest.map .operand)
    else do return (← readArg opts arg) :: (← readArgs opts rest)

/-! ## What an option asks for -/

/-- An effect of an option. -/
inductive Effect (α : Type) where
  | help
  | change (f : α → α)

/-- What one argument with options asks for. -/
structure Demand (α : Type) where
  /-- The effects, in order. -/
  effects : List (Effect α)
  /-- The last option, if it waits for a value. -/
  waiting : Option (Opt α × (Option Text → α → α)) := none

/-- The same demand with one more effect before it. -/
def Demand.after (e : Effect α) (d : Demand α) : Demand α := { d with effects := e :: d.effects }

/-- What an option with nothing attached asks for. -/
def demandAlone (o : Opt α) : Demand α :=
  match o.action with
  | .help => { effects := [.help] }
  | .flag set => { effects := [.change set] }
  | .value set => { effects := [], waiting := some (o, set) }

/-- What an option with something attached asks for: its value, or further options that share its
dash. What is attached to an option without a value must begin with the letter of another. -/
def demandWith (opts : List (Opt α)) (o : Opt α) (name : Text) :
    Text → Except UsageError (Demand α)
  | [] =>
    match o.action with
    | .value set => .ok { effects := [.change (set (some []))] }
    | _ => .error (.ignoredValue o.label [])
  | c :: r =>
    let share := fun (e : Effect α) =>
      match if isShort name then named? opts ['-', c] else none, r with
      | none, _ => .error (.ignoredValue o.label (c :: r))
      | some next, [] => .ok ((demandAlone next).after e)
      | some next, d :: r => (demandWith opts next ['-', c] (d :: r)).map (·.after e)
    match o.action with
    | .value set => .ok { effects := [.change (set (attachedValue? (c :: r)))] }
    | .help => share .help
    | .flag set => share (.change set)

/-- What an argument with options asks for. -/
def demand (opts : List (Opt α)) (o : Opt α) (name : Text) :
    (attached : Option Text) → Except UsageError (Demand α)
  | none => .ok (demandAlone o)
  | some attached => demandWith opts o name attached

/-! ## Going along the arguments -/

/-- What the arguments so far have come to. -/
structure Progress (α : Type) where
  choices : α
  /-- Whether the operand was given. -/
  operandTaken : Bool := false
  /-- The arguments that nobody takes. -/
  extras : List Text := []

namespace Progress

/-- Carry out effects until one asks for help. -/
def apply (p : Progress α) : List (Effect α) → Except Stop (Progress α)
  | [] => .ok p
  | .help :: _ => .error .help
  | .change f :: rest => { p with choices := f p.choices }.apply rest

/-- Keep arguments that nobody takes. -/
def keep (p : Progress α) (args : List Text) : Progress α := { p with extras := p.extras ++ args }

end Progress

/-- The text of the first argument if it is an operand. -/
def nextOperand? : List (Arg α) → Option Text
  | .operand text :: _ => some text
  | _ => none

/-- Carry out an argument with options; the answer says whether the next argument was its value. -/
def takeOption (opts : List (Opt α)) (p : Progress α) (o : Opt α) (name : Text)
    (attached next : Option Text) : Except Stop (Progress α × Bool) := do
  let d ← (demand opts o name attached).mapError .usage
  match d.waiting, next with
  | none, _ => return (← p.apply d.effects, false)
  | some (_, set), some value =>
    return (← p.apply (d.effects ++ [.change (set (some value))]), true)
  | some (o, _), none => .error (.usage (.missingValue o.label))

/-- Go along all arguments and take the first operand. -/
def walk (opts : List (Opt α)) (operand : Text → α → α) :
    List (Arg α) → Progress α → Except Stop (Progress α)
  | [], p => .ok p
  | .unknown text :: rest, p => walk opts operand rest (p.keep [text])
  | .dashes :: rest, p =>
    if p.operandTaken then walk opts operand rest (p.keep [dashMark]) else walk opts operand rest p
  | .operand text :: rest, p =>
    if p.operandTaken then walk opts operand rest (p.keep [text])
    else
      let p := { p with choices := operand text p.choices, operandTaken := true }
      match rest with
      | .dashes :: rest => walk opts operand rest p
      | rest => walk opts operand rest p
  | .option _ o name attached :: rest, p => do
    let (p, used) ← takeOption opts p o name attached (nextOperand? rest)
    match used, rest with
    | true, _ :: rest => walk opts operand rest p
    | _, rest => walk opts operand rest p

/-- Go along the arguments to the name of a command, and give that name and what follows it. -/
def toCommand (opts : List (Opt α)) :
    List (Arg α) → Progress α → Except Stop (Progress α × Text × List Text)
  | [], _ => .error (.usage .noCommand)
  | .unknown text :: rest, p => toCommand opts rest (p.keep [text])
  | .dashes :: rest, p =>
    if rest.isEmpty then .error (.usage .noCommand)
    else .ok (p, dashMark, rest.map Arg.text)
  | .operand text :: rest, p => .ok (p, text, rest.map Arg.text)
  | .option _ o name attached :: rest, p => do
    let (p, used) ← takeOption opts p o name attached (nextOperand? rest)
    match used, rest with
    | true, _ :: rest => toCommand opts rest p
    | _, rest => toCommand opts rest p

end Localizer.Command
