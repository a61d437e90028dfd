import Localizer.Text.Basic

/-!
# Shell scripts

The modules under `Host` are no part of the program. They stand for the shell of the system that it
runs on, so that a generator whose command is a script can be carried out without starting anything
(`Project.Script.carryOut`). A run takes the way to start commands as a parameter, and what is proved
of runs holds for any `Launcher`: no result rests on these modules.

A script is a text in which each character stands for one byte. It consists of commands, whose
words are made of parts: characters that stand for themselves and expansions whose values take
their place. The three kinds of things contain each other, since a word may hold the output of
a command.
-/

namespace Localizer.Host.Shell

/-- What an expansion does with the value of a parameter. -/
inductive Operator where
  /-- The value itself. -/
  | value
  /-- The length of the value. -/
  | length
  /-- The value, or a word if there is none. -/
  | default
  /-- The value, or a word if there is none, which becomes the value. -/
  | assign
  /-- The value; it is an error if there is none. -/
  | demand
  /-- A word if there is a value. -/
  | alternative
  /-- The value without a part at its front that matches a pattern. -/
  | dropFront (isLongest : Bool)
  /-- The value without a part at its end that matches a pattern. -/
  | dropEnd (isLongest : Bool)
  /-- No operator: the expansion cannot be carried out. -/
  | bad
  deriving Repr, DecidableEq

/-- What a redirection opens. -/
inductive Opening where
  | read
  | write
  /-- A file that may be there already although no file is to be replaced. -/
  | replace
  | append
  | readWrite
  /-- A descriptor that is open already, or none. -/
  | copy
  /-- A document that stands in the script itself. -/
  | document (index : Nat)
  deriving Repr, DecidableEq

mutual

/-- A part of a word. What comes of an expansion is split into words unless it is quoted. -/
inductive Part where
  /-- Characters outside of quotes. -/
  | plain (s : Text)
  /-- Characters in quotes. -/
  | quoted (s : Text)
  /-- The value of a parameter. With `nullCounts` an empty value counts as none. -/
  | parameter (isQuoted : Bool) (name : Text) (op : Operator) (nullCounts : Bool)
      (word : List Part)
  /-- The output of a command. -/
  | output (isQuoted : Bool) (body : Option Command)
  /-- The value of an arithmetic expression. -/
  | arithmetic (isQuoted : Bool) (expression : List Part)

/-- A redirection of a descriptor. -/
inductive Redirect where
  | mk (descriptor : Nat) (opening : Opening) (target : List Part)

/-- A command. Those that can be at fault know their line. -/
inductive Command where
  /-- A program or function with its words, after assignments. -/
  | simple (line : Nat) (assigns : List (Text × List Part)) (words : List (List Part))
      (redirects : List Redirect)
  /-- Commands of which each reads what the one before writes. -/
  | pipeline (commands : List Command)
  /-- The second command runs if the first succeeds. -/
  | both (first second : Command)
  /-- The second command runs if the first fails. -/
  | either (first second : Command)
  | sequence (first second : Command)
  | negation (body : Command)
  | background (body : Command)
  /-- A command whose effects on variables are undone. -/
  | subshell (line : Nat) (body : Command)
  | redirected (line : Nat) (body : Command) (redirects : List Redirect)
  | branch (test yes : Command) (no : Option Command)
  /-- Repeat the body while the test succeeds, or until it does. -/
  | loop (isUntil : Bool) (test body : Command)
  /-- Repeat the body for each of the words. -/
  | each (line : Nat) (name : Text) (words : List (List Part)) (body : Command)
  /-- Carry out the body of the first case with a pattern that matches the word. -/
  | choose (line : Nat) (word : List Part) (cases : List (List (List Part) × Option Command))
  /-- Define a function. -/
  | define (line : Nat) (name : Text) (body : Command)

end

/-- A word: its value is the values of its parts in order. -/
abbrev Word := List Part

/-- Whether a part stands for the list of all parameters. -/
def Part.isAllParameters : Part → Bool
  | .parameter _ name op _ _ => name == ['@'] && op == .value
  | _ => false

namespace Word

/-- The characters of a word that has no quotes and no expansions. -/
def bare? : Word → Option Text
  | [.plain s] => some s
  | _ => none

/-- Whether something of a word stands in quotes. -/
def hasQuotes (w : Word) : Bool := w.any fun p =>
  match p with
  | .quoted _ => true
  | .parameter q .. => q
  | .output q .. => q
  | .arithmetic q .. => q
  | .plain _ => false

/-- A part put before a word; characters outside of quotes that touch become one part. -/
def cons : Part → Word → Word
  | .plain a, .plain b :: ps => .plain (a ++ b) :: ps
  | p, ps => p :: ps

end Word

/-- Characters that may start a name. -/
def isNameStart (c : Char) : Bool := c.isAlpha || c == '_'

/-- Characters of names. -/
def isNameChar (c : Char) : Bool := c.isAlphanum || c == '_'

/-- Whether a text can be the name of a variable. -/
def isName : Text → Bool
  | [] => false
  | c :: r => isNameStart c && r.all isNameChar

/-- The name before an equals sign at the front of a word, and the word after it. -/
def assignment? : Word → Option (Text × Word)
  | .plain s :: ps => do
    let (name, value) ← Text.cut? ['='] s
    if isName name then some (name, Word.cons (.plain value) ps) else none
  | _ => none

/-- The descriptor that a redirection changes. -/
def Redirect.descriptor : Redirect → Nat
  | .mk n _ _ => n

/-- Which of the output and the messages do not go where they went before, after a redirection. -/
def Redirect.moved (before : Bool × Bool) : Redirect → Bool × Bool
  | .mk n opening target =>
    let isMoved := match opening, target with
      | .copy, [.plain ['1']] => before.1
      | .copy, [.plain ['2']] => before.2
      | .copy, [.plain ['-']] => true
      | .copy, _ => false
      | .document _, _ => false
      | _, _ => true
    if n = 1 then (isMoved, before.2) else if n = 2 then (before.1, isMoved) else before

/-- The redirections of a command as a whole. -/
def Command.redirects : Command → List Redirect
  | simple _ _ _ rs => rs
  | redirected _ c rs => rs ++ c.redirects
  | subshell _ c => c.redirects
  | _ => []

/-- Whether a command keeps neither the output nor the messages of the shell open. -/
def Command.isSilent (c : Command) : Bool :=
  c.redirects.foldl Redirect.moved (false, false) = (true, true)

/-- The built-in commands whose errors end a script. -/
def specialNames : List Text :=
  [":", ".", "break", "continue", "eval", "exec", "exit", "export", "local", "readonly", "return",
   "set", "shift", "times", "trap", "unset"].map String.toList

end Localizer.Host.Shell
