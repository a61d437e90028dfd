import Localizer.Path.Basic
import Localizer.Path.Glob
import Localizer.Text.Blank

/-!
# Ignore rules

A rule is one line of an ignore file: a pattern, for folders only if it ends in a slash, bound to
the root if it has a slash before its end, and taking files back in after an exclamation mark. The
last rule that matches a path decides about it (`isIgnored`).
-/

namespace Localizer.Path

open Text CodePoint

/-- A rule about paths, which are relative to the root. -/
structure Rule where
  pattern : Message
  /-- The rule is about folders only. -/
  directoryOnly : Bool := false
  /-- The pattern is matched against the whole path and not against the last name. -/
  anchored : Bool := false
  /-- The rule takes back in what it matches. -/
  negate : Bool := false
  deriving Repr, DecidableEq

namespace Rule

/-- A rule of this pattern, unless nothing of it is left. -/
def ofPattern? (text : Message) (negate : Bool) : Option Rule :=
  let directoryOnly := text.getLast? == some slash
  let text := dropEndWhile (· == slash) text
  let (pattern, anchored) := match after? (Message.ofText "**/".toList) text with
    | some r => (r, false)
    | none => (text.dropWhile (· == slash), text.contains slash)
  if pattern.isEmpty then none else some { pattern, directoryOnly, anchored, negate }

/-- A line without the blanks at its two ends. -/
def content (line : Message) : Message :=
  dropEndWhile (fun p => isBlank p.shown) (line.dropWhile fun p => isBlank p.shown)

/-- The rule of a line, unless it is empty or a comment. -/
def ofLine? (line : Message) : Option Rule :=
  match content line with
  | [] => none
  | p :: r =>
    if p = ofChar '#' then none
    else if p = ofChar '!' then ofPattern? r true
    else ofPattern? (p :: r) false

/-- The rules of lines. -/
def ofLines (ls : List Message) : List Rule := ls.filterMap ofLine?

/-- The part of a path after its last slash. -/
def lastName (path : Message) : Message := (path.reverse.takeWhile (· != slash)).reverse

/-- Whether a rule matches a path. -/
def applies (r : Rule) (path : Message) (isDirectory : Bool) : Bool :=
  if r.directoryOnly && !isDirectory then false
  else if r.anchored then
    match after? (Message.ofText "/**".toList.reverse) r.pattern.reverse with
    | some base => (base.reverse ++ [slash]).isPrefixOf path
    | none => Glob.matches r.pattern path
  else Glob.matches r.pattern (lastName path)

end Rule

/-- Whether rules exclude a path: the last one that matches decides. -/
def isIgnored (rules : List Rule) (path : Message) (isDirectory : Bool) : Bool :=
  rules.foldl (fun ignored r => if r.applies path isDirectory then !r.negate else ignored) false

end Localizer.Path
