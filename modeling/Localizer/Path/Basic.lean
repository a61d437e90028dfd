import Localizer.Text.CodePoint

/-!
# Paths

A path is an anchor and the names after it. Single dots and repeated slashes are dropped when a
message is read as a path, and `..` is kept. Joining to an absolute path gives that path. `resolve`
removes the `..` of an absolute path, which is right where there are no links. A path may hold code
points that no name of a file can have; it is a path all the same, and leads nowhere.
-/

namespace Localizer

open Text

/-- A path. -/
structure Path where
  /-- What makes the path absolute: nothing, one slash, or exactly two. -/
  anchor : Text
  /-- The names, none of them empty or a single dot. -/
  parts : List Message
  deriving Repr, DecidableEq

namespace Path

/-- The code point between names. -/
def slash : CodePoint := .ofChar '/'

/-- The name that stands for the folder itself. -/
def here : Message := Message.ofText ['.']

/-- The name that stands for the folder around. -/
def up : Message := Message.ofText ['.', '.']

/-- The names in a message between slashes, without the empty ones and single dots. -/
def partsOf (m : Message) : List Message :=
  (m.splitOn slash).filter fun part => !part.isEmpty && part != here

/-- The anchor of a text. -/
def anchorOf : Text → Text
  | '/' :: '/' :: '/' :: _ => ['/']
  | '/' :: '/' :: _ => ['/', '/']
  | '/' :: _ => ['/']
  | _ => []

/-- The path that a message names. -/
def ofMessage (m : Message) : Path := ⟨anchorOf m.view, partsOf m⟩

/-- The path that a text names. -/
def ofText (s : Text) : Path := ofMessage s

/-- The normal form of a path; a single dot for the empty path. -/
def toMessage (p : Path) : Message :=
  if p.anchor.isEmpty && p.parts.isEmpty then here else p.anchor ++ join [slash] p.parts

/-- The normal form of a path as it is shown. -/
def toText (p : Path) : Text := p.toMessage.view

/-- The names of a path as they are shown. -/
def names (p : Path) : List Text := p.parts.map Message.view

/-- Whether a path says where it starts. -/
def isAbsolute (p : Path) : Bool := !p.anchor.isEmpty

/-- A path taken from another one. -/
def append (p q : Path) : Path := if q.isAbsolute then q else ⟨p.anchor, p.parts ++ q.parts⟩

instance : Append Path := ⟨append⟩

/-- The path that a message names, taken from another path. -/
def child (p : Path) (m : Message) : Path := p ++ ofMessage m

/-- The path without its last name. -/
def parent (p : Path) : Path := { p with parts := p.parts.dropLast }

/-- The last name of a path, empty if there is none. -/
def name (p : Path) : Message := p.parts.getLastD []

/-- The names that are left when every `..` has removed the name before it. -/
def resolveParts : (done : List Message) → List Message → List Message
  | done, [] => done.reverse
  | done, part :: rest =>
    if part = up then resolveParts done.tail rest else resolveParts (part :: done) rest

/-- The path without `..`. -/
def resolve (p : Path) : Path := ⟨['/'], resolveParts [] p.parts⟩

/-- What has to be appended to `base` to get `p`, if `p` is below it or is it. -/
def relativeTo? (p base : Path) : Option Path :=
  if p.anchor = base.anchor ∧ base.parts.isPrefixOf p.parts then
    some ⟨[], p.parts.drop base.parts.length⟩
  else none

end Path

end Localizer
