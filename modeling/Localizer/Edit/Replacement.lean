import Localizer.Dart.Const
import Localizer.Dart.Literal
import Localizer.Edit.Span
import Localizer.Edit.Wiring
import Localizer.Text.Place

/-!
# Replacing literals by calls

Each literal gives way to a call that looks its text up. A literal that has moved, overlaps one
that is already taken, or stands in a constant expression stays; but when all that makes it
constant is the `const` of the `Text` widget it is the first argument of, the widget is written
again without `const`. Once some literal was replaced, the buffer gets the import and the app root
its properties.
-/

namespace Localizer.Edit

open Text Dart

/-- A literal and the key that its text has. -/
structure Replacement where
  /-- The literal as it should stand in the buffer. -/
  literal : Text
  /-- The offset at which it should stand. -/
  offset : Nat
  /-- Its role on the screen. -/
  context : Context
  /-- The key of its text. -/
  key : Text
  /-- The arguments of the call. -/
  arguments : List Text
  deriving Repr, DecidableEq

/-- How sources refer to the localizations. -/
structure Localizations where
  /-- The class that is generated. -/
  className : Message
  /-- The import that a source needs. -/
  importStatement : Option Message := none
  deriving Repr, DecidableEq

/-- What became of a buffer. -/
structure Outcome where
  /-- The buffer after the edits. -/
  content : Message
  /-- How many literals were replaced. -/
  replaced : Nat
  /-- Whether the import was added. -/
  importAdded : Bool := false
  /-- Whether the app root got its properties. -/
  delegatesAdded : Bool := false
  /-- Whether there is an import to add but the buffer is a part file. -/
  importSkipped : Bool := false
  /-- How many literals stayed because they are constant. -/
  skippedConst : Nat := 0
  deriving Repr, DecidableEq

/-- Whether any literal was replaced. -/
def Outcome.changed (o : Outcome) : Bool := 0 < o.replaced

/-- A buffer in which nothing was replaced. -/
def Outcome.unchanged (s : Message) (skippedConst : Nat) : Outcome :=
  { content := s, replaced := 0, skippedConst }

/-- The call that looks a key up. -/
def Localizations.accessor (l : Localizations) (key : Text) (arguments : List Text) : Message :=
  let call := l.className ++ ".of(context).".toList ++ key
  if arguments.isEmpty then call
  else call ++ Message.ofText ('(' :: (join ", ".toList arguments ++ [')']))

/-- The offset of the constant `Text` head that ends at a place, on the same line. -/
def constTextHead? (p : Place Char) : Option Nat :=
  match after? "Text(".toList.reverse (stripLeft p.lineBack) with
  | some (c :: r) =>
    let r := stripLeft r
    if isBlank c && endsInWord "const".toList r then
      some (p.offset - p.lineBack.length + r.length - "const".length)
    else none
  | _ => none

/-- What the walk over the replacements has gathered. -/
structure Progress where
  /-- The edits, in order. -/
  edits : List Edit := []
  /-- How many literals stayed because they are constant. -/
  skippedConst : Nat := 0
  /-- The end of the last edit. -/
  claimed : Nat := 0
  deriving Repr, DecidableEq

/-- A replacement with its place in the buffer and in the masked buffer. -/
structure Site where
  place : Place Char
  masked : Place Char
  replacement : Replacement

/-- Replacements in the order of their offsets, with their places in a buffer. -/
def sites (s : Text) (rs : List Replacement) : List Site :=
  let ordered := rs.mergeSort fun a b => a.offset ≤ b.offset
  let placed := (Place.of s 0).along Replacement.offset ordered
  let masked := (Place.of (mask s) 0).along (·.2.offset) placed
  masked.map fun (m, p, r) => ⟨p, m, r⟩

/-- Each replacement has the places at its offset. -/
theorem sites_eq_map (s : Text) (rs : List Replacement) :
    sites s rs = (rs.mergeSort fun a b => a.offset ≤ b.offset).map fun r =>
      ⟨.of s r.offset, .of (mask s) r.offset, r⟩ := by
  simp [sites, Place.along_of]

/-- The edit of one literal, if it has one: the call in its place, or the `Text` widget written
again without `const`. -/
def editOf (l : Localizations) (claimed : Nat) (site : Site) : Option Edit :=
  let r := site.replacement
  let stop := r.offset + r.literal.length
  let call := l.accessor r.key r.arguments
  match constBefore? site.masked.back with
  | none => some ⟨r.offset, stop, call⟩
  | some const =>
    match if r.context = .text then constTextHead? site.place else none with
    | none => none
    | some head =>
      if head = const ∧ claimed ≤ head ∧ constBefore? (site.masked.moveTo head).back = none then
        some ⟨head, stop, "Text(".toList ++ call⟩
      else none

/-- Take up one replacement. -/
def step (l : Localizations) (p : Progress) (site : Site) : Except OutOfRange Progress :=
  let r := site.replacement
  if site.place.rest.take r.literal.length ≠ r.literal then .ok p
  else if r.offset < p.claimed then .ok p
  else if site.place.offset < r.offset then .error ⟨r.offset⟩
  else match editOf l p.claimed site with
    | some e =>
      .ok { p with edits := p.edits ++ [e], claimed := r.offset + r.literal.length }
    | none => .ok { p with skippedConst := p.skippedConst + 1 }

/-- The edits for a list of replacements, taken up in the order of their offsets. -/
def plan (l : Localizations) (s : Text) (rs : List Replacement) : Except OutOfRange Progress :=
  (sites s rs).foldlM (step l) {}

/-- Add the import and the properties of the app root to an edited buffer. -/
def wire (l : Localizations) (s : Message) (p : Progress) : Outcome :=
  let part := isPartFile s.view
  let wanted := l.importStatement.any (!·.isEmpty)
  let withImport := if wanted && !part then ensureImport (l.importStatement.getD []) s else s
  let content := ensureDelegates l.className withImport
  { content
    replaced := p.edits.length
    importAdded := withImport != s
    delegatesAdded := content != withImport
    importSkipped := part && wanted
    skippedConst := p.skippedConst }

/-- Replace literals of a buffer by calls. -/
def Localizations.replace (l : Localizations) (s : Text) (rs : List Replacement) :
    Except OutOfRange Outcome := do
  let p ← plan l s rs
  let buffer := Message.ofText s
  if p.edits.isEmpty then return .unchanged buffer p.skippedConst
  return wire l (applyAll buffer p.edits) p

end Localizer.Edit
