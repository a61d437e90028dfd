import Localizer.Message.Template
import Localizer.Text.CodePoint

/-!
# The table of resources

The table holds one entry per key. The first text recorded under a key stays, unless it has no
placeholders and a later one brings some: then the later one takes its place. Keys are listed in
the order of their code points.
-/

namespace Localizer.Resource

open Text Message

/-- A text taken out of the sources. -/
structure Entry where
  /-- The name by which sources refer to it. -/
  key : Text
  /-- What is shown, with placeholders in braces. -/
  value : Message
  /-- A note for translators. -/
  description : Text
  /-- The placeholders, or none when the text has no variables. -/
  placeholders : Option (List Placeholder)
  deriving Repr, DecidableEq

/-- The entries of one extraction, in the order in which their keys came in. -/
structure Table where
  /-- The entries, one per key. -/
  recorded : List Entry := []
  deriving Repr, DecidableEq

namespace Table

/-- The entry of a key. -/
def get? (t : Table) (key : Text) : Option Entry := t.recorded.find? (·.key == key)

/-- Whether a key has an entry. -/
def contains (t : Table) (key : Text) : Bool := t.recorded.any (·.key == key)

/-- How many keys have an entry. -/
def size (t : Table) : Nat := t.recorded.length

/-- The entries in the order of their keys. -/
def entries (t : Table) : List Entry := t.recorded.mergeSort fun a b => le a.key b.key

/-- The keys in order. -/
def keys (t : Table) : List Text := t.entries.map (·.key)

/-- The entry that is kept when `new` is recorded over `old`. -/
def keep (old new : Entry) : Entry :=
  if old.placeholders.isNone && new.placeholders.isSome then new else old

/-- An empty list of placeholders is none. -/
def placeholders? (ps : List Placeholder) : Option (List Placeholder) :=
  if ps.isEmpty then none else some ps

/-- Record an entry. -/
def record (t : Table) (new : Entry) : Table :=
  if t.contains new.key then
    ⟨t.recorded.map fun old => if old.key == new.key then keep old new else old⟩
  else ⟨t.recorded ++ [new]⟩

/-- An entry as it is stored, without an empty list of placeholders. -/
def stored (given : Entry) : Entry :=
  { given with placeholders := given.placeholders.bind placeholders? }

/-- Record what is given for a key, with any placeholders or none. -/
def add (t : Table) (given : Entry) : Table := t.record (stored given)

end Table

end Localizer.Resource
