import Localizer.Resource.Table

/-!
# Keys

The key of a literal's text is its words in camel case. A text without words, or whose first word
starts with a digit, gets a numbered key, and a reserved word of the language a suffix. Texts that
come to the same key are told apart by numbers: `Keys.generate` gives a new text the first name
of `base`, `base_1`, `base_2`, … that is neither in the table nor given out, and a text that it has
seen the key that it gave before.
-/

namespace Localizer.Resource

open Text Message

/-- Blanks for everything that is neither a basic letter, a digit nor a blank. -/
def clean (s : Text) : Text := s.map fun c => if c.isAlphanum || isBlank c then c else ' '

/-- A word with its first letter in upper case and the others in lower case. -/
def capitalize : Text → Text
  | [] => []
  | c :: r => c.toUpper :: r.map Char.toLower

/-- One `_` for each run of blanks. -/
def underscored : Text → Text
  | [] => []
  | c :: r =>
    if isBlank c then
      if r.head?.any isBlank then underscored r else '_' :: underscored r
    else c :: underscored r

/-- The words of a text in camel case. -/
def camelCase (s : Text) : Text :=
  match (underscored (strip (clean s))).splitOn '_' with
  | [] => []
  | part :: parts => part.map Char.toLower ++ parts.flatMap capitalize

/-- Words that cannot name a getter. -/
def reservedWords : List Text := [
  "assert".toList, "break".toList, "case".toList, "catch".toList, "class".toList,
  "const".toList, "continue".toList, "default".toList, "do".toList, "else".toList,
  "enum".toList, "extends".toList, "false".toList, "final".toList, "finally".toList,
  "for".toList, "if".toList, "in".toList, "is".toList, "new".toList, "null".toList,
  "rethrow".toList, "return".toList, "super".toList, "switch".toList, "this".toList,
  "throw".toList, "true".toList, "try".toList, "var".toList, "void".toList, "while".toList,
  "with".toList]

/-- The keys given out so far. -/
structure Keys where
  /-- Each text with its key, in the order in which they were given out. -/
  assigned : List (Text × Text) := []
  /-- How many texts had no words to make a key of. -/
  fallbacks : Nat := 0
  deriving Repr, DecidableEq

namespace Keys

/-- The key that a text was given. -/
def lookup? (k : Keys) (content : Text) : Option Text :=
  (k.assigned.find? (·.1 == content)).map Prod.snd

/-- How many texts have a key. -/
def size (k : Keys) : Nat := k.assigned.length

/-- All keys given out. -/
def issued (k : Keys) : List Text := k.assigned.map Prod.snd

/-- The name to start from for a text, and how many texts had no words after it. -/
def base (k : Keys) (content : Text) : Text × Nat :=
  let name := camelCase (stripMarkers content)
  if name.isEmpty || name.head?.any Char.isDigit then
    ("stringKey".toList ++ ofNat k.fallbacks, k.fallbacks + 1)
  else if reservedWords.contains name then (name ++ "Label".toList, k.fallbacks)
  else (name, k.fallbacks)

/-- The names to try for a base. -/
def candidate (base : Text) : Nat → Text
  | 0 => base
  | n + 1 => base ++ '_' :: ofNat (n + 1)

/-- The first candidate from number `n` on that is not taken, looking `fuel` times at most. -/
def firstFree (taken : List Text) (base : Text) : (fuel n : Nat) → Text
  | 0, n => candidate base n
  | fuel + 1, n =>
    if taken.contains (candidate base n) then firstFree taken base fuel (n + 1)
    else candidate base n

/-- The names that a new key must avoid. -/
def taken (k : Keys) (t : Table) : List Text := t.recorded.map (·.key) ++ k.issued

/-- The key of a text, and the keys given out after that. -/
def generate (k : Keys) (t : Table) (content : Text) : Text × Keys :=
  match k.lookup? content with
  | some key => (key, k)
  | none =>
    let (name, fallbacks) := k.base content
    let key := firstFree (k.taken t) name (k.taken t).length 0
    (key, ⟨k.assigned ++ [(content, key)], fallbacks⟩)

end Keys

end Localizer.Resource
