import Localizer.Text.CodePoint

/-!
# Wildcard patterns

In a pattern a star stands for any code points, slashes included, a question mark for one, and
brackets for one of a set, or outside it after an exclamation mark. A bracket that is never closed
is a plain code point. Inside brackets a hyphen between two code points is a range; an empty range
is dropped together with its ends.
-/

namespace Localizer

open CodePoint (ofChar)

namespace Glob

/-- A part of a pattern. -/
inductive Item where
  /-- Any code points. -/
  | star
  /-- One code point. -/
  | one
  /-- This code point. -/
  | exactly (p : CodePoint)
  /-- A code point in one of the inclusive ranges, or in none of them. -/
  | set (negated : Bool) (ranges : List (CodePoint × CodePoint))
  deriving Repr, DecidableEq

/-- Whether a part that stands for one code point accepts it. -/
def Item.accepts : Item → CodePoint → Bool
  | star, _ => false
  | one, _ => true
  | exactly q, p => p == q
  | set negated ranges, p => (ranges.any fun r => r.1 ≤ p && p ≤ r.2) != negated

/-! ## Sets -/

/-- How many characters at the front belong to the inside of a bracket whatever follows them: an
exclamation mark, and a closing bracket. -/
def bracketFront : Text → Nat
  | '!' :: ']' :: _ => 2
  | '!' :: _ => 1
  | ']' :: _ => 1
  | _ => 0

/-- The inside of a bracket and what follows it. -/
def bracket? (m : Message) : Option (Message × Message) :=
  let n := bracketFront m.view
  match (m.drop n).dropWhile (· != ofChar ']') with
  | _ :: rest => some (m.take n ++ (m.drop n).takeWhile (· != ofChar ']'), rest)
  | [] => none

theorem length_bracket? {m a r : Message} (h : bracket? m = some (a, r)) :
    r.length < m.length := by
  unfold bracket? at h
  simp only at h
  split at h
  next rest hr =>
    simp only [Option.some.injEq, Prod.mk.injEq] at h
    obtain ⟨-, rfl⟩ := h
    have := (List.dropWhile_suffix (l := m.drop (bracketFront m.view)) (· != ofChar ']')).length_le
    simp [hr] at this
    omega
  next => simp at h

/-- The inside of a bracket cut at the hyphens that make ranges: a range takes the last code point
of one chunk and the first of the next. `chunk` has the code points of the current chunk, the last
first, and `skip` says how many of them cannot be such a hyphen yet. -/
def chunks (chunk : Message) : (skip : Nat) → Message → List Message
  | _, [] => [chunk.reverse]
  | skip + 1, p :: r => chunks (p :: chunk) skip r
  | 0, p :: r =>
    if p = ofChar '-' ∧ r ≠ [] then chunk.reverse :: chunks [] 2 r
    else chunks (p :: chunk) 0 r

/-- Drop the ranges whose first end comes after the last, from the right. -/
def dropEmptyRanges : List Message → List Message
  | [] => []
  | chunk :: rest =>
    match dropEmptyRanges rest with
    | [] => [chunk]
    | next :: more =>
      match chunk.getLast?, next with
      | some lo, hi :: tail =>
        if hi < lo then (chunk.dropLast ++ tail) :: more else chunk :: next :: more
      | _, _ => chunk :: next :: more

/-- The ranges of a list of chunks. -/
def rangesOf : List Message → List (CodePoint × CodePoint)
  | [] => []
  | [chunk] => chunk.map fun p => (p, p)
  | chunk :: next :: more =>
    let joint := match chunk.getLast?, next with
      | some lo, hi :: _ => (lo, hi)
      | _, _ => (ofChar '-', ofChar '-')
    chunk.map (fun p => (p, p)) ++ joint :: rangesOf (next :: more)

/-- The set between brackets. -/
def setOf (inside : Message) : Item :=
  let skip := if inside.head? = some (ofChar '!') then 2 else 1
  match dropEmptyRanges (chunks [] skip inside) with
  | (p :: chunk) :: more =>
    if p = ofChar '!' then .set true (rangesOf (chunk :: more))
    else .set false (rangesOf ((p :: chunk) :: more))
  | cs => .set false (rangesOf cs)

/-! ## Reading and matching -/

/-- The parts of a pattern. -/
def parse : Message → List Item
  | [] => []
  | p :: r =>
    if p = ofChar '*' then .star :: parse r
    else if p = ofChar '?' then .one :: parse r
    else if p = ofChar '[' then
      match h : bracket? r with
      | some (inside, rest) =>
        have := length_bracket? h
        setOf inside :: parse rest
      | none => .exactly p :: parse r
    else .exactly p :: parse r
termination_by m => m.length

/-- Whether the parts of a pattern match a whole message. -/
def accepts : List Item → Message → Bool
  | [], m => m.isEmpty
  | .star :: ps, [] => accepts ps []
  | .star :: ps, c :: m => accepts ps (c :: m) || accepts (.star :: ps) m
  | _ :: _, [] => false
  | p :: ps, c :: m => p.accepts c && accepts ps m
termination_by ps m => (ps.length, m.length)

/-! ## Matching in one pass over the parts

Trying every length of every star takes time that grows with the power of the number of stars. So
the parts are gone through once, from the last to the first, and for each tail of the message it
is kept whether the parts so far match it. -/

/-- For each tail of a message, the whole message first, whether `q` holds of it. -/
def overTails (q : Message → Bool) : Message → List Bool
  | [] => [q []]
  | c :: m => q (c :: m) :: overTails q m

theorem headD_overTails (q : Message → Bool) (m : Message) :
    (overTails q m).headD false = q m := by
  cases m <;> rfl

/-- The tails that a star and more match, from the tails that these match. -/
def starRow : List Bool → List Bool
  | [] => []
  | b :: bs =>
    let rest := starRow bs
    (b || rest.headD false) :: rest

/-- The tails of a message that a part for one code point and more match, from the tails that these
match. -/
def itemRow (p : Item) : Message → List Bool → List Bool
  | [], _ => [false]
  | c :: m, row => (p.accepts c && row.tail.headD false) :: itemRow p m row.tail

/-- The tails of a message that the parts of a pattern match. -/
def row (m : Message) : List Item → List Bool
  | [] => overTails List.isEmpty m
  | .star :: ps => starRow (row m ps)
  | p :: ps => itemRow p m (row m ps)

theorem starRow_overTails (ps : List Item) (m : Message) :
    starRow (overTails (accepts ps) m) = overTails (accepts (.star :: ps)) m := by
  induction m with
  | nil => simp [overTails, starRow, accepts]
  | cons c m ih => simp only [overTails, starRow, ih, headD_overTails, accepts]

theorem itemRow_overTails (p : Item) (hp : p ≠ .star) (ps : List Item) (m : Message) :
    itemRow p m (overTails (accepts ps) m) = overTails (accepts (p :: ps)) m := by
  induction m with
  | nil => cases p <;> simp_all [overTails, itemRow, accepts]
  | cons c m ih =>
    simp only [overTails, itemRow, List.tail_cons, headD_overTails, ih]
    cases p <;> simp_all [accepts]

/-- The row of a pattern says of each tail whether the pattern matches it. -/
theorem row_eq (m : Message) (ps : List Item) : row m ps = overTails (accepts ps) m := by
  induction ps with
  | nil =>
    have : accepts [] = List.isEmpty := by funext m; simp [accepts]
    rw [row, this]
  | cons p ps ih =>
    by_cases hp : p = .star
    · rw [hp, row, ih, starRow_overTails]
    · rw [← itemRow_overTails p hp, ← ih]
      cases p <;> simp_all [row]

end Glob

/-- Whether a pattern matches a whole message. -/
def Glob.matches (pattern m : Message) : Bool := (row m (Glob.parse pattern)).headD false

/-- A pattern matches a message if its parts do. -/
theorem Glob.matches_eq (pattern m : Message) :
    Glob.matches pattern m = Glob.accepts (Glob.parse pattern) m := by
  rw [Glob.matches, row_eq, headD_overTails]

end Localizer
