import Localizer.Text.CodePoint

/-!
# Line breaks

Besides the newline, lines end at the carriage return, alone or before a newline, at the vertical
tab, the form feed, three of the information separators, and the next-line, line-separator and
paragraph-separator characters. `brokenLines` cuts a text after each line break and keeps it, and a
message is cut where it is cut as it is shown; `normalizeNewlines` turns carriage returns into
newlines.
-/

namespace Localizer.Text

/-- The characters at which a line ends. -/
def isLineBreak (c : Char) : Bool :=
  c == '\n' || c == '\r' || c == '\x0b' || c == '\x0c' || c == '\x1c' || c == '\x1d' ||
    c == '\x1e' || c == '\u0085' || c == '\u2028' || c == '\u2029'

/-- Put a character at the front of the first line. -/
def consLine (c : Char) : List Text → List Text
  | [] => [[c]]
  | l :: ls => (c :: l) :: ls

/-- The lines of a text with their line breaks; the last one may have none. -/
def brokenLines : Text → List Text
  | [] => []
  | '\r' :: '\n' :: r => ['\r', '\n'] :: brokenLines r
  | c :: r => if isLineBreak c then [c] :: brokenLines r else consLine c (brokenLines r)

/-- The lines make up the text. -/
theorem flatten_brokenLines (s : Text) : (brokenLines s).flatten = s := by
  have cons (c : Char) (ls : List Text) : (consLine c ls).flatten = c :: ls.flatten := by
    cases ls <;> simp [consLine]
  fun_induction brokenLines s with
  | case1 => rfl
  | case2 r ih => simp [ih]
  | case3 c r _ _ ih => simp [ih]
  | case4 c r _ _ ih => simp [cons, ih]

/-- The lines of a text without their line breaks. -/
def bareLines (s : Text) : List Text :=
  (brokenLines s).map fun l => l.takeWhile (!isLineBreak ·)

/-- Every carriage return, with a newline after it or not, becomes a newline. -/
def normalizeNewlines : Text → Text
  | [] => []
  | '\r' :: '\n' :: r => '\n' :: normalizeNewlines r
  | '\r' :: r => '\n' :: normalizeNewlines r
  | c :: r => c :: normalizeNewlines r

/-- A list cut into pieces of the given lengths. -/
def pieces {α : Type} : (lengths : List Nat) → List α → List (List α)
  | [], _ => []
  | n :: ns, s => s.take n :: pieces ns (s.drop n)

theorem flatten_pieces {α : Type} (ns : List Nat) (s : List α)
    (h : s.length = ns.foldr (· + ·) 0) : (pieces ns s).flatten = s := by
  induction ns generalizing s with
  | nil => simpa [pieces, eq_comm] using h
  | cons n ns ih =>
    have tail : (pieces ns (s.drop n)).flatten = s.drop n := ih _ (by simp_all)
    simp [pieces, tail]

end Localizer.Text

namespace Localizer.Message

/-- The lines of a message with their line breaks; the last one may have none. -/
def brokenLines (m : Message) : List Message :=
  Text.pieces ((Text.brokenLines m.view).map List.length) m

/-- The lines make up the message. -/
theorem flatten_brokenLines (m : Message) : m.brokenLines.flatten = m := by
  apply Text.flatten_pieces
  have sum (ls : List Text) :
      (ls.map List.length).foldr (· + ·) 0 = ls.flatten.length := by
    induction ls with
    | nil => rfl
    | cons l ls ih => simp_all
  rw [sum, Text.flatten_brokenLines, length_view]

end Localizer.Message
