import Localizer.Text.Basic

/-!
# Lexemes of a Dart buffer

A buffer is cut, from left to right, into comments, triple-quoted strings, single-line string
literals and single characters of code. At each character the first reading that succeeds is
taken, in this order:

* a line comment, up to the end of the line, or a block comment up to the first closing mark;
* a triple-quoted string, up to the first three quotes that are met while a backslash is read
  together with the character after it, and, when there are none, up to the last three quotes;
* a single-line literal, whose body is made of escapes, of `$`-brace groups that are closed on the
  line, of `$` signs that open no group, and of characters other than the quote, the backslash,
  the newline and `$`.

A quote or slash that opens none of these is a character of code. `lex` cuts the whole buffer
and loses nothing (`flatten_lex`); `mask` blanks everything but the code and keeps the lines.
-/

namespace Localizer.Dart

open Text

/-- A piece of a buffer. -/
inductive Lexeme where
  /-- One character outside comments and strings. -/
  | code (c : Char)
  /-- A comment with its marks. -/
  | comment (text : Text)
  /-- A triple-quoted string with its quotes. -/
  | block (text : Text)
  /-- A single-line literal: its quote and what stands between the two quotes. -/
  | literal (quote : Char) (inner : Text)
  deriving Repr, DecidableEq

namespace Lexeme

/-- The characters of a lexeme. -/
def text : Lexeme → Text
  | code c => [c]
  | comment t => t
  | block t => t
  | literal q inner => q :: (inner ++ [q])

end Lexeme

/-! ## The readings at a character -/

/-- A comment at the front of a buffer, and the rest. -/
def comment? : Text → Option (Text × Text)
  | '/' :: '/' :: r =>
    some ('/' :: '/' :: r.takeWhile (· != '\n'), r.dropWhile (· != '\n'))
  | '/' :: '*' :: r =>
    (cut? "*/".toList r).map fun p => ("/*".toList ++ p.1 ++ "*/".toList, p.2)
  | _ => none

/-- The body of a triple-quoted string and what follows its closing quotes, a backslash being read
together with the character after it. -/
def escapedBody? (q : Char) : Text → Option (Text × Text)
  | '\\' :: c :: r => prepend ['\\', c] (escapedBody? q r)
  | c :: r =>
    match after? [q, q, q] (c :: r) with
    | some rest => some ([], rest)
    | none => prepend [c] (escapedBody? q r)
  | [] => none

/-- The body of a triple-quoted string and what follows its closing quotes. -/
def blockBody? (q : Char) (s : Text) : Option (Text × Text) :=
  (escapedBody? q s).or (cutLast? [q, q, q] s)

/-- A triple-quoted string at the front of a buffer, and the rest. -/
def block? : Text → Option (Text × Text)
  | '\'' :: '\'' :: '\'' :: r =>
    (blockBody? '\'' r).map fun p => ("'''".toList ++ p.1 ++ "'''".toList, p.2)
  | '"' :: '"' :: '"' :: r =>
    (blockBody? '"' r).map fun p => ("\"\"\"".toList ++ p.1 ++ "\"\"\"".toList, p.2)
  | _ => none

/-- The first items of a `$`-brace group after its opening brace, up to and with the closing one,
when it is closed on the line. -/
def group? : Text → Option (Text × Text)
  | [] => none
  | '}' :: r => some (['}'], r)
  | '\n' :: _ => none
  | c :: r => prepend [c] (group? r)

theorem eq_of_group? {s g r : Text} (h : group? s = some (g, r)) : s = g ++ r := by
  fun_induction group? s generalizing g with
  | case1 => simp at h
  | case2 r' =>
    simp only [Option.some.injEq, Prod.mk.injEq] at h
    obtain ⟨rfl, rfl⟩ := h
    rfl
  | case3 => simp at h
  | case4 c r _ _ ih =>
    obtain ⟨t, ht, rfl⟩ := prepend_eq_some_iff.1 h
    simp [ih ht]

/-- The inner text of a single-line literal with the quote `q`, and what follows the closing
quote. -/
def literalBody? (q : Char) : Text → Option (Text × Text)
  | [] => none
  | '\\' :: r =>
    match r with
    | [] => none
    | c :: r => if c = '\n' then none else prepend ['\\', c] (literalBody? q r)
  | '$' :: '{' :: r =>
    match h : group? r with
    | none => none
    | some (g, rest) =>
      have : rest.length < r.length + 2 := by
        have := eq_of_group? h
        simp [this]; omega
      prepend ('$' :: '{' :: g) (literalBody? q rest)
  | '\n' :: _ => none
  | c :: r =>
    if c = q then some ([], r) else prepend [c] (literalBody? q r)
termination_by s => s.length

/-- The first lexeme of a buffer that starts with `c`, and the rest. -/
def next (c : Char) (r : Text) : Lexeme × Text :=
  match comment? (c :: r) with
  | some (t, rest) => (.comment t, rest)
  | none =>
    match block? (c :: r) with
    | some (t, rest) => (.block t, rest)
    | none =>
      if c = '"' ∨ c = '\'' then
        match literalBody? c r with
        | some (inner, rest) => (.literal c inner, rest)
        | none => (.code c, r)
      else (.code c, r)

/-! ## Nothing is lost -/

theorem eq_of_comment? {s t r : Text} (h : comment? s = some (t, r)) : s = t ++ r := by
  fun_cases comment? s with
  | case1 r' =>
    simp only [comment?, Option.some.injEq, Prod.mk.injEq] at h
    obtain ⟨rfl, rfl⟩ := h
    simp
  | case2 r' =>
    simp only [comment?] at h
    obtain ⟨⟨a, b⟩, hp, hq⟩ := Option.map_eq_some_iff.1 h
    simp only [Prod.mk.injEq] at hq
    obtain ⟨rfl, rfl⟩ := hq
    simp [eq_of_cut? hp]
  | case3 => simp_all [comment?]

theorem eq_of_escapedBody? {q : Char} {s a b : Text} (h : escapedBody? q s = some (a, b)) :
    s = a ++ [q, q, q] ++ b := by
  fun_induction escapedBody? q s generalizing a with
  | case1 c r ih =>
    obtain ⟨t, ht, rfl⟩ := prepend_eq_some_iff.1 h
    simp [ih ht]
  | case2 c r _ rest hr =>
    simp only [Option.some.injEq, Prod.mk.injEq] at h
    obtain ⟨rfl, rfl⟩ := h
    simpa using after?_eq_some_iff.1 hr
  | case3 c r _ _ ih =>
    obtain ⟨t, ht, rfl⟩ := prepend_eq_some_iff.1 h
    simp [ih ht]
  | case4 => simp at h

theorem eq_of_blockBody? {q : Char} {s a b : Text} (h : blockBody? q s = some (a, b)) :
    s = a ++ [q, q, q] ++ b := by
  rcases Option.or_eq_some_iff.1 h with h | ⟨-, h⟩
  · exact eq_of_escapedBody? h
  · exact eq_of_cutLast? h

theorem eq_of_block? {s t r : Text} (h : block? s = some (t, r)) : s = t ++ r := by
  fun_cases block? s with
  | case1 r' =>
    simp only [block?] at h
    obtain ⟨⟨a, b⟩, hp, hq⟩ := Option.map_eq_some_iff.1 h
    simp only [Prod.mk.injEq] at hq
    obtain ⟨rfl, rfl⟩ := hq
    simp [eq_of_blockBody? hp]
  | case2 r' =>
    simp only [block?] at h
    obtain ⟨⟨a, b⟩, hp, hq⟩ := Option.map_eq_some_iff.1 h
    simp only [Prod.mk.injEq] at hq
    obtain ⟨rfl, rfl⟩ := hq
    simp [eq_of_blockBody? hp]
  | case3 => simp_all [block?]

theorem eq_of_literalBody? {q : Char} {s a b : Text} (h : literalBody? q s = some (a, b)) :
    s = a ++ q :: b := by
  fun_induction literalBody? q s generalizing a with
  | case1 => simp at h
  | case2 => simp at h
  | case3 => simp at h
  | case4 c r _ ih =>
    obtain ⟨t, ht, rfl⟩ := prepend_eq_some_iff.1 h
    simp [ih ht]
  | case5 => simp at h
  | case6 r g rest hg _ ih =>
    obtain ⟨t, ht, rfl⟩ := prepend_eq_some_iff.1 h
    simp [eq_of_group? hg, ih ht]
  | case7 => simp at h
  | case8 => simp_all
  | case9 c r _ _ _ _ ih =>
    obtain ⟨t, ht, rfl⟩ := prepend_eq_some_iff.1 h
    simp [ih ht]

/-- The first lexeme and the rest make up the buffer. -/
theorem text_next (c : Char) (r : Text) : (next c r).1.text ++ (next c r).2 = c :: r := by
  fun_cases next c r with
  | case1 t rest h => simp [Lexeme.text, eq_of_comment? h]
  | case2 _ t rest h => simp [Lexeme.text, eq_of_block? h]
  | case3 _ _ _ inner rest h => simp [Lexeme.text, eq_of_literalBody? h]
  | case4 => rfl
  | case5 => rfl

theorem comment?_ne_nil {s r : Text} : comment? s ≠ some ([], r) := by
  fun_cases comment? s <;> simp

theorem block?_ne_nil {s r : Text} : block? s ≠ some ([], r) := by
  fun_cases block? s <;> simp

/-- The first lexeme holds at least one character. -/
theorem length_next (c : Char) (r : Text) : (next c r).2.length ≤ r.length := by
  have total := congrArg List.length (text_next c r)
  have nonempty : 1 ≤ (next c r).1.text.length := by
    fun_cases next c r with
    | case1 t rest h =>
      cases t with
      | nil => exact absurd h comment?_ne_nil
      | cons => simp [Lexeme.text]
    | case2 _ t rest h =>
      cases t with
      | nil => exact absurd h block?_ne_nil
      | cons => simp [Lexeme.text]
    | case3 => simp [Lexeme.text]
    | case4 => simp [Lexeme.text]
    | case5 => simp [Lexeme.text]
  simp at total
  omega

/-! ## The whole buffer -/

/-- The lexemes of a buffer, in order. -/
def lex : Text → List Lexeme
  | [] => []
  | c :: r =>
    have := length_next c r
    (next c r).1 :: lex (next c r).2
termination_by s => s.length
decreasing_by simp; omega

/-- The lexemes make up the buffer. -/
theorem flatten_lex (s : Text) : (lex s).flatMap Lexeme.text = s := by
  fun_induction lex s with
  | case1 => rfl
  | case2 c r _ ih => simp [ih, text_next]

/-- Lexemes with the offsets at which they start, the first one starting at `offset`. -/
def located (offset : Nat) : List Lexeme → List (Nat × Lexeme)
  | [] => []
  | x :: xs => (offset, x) :: located (offset + x.text.length) xs

/-! ## Masking -/

/-- A blank for every character but a newline. -/
def blankOut (s : Text) : Text := s.map fun c => if c = '\n' then c else ' '

/-- Code as it is, and blanks for the rest. -/
def Lexeme.mask : Lexeme → Text
  | .code c => [c]
  | x => blankOut x.text

/-- The buffer with its comments and strings blanked out; offsets and line breaks stay. -/
def mask (s : Text) : Text := (lex s).flatMap Lexeme.mask

@[simp] theorem Lexeme.length_mask (x : Lexeme) : x.mask.length = x.text.length := by
  cases x <;> simp [Lexeme.mask, Lexeme.text, blankOut]

theorem length_mask (s : Text) : (mask s).length = s.length := by
  conv => rhs; rw [← flatten_lex s]
  simp [mask, List.length_flatMap]

end Localizer.Dart
