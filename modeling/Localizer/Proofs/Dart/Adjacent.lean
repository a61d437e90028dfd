import Localizer.Proofs.Dart.Exclusion
import Localizer.Proofs.Dart.Order

/-!
# Adjacent strings

Strings that stand side by side are the parts of one text. The scan looks only at the characters
next to a literal, and only for its own quote. So a literal that is touched by a string with the
same quote is no candidate; but any other string beside it, apart from it by a blank or with the
other quote, leaves it as it is. Behind such a string it is a candidate as it is behind the blanks
alone, and in front of one as it is at the end of the buffer (`scan_beside_string`,
`adjacent_parts_listed`).
-/

namespace Localizer.Dart

open Text

/-! ## Strings beside a literal -/

/-- The quote of a string. -/
def Lexeme.quote? : Lexeme → Option Char
  | literal q _ => some q
  | block t => t.head?
  | _ => none

/-- The last lexeme but blanks `v` is a string with the quote `p`. -/
def EndsInString (p : Char) (v : Text) (before : List Lexeme) : Prop :=
  (∀ c ∈ v, isBlank c = true) ∧ ∃ xs x, before = xs ++ x :: v.map .code ∧ x.quote? = some p

/-- The first lexeme but blanks `v` is a string with the quote `p`. -/
def StartsInString (p : Char) (v : Text) (after : List Lexeme) : Prop :=
  (∀ c ∈ v, isBlank c = true) ∧ ∃ x xs, after = v.map .code ++ x :: xs ∧ x.quote? = some p

/-- A literal behind the lexemes `before` is a candidate. -/
def IsListed (w : Windows) (s : Text) (before : List Lexeme) (q : Char) (inner : Text) : Prop :=
  ∃ l ∈ scan w s, l.quote = q ∧ l.inner = inner ∧ l.offset = (before.flatMap Lexeme.text).length

theorem exists_of_block? {s t r : Text} (h : block? s = some (t, r)) :
    ∃ q body, IsQuote q ∧ t = q :: q :: q :: (body ++ [q, q, q]) := by
  fun_cases block? s with
  | case1 r' =>
    obtain ⟨⟨body, rest⟩, -, eq⟩ := Option.map_eq_some_iff.1 h
    exact ⟨'\'', body, .inr rfl, (congrArg Prod.fst eq).symm⟩
  | case2 r' =>
    obtain ⟨⟨body, rest⟩, -, eq⟩ := Option.map_eq_some_iff.1 h
    exact ⟨'"', body, .inl rfl, (congrArg Prod.fst eq).symm⟩
  | case3 => simp_all [block?]

/-- A string of a buffer starts and ends with its quote. -/
theorem text_of_quote? {s : Text} {x : Lexeme} {p : Char} (mem : x ∈ lex s)
    (string : x.quote? = some p) : IsQuote p ∧ ∃ t, x.text = p :: (t ++ [p]) := by
  cases x with
  | literal q inner =>
    obtain rfl : q = p := Option.some.inj string
    exact ⟨(inner_of_mem_lex mem).1, inner, rfl⟩
  | block t =>
    obtain ⟨c, r, first⟩ := exists_next_of_mem_lex mem
    obtain ⟨q, body, quote, rfl⟩ : ∃ q body, IsQuote q ∧
        t = q :: q :: q :: (body ++ [q, q, q]) := by
      revert first
      fun_cases next c r with
      | case2 _ t' rest h =>
        rintro ⟨⟩
        exact exists_of_block? h
      | _ => simp
    obtain rfl : q = p := Option.some.inj string
    exact ⟨quote, q :: q :: (body ++ [q, q]), by simp [Lexeme.text]⟩
  | code => contradiction
  | comment => contradiction

section

variable {v : Text} {p q : Char}

/-- A quote is met at once just if it is the one behind the blanks and there are none. -/
theorem head?_blanks {r : Text} (quote : IsQuote q) (blank : ∀ c ∈ v, isBlank c = true) :
    (v ++ p :: r).head? = some q ↔ p = q ∧ v = [] := by
  cases v with
  | nil => simp
  | cons c v =>
    have differs : c ≠ q := by
      rintro rfl
      exact absurd (blank c (by simp)) (by simp [isBlank_quote quote])
    simp [differs]

theorem head?_stripLeft_blanks {r : Text} (quote : IsQuote p) (blank : ∀ c ∈ v, isBlank c = true) :
    (stripLeft (v ++ p :: r)).head? = some p := by
  have empty : stripLeft v = [] := List.dropWhile_eq_nil_iff.2 blank
  rw [stripLeft_append, empty, stripLeft_of_head (isBlank_quote quote)]
  rfl

end

/-! ## The title of an app root -/

theorem lastLine_isSuffix (s : Text) : (lines s).getLastD [] <:+ s := by
  by_cases newline : '\n' ∈ s
  · obtain ⟨as, bs, eq, line⟩ := List.eq_append_cons_of_mem (List.mem_reverse.2 newline)
    have cut : s = bs.reverse ++ '\n' :: as.reverse := by simpa using congrArg List.reverse eq
    have last : as.reverse.splitOn '\n' = [as.reverse] :=
      List.splitOn_eq_singleton (by simpa using line)
    rw [lines, cut, List.splitOn_append_cons_self, last, List.getLastD_concat]
    exact (List.suffix_cons _ _).trans (List.suffix_append _ _)
  · rw [lines, List.splitOn_eq_singleton newline]
    exact List.suffix_refl s

/-- A window that names the title of an app root ends in a colon but for blanks. -/
theorem head?_of_namesAppTitle {window : Text} (h : namesAppTitle window = true) :
    (stripLeft window.reverse).head? = some ':' := by
  rw [namesAppTitle, Bool.and_eq_true] at h
  let line := (lines window).getLastD []
  have colon : (strip line).reverse.head? = some ':' := by
    have title := h.2
    split at title
    next r eq => exact congrArg List.head? eq
    next => contradiction
  have shorter : (stripLeft line).reverse <+: window.reverse := by
    rw [List.reverse_prefix]
    exact (List.dropWhile_suffix isBlank).trans (lastLine_isSuffix window)
  refine head?_stripLeft_mono shorter ?_
  rwa [strip, stripRight, List.reverse_reverse] at colon

/-- No title of an app root is given behind a string. -/
theorem isAppTitle_eq_false {s v r : Text} {p : Char} {n width : Nat} (inside : n ≤ s.length)
    (back : (Place.of s n).back = v.reverse ++ p :: r) (quote : IsQuote p)
    (blank : ∀ c ∈ v, isBlank c = true) : isAppTitle s n width = false := by
  rw [← Bool.not_eq_true, isAppTitle, preceding, ← Place.window_of width inside]
  intro title
  have colon := head?_of_namesAppTitle title
  rw [Place.window, List.reverse_reverse, back] at colon
  have first := head?_stripLeft_mono (List.take_prefix width _) colon
  rw [head?_stripLeft_blanks quote (by simpa using blank)] at first
  obtain rfl := Option.some.inj first
  exact absurd quote (by decide)

/-! ## Candidates beside a string -/

section

variable {w : Windows} {s inner v : Text} {before after : List Lexeme} {p q : Char}
  (split : lex s = before ++ .literal q inner :: after)
include split

theorem quote_of_split : IsQuote q := by
  have mem : Lexeme.literal q inner ∈ lex s := by simp [split]
  exact (inner_of_mem_lex mem).1

theorem EndsInString.exists_back (string : EndsInString p v before) :
    IsQuote p ∧ ∃ r, (before.flatMap Lexeme.text).reverse = v.reverse ++ p :: r := by
  obtain ⟨-, xs, x, rfl, named⟩ := string
  have mem : x ∈ lex s := by simp [split]
  obtain ⟨quote, t, text⟩ := text_of_quote? mem named
  exact ⟨quote, t.reverse ++ p :: (xs.flatMap Lexeme.text).reverse, by simp [text]⟩

theorem StartsInString.exists_rest (string : StartsInString p v after) :
    IsQuote p ∧ ∃ r, after.flatMap Lexeme.text = v ++ p :: r := by
  obtain ⟨-, x, xs, rfl, named⟩ := string
  have mem : x ∈ lex s := by simp [split]
  obtain ⟨quote, t, text⟩ := text_of_quote? mem named
  exact ⟨quote, t ++ p :: xs.flatMap Lexeme.text, by simp [text]⟩

theorem EndsInString.touches_iff (string : EndsInString p v before) :
    (before.flatMap Lexeme.text).reverse.head? = some q ↔ p = q ∧ v = [] := by
  obtain ⟨-, r, back⟩ := string.exists_back split
  rw [back, head?_blanks (quote_of_split split) (by simpa using string.1), List.reverse_eq_nil_iff]

theorem StartsInString.touches_iff (string : StartsInString p v after) :
    (after.flatMap Lexeme.text).head? = some q ↔ p = q ∧ v = [] := by
  obtain ⟨-, r, rest⟩ := string.exists_rest split
  rw [rest, head?_blanks (quote_of_split split) string.1]

/-- A literal that a string with its own quote touches is no candidate. -/
theorem Visible.untouched (visible : Visible before q inner after)
    (string : EndsInString p v before ∨ StartsInString p v after) : ¬ (p = q ∧ v = []) := by
  intro touch
  apply visible.shown
  rcases string with string | string
  · exact .inr (.inl ((string.touches_iff split).2 touch))
  · exact .inr (.inr (.inl ((string.touches_iff split).2 touch)))

/-- Behind a string that does not touch it, a literal is a candidate if it is one behind the blanks
alone, unless the scan passes over it or its line is a directive. -/
theorem mem_scan_behind_string (string : EndsInString p v before) (apart : ¬ (p = q ∧ v = []))
    (taken : before.foldl passesAfter false = false)
    (line : startsDirective (lineBack (before.flatMap Lexeme.text).reverse).reverse = false)
    (alone : Visible (v.map .code) q inner after) : IsListed w s before q inner := by
  obtain ⟨wall, r, back⟩ := string.exists_back split
  obtain ⟨inside, place, -⟩ := split_at_literal split
  refine mem_scan_of_visible split ⟨taken, alone.closed, ?_⟩
    (isAppTitle_eq_false inside (place.trans back) wall (by simpa using string.1))
  have touches := string.touches_iff split
  rw [back] at line touches ⊢
  intro hidden
  apply alone.shown
  rw [flatMap_text_map_code, ← List.append_nil v.reverse]
  refine hidden.past_wall (.quote wall r) (.inr rfl) ?_ ?_ id id
  · exact fun directive => absurd (line.symm.trans directive) Bool.false_ne_true
  · exact fun touch => absurd (touches.1 touch) apart

/-- In front of a string that does not touch it, a literal is a candidate if it is one with nothing
behind it. -/
theorem mem_scan_before_string (string : StartsInString p v after) (apart : ¬ (p = q ∧ v = []))
    (alone : Visible before q inner [])
    (title : isAppTitle s (before.flatMap Lexeme.text).length w.title = false) :
    IsListed w s before q inner := by
  obtain ⟨wall, r, rest⟩ := string.exists_rest split
  refine mem_scan_of_visible split ⟨alone.taken, alone.closed, ?_⟩ title
  intro hidden
  apply alone.shown
  refine hidden.imp id id ?_ ?_ id fun _ _ => id
  · exact fun touch => absurd ((string.touches_iff split).1 touch) apart
  · have first := head?_stripLeft_blanks (r := r) wall string.1
    have plain : NoComparison (after.flatMap Lexeme.text) := by
      rw [rest, NoComparison, first]
      rintro c ⟨⟩
      rcases wall with rfl | rfl <;> decide
    rw [plain.comparisonFollows]
    exact fun follows => absurd follows Bool.false_ne_true

end

/-- **Of the strings beside a literal, only one that touches it and has its own quote hides it.** No
candidate is touched by such a string; any other string, apart by blanks or with the other quote,
leaves a literal in front of it or behind it a candidate. -/
theorem scan_beside_string (w : Windows) (s : Text) :
    (∀ l ∈ scan w s, ∃ before after, lex s = before ++ .literal l.quote l.inner :: after ∧
      l.offset = (before.flatMap Lexeme.text).length ∧
      ∀ p v, EndsInString p v before ∨ StartsInString p v after → ¬ (p = l.quote ∧ v = [])) ∧
    ∀ before q inner after, lex s = before ++ .literal q inner :: after →
      ∀ p v, ¬ (p = q ∧ v = []) →
        (EndsInString p v before → before.foldl passesAfter false = false →
          startsDirective (lineBack (before.flatMap Lexeme.text).reverse).reverse = false →
          Visible (v.map .code) q inner after → IsListed w s before q inner) ∧
        (StartsInString p v after → Visible before q inner [] →
          isAppTitle s (before.flatMap Lexeme.text).length w.title = false →
          IsListed w s before q inner) := by
  refine ⟨fun l hl => ?_, fun before q inner after split p v apart => ⟨?_, ?_⟩⟩
  · obtain ⟨before, after, split, offset, visible⟩ := visible_of_mem_scan hl
    exact ⟨before, after, split, offset, fun p v => visible.untouched split⟩
  · exact fun string => mem_scan_behind_string split string apart
  · exact fun string => mem_scan_before_string split string apart

/-- A call whose text is given in two parts. -/
def inParts : Text := "f('Hi' 'there')".toList

theorem lex_inParts : lex inParts = [.code 'f', .code '(', .literal '\'' "Hi".toList, .code ' ',
    .literal '\'' "there".toList, .code ')'] := by
  decide +kernel

/-- Both parts are candidates. -/
theorem scan_beside_string_inParts :
    IsListed {} inParts [.code 'f', .code '('] '\'' "Hi".toList ∧
      IsListed {} inParts [.code 'f', .code '(', .literal '\'' "Hi".toList, .code ' '] '\''
        "there".toList := by
  have blank : ∀ c ∈ [' '], isBlank c = true := by
    decide +kernel
  have beside := (scan_beside_string {} inParts).2
  refine ⟨(beside [_, _] _ _ _ lex_inParts '\'' [' '] (by decide)).2 ?_ ?_ (by decide +kernel),
    (beside [_, _, _, _] _ _ _ lex_inParts '\'' [' '] (by decide)).1 ?_ (by decide +kernel)
      (by decide +kernel) ?_⟩
  · exact ⟨blank, _, _, rfl, rfl⟩
  · exact ⟨by decide +kernel, by decide +kernel, by decide +kernel⟩
  · exact ⟨blank, [.code 'f', .code '('], _, rfl, rfl⟩
  · exact ⟨by decide +kernel, by decide +kernel, by decide +kernel⟩

/-- The parts of a text are candidates, if a blank or the kind of the quotes sets them apart; so is
a part beside a triple-quoted one. -/
theorem adjacent_parts_listed :
    (lex inParts = [.code 'f', .code '('] ++ .literal '\'' "Hi".toList ::
        .code ' ' :: .literal '\'' "there".toList :: [.code ')'] ∧
      (scan {} inParts).map Literal.located =
        [(2, .literal '\'' "Hi".toList), (7, .literal '\'' "there".toList)]) ∧
    (scan {} "f('Hi'\"there\")".toList).map Literal.located =
      [(2, .literal '\'' "Hi".toList), (6, .literal '"' "there".toList)] ∧
    (scan {} "f('''Hi'''\n'there')".toList).map Literal.located =
      [(11, .literal '\'' "there".toList)] :=
  ⟨⟨lex_inParts, by decide +kernel⟩, by decide +kernel, by decide +kernel⟩

end Localizer.Dart
