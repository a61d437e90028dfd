import Localizer.Proofs.Message.Escape
import Mathlib.Algebra.Group.Nat.Defs
import Mathlib.Data.List.Induction

/-!
# How a text is spelled

The text of a literal spells a message one code point at a time (`CharForm`): a character that
stands for itself, a number behind `\u` or `\x` in one of three forms, a backslash with any other
character, or a backslash that ends the text. From left to right there is one way to read a text so
(`exists_spelled`, `Spelled.eq`): a backslash starts a number wherever one can be read behind it
(`numericEscape?_eq_some_iff`), and is read with the one character behind it everywhere else.

What a text shows then follows from its spelling, unit by unit (`Spelled.unescape`). So
`unescape_spelled` tells what `unescape` gives and when it fails, and that a text which is written
with escapes (`escape`) shows the text that it was made of.
-/

namespace Localizer.Message

open Text

/-! ## Forms -/

/-- How one code point is written. -/
inductive CharForm where
  /-- A character other than a backslash. -/
  | plain (c : Char)
  /-- Any number of hexadecimal digits, in braces behind `\u`. -/
  | braced (digits : Text)
  /-- Four hexadecimal digits behind `\u`. -/
  | long (digits : Text)
  /-- Two hexadecimal digits behind `\x`. -/
  | short (digits : Text)
  /-- A backslash before another character. -/
  | named (c : Char)
  /-- A backslash with nothing behind it. -/
  | lone

namespace CharForm

/-- The control characters that are written by a letter. -/
def controls : List (Char × Nat) :=
  [('n', 0x0a), ('t', 0x09), ('r', 0x0d), ('b', 0x08), ('f', 0x0c), ('v', 0x0b)]

/-- The characters of a form. -/
def text : CharForm → Text
  | plain c => [c]
  | braced digits => '\\' :: 'u' :: '{' :: (digits ++ ['}'])
  | long digits => '\\' :: 'u' :: digits
  | short digits => '\\' :: 'x' :: digits
  | named c => ['\\', c]
  | lone => ['\\']

/-- The number of the code point that a form stands for. -/
def number : CharForm → Nat
  | plain c => c.toNat
  | braced digits => numberOf 16 digits
  | long digits => numberOf 16 digits
  | short digits => numberOf 16 digits
  | named c => (controls.lookup c).getD c.toNat
  | lone => '\\'.toNat

/-- A form that writes a code point by its number. -/
def IsNumber : CharForm → Prop
  | braced digits => digits ≠ [] ∧ ∀ d ∈ digits, isHexDigit d = true
  | long digits => digits.length = 4 ∧ ∀ d ∈ digits, isHexDigit d = true
  | short digits => digits.length = 2 ∧ ∀ d ∈ digits, isHexDigit d = true
  | _ => False

/-- A form that is read before the text `rest`. A backslash and a character are read on their own
only where no number starts at this backslash. -/
def Stands (rest : Text) : CharForm → Prop
  | plain c => c ≠ '\\'
  | named c => ∀ x : CharForm, x.IsNumber → ¬ x.text <+: '\\' :: c :: rest
  | lone => rest = []
  | x => x.IsNumber

theorem IsNumber.stands {x : CharForm} (h : x.IsNumber) (rest : Text) : x.Stands rest := by
  cases x with
  | braced | long | short => exact h
  | plain | named | lone => exact h.elim

/-- A number is written behind a backslash, in one character at least. -/
theorem IsNumber.exists_text {x : CharForm} (h : x.IsNumber) :
    ∃ c t, x.text = '\\' :: c :: t := by
  cases x with
  | braced | long | short => exact ⟨_, _, rfl⟩
  | plain | named | lone => exact h.elim

theorem text_ne_nil (x : CharForm) : x.text ≠ [] := by cases x <;> simp [text]

/-- The forms that write numbers are told apart by their characters. -/
theorem IsNumber.eq {x y : CharForm} (hx : x.IsNumber) (hy : y.IsNumber) (h : x.text = y.text) :
    x = y := by
  have brace : isHexDigit '{' = false := by decide
  have apart {ds es : Text} (digits : ∀ d ∈ ds, isHexDigit d = true) : '{' :: es ≠ ds := by
    rintro rfl
    rw [digits '{' List.mem_cons_self] at brace
    contradiction
  cases x <;> cases y <;> simp only [IsNumber] at hx hy <;>
    simp only [text, List.cons.injEq, true_and, Char.reduceEq, false_and] at h
  case braced.braced => rw [List.append_cancel_right h]
  case braced.long => exact absurd h (apart hy.2)
  case long.braced => exact absurd h.symm (apart hx.2)
  case long.long => rw [h]
  case short.short => rw [h]

end CharForm

/-! ## Reading numbers -/

theorem fixedHex?_eq_some_iff {k n : Nat} {s r : Text} :
    fixedHex? k s = some (n, r) ↔ ∃ ds, s = ds ++ r ∧ ds.length = k ∧
      (∀ d ∈ ds, isHexDigit d = true) ∧ n = numberOf 16 ds := by
  constructor
  · intro h
    unfold fixedHex? at h
    split at h
    next digits =>
      obtain ⟨rfl, rfl⟩ := Prod.mk.inj (Option.some.inj h)
      exact ⟨s.take k, (List.take_append_drop k s).symm, digits.1, List.all_eq_true.1 digits.2, rfl⟩
    next => simp at h
  · rintro ⟨ds, rfl, rfl, digits, rfl⟩
    rw [fixedHex?, List.take_left, List.drop_left, if_pos ⟨rfl, List.all_eq_true.2 digits⟩]

/-- **A number is read behind a backslash** just where a form that writes one starts with it. -/
theorem numericEscape?_eq_some_iff {t r : Text} {n : Nat} :
    numericEscape? t = some (n, r) ↔
      ∃ x : CharForm, x.IsNumber ∧ x.text ++ r = '\\' :: t ∧ x.number = n := by
  constructor
  · intro h
    unfold numericEscape? at h
    split at h
    next t =>
      rcases Option.or_eq_some_iff.1 h with braced | ⟨-, fixed⟩
      · obtain ⟨ds, rfl, filled, digits, rfl⟩ := bracedHex?_eq_some_iff.1 braced
        exact ⟨.braced ds, ⟨filled, digits⟩, by simp [CharForm.text], rfl⟩
      · obtain ⟨ds, rfl, four, digits, rfl⟩ := fixedHex?_eq_some_iff.1 fixed
        exact ⟨.long ds, ⟨four, digits⟩, rfl, rfl⟩
    next t =>
      obtain ⟨ds, rfl, two, digits, rfl⟩ := fixedHex?_eq_some_iff.1 h
      exact ⟨.short ds, ⟨two, digits⟩, rfl, rfl⟩
    next => simp at h
  · rintro ⟨x, number, eq, rfl⟩
    cases x <;> simp only [CharForm.IsNumber] at number
    case braced ds =>
      obtain rfl : 'u' :: '{' :: (ds ++ '}' :: r) = t := by simpa [CharForm.text] using eq
      rw [numericEscape?, bracedHex?_eq_some_iff.2 ⟨ds, rfl, number.1, number.2, rfl⟩]
      rfl
    case long ds =>
      obtain rfl : 'u' :: (ds ++ r) = t := by simpa [CharForm.text] using eq
      have head : (ds ++ r).head? ≠ some '{' := by
        obtain ⟨d, ds, rfl⟩ := List.exists_cons_of_length_eq_add_one number.1
        intro brace
        obtain rfl : d = '{' := by simpa using brace
        exact absurd (number.2 '{' List.mem_cons_self) (by decide)
      rw [numericEscape?, bracedHex?_of_head head, Option.none_or]
      exact fixedHex?_eq_some_iff.2 ⟨ds, rfl, number.1, number.2, rfl⟩
    case short ds =>
      obtain rfl : 'x' :: (ds ++ r) = t := by simpa [CharForm.text] using eq
      exact fixedHex?_eq_some_iff.2 ⟨ds, rfl, number.1, number.2, rfl⟩

/-- No number is read behind a backslash just where a backslash and a character are read on their
own. -/
theorem numericEscape?_eq_none_iff {c : Char} {r : Text} :
    numericEscape? (c :: r) = none ↔ (CharForm.named c).Stands r := by
  rw [Option.eq_none_iff_forall_ne_some]
  constructor
  · intro none x number starts
    obtain ⟨rest, eq⟩ := starts
    exact none (x.number, rest) (numericEscape?_eq_some_iff.2 ⟨x, number, eq, rfl⟩)
  · rintro stands ⟨n, rest⟩ some
    obtain ⟨x, number, eq, -⟩ := numericEscape?_eq_some_iff.1 some
    exact stands x number ⟨rest, eq⟩

/-! ## Spellings -/

/-- A text is read as these forms, from left to right. -/
inductive Spelled : List CharForm → Text → Prop
  | nil : Spelled [] []
  | cons {x : CharForm} {xs : List CharForm} {rest : Text} (stands : x.Stands rest)
    (behind : Spelled xs rest) : Spelled (x :: xs) (x.text ++ rest)

/-- Every text is spelled somehow. -/
theorem exists_spelled (s : Text) : ∃ xs, Spelled xs s := by
  fun_induction unescape s with
  | case1 => exact ⟨[], .nil⟩
  | case2 => exact ⟨[.lone], .cons rfl .nil⟩
  | case3 c r n rest number _ ih =>
    obtain ⟨xs, behind⟩ := ih
    obtain ⟨x, isNumber, eq, -⟩ := numericEscape?_eq_some_iff.1 number
    exact ⟨x :: xs, eq ▸ .cons (isNumber.stands rest) behind⟩
  | case4 c r none ih =>
    obtain ⟨xs, behind⟩ := ih
    exact ⟨.named c :: xs, .cons (numericEscape?_eq_none_iff.1 none) behind⟩
  | case5 c r single escape ih =>
    have plain : c ≠ '\\' := by
      rintro rfl
      cases r with
      | nil => exact single rfl rfl
      | cons d r => exact escape d r rfl rfl
    obtain ⟨xs, behind⟩ := ih
    exact ⟨.plain c :: xs, .cons plain behind⟩

/-- Where a form stands that writes no number, none starts. -/
theorem CharForm.Stands.not_prefix {x y : CharForm} {rest : Text} (stands : y.Stands rest)
    (other : ¬ y.IsNumber) (number : x.IsNumber) : ¬ x.text <+: y.text ++ rest := by
  obtain ⟨c, t, written⟩ := number.exists_text
  cases y with
  | plain d =>
    rw [written]
    intro starts
    exact stands (List.cons_prefix_cons.1 starts).1.symm
  | named d => exact stands x number
  | lone =>
    obtain rfl : rest = [] := stands
    rw [written]
    intro starts
    have size := starts.length_le
    simp [text] at size
  | braced | long | short => exact absurd stands other

/-- The first form of a text, and what is left of the text behind it, are determined. -/
theorem CharForm.Stands.eq {x y : CharForm} {r r' : Text} (hx : x.Stands r) (hy : y.Stands r')
    (h : x.text ++ r = y.text ++ r') : x = y ∧ r = r' := by
  by_cases x_number : x.IsNumber
  · by_cases y_number : y.IsNumber
    · obtain ⟨c, t, written⟩ := x_number.exists_text
      have split : '\\' :: (c :: t ++ r) = x.text ++ r := by rw [written]; rfl
      have read := numericEscape?_eq_some_iff.2 ⟨x, x_number, split.symm, rfl⟩
      have read' := numericEscape?_eq_some_iff.2 ⟨y, y_number, (split.trans h).symm, rfl⟩
      obtain rfl : r = r' := congrArg Prod.snd (Option.some.inj (read.symm.trans read'))
      exact ⟨x_number.eq y_number (List.append_cancel_right h), rfl⟩
    · exact absurd (h ▸ List.prefix_append _ _) (hy.not_prefix y_number x_number)
  · by_cases y_number : y.IsNumber
    · exact absurd (h ▸ List.prefix_append _ _) (hx.not_prefix x_number y_number)
    -- neither writes a number: the first character tells a plain one, the second a lone backslash
    · cases x with
      | plain c =>
        cases y with
        | plain d => simpa [text] using h
        | named | lone => exact absurd (List.cons.inj h).1 hx
        | braced | long | short => exact absurd hy y_number
      | named c =>
        cases y with
        | plain d => exact absurd (List.cons.inj h).1.symm hy
        | named d => simpa [text] using h
        | lone =>
          obtain rfl : r' = [] := hy
          simp [text] at h
        | braced | long | short => exact absurd hy y_number
      | lone =>
        obtain rfl : r = [] := hx
        cases y with
        | plain d => exact absurd (List.cons.inj h).1.symm hy
        | named d => simp [text] at h
        | lone => simpa [text] using h
        | braced | long | short => exact absurd hy y_number
      | braced | long | short => exact absurd hx x_number

theorem spelled_iff {xs : List CharForm} {s : Text} : Spelled xs s ↔ (xs = [] ∧ s = []) ∨
    ∃ x ys rest, xs = x :: ys ∧ s = x.text ++ rest ∧ x.Stands rest ∧ Spelled ys rest := by
  constructor
  · intro h
    cases h with
    | nil => exact .inl ⟨rfl, rfl⟩
    | cons stands behind => exact .inr ⟨_, _, _, rfl, rfl, stands, behind⟩
  · rintro (⟨rfl, rfl⟩ | ⟨x, ys, rest, rfl, rfl, stands, behind⟩)
    · exact .nil
    · exact .cons stands behind

/-- **A text is spelled in one way.** -/
theorem Spelled.eq {xs ys : List CharForm} {s : Text} (hx : Spelled xs s) (hy : Spelled ys s) :
    ys = xs := by
  induction hx generalizing ys with
  | nil =>
    rcases spelled_iff.1 hy with ⟨rfl, -⟩ | ⟨y, ys, rest, rfl, eq, -, -⟩
    · rfl
    · exact absurd (List.append_eq_nil_iff.1 eq.symm).1 y.text_ne_nil
  | @cons x xs rest stands _ ih =>
    rcases spelled_iff.1 hy with ⟨-, eq⟩ | ⟨y, ys, rest', rfl, eq, stands', behind⟩
    · exact absurd (List.append_eq_nil_iff.1 eq).1 x.text_ne_nil
    · obtain ⟨rfl, rfl⟩ := stands.eq stands' eq
      rw [ih behind]

theorem Spelled.exists_stands {xs : List CharForm} {s : Text} (h : Spelled xs s) {x : CharForm}
    (mem : x ∈ xs) : ∃ rest, x.Stands rest := by
  induction h with
  | nil => simp at mem
  | cons stands _ ih =>
    rcases List.mem_cons.1 mem with rfl | mem
    · exact ⟨_, stands⟩
    · exact ih mem

/-! ## What is shown -/

theorem codePoint_toNat (c : Char) : codePoint c.toNat = .ok (CodePoint.ofChar c) := by
  rw [codePoint, dif_pos (toNat_lt c)]
  rfl

theorem codePoint_eq_ok_iff {n : Nat} {p : CodePoint} : codePoint n = .ok p ↔ p.val = n := by
  constructor
  · intro h
    unfold codePoint at h
    split at h
    next => rw [← Except.ok.inj h]
    next =>
      split at h <;> cases h
  · rintro rfl
    rw [codePoint, dif_pos p.isLt]

/-- The letters of the table name the control characters of the table. -/
theorem CharForm.number_named (c : Char) : (named c).number = (namedEscape c).toNat := by
  unfold namedEscape
  split
  case h_7 n t r b f v =>
    have other : controls.lookup c = none := by
      simpa [controls, List.lookup_eq_none_iff] using ⟨n, t, r, b, f, v⟩
    rw [number, other]
    rfl
  all_goals rfl

/-- **What a text shows is told by its forms**, and the first one whose number is too large
decides the error. -/
theorem Spelled.unescape {xs : List CharForm} {s : Text} (h : Spelled xs s) :
    Message.unescape s = xs.mapM fun x => codePoint x.number := by
  induction h with
  | nil => rw [Message.unescape]; rfl
  | @cons x xs rest stands _ ih =>
    rw [List.mapM_cons, ← ih]
    by_cases number : x.IsNumber
    · obtain ⟨c, t, written⟩ := number.exists_text
      have split : x.text ++ rest = '\\' :: c :: (t ++ rest) := by rw [written]; rfl
      rw [split, unescape_number (numericEscape?_eq_some_iff.2 ⟨x, number, split, rfl⟩)]
    · cases x with
      | plain c =>
        rw [CharForm.number, codePoint_toNat]
        exact unescape_cons stands rest
      | named c =>
        rw [CharForm.number_named, codePoint_toNat]
        exact unescape_named (numericEscape?_eq_none_iff.2 stands)
      | lone =>
        obtain rfl : rest = [] := stands
        rw [CharForm.text, List.append_nil, Message.unescape, Message.unescape, CharForm.number,
          codePoint_toNat]
        rfl
      | braced | long | short => exact absurd stands number

theorem mapM_codePoint_eq_ok_iff {xs : List CharForm} {m : Message} :
    (xs.mapM fun x => codePoint x.number) = .ok m ↔ m.map Fin.val = xs.map CharForm.number := by
  induction xs generalizing m with
  | nil => cases m <;> simp [pure, Except.pure]
  | cons x xs ih =>
    rw [List.mapM_cons, ok_cons_iff]
    cases m with
    | nil => simp
    | cons p m =>
      simp only [codePoint_eq_ok_iff, ih, List.cons.injEq, List.map_cons]
      constructor
      · rintro ⟨p, m, point, rest, rfl, rfl⟩
        exact ⟨point, rest⟩
      · rintro ⟨point, rest⟩
        exact ⟨p, m, point, rest, rfl, rfl⟩

theorem hexValue_lt (c : Char) : hexValue c < 16 := by
  have nine : '9'.toNat = 57 := rfl
  have upper : 'F'.toNat = 70 := rfl
  have lower : 'f'.toNat = 102 := rfl
  unfold hexValue
  split
  next digit =>
    have := (Char.isDigit_iff_toNat.1 digit).2
    have zero : '0'.toNat = 48 := rfl
    omega
  next =>
    split
    next letter =>
      simp only [Bool.and_eq_true, decide_eq_true_eq, Char.le_def, UInt32.le_iff_toNat_le] at letter
      have first : 'a'.toNat = 97 := rfl
      have : c.toNat ≤ 'f'.toNat := letter.2
      omega
    next =>
      split
      next letter =>
        simp only [Bool.and_eq_true, decide_eq_true_eq, Char.le_def, UInt32.le_iff_toNat_le]
          at letter
        have first : 'A'.toNat = 65 := rfl
        have : c.toNat ≤ 'F'.toNat := letter.2
        omega
      next => decide

theorem numberOf_lt (digits : Text) : numberOf 16 digits < 16 ^ digits.length := by
  induction digits using List.reverseRecOn with
  | nil => decide
  | append_singleton digits d ih =>
    have last := hexValue_lt d
    have step : numberOf 16 (digits ++ [d]) = 16 * numberOf 16 digits + hexValue d := by
      simp [numberOf]
    rw [step, List.length_append, List.length_singleton, pow_succ]
    omega

/-- Only a number in braces can be too large. -/
theorem CharForm.Stands.exists_braced {x : CharForm} {rest : Text} (stands : x.Stands rest)
    (large : 0x10ffff < x.number) : ∃ digits, x = .braced digits := by
  have small (c : Char) : ¬ 0x10ffff < c.toNat := Nat.not_lt.2 (Nat.le_of_lt_succ (toNat_lt c))
  cases x with
  | braced digits => exact ⟨digits, rfl⟩
  | plain c => exact absurd large (small c)
  | named c =>
    rw [number_named] at large
    exact absurd large (small _)
  | lone => exact absurd large (small '\\')
  | long digits =>
    have bound := numberOf_lt digits
    rw [stands.1] at bound
    rw [number] at large
    omega
  | short digits =>
    have bound := numberOf_lt digits
    rw [stands.1] at bound
    rw [number] at large
    omega

/-- Nothing is shown just if a number is too large. -/
theorem mapM_codePoint_eq_error_iff {xs : List CharForm} :
    (∃ e, (xs.mapM fun x => codePoint x.number) = .error e) ↔ ∃ x ∈ xs, 0x10ffff < x.number := by
  have fails {n : Nat} : (∃ e, codePoint n = .error e) ↔ 0x10ffff < n := by
    unfold codePoint
    split
    next => simp; omega
    next => split <;> simp <;> omega
  induction xs with
  | nil => simp [pure, Except.pure]
  | cons x xs ih =>
    simp only [List.mem_cons, exists_eq_or_imp]
    refine Iff.trans ?_ (or_congr fails ih)
    rw [List.mapM_cons]
    cases codePoint x.number <;> cases xs.mapM fun x => codePoint x.number <;>
      simp [bind, Except.bind, pure, Except.pure]

/-! ## Writing with escapes -/

/-- The form in which a character is written: a newline, a tab or a return by its letter, a
backslash, a quote or a dollar sign behind a backslash, and any other character as it is. -/
def CharForm.of : Char → CharForm
  | '\n' => named 'n'
  | '\t' => named 't'
  | '\r' => named 'r'
  | c => if c ∈ ['\\', '\'', '"', '$'] then named c else plain c

/-- A text as it is written with escapes. -/
def withEscapes (s : Text) : Text := s.flatMap fun c => (CharForm.of c).text

theorem CharForm.stands_named {c : Char} (u : c ≠ 'u') (x : c ≠ 'x') (rest : Text) :
    (named c).Stands rest := by
  refine numericEscape?_eq_none_iff.1 ?_
  simp [numericEscape?, u, x]

theorem CharForm.stands_of (c : Char) (rest : Text) : (CharForm.of c).Stands rest := by
  unfold CharForm.of
  split
  case h_4 =>
    split
    next mem =>
      refine stands_named ?_ ?_ rest <;> rintro rfl <;> simp at mem
    next other => exact fun slash => other (by simp [slash])
  all_goals exact stands_named (by decide) (by decide) rest

theorem CharForm.number_of (c : Char) : (CharForm.of c).number = c.toNat := by
  unfold CharForm.of
  split
  case h_4 =>
    split
    next mem =>
      simp only [List.mem_cons, List.not_mem_nil, or_false] at mem
      rcases mem with rfl | rfl | rfl | rfl <;> rfl
    next => rfl
  all_goals rfl

theorem spelled_withEscapes (s : Text) : Spelled (s.map CharForm.of) (withEscapes s) := by
  induction s with
  | nil => exact .nil
  | cons c s ih => exact .cons (CharForm.stands_of c _) ih

/-- **Escapes are read unit by unit.** Every text is spelled in just one way. It shows the code
points that its forms stand for, and fails to show any just if a number in braces is beyond the
last code point. So a text that is written with escapes shows the text that it was made of. -/
theorem unescape_spelled (s : Text) :
    (∃ xs, (Spelled xs s ∧ ∀ ys, Spelled ys s → ys = xs) ∧
      (∀ m, unescape s = .ok m ↔ m.map Fin.val = xs.map CharForm.number) ∧
      ((∃ e, unescape s = .error e) ↔
        ∃ digits, .braced digits ∈ xs ∧ 0x10ffff < numberOf 16 digits)) ∧
    unescape (withEscapes s) = .ok (ofText s) := by
  obtain ⟨xs, spelled⟩ := exists_spelled s
  refine ⟨⟨xs, ⟨spelled, fun ys => spelled.eq⟩, ?_, ?_⟩, ?_⟩
  · intro m
    rw [spelled.unescape, mapM_codePoint_eq_ok_iff]
  · rw [spelled.unescape, mapM_codePoint_eq_error_iff]
    constructor
    · rintro ⟨x, mem, large⟩
      obtain ⟨rest, stands⟩ := spelled.exists_stands mem
      obtain ⟨digits, rfl⟩ := stands.exists_braced large
      exact ⟨digits, mem, large⟩
    · rintro ⟨digits, mem, large⟩
      exact ⟨_, mem, large⟩
  · rw [(spelled_withEscapes s).unescape, mapM_codePoint_eq_ok_iff]
    simp [ofText, CodePoint.ofChar, Function.comp_def, CharForm.number_of]

end Localizer.Message
