import Localizer.Message.Escape
import Mathlib.Data.List.TakeWhile

/-!
# What a text shows before a brace

Escapes are read from left to right, so two texts in a row show what each of them shows, unless an escape
of the first goes on in the second. At an opening brace only one escape can go on: a number in braces, behind
`\u` (`opensCodePoint`). A backslash that ends the first text aside, the texts before and from the brace on
are then read one by one (`unescape_brace`). The induction is on the reading of the first text; an escape
that was read stays the same whatever follows it (`numericEscape?_append`), and the characters that
were no number are none when a brace follows (`numericEscape?_brace`).
-/

namespace Localizer.Message

open Text

/-! ## Numbers -/

theorem fixedHex?_append {k n : Nat} {s r : Text} (h : fixedHex? k s = some (n, r)) (t : Text) :
    fixedHex? k (s ++ t) = some (n, r ++ t) := by
  unfold fixedHex? at h
  split at h
  next digits =>
    obtain ⟨rfl, rfl⟩ := Prod.mk.inj (Option.some.inj h)
    have inside : k ≤ s.length := by
      have size := digits.1
      rw [List.length_take] at size
      omega
    rw [fixedHex?, List.take_append_of_le_length inside, List.drop_append_of_le_length inside,
      if_pos digits]
  next => simp at h

/-- No digits are read across a character that is none. -/
theorem fixedHex?_stop {k : Nat} {s : Text} {c : Char} (h : fixedHex? k s = none)
    (other : isHexDigit c = false) (r : Text) : fixedHex? k (s ++ c :: r) = none := by
  by_cases inside : k ≤ s.length
  · rw [fixedHex?, List.take_append_of_le_length inside]
    rw [fixedHex?] at h
    rw [if_neg]
    intro digits
    rw [if_pos digits] at h
    contradiction
  · have mem : c ∈ (s ++ c :: r).take k := by
      rw [List.take_append, List.take_cons (by omega)]
      simp
    rw [fixedHex?, if_neg]
    rintro ⟨-, digits⟩
    rw [List.all_eq_true.1 digits c mem] at other
    contradiction

theorem bracedHex?_eq_some_iff {s r : Text} {n : Nat} :
    bracedHex? s = some (n, r) ↔ ∃ ds, s = '{' :: (ds ++ '}' :: r) ∧ ds ≠ [] ∧
      (∀ d ∈ ds, isHexDigit d = true) ∧ n = numberOf 16 ds := by
  constructor
  · intro h
    unfold bracedHex? at h
    split at h
    next t =>
      split at h
      next d ds rest taken dropped =>
        obtain ⟨rfl, rfl⟩ := Prod.mk.inj (Option.some.inj h)
        refine ⟨d :: ds, ?_, by simp, ?_, rfl⟩
        · rw [← taken, ← dropped, List.takeWhile_append_dropWhile]
        · intro c hc
          rw [← taken] at hc
          exact List.mem_takeWhile_imp hc
      next => simp at h
    next => simp at h
  · rintro ⟨ds, rfl, filled, digits, rfl⟩
    have stop : isHexDigit '}' = false := by decide
    obtain ⟨d, ds, rfl⟩ := List.exists_cons_of_ne_nil filled
    have taken : (d :: ds ++ '}' :: r).takeWhile isHexDigit = d :: ds := by
      rw [List.takeWhile_append_of_pos digits, List.takeWhile_cons_of_neg (by simp [stop]),
        List.append_nil]
    have dropped : (d :: ds ++ '}' :: r).dropWhile isHexDigit = '}' :: r := by
      rw [List.dropWhile_append_of_pos digits, List.dropWhile_cons_of_neg (by simp [stop])]
    simp only [bracedHex?, taken, dropped]

theorem bracedHex?_append {n : Nat} {s r : Text} (h : bracedHex? s = some (n, r)) (t : Text) :
    bracedHex? (s ++ t) = some (n, r ++ t) := by
  obtain ⟨ds, rfl, filled, digits, rfl⟩ := bracedHex?_eq_some_iff.1 h
  exact bracedHex?_eq_some_iff.2 ⟨ds, by simp, filled, digits, rfl⟩

/-- A brace that is not the first character neither opens nor closes a number. -/
theorem bracedHex?_brace {s : Text} (h : bracedHex? s = none) (filled : s ≠ []) (r : Text) :
    bracedHex? (s ++ '{' :: r) = none := by
  rw [Option.eq_none_iff_forall_ne_some]
  rintro ⟨n, rest⟩ some
  obtain ⟨ds, whole, digit, digits, -⟩ := bracedHex?_eq_some_iff.1 some
  obtain ⟨c, s, rfl⟩ := List.exists_cons_of_ne_nil filled
  obtain ⟨rfl, behind⟩ := List.cons.inj whole
  rcases List.append_eq_append_iff.1 behind with ⟨t, rfl, ht⟩ | ⟨t, rfl, ht⟩
  · cases t with
    | nil => simp at ht
    | cons d t =>
      obtain ⟨rfl, -⟩ := List.cons.inj ht
      have brace : isHexDigit '{' = true := digits '{' (by simp)
      exact absurd brace (by decide)
  · cases t with
    | nil => simp at ht
    | cons d t =>
      obtain ⟨rfl, -⟩ := List.cons.inj ht
      rw [bracedHex?_eq_some_iff.2 ⟨ds, rfl, digit, digits, rfl⟩] at h
      contradiction

theorem bracedHex?_of_head {s : Text} (h : s.head? ≠ some '{') : bracedHex? s = none := by
  rw [Option.eq_none_iff_forall_ne_some]
  rintro ⟨n, rest⟩ some
  obtain ⟨ds, rfl, -⟩ := bracedHex?_eq_some_iff.1 some
  exact h rfl

/-- A number that was read stays the same whatever follows it. -/
theorem numericEscape?_append {n : Nat} {s r : Text} (h : numericEscape? s = some (n, r))
    (t : Text) : numericEscape? (s ++ t) = some (n, r ++ t) := by
  unfold numericEscape? at h
  split at h
  next s =>
    rw [List.cons_append, numericEscape?]
    rcases Option.or_eq_some_iff.1 h with braced | ⟨unbraced, fixed⟩
    · rw [bracedHex?_append braced, Option.some_or]
    · have head : (s ++ t).head? ≠ some '{' := by
        intro brace
        cases s with
        | nil => simp [fixedHex?] at fixed
        | cons c s =>
          obtain rfl : c = '{' := by simpa using brace
          have other : isHexDigit '{' = false := by decide
          simp [fixedHex?, other] at fixed
      rw [bracedHex?_of_head head, Option.none_or, fixedHex?_append fixed]
  next s => exact fixedHex?_append h t
  next => simp at h

/-- Characters that are no number are none when a brace follows, but for a `u` on its own. -/
theorem numericEscape?_brace {s : Text} (h : numericEscape? s = none) (filled : s ≠ []) {r : Text}
    (apart : s = ['u'] → bracedHex? ('{' :: r) = none) : numericEscape? (s ++ '{' :: r) = none := by
  have brace : isHexDigit '{' = false := by decide
  obtain ⟨c, s, rfl⟩ := List.exists_cons_of_ne_nil filled
  rw [List.cons_append]
  by_cases u : c = 'u'
  · subst u
    rw [numericEscape?, Option.or_eq_none_iff] at h
    rw [numericEscape?, Option.or_eq_none_iff]
    refine ⟨?_, fixedHex?_stop h.2 brace r⟩
    by_cases empty : s = []
    · subst empty
      exact apart rfl
    · exact bracedHex?_brace h.1 empty r
  · by_cases x : c = 'x'
    · subst x
      exact fixedHex?_stop h brace r
    · simp [numericEscape?, u, x]

/-! ## Escapes -/

/-- How many backslashes end a text that is read backwards. -/
def slashes (back : Text) : Nat := (back.takeWhile (· == '\\')).length

/-- Whether a text, read backwards, ends in `\u` with a backslash that is not escaped itself. -/
def opensCodePoint : (back : Text) → Bool
  | 'u' :: '\\' :: back => slashes back % 2 == 0
  | _ => false

theorem slashes_append (a b : Text) :
    slashes (a ++ b) = if a.all (· == '\\') then a.length + slashes b else slashes a := by
  induction a with
  | nil => simp
  | cons c a ih =>
    by_cases h : c = '\\'
    · simp only [slashes] at ih
      simp only [slashes, List.cons_append, h, beq_self_eq_true, List.takeWhile_cons_of_pos,
        List.length_cons, ih, List.all_cons, Bool.true_and]
      split
      next => omega
      next => rfl
    · simp [slashes, h]

/-- What stands before does not matter, if it ends in escaped backslashes only. -/
theorem opensCodePoint_append {back front : Text} (h : opensCodePoint back = true)
    (even : slashes front % 2 = 0) : opensCodePoint (back ++ front) = true := by
  unfold opensCodePoint at h
  split at h
  next back =>
    simp only [beq_iff_eq] at h
    simp only [List.cons_append, opensCodePoint, beq_iff_eq, slashes_append]
    split
    next all =>
      have whole : slashes back = back.length := by
        rw [slashes, List.takeWhile_eq_self_iff.2 (List.all_eq_true.1 all)]
      omega
    next => exact h
  next => simp at h

/-- The characters of a number hold no backslash. -/
theorem exists_of_numericEscape? {n : Nat} {s r : Text} (h : numericEscape? s = some (n, r)) :
    ∃ p, s = p ++ r ∧ p ≠ [] ∧ '\\' ∉ p := by
  have slash : isHexDigit '\\' = false := by decide
  have unslashed {ds : Text} (digits : ∀ d ∈ ds, isHexDigit d = true) : '\\' ∉ ds := by
    intro mem
    rw [digits _ mem] at slash
    contradiction
  have fixed {k : Nat} {t : Text} (h : fixedHex? k t = some (n, r)) :
      t = t.take k ++ r ∧ '\\' ∉ t.take k := by
    unfold fixedHex? at h
    split at h
    next digits =>
      obtain ⟨-, rfl⟩ := Prod.mk.inj (Option.some.inj h)
      exact ⟨(List.take_append_drop k t).symm, unslashed (List.all_eq_true.1 digits.2)⟩
    next => simp at h
  unfold numericEscape? at h
  split at h
  next t =>
    rcases Option.or_eq_some_iff.1 h with braced | ⟨-, plain⟩
    · obtain ⟨ds, rfl, -, digits, -⟩ := bracedHex?_eq_some_iff.1 braced
      exact ⟨'u' :: '{' :: (ds ++ ['}']), by simp, by simp, by simp [unslashed digits]⟩
    · obtain ⟨split, apart⟩ := fixed plain
      exact ⟨'u' :: t.take 4, by rw [List.cons_append, ← split], by simp, by simp [apart]⟩
  next t =>
    obtain ⟨split, apart⟩ := fixed h
    exact ⟨'x' :: t.take 2, by rw [List.cons_append, ← split], by simp, by simp [apart]⟩
  next => simp at h

/-! ## What is shown -/

theorem unescape_number {c : Char} {r rest : Text} {n : Nat}
    (h : numericEscape? (c :: r) = some (n, rest)) :
    unescape ('\\' :: c :: r) = do return (← codePoint n) :: (← unescape rest) := by
  rw [unescape]
  split
  next n' rest' h' =>
    obtain ⟨rfl, rfl⟩ := Prod.mk.inj (Option.some.inj (h.symm.trans h'))
    rfl
  next h' =>
    rw [h] at h'
    contradiction

theorem unescape_named {c : Char} {r : Text} (h : numericEscape? (c :: r) = none) :
    unescape ('\\' :: c :: r) = do return CodePoint.ofChar (namedEscape c) :: (← unescape r) := by
  rw [unescape]
  split
  next h' =>
    rw [h] at h'
    contradiction
  next => rfl

theorem unescape_cons {c : Char} (h : c ≠ '\\') (r : Text) :
    unescape (c :: r) = do return CodePoint.ofChar c :: (← unescape r) := by
  rw [unescape.eq_def]
  split
  next eq => simp at eq
  next eq => exact absurd (List.cons.inj eq).1 h
  next eq => exact absurd (List.cons.inj eq).1 h
  next eq =>
    obtain ⟨rfl, rfl⟩ := List.cons.inj eq
    rfl

/-- What is shown starts with the first code point, and goes on with what the rest shows. -/
theorem ok_cons_iff {ε : Type} {first : Except ε CodePoint} {rest : Except ε Message}
    {value : Message} : (do return (← first) :: (← rest)) = Except.ok value ↔
      ∃ p m, first = .ok p ∧ rest = .ok m ∧ value = p :: m := by
  cases first <;> cases rest <;> simp [bind, Except.bind, pure, Except.pure, eq_comm]

theorem ok_cons_pure_iff {ε : Type} {p : CodePoint} {rest : Except ε Message} {value : Message} :
    (do return p :: (← rest)) = Except.ok value ↔ ∃ m, rest = .ok m ∧ value = p :: m := by
  cases rest <;> simp [bind, Except.bind, pure, Except.pure, eq_comm]

/-- No escape of the text `u` goes on in a brace with `r` behind it: `u` ends neither in a backslash nor in
the start of a number that the brace opens. -/
structure Closed (u r : Text) : Prop where
  slash : u.getLast? ≠ some '\\'
  number : opensCodePoint u.reverse = true → bracedHex? ('{' :: r) = none

/-- What is left when the front of a text was read is closed if the text is. -/
theorem Closed.tail {front v r : Text} (even : slashes front.reverse % 2 = 0)
    (h : Closed (front ++ v) r) : Closed v r := by
  refine ⟨fun last => h.slash ?_, fun opens => h.number ?_⟩
  · simp [List.getLast?_append, last]
  · rw [List.reverse_append]
    exact opensCodePoint_append opens even

/-- **What is shown before a brace and from it on** is shown by the texts before it and from it on, if no
escape goes on in it. -/
theorem unescape_brace {u r : Text} {value : Message} (closed : Closed u r)
    (h : unescape (u ++ '{' :: r) = .ok value) :
    ∃ x y, unescape u = .ok x ∧ unescape ('{' :: r) = .ok y ∧ value = x ++ y := by
  fun_induction unescape u generalizing value with
  | case1 => exact ⟨[], value, rfl, h, rfl⟩
  | case2 => exact absurd rfl closed.slash
  | case3 c v n rest number _ ih =>
    have whole := numericEscape?_append number ('{' :: r)
    rw [List.cons_append] at whole
    rw [List.cons_append, List.cons_append, unescape_number whole, ok_cons_iff] at h
    obtain ⟨p, m, point, shown, rfl⟩ := h
    obtain ⟨front, split, filled, unslashed⟩ := exists_of_numericEscape? number
    have even : slashes ('\\' :: front).reverse % 2 = 0 := by
      obtain ⟨d, e, he⟩ := List.exists_cons_of_ne_nil (List.reverse_ne_nil_iff.2 filled)
      have other : d ≠ '\\' := by
        rintro rfl
        exact unslashed (List.mem_reverse.1 (by simp [he]))
      simp [slashes, he, other]
    rw [split, ← List.cons_append] at closed
    obtain ⟨x, y, hx, hy, rfl⟩ := ih (closed.tail even) shown
    refine ⟨p :: x, y, ?_, hy, rfl⟩
    rw [ok_cons_iff]
    exact ⟨p, x, point, hx, rfl⟩
  | case4 c v named ih =>
    have whole : numericEscape? (c :: (v ++ '{' :: r)) = none := by
      refine numericEscape?_brace named (by simp) fun eq => ?_
      obtain ⟨rfl, rfl⟩ := List.cons.inj eq
      exact closed.number rfl
    rw [List.cons_append, List.cons_append, unescape_named whole, ok_cons_pure_iff] at h
    obtain ⟨m, shown, rfl⟩ := h
    have even : slashes ['\\', c].reverse % 2 = 0 := by
      by_cases hc : c = '\\' <;> simp [slashes, hc]
    obtain ⟨x, y, hx, hy, rfl⟩ := ih (closed.tail even) shown
    refine ⟨CodePoint.ofChar (namedEscape c) :: x, y, ?_, hy, rfl⟩
    rw [ok_cons_pure_iff]
    exact ⟨x, hx, rfl⟩
  | case5 c v single escape ih =>
    have plain : c ≠ '\\' := by
      rintro rfl
      cases v with
      | nil => exact single rfl rfl
      | cons d v => exact escape d v rfl rfl
    rw [List.cons_append, unescape_cons plain, ok_cons_pure_iff] at h
    obtain ⟨m, shown, rfl⟩ := h
    have even : slashes [c].reverse % 2 = 0 := by
      simp [slashes, plain]
    obtain ⟨x, y, hx, hy, rfl⟩ := ih (closed.tail even) shown
    refine ⟨CodePoint.ofChar c :: x, y, ?_, hy, rfl⟩
    rw [ok_cons_pure_iff]
    exact ⟨x, hx, rfl⟩

/-- Characters other than backslashes show themselves. -/
theorem unescape_plain {t r : Text} {value : Message} (apart : '\\' ∉ t)
    (h : unescape (t ++ r) = .ok value) : ∃ y, unescape r = .ok y ∧ value = Message.ofText t ++ y := by
  induction t generalizing value with
  | nil => exact ⟨value, h, rfl⟩
  | cons c t ih =>
    simp only [List.mem_cons, not_or] at apart
    rw [List.cons_append, unescape_cons (Ne.symm apart.1), ok_cons_pure_iff] at h
    obtain ⟨m, shown, rfl⟩ := h
    obtain ⟨y, hy, rfl⟩ := ih apart.2 shown
    exact ⟨y, hy, rfl⟩

end Localizer.Message
