import Localizer.Proofs.Dart.Adjacent

/-!
# Offsets inside a lexeme

An offset of a buffer is inside a lexeme if it cuts it in two (`Inside`). The lexemes lie side by
side over the buffer, so the character before the offset says whether it is: nothing is cut behind a
character of code, and a comment or string that holds this character goes on behind it, unless it
ends there. Only a line comment can end in a character that is neither a slash nor a quote
(`inside_behind_iff`), and none ends in a newline (`inside_behind_newline_iff`).
-/

namespace Localizer.Dart

open Text

variable {s : Text} {n m k : Nat} {x : Lexeme} {c : Char}

/-- A lexeme of the buffer starts before the offset and ends behind it. -/
def Inside (s : Text) (n : Nat) : Prop :=
  ∃ x ∈ located 0 (lex s), x.1 < n ∧ n < x.1 + x.2.text.length

instance : Decidable (Inside s n) :=
  inferInstanceAs (Decidable (∃ x ∈ located 0 (lex s), x.1 < n ∧ n < x.1 + x.2.text.length))

/-- A line comment of the buffer ends at the offset. -/
def EndsComment (s : Text) (n : Nat) : Prop :=
  ∃ k body, (k, .comment ('/' :: '/' :: body)) ∈ located 0 (lex s) ∧ k + (body.length + 2) = n

/-! ## Side by side -/

theorem not_inside_zero (s : Text) : ¬ Inside s 0 := by
  rintro ⟨x, -, before, -⟩
  exact Nat.not_lt_zero _ before

theorem not_inside_length (s : Text) : ¬ Inside s s.length := by
  rintro ⟨⟨k, x⟩, mem, -, behind⟩
  have within := (le_of_mem_located mem).2
  rw [flatten_lex] at within
  dsimp only at behind
  omega

/-- Each offset of the buffer is that of a character of some lexeme. -/
theorem exists_located_of_lt (h : m < s.length) :
    ∃ k x, (k, x) ∈ located 0 (lex s) ∧ k ≤ m ∧ m < k + x.text.length := by
  have along {xs : List Lexeme} {n : Nat} (start : n ≤ m)
      (stop : m < n + (xs.flatMap Lexeme.text).length) :
      ∃ k x, (k, x) ∈ located n xs ∧ k ≤ m ∧ m < k + x.text.length := by
    induction xs generalizing n with
    | nil =>
      rw [List.flatMap_nil, List.length_nil] at stop
      omega
    | cons x xs ih =>
      by_cases first : m < n + x.text.length
      · exact ⟨n, x, List.mem_cons_self, start, first⟩
      · rw [List.flatMap_cons, List.length_append, ← Nat.add_assoc] at stop
        obtain ⟨k, y, mem, place⟩ := ih (Nat.not_lt.1 first) stop
        exact ⟨k, y, List.mem_cons_of_mem _ mem, place⟩
  refine along (Nat.zero_le _) ?_
  rwa [flatten_lex, Nat.zero_add]

/-- No two lexemes share an offset. -/
theorem eq_of_mem_located {a b : Nat × Lexeme} (ha : a ∈ located 0 (lex s))
    (hb : b ∈ located 0 (lex s)) (in_a : a.1 ≤ m ∧ m < a.1 + a.2.text.length)
    (in_b : b.1 ≤ m ∧ m < b.1 + b.2.text.length) : a = b := by
  have ordered := pairwise_located 0 (lex s)
  refine List.Pairwise.forall_of_forall_of_flip
    (R := fun a b => a.1 ≤ m ∧ m < a.1 + a.2.text.length →
      b.1 ≤ m ∧ m < b.1 + b.2.text.length → a = b)
    (fun _ _ _ _ => rfl) (ordered.imp ?_) (ordered.imp ?_) ha hb in_a in_b
  · intro a b apart in_a in_b
    omega
  · intro a b apart in_b in_a
    omega

/-- A character of a lexeme is that of the buffer at its offset. -/
theorem getElem?_text (mem : (k, x) ∈ located 0 (lex s)) (start : k ≤ m)
    (stop : m < k + x.text.length) : x.text[m - k]? = s[m]? := by
  obtain ⟨before, after, split, offset⟩ := mem_located_iff.1 mem
  rw [Nat.zero_add] at offset
  have whole := flatten_lex s
  rw [split, List.flatMap_append, List.flatMap_cons] at whole
  rw [← whole, List.getElem?_append_right (by omega), ← offset,
    List.getElem?_append_left (by omega)]

theorem mem_lex_of_mem_located (mem : (k, x) ∈ located 0 (lex s)) : x ∈ lex s := by
  obtain ⟨before, after, split, -⟩ := mem_located_iff.1 mem
  simp [split]

/-! ## Forms -/

/-- The lexemes that a buffer can have. -/
inductive Formed : Lexeme → Prop
  | code (c : Char) : Formed (.code c)
  | line {body : Text} (line : '\n' ∉ body) : Formed (.comment ('/' :: '/' :: body))
  | remark (body : Text) : Formed (.comment ('/' :: '*' :: (body ++ ['*', '/'])))
  | block {q : Char} (quote : IsQuote q) (body : Text) :
    Formed (.block (q :: q :: q :: (body ++ [q, q, q])))
  | literal {q : Char} (quote : IsQuote q) (inner : Text) : Formed (.literal q inner)

theorem formed_of_comment? {u t r : Text} (h : comment? u = some (t, r)) : Formed (.comment t) := by
  fun_cases comment? u with
  | case1 r' =>
    obtain ⟨rfl, -⟩ := Prod.mk.inj (Option.some.inj h)
    refine .line fun newline => ?_
    simpa using List.mem_takeWhile_imp newline
  | case2 r' =>
    obtain ⟨⟨body, rest⟩, -, eq⟩ := Option.map_eq_some_iff.1 h
    obtain ⟨rfl, -⟩ := Prod.mk.inj eq
    exact .remark body
  | case3 => simp_all [comment?]

theorem formed_of_mem_lex (mem : x ∈ lex s) : Formed x := by
  obtain ⟨c, r, rfl⟩ := exists_next_of_mem_lex mem
  fun_cases next c r with
  | case1 t rest h => exact formed_of_comment? h
  | case2 _ t rest h =>
    obtain ⟨q, body, quote, rfl⟩ := exists_of_block? h
    exact .block quote body
  | case3 _ _ quote inner => exact .literal quote inner
  | case4 => exact .code c
  | case5 => exact .code c

/-- But for characters of code and line comments, lexemes end in a slash or a quote. -/
theorem Formed.last (h : Formed x) (char : x.text.getLast? = some c) (slash : c ≠ '/')
    (quote : ¬ IsQuote c) : x = .code c ∨ ∃ body, x = .comment ('/' :: '/' :: body) := by
  cases h with
  | code d => exact .inl (congrArg Lexeme.code (by simpa [Lexeme.text] using char))
  | line => exact .inr ⟨_, rfl⟩
  | remark body =>
    obtain rfl : '/' = c := by simpa [Lexeme.text, List.getLast?_cons] using char
    exact absurd rfl slash
  | @block q isQuote body =>
    obtain rfl : q = c := by simpa [Lexeme.text, List.getLast?_cons] using char
    exact absurd isQuote quote
  | @literal q isQuote inner =>
    obtain rfl : q = c := by simpa [Lexeme.text, List.getLast?_cons] using char
    exact absurd isQuote quote

/-! ## Behind a character -/

/-- **What is cut behind a character** that is neither a slash nor a quote: the comment or string
that holds it, if it is not code, and not the end of a line comment. -/
theorem inside_behind_iff (char : s[m]? = some c) (slash : c ≠ '/') (quote : ¬ IsQuote c) :
    Inside s (m + 1) ↔ (m, .code c) ∉ located 0 (lex s) ∧ ¬ EndsComment s (m + 1) := by
  constructor
  · rintro ⟨x, mem, before, behind⟩
    refine ⟨fun code => ?_, ?_⟩
    · obtain rfl := eq_of_mem_located (m := m) mem code ⟨by omega, by omega⟩ (by simp [Lexeme.text])
      simp [Lexeme.text] at behind
    · rintro ⟨k, body, comment, stop⟩
      obtain rfl := eq_of_mem_located (m := m) mem comment ⟨by omega, by omega⟩
        (by simp only [Lexeme.text, List.length_cons]; omega)
      simp only [Lexeme.text, List.length_cons] at behind
      omega
  · rintro ⟨hidden, goesOn⟩
    obtain ⟨k, x, mem, start, stop⟩ := exists_located_of_lt (List.getElem?_eq_some_iff.1 char).1
    refine ⟨(k, x), mem, Nat.lt_succ_of_le start, ?_⟩
    by_contra! last
    have ends : x.text.getLast? = some c := by
      dsimp only at last
      have index : x.text.length - 1 = m - k := by omega
      rw [List.getLast?_eq_getElem?, index, getElem?_text mem start stop, char]
    rcases (formed_of_mem_lex (mem_lex_of_mem_located mem)).last ends slash quote with
      rfl | ⟨body, rfl⟩
    · have offset : k = m := by
        simp only [Lexeme.text, List.length_singleton] at stop
        omega
      exact hidden (offset ▸ mem)
    · refine goesOn ⟨k, body, mem, ?_⟩
      simp only [Lexeme.text, List.length_cons] at last stop
      omega

/-- **Behind a newline** a comment or string is cut just if the newline is not code. -/
theorem inside_behind_newline_iff (char : s[m]? = some '\n') :
    Inside s (m + 1) ↔ (m, .code '\n') ∉ located 0 (lex s) := by
  rw [inside_behind_iff char (by decide) (by decide)]
  refine and_iff_left ?_
  rintro ⟨k, body, mem, stop⟩
  have same := getElem?_text (m := m) mem (by omega)
    (by simp only [Lexeme.text, List.length_cons]; omega)
  rw [char] at same
  have newline := List.mem_of_getElem? same
  cases formed_of_mem_lex (mem_lex_of_mem_located mem) with
  | line line => simp [Lexeme.text, line] at newline

end Localizer.Dart
