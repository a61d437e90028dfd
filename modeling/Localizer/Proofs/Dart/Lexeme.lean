import Localizer.Dart.Literal
import Mathlib.Data.List.Infix

/-!
# Reading lexemes back

A lexeme `Stands` before a character if it is read from its own text whenever that character comes
next: code must not begin a literal or a comment, a line comment runs to a newline, and an empty
literal must not be followed by its own quote. Lexemes of which each stands before what follows
(`Standing`) are read back from their text one by one (`lex_of_standing`), because each kind of
lexeme is taken off the front of a buffer and leaves the rest as it is (`lex_append`).
-/

namespace Localizer.Dart

open Text

/-- The two quotes. -/
def IsQuote (c : Char) : Prop := c = '"' ∨ c = '\''

instance : DecidablePred IsQuote := fun c => inferInstanceAs (Decidable (c = '"' ∨ c = '\''))

/-- What may stand between the quotes `q` of a single-line literal. -/
inductive Inner (q : Char) : Text → Prop
  | nil : Inner q []
  /-- A backslash and the character that it escapes. -/
  | escape {c : Char} {r : Text} (line : c ≠ '\n') (rest : Inner q r) : Inner q ('\\' :: c :: r)
  /-- A `$`-brace group that is closed on the line. -/
  | group {e r : Text} (closed : '}' ∉ e) (line : '\n' ∉ e) (rest : Inner q r) :
    Inner q ('$' :: '{' :: (e ++ '}' :: r))
  /-- A `$` sign that opens no group. -/
  | sign {r : Text} (opens : r.head? ≠ some '{') (rest : Inner q r) : Inner q ('$' :: r)
  /-- Any character but the quote, the backslash, the newline and the sign. -/
  | plain {c : Char} {r : Text} (quote : c ≠ q) (escape : c ≠ '\\') (line : c ≠ '\n')
    (sign : c ≠ '$') (rest : Inner q r) : Inner q (c :: r)

/-- A lexeme that is read as such in front of a text whose first character is `next`. -/
inductive Stands : Lexeme → Option Char → Prop
  | code {c : Char} {next : Option Char} (quote : ¬ IsQuote c)
    (slash : c = '/' → next ≠ some '/' ∧ next ≠ some '*') : Stands (.code c) next
  /-- A line comment ends with its line. -/
  | line {body : Text} {next : Option Char} (line : '\n' ∉ body)
    (stop : next = none ∨ next = some '\n') : Stands (.comment ('/' :: '/' :: body)) next
  /-- A block comment ends with the first closing mark. -/
  | remark {body : Text} {next : Option Char} (closed : ¬ ['*', '/'] <:+: body) :
    Stands (.comment ('/' :: '*' :: (body ++ ['*', '/']))) next
  /-- A triple-quoted string ends with the first three quotes that no backslash escapes. -/
  | block {q : Char} {body : Text} {next : Option Char} (quote : IsQuote q)
    (closed : ∀ rest, escapedBody? q (body ++ q :: q :: q :: rest) = some (body, rest)) :
    Stands (.block (q :: q :: q :: (body ++ [q, q, q]))) next
  /-- A third quote behind an empty literal would open a triple-quoted string. -/
  | literal {q : Char} {inner : Text} {next : Option Char} (quote : IsQuote q)
    (body : Inner q inner) (apart : inner = [] → next ≠ some q) : Stands (.literal q inner) next

/-! ## One lexeme -/

theorem group?_append {e : Text} (closed : '}' ∉ e) (line : '\n' ∉ e) (r : Text) :
    group? (e ++ '}' :: r) = some (e ++ ['}'], r) := by
  induction e with
  | nil => rfl
  | cons c e ih =>
    simp only [List.mem_cons, not_or] at closed line
    have rest := ih closed.2 line.2
    rw [List.cons_append, group?.eq_def]
    split
    next h => simp at h
    next h => simp_all
    next h => simp_all
    next h =>
      simp only [List.cons.injEq] at h
      obtain ⟨rfl, rfl⟩ := h
      rw [rest]
      rfl

/-- A character that opens nothing is read on its own. -/
theorem literalBody?_cons {q c : Char} {r : Text} (quote : c ≠ q) (escape : c ≠ '\\')
    (line : c ≠ '\n') (sign : c = '$' → r.head? ≠ some '{') :
    literalBody? q (c :: r) = prepend [c] (literalBody? q r) := by
  rw [literalBody?.eq_def]
  split
  next h => simp at h
  next h => simp_all
  next h => simp_all
  next h => simp_all
  next h =>
    simp only [List.cons.injEq] at h
    obtain ⟨rfl, rfl⟩ := h
    rw [if_neg quote]

/-- No literal starts with its own quote. -/
theorem Inner.head_ne {q c : Char} {r : Text} (quote : IsQuote q) (h : Inner q (c :: r)) :
    c ≠ q := by
  cases h with
  | escape => rcases quote with rfl | rfl <;> decide
  | group => rcases quote with rfl | rfl <;> decide
  | sign => rcases quote with rfl | rfl <;> decide
  | plain other => exact other

theorem literalBody?_append {q : Char} {inner : Text} (quote : IsQuote q) (h : Inner q inner)
    (rest : Text) : literalBody? q (inner ++ q :: rest) = some (inner, rest) := by
  induction h with
  | nil => rcases quote with rfl | rfl <;> simp [literalBody?]
  | escape line _ ih => simp [literalBody?, line, ih, prepend]
  | @group e r closed line _ ih =>
    have read := group?_append closed line (r ++ q :: rest)
    have text : '$' :: '{' :: (e ++ '}' :: r) ++ q :: rest =
        '$' :: '{' :: (e ++ '}' :: (r ++ q :: rest)) := by simp
    rw [text, literalBody?]
    split
    next h => simp [read] at h
    next g tail h =>
      rw [read, Option.some.injEq, Prod.mk.injEq] at h
      obtain ⟨rfl, rfl⟩ := h
      simp [ih, prepend]
  | @sign r opens _ ih =>
    have first : (r ++ q :: rest).head? ≠ some '{' := by
      cases r with
      | nil => rcases quote with rfl | rfl <;> simp
      | cons c r => simpa using opens
    have differs : '$' ≠ q := by rcases quote with rfl | rfl <;> decide
    rw [List.cons_append, literalBody?_cons differs (by decide) (by decide) fun _ => first, ih]
    rfl
  | plain quote escape line sign _ ih =>
    rw [List.cons_append, literalBody?_cons quote escape line fun h => absurd h sign, ih]
    rfl

theorem exists_of_group? {s g r : Text} (h : group? s = some (g, r)) :
    ∃ e, g = e ++ ['}'] ∧ '}' ∉ e ∧ '\n' ∉ e := by
  fun_induction group? s generalizing g with
  | case1 => simp at h
  | case2 =>
    obtain ⟨rfl, -⟩ : ['}'] = g ∧ _ = r := by simpa using h
    exact ⟨[], rfl, by simp, by simp⟩
  | case3 => simp at h
  | case4 c r brace line ih =>
    obtain ⟨t, ht, rfl⟩ := prepend_eq_some_iff.1 h
    obtain ⟨e, rfl, closed, single⟩ := ih ht
    have other : '}' ≠ c ∧ '\n' ≠ c := ⟨fun eq => brace eq.symm, fun eq => line eq.symm⟩
    exact ⟨c :: e, rfl, by simp [other.1, closed], by simp [other.2, single]⟩

/-- What is read as the inner text of a literal may stand there, whatever follows. -/
theorem inner_of_literalBody? {q : Char} {s a b : Text} (h : literalBody? q s = some (a, b)) :
    Inner q a := by
  fun_induction literalBody? q s generalizing a with
  | case1 => simp at h
  | case2 => simp at h
  | case3 => simp at h
  | case4 c r line ih =>
    obtain ⟨t, ht, rfl⟩ := prepend_eq_some_iff.1 h
    exact .escape line (ih ht)
  | case5 => simp at h
  | case6 r g rest hg _ ih =>
    obtain ⟨t, ht, rfl⟩ := prepend_eq_some_iff.1 h
    obtain ⟨e, rfl, closed, line⟩ := exists_of_group? hg
    simpa using Inner.group closed line (ih ht)
  | case7 => simp at h
  | case8 =>
    obtain ⟨rfl, -⟩ : [] = a ∧ _ = b := by simpa using h
    exact .nil
  | case9 c r escape group line quote ih =>
    obtain ⟨t, ht, rfl⟩ := prepend_eq_some_iff.1 h
    by_cases sign : c = '$'
    · subst sign
      refine .sign ?_ (ih ht)
      intro head
      obtain ⟨t, rfl⟩ := List.head?_eq_some_iff.1 head
      exact group (t ++ q :: b) rfl (eq_of_literalBody? ht)
    · exact .plain quote (fun eq => escape eq) (fun eq => line eq) sign (ih ht)

theorem cut?_append {body : Text} (closed : ¬ ['*', '/'] <:+: body) (rest : Text) :
    cut? ['*', '/'] (body ++ '*' :: '/' :: rest) = some (body, rest) := by
  induction body with
  | nil => simp [cut?, after?]
  | cons c body ih =>
    have tail : ¬ ['*', '/'] <:+: body := fun h => closed (List.infix_cons h)
    have here : after? ['*', '/'] (c :: (body ++ '*' :: '/' :: rest)) = none := by
      rw [Option.eq_none_iff_forall_ne_some]
      intro r h
      rw [after?_eq_some_iff] at h
      cases body with
      | nil => simp at h
      | cons d body =>
        simp only [List.cons_append, List.cons.injEq, List.nil_append] at h
        obtain ⟨rfl, rfl, -⟩ := h
        exact closed ⟨[], body, rfl⟩
    rw [List.cons_append, cut?, here]
    simp [ih tail, prepend]

/-- Three quotes start at the end of a body only, if it does not hold three quotes and does not end in
one. -/
theorem escapedBody?_append {q : Char} {body : Text} (escape : '\\' ∉ body)
    (closed : ¬ [q, q, q] <:+: body) (stop : body.getLast? ≠ some q) (quote : IsQuote q) (rest : Text) :
    escapedBody? q (body ++ q :: q :: q :: rest) = some (body, rest) := by
  induction body with
  | nil => rcases quote with rfl | rfl <;> simp [escapedBody?, after?]
  | cons c body ih =>
    have tail : ¬ [q, q, q] <:+: body := fun h => closed (List.infix_cons h)
    have here : after? [q, q, q] (c :: (body ++ q :: q :: q :: rest)) = none := by
      rw [Option.eq_none_iff_forall_ne_some]
      intro r h
      rw [after?_eq_some_iff] at h
      match body with
      | [] => simp_all
      | [d] => simp_all
      | d :: e :: body =>
        simp only [List.cons_append, List.cons.injEq, List.nil_append] at h
        obtain ⟨rfl, rfl, rfl, -⟩ := h
        exact closed ⟨[], body, rfl⟩
    simp only [List.mem_cons, not_or] at escape
    have last : body.getLast? ≠ some q := by
      intro h
      rw [List.getLast?_cons, h] at stop
      exact stop rfl
    rw [List.cons_append, escapedBody?.eq_def]
    split
    next h => simp_all
    next d r _ h =>
      simp only [List.cons.injEq] at h
      obtain ⟨rfl, rfl⟩ := h
      rw [here, ih escape.2 tail last]
      rfl
    next h => simp at h

theorem comment?_eq_none {c : Char} {r : Text}
    (slash : c = '/' → r.head? ≠ some '/' ∧ r.head? ≠ some '*') : comment? (c :: r) = none := by
  rw [comment?.eq_def]
  split
  next h =>
    obtain ⟨rfl, rfl⟩ := List.cons.inj h
    exact absurd rfl (slash rfl).1
  next h =>
    obtain ⟨rfl, rfl⟩ := List.cons.inj h
    exact absurd rfl (slash rfl).2
  next => rfl

theorem block?_eq_none {c : Char} {r : Text} (quotes : ¬ (IsQuote c ∧ [c, c] <+: r)) :
    block? (c :: r) = none := by
  rw [block?.eq_def]
  split
  next r' h =>
    obtain ⟨rfl, rfl⟩ := List.cons.inj h
    exact absurd ⟨.inr rfl, r', rfl⟩ quotes
  next r' h =>
    obtain ⟨rfl, rfl⟩ := List.cons.inj h
    exact absurd ⟨.inl rfl, r', rfl⟩ quotes
  next => rfl

theorem lex_cons {c : Char} {r rest : Text} {x : Lexeme} (h : next c r = (x, rest)) :
    lex (c :: r) = x :: lex rest := by
  rw [lex, h]

theorem lex_code {c : Char} {r : Text} (quote : ¬ IsQuote c)
    (slash : c = '/' → r.head? ≠ some '/' ∧ r.head? ≠ some '*') :
    lex (c :: r) = .code c :: lex r := by
  apply lex_cons
  rw [next, comment?_eq_none slash, block?_eq_none fun h => quote h.1]
  exact if_neg quote

theorem lex_line {body rest : Text} (line : '\n' ∉ body)
    (stop : rest.head? = none ∨ rest.head? = some '\n') :
    lex ('/' :: '/' :: (body ++ rest)) = .comment ('/' :: '/' :: body) :: lex rest := by
  have inside : ∀ c ∈ body, (c != '\n') = true := by
    intro c hc
    simpa using fun h : c = '\n' => line (h ▸ hc)
  have ended : rest.takeWhile (· != '\n') = [] ∧ rest.dropWhile (· != '\n') = rest := by
    cases rest with
    | nil => exact ⟨rfl, rfl⟩
    | cons c r =>
      obtain rfl : c = '\n' := by simpa using stop
      exact ⟨rfl, rfl⟩
  apply lex_cons
  rw [next, comment?, List.takeWhile_append_of_pos inside, List.dropWhile_append_of_pos inside,
    ended.1, ended.2, List.append_nil]

theorem lex_remark {body : Text} (closed : ¬ ['*', '/'] <:+: body) (rest : Text) :
    lex ('/' :: '*' :: (body ++ '*' :: '/' :: rest)) =
      .comment ('/' :: '*' :: (body ++ ['*', '/'])) :: lex rest := by
  apply lex_cons
  have read := cut?_append closed rest
  simp [next, comment?, read]

theorem lex_block {q : Char} {body : Text} (quote : IsQuote q)
    (closed : ∀ rest, escapedBody? q (body ++ q :: q :: q :: rest) = some (body, rest)) (rest : Text) :
    lex (q :: q :: q :: (body ++ q :: q :: q :: rest)) =
      .block (q :: q :: q :: (body ++ [q, q, q])) :: lex rest := by
  have read := closed rest
  apply lex_cons
  rcases quote with rfl | rfl <;> simp [next, comment?, block?, blockBody?, read]

theorem lex_literal {q : Char} {inner rest : Text} (quote : IsQuote q) (body : Inner q inner)
    (apart : inner = [] → rest.head? ≠ some q) :
    lex (q :: (inner ++ q :: rest)) = .literal q inner :: lex rest := by
  have read := literalBody?_append quote body rest
  have slash : q = '/' → (inner ++ q :: rest).head? ≠ some '/' ∧
      (inner ++ q :: rest).head? ≠ some '*' := by
    rintro rfl
    exact absurd quote (by decide)
  -- a second quote closes an empty literal, and then no third one follows
  have quotes : ¬ [q, q] <+: inner ++ q :: rest := by
    rintro ⟨r, h⟩
    cases inner with
    | nil =>
      obtain rfl := (List.cons.inj h).2
      exact apart rfl rfl
    | cons c inner => exact body.head_ne quote (List.cons.inj h).1.symm
  apply lex_cons
  rw [next, comment?_eq_none slash, block?_eq_none fun h => quotes h.2]
  simp only [read]
  exact if_pos quote

/-- The first lexeme of a buffer is the one that stands there. -/
theorem lex_append {x : Lexeme} {rest : Text} (h : Stands x rest.head?) :
    lex (x.text ++ rest) = x :: lex rest := by
  cases h with
  | code quote slash => exact lex_code quote slash
  | line line stop => exact lex_line line stop
  | remark closed => simpa [Lexeme.text] using lex_remark closed rest
  | block quote closed => simpa [Lexeme.text] using lex_block quote closed rest
  | literal quote body apart => simpa [Lexeme.text] using lex_literal quote body apart

theorem Inner.line {q : Char} {inner : Text} (h : Inner q inner) : '\n' ∉ inner := by
  induction h with
  | nil => simp
  | escape line _ ih => simp [ih, Ne.symm line]
  | group _ line _ ih => simp [ih, line]
  | sign _ _ ih => simp [ih]
  | plain _ _ line _ _ ih => simp [ih, Ne.symm line]

/-- A literal that stands is on one line. -/
theorem Stands.single {q : Char} {inner : Text} {next : Option Char}
    (h : Stands (.literal q inner) next) : IsQuote q ∧ '\n' ∉ (Lexeme.literal q inner).text := by
  cases h with
  | literal quote body _ =>
    refine ⟨quote, ?_⟩
    have differs : '\n' ≠ q := by rcases quote with rfl | rfl <;> decide
    simp [Lexeme.text, body.line, differs]

theorem inner_of_next {c : Char} {r : Text} {q : Char} {inner rest : Text}
    (h : next c r = (.literal q inner, rest)) : IsQuote q ∧ Inner q inner := by
  revert h
  fun_cases next c r with
  | case1 => simp
  | case2 => simp
  | case3 _ _ quote inner' rest' body =>
    intro h
    obtain ⟨⟨rfl, rfl⟩, -⟩ : (c = q ∧ inner' = inner) ∧ rest' = rest := by simpa using h
    exact ⟨quote, inner_of_literalBody? body⟩
  | case4 => simp
  | case5 => simp

/-- Each lexeme of a buffer is the first one of some text. -/
theorem exists_next_of_mem_lex {s : Text} {x : Lexeme} (mem : x ∈ lex s) :
    ∃ c r, (next c r).1 = x := by
  fun_induction lex s with
  | case1 => simp at mem
  | case2 c r _ ih =>
    rcases List.mem_cons.1 mem with rfl | later
    · exact ⟨c, r, rfl⟩
    · exact ih later

/-- Between the quotes of a single-line literal of a buffer stands what may stand there. -/
theorem inner_of_mem_lex {s : Text} {q : Char} {inner : Text} (mem : .literal q inner ∈ lex s) :
    IsQuote q ∧ Inner q inner := by
  obtain ⟨c, r, first⟩ := exists_next_of_mem_lex mem
  exact inner_of_next (Prod.ext first rfl)

/-- A single-line literal of a buffer has quotes around it and is on one line. -/
theorem single_of_mem_lex {s : Text} {q : Char} {inner : Text} (mem : .literal q inner ∈ lex s) :
    IsQuote q ∧ '\n' ∉ (Lexeme.literal q inner).text := by
  obtain ⟨quote, body⟩ := inner_of_mem_lex mem
  have differs : '\n' ≠ q := by rcases quote with rfl | rfl <;> decide
  exact ⟨quote, by simp [Lexeme.text, body.line, differs]⟩

/-! ## A sequence of lexemes -/

@[simp] theorem flatMap_text_map_code (s : Text) : (s.map Lexeme.code).flatMap Lexeme.text = s := by
  simp [List.flatMap_map, Lexeme.text]

@[simp] theorem flatMap_mask_map_code (s : Text) : (s.map Lexeme.code).flatMap Lexeme.mask = s := by
  simp [List.flatMap_map, Lexeme.mask]

/-- Lexemes each of which stands in front of the text of those after it. -/
def Standing : List Lexeme → Prop
  | [] => True
  | x :: xs => Stands x (xs.flatMap Lexeme.text).head? ∧ Standing xs

theorem standing_of_append {as xs : List Lexeme} (h : Standing (as ++ xs)) : Standing xs := by
  induction as with
  | nil => exact h
  | cons x as ih => exact ih h.2

theorem stands_of_mem {x : Lexeme} {xs : List Lexeme} (h : Standing xs) (mem : x ∈ xs) :
    ∃ next, Stands x next := by
  induction xs with
  | nil => simp at mem
  | cons y ys ih =>
    rcases List.mem_cons.1 mem with rfl | mem
    · exact ⟨_, h.1⟩
    · exact ih h.2 mem

theorem Stands.text_ne_nil {x : Lexeme} {next : Option Char} (h : Stands x next) :
    x.text ≠ [] := by
  cases h <;> simp [Lexeme.text]

/-- Lexemes that stand are read back. -/
theorem lex_of_standing {xs : List Lexeme} (h : Standing xs) :
    lex (xs.flatMap Lexeme.text) = xs := by
  induction xs with
  | nil => simp [lex]
  | cons x xs ih => rw [List.flatMap_cons, lex_append h.1, ih h.2]

theorem mask_of_standing {xs : List Lexeme} (h : Standing xs) :
    mask (xs.flatMap Lexeme.text) = xs.flatMap Lexeme.mask := by
  rw [mask, lex_of_standing h]

/-! ## Offsets -/

theorem located_append (n : Nat) (xs ys : List Lexeme) :
    located n (xs ++ ys) = located n xs ++ located (n + (xs.flatMap Lexeme.text).length) ys := by
  induction xs generalizing n with
  | nil => simp [located]
  | cons x xs ih => simp [located, ih, Nat.add_assoc]

/-- A lexeme with its offset, and those before and after it. -/
theorem mem_located_iff {n m : Nat} {x : Lexeme} {xs : List Lexeme} :
    (m, x) ∈ located n xs ↔ ∃ before after, xs = before ++ x :: after ∧
      m = n + (before.flatMap Lexeme.text).length := by
  induction xs generalizing n with
  | nil => simp [located]
  | cons y ys ih =>
    rw [located, List.mem_cons, ih]
    constructor
    · rintro (h | ⟨before, after, rfl, rfl⟩)
      · obtain ⟨rfl, rfl⟩ := Prod.mk.inj h
        exact ⟨[], ys, rfl, rfl⟩
      · exact ⟨y :: before, after, rfl, by simp [Nat.add_assoc]⟩
    · rintro ⟨before, after, eq, rfl⟩
      cases before with
      | nil =>
        obtain ⟨rfl, rfl⟩ := List.cons.inj eq
        exact .inl rfl
      | cons z before =>
        obtain ⟨rfl, rfl⟩ := List.cons.inj eq
        exact .inr ⟨before, after, rfl, by simp [Nat.add_assoc]⟩

theorem le_of_mem_located {n m : Nat} {x : Lexeme} {xs : List Lexeme} (h : (m, x) ∈ located n xs) :
    n ≤ m ∧ m + x.text.length ≤ n + (xs.flatMap Lexeme.text).length := by
  obtain ⟨before, after, rfl, rfl⟩ := mem_located_iff.1 h
  simp only [List.flatMap_append, List.flatMap_cons, List.length_append]
  omega

end Localizer.Dart
