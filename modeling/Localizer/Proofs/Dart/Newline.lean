import Localizer.Proofs.Dart.Lexeme
import Localizer.Proofs.Text.Break

/-!
# Reading up to a newline

A buffer is read the same up to a newline whatever follows it, but for what may be left open there: a
block comment that is closed further on, or a triple-quoted string. So its lexemes are those up to the
newline, the newline, and those behind it, provided that no three quotes follow, and that the mask up
to the newline holds no mark that opens a comment or none that closes one follows (`lex_newline`). The
induction is along the lexemes; in each step the first reading that succeeds is the same, since none
goes past the newline (`next_newline`).
-/

namespace Localizer.Dart

open Text

/-! ## The readings -/

section

variable {q : Char} {p r : Text}

theorem newline_not_mem_quotes (quote : IsQuote q) : '\n' ∉ [q, q, q] := by
  rcases quote with rfl | rfl <;> decide

theorem escapedBody?_eq_none (h : ¬[q, q, q] <:+: p) : escapedBody? q p = none := by
  cases hp : escapedBody? q p with
  | none => rfl
  | some found => exact absurd ⟨found.1, found.2, (eq_of_escapedBody? hp).symm⟩ h

theorem escapedBody?_cons {c : Char} (escape : c ≠ '\\') :
    escapedBody? q (c :: r) = match after? [q, q, q] (c :: r) with
      | some rest => some ([], rest)
      | none => prepend [c] (escapedBody? q r) := by
  rw [escapedBody?.eq_def]
  split
  next h =>
    obtain ⟨rfl, -⟩ := List.cons.inj h
    exact absurd rfl escape
  next h =>
    obtain ⟨rfl, rfl⟩ := List.cons.inj h
    rfl
  next h => simp at h

theorem escapedBody?_newline (quote : IsQuote q) (quotes : ¬[q, q, q] <:+: r) :
    escapedBody? q (p ++ '\n' :: r) = before ('\n' :: r) (escapedBody? q p) := by
  have free := newline_not_mem_quotes quote
  have here (c : Char) (p : Text) := after?_append_cons (p := c :: p) (r := r) free
  fun_induction escapedBody? q p with
  | case1 c p ih =>
    simp only [List.cons_append, escapedBody?]
    rw [ih, before_prepend]
  | case2 c p escape rest found =>
    have plain : c ≠ '\\' := by
      rintro rfl
      have := after?_eq_some_iff.1 found
      rcases quote with rfl | rfl <;> simp at this
    rw [List.cons_append, escapedBody?_cons plain, ← List.cons_append, here, found]
    rfl
  | case3 c p escape missing ih =>
    by_cases plain : c = '\\'
    · -- a backslash is the last character before the newline
      cases p with
      | nil =>
        rw [plain, List.cons_append, List.nil_append, escapedBody?, escapedBody?_eq_none quotes]
        rfl
      | cons d p => exact absurd rfl (escape d p plain)
    · rw [List.cons_append, escapedBody?_cons plain, ← List.cons_append, here, missing,
        Option.map_none, before_prepend, ← ih]
  | case4 => exact escapedBody?_eq_none (not_infix_cons free (by simp) quotes)

theorem blockBody?_newline (quote : IsQuote q) (quotes : ¬[q, q, q] <:+: r) :
    blockBody? q (p ++ '\n' :: r) = before ('\n' :: r) (blockBody? q p) := by
  rw [blockBody?, blockBody?, escapedBody?_newline quote quotes,
    cutLast?_append_cons (newline_not_mem_quotes quote) (by simp) quotes]
  cases escapedBody? q p <;> rfl

theorem group?_newline : group? (p ++ '\n' :: r) = before ('\n' :: r) (group? p) := by
  fun_induction group? p with
  | case1 => rfl
  | case2 => rfl
  | case3 => rfl
  | case4 c p brace line ih =>
    rw [before_prepend, ← ih, List.cons_append, group?]
    · exact fun h => brace h
    · exact fun h => line h

theorem literalBody?_newline (quote : IsQuote q) :
    literalBody? q (p ++ '\n' :: r) = before ('\n' :: r) (literalBody? q p) := by
  fun_induction literalBody? q p with
  | case1 => simp [literalBody?]
  | case2 => simp [literalBody?]
  | case3 => simp [literalBody?]
  | case4 c p line ih => simp [literalBody?, line, ih, before_prepend]
  | case5 p missing =>
    have read := group?_newline (p := p) (r := r)
    rw [missing] at read
    rw [List.cons_append, List.cons_append, literalBody?]
    split
    next => rfl
    next h => simp [read] at h
  | case6 p g rest found _ ih =>
    have read := group?_newline (p := p) (r := r)
    rw [found] at read
    rw [List.cons_append, List.cons_append, literalBody?]
    split
    next h => simp [read] at h
    next h =>
      rw [read, before_some, Option.some.injEq, Prod.mk.injEq] at h
      obtain ⟨rfl, rfl⟩ := h
      rw [ih, before_prepend]
  | case7 => simp [literalBody?]
  | case8 => rcases quote with rfl | rfl <;> simp [literalBody?]
  | case9 c p escape sign line quote' ih =>
    have sign' : c = '$' → (p ++ '\n' :: r).head? ≠ some '{' := by
      intro dollar
      cases p with
      | nil => simp
      | cons d p => simpa using fun brace : d = '{' => sign p dollar (by rw [brace])
    rw [List.cons_append, literalBody?_cons quote' escape line sign', ih, before_prepend]

theorem comment?_newline
    (open' : ['/', '*'] <+: p → comment? p = none → ¬['*', '/'] <:+: r) (ne : p ≠ []) :
    comment? (p ++ '\n' :: r) = before ('\n' :: r) (comment? p) := by
  fun_cases comment? p with
  | case1 p =>
    simp only [List.cons_append, comment?, before_some, Option.some.injEq, Prod.mk.injEq,
      List.cons.injEq, true_and]
    exact ⟨takeWhile_append_cons rfl, dropWhile_append_cons rfl⟩
  | case2 p =>
    have found : cut? ['*', '/'] p ≠ none ∨ ¬['*', '/'] <:+: r := by
      by_contra neither
      simp only [not_or, not_not] at neither
      refine open' ⟨p, rfl⟩ ?_ neither.2
      rw [comment?, show "*/".toList = ['*', '/'] from rfl, neither.1]
      rfl
    have cut := cut?_append_cons (p := p) (c := '\n') (by decide) (by simp) found
    simp only [List.cons_append, comment?, show "*/".toList = ['*', '/'] from rfl, cut]
    cases cut? ['*', '/'] p <;> rfl
  | case3 _ line remark =>
    cases p with
    | nil => exact absurd rfl ne
    | cons c p =>
      rw [List.cons_append, comment?_eq_none, before_none]
      rintro rfl
      cases p with
      | nil => simp
      | cons d p =>
        refine ⟨?_, ?_⟩
        · simpa using fun slash : d = '/' => line p (by rw [slash])
        · simpa using fun star : d = '*' => remark p (by rw [star])

theorem block?_newline (quotes : ∀ q, IsQuote q → ¬[q, q, q] <:+: r) (ne : p ≠ []) :
    block? (p ++ '\n' :: r) = before ('\n' :: r) (block? p) := by
  fun_cases block? p with
  | case1 p =>
    have body := blockBody?_newline (p := p) (.inr rfl) (quotes '\'' (.inr rfl))
    simp only [List.cons_append, block?, body]
    cases blockBody? '\'' p <;> rfl
  | case2 p =>
    have body := blockBody?_newline (p := p) (.inl rfl) (quotes '"' (.inl rfl))
    simp only [List.cons_append, block?, body]
    cases blockBody? '"' p <;> rfl
  | case3 _ single double =>
    cases p with
    | nil => exact absurd rfl ne
    | cons c p =>
      rw [List.cons_append, block?_eq_none, before_none]
      rintro ⟨quote, front⟩
      have differs : '\n' ∉ [c, c] := by rcases quote with rfl | rfl <;> decide
      obtain ⟨rest, rfl⟩ := (isPrefix_append_cons differs).1 front
      rcases quote with rfl | rfl
      · exact double rest rfl
      · exact single rest rfl

end

/-! ## The lexemes -/

section

variable {p r : Text}

/-- The first lexeme is the same. -/
theorem next_newline {c : Char} (quotes : ∀ q, IsQuote q → ¬[q, q, q] <:+: r)
    (open' : ['/', '*'] <+: c :: p → comment? (c :: p) = none → ¬['*', '/'] <:+: r) :
    next c (p ++ '\n' :: r) = ((next c p).1, (next c p).2 ++ '\n' :: r) := by
  have comment := comment?_newline open' (by simp)
  have block := block?_newline (p := c :: p) quotes (by simp)
  rw [List.cons_append] at comment block
  rw [next, next, comment, block]
  cases comment? (c :: p) with
  | some read => rfl
  | none =>
    cases block? (c :: p) with
    | some read => rfl
    | none =>
      simp only [before_none]
      split
      next quote =>
        rw [literalBody?_newline quote]
        cases literalBody? c p <;> rfl
      next => rfl

/-- A mark that opens a comment and is left open is code. -/
theorem mask_of_open (marked : ['/', '*'] <+: p) (missing : comment? p = none) :
    ['/', '*'] <+: mask p := by
  obtain ⟨p, rfl⟩ := marked
  change comment? ('/' :: '*' :: p) = none at missing
  have slash : lex ('/' :: '*' :: p) = .code '/' :: lex ('*' :: p) := by
    apply lex_cons
    rw [next, missing, block?_eq_none fun h => absurd h.1 (by decide)]
    rfl
  have star : lex ('*' :: p) = .code '*' :: lex p := lex_code (by decide) (by simp)
  refine ⟨mask p, ?_⟩
  simp [mask, slash, star, Lexeme.mask]

/-- **A buffer is read line by line**, but for what is left open at the end of a line. -/
theorem lex_newline (quotes : ∀ q, IsQuote q → ¬[q, q, q] <:+: r)
    (open' : ¬['/', '*'] <:+: mask p ∨ ¬['*', '/'] <:+: r) :
    lex (p ++ '\n' :: r) = lex p ++ .code '\n' :: lex r := by
  fun_induction lex p with
  | case1 => exact lex_code (by decide) (by simp)
  | case2 c p _ ih =>
    have first := next_newline (c := c) (p := p) quotes <| by
      intro marked missing
      exact open'.resolve_left fun closed => closed (mask_of_open marked missing).isInfix
    rw [List.cons_append, lex_cons first, ih, List.cons_append]
    refine open'.imp_left fun closed mark => closed ?_
    rw [mask, lex, List.flatMap_cons]
    exact mark.trans (List.suffix_append _ _).isInfix

/-- So it is masked. -/
theorem mask_newline (quotes : ∀ q, IsQuote q → ¬[q, q, q] <:+: r)
    (open' : ¬['/', '*'] <:+: mask p ∨ ¬['*', '/'] <:+: r) :
    mask (p ++ '\n' :: r) = mask p ++ '\n' :: mask r := by
  simp [mask, lex_newline quotes open', Lexeme.mask]

end

end Localizer.Dart
