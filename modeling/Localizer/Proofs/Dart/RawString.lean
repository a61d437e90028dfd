import Localizer.Proofs.Dart.Exclusion
import Localizer.Proofs.Dart.Mask
import Localizer.Proofs.Edit.Relexing

/-!
# Raw strings

A raw string is written as `r` and a quoted body in which nothing is escaped. There is no lexeme of
its own for it: the quoted part is read like any single-line literal, and only the mark in front
tells that it is no candidate. So a raw string is read as one literal, with the lexemes of the text
behind it following, just if its body happens to be the inner text of a literal: no backslash before
the closing quote, and no group left open (`lex_raw_iff`). Then it is masked as a string and no
candidate meets it (`rawString_reads`); otherwise the reading goes astray (`raw_string_derails`).
-/

namespace Localizer.Dart

open Text

/-- A raw string in quotes, between two texts. -/
def aroundRaw (a body b : Text) : Text := a ++ 'r' :: '\'' :: (body ++ '\'' :: b)

/-- A chunk of code at the end of a well-formed buffer that a raw string may follow. -/
structure EndsInCode (xs : List Segment) (chunk : Text) : Prop where
  wellFormed : WellFormed (xs ++ [.code chunk])
  /-- The mark of the raw string is a word of its own. -/
  boundary : ∀ c ∈ chunk.getLast?, isWord c = false

/-- A well-formed buffer that does not start with a string. -/
structure StartsApart (ys : List Segment) : Prop where
  wellFormed : WellFormed ys
  apart : ∀ y ∈ ys.head?, y.isString = false

section

variable {xs ys : List Segment} {chunk : Text}

theorem WellFormed.of_append (h : WellFormed (xs ++ ys)) : WellFormed ys := by
  induction xs with
  | nil => exact h
  | cons x xs ih =>
    apply ih
    cases h with
    | code _ _ _ rest => exact rest
    | lineComment _ _ rest => exact rest
    | blockComment _ rest => exact rest
    | block _ _ _ _ _ rest => exact rest
    | literal _ _ _ rest => exact rest

/-- The last character of the chunk is the last lexeme of the buffer. -/
theorem EndsInCode.exists_lex (h : EndsInCode xs chunk) :
    ∃ as c, lex (bufferOf (xs ++ [.code chunk])) = as ++ [.code c] ∧ ¬ IsQuote c ∧
      isWord c = false := by
  have last := h.wellFormed.of_append
  cases last with
  | code filled quote _ _ =>
    obtain ⟨init, c, rfl⟩ := List.eq_nil_or_concat' chunk |>.resolve_left filled
    refine ⟨xs.flatMap Segment.lexemes ++ init.map .code, c, ?_, quote c (by simp),
      h.boundary c (by simp)⟩
    rw [(lex_segments h.wellFormed).1]
    simp [Segment.lexemes]

/-- A body that may stand in a literal is read as one behind the mark. -/
theorem standing_raw (hx : EndsInCode xs chunk) (hy : StartsApart ys) {body : Text}
    (inner : Inner '\'' body) :
    Standing (lex (bufferOf (xs ++ [.code chunk])) ++
      .code 'r' :: .literal '\'' body :: lex (bufferOf ys)) := by
  obtain ⟨as, c, lexed, unquoted, -⟩ := hx.exists_lex
  have front : Standing (as ++ [.code c]) := lexed ▸ standing_lex hx.wellFormed
  have literal : Stands (.literal '\'' body) ((lex (bufferOf ys)).flatMap Lexeme.text).head? := by
    refine .literal (.inr rfl) inner fun _ => ?_
    rw [flatten_lex]
    exact head?_ne_of_apart hy.wellFormed hy.apart (.inr rfl)
  have back : Standing (.code c :: .code 'r' :: .literal '\'' body :: lex (bufferOf ys)) :=
    ⟨.code unquoted fun _ => by simp [Lexeme.text], .code (by decide) (by simp), literal,
      standing_lex hy.wellFormed⟩
  rw [lexed, List.append_assoc]
  exact front.replace_end back (.inl rfl)

theorem flatMap_text_raw (a body b : Text) :
    (lex a ++ .code 'r' :: .literal '\'' body :: lex b).flatMap Lexeme.text =
      aroundRaw a body b := by
  simp [flatten_lex, Lexeme.text, aroundRaw]

/-- A raw string is read as one literal just if its body may stand in a literal. -/
theorem lex_raw_iff (hx : EndsInCode xs chunk) (hy : StartsApart ys) {body : Text} :
    lex (aroundRaw (bufferOf (xs ++ [.code chunk])) body (bufferOf ys)) =
      lex (bufferOf (xs ++ [.code chunk])) ++ .code 'r' :: .literal '\'' body :: lex (bufferOf ys) ↔
      Inner '\'' body := by
  constructor
  · intro lexed
    have mem : .literal '\'' body ∈
        lex (aroundRaw (bufferOf (xs ++ [.code chunk])) body (bufferOf ys)) := by
      simp [lexed]
    exact (inner_of_mem_lex mem).2
  · intro inner
    rw [← flatMap_text_raw, lex_of_standing (standing_raw hx hy inner)]

/-- The quoted part of a raw string is no candidate, since its mark hides it. -/
theorem offset_ne_of_mem_scan (hx : EndsInCode xs chunk) {w : Windows} {body b : Text} {l : Literal}
    (hl : l ∈ scan w (aroundRaw (bufferOf (xs ++ [.code chunk])) body b)) :
    l.offset ≠ (bufferOf (xs ++ [.code chunk])).length + 1 := by
  intro offset
  obtain ⟨before, after, split, start, visible⟩ := visible_of_mem_scan hl
  obtain ⟨as, c, lexed, -, boundary⟩ := hx.exists_lex
  have last : bufferOf (xs ++ [.code chunk]) = as.flatMap Lexeme.text ++ [c] := by
    rw [← flatten_lex (bufferOf _), lexed]
    simp [Lexeme.text]
  have front : before.flatMap Lexeme.text = as.flatMap Lexeme.text ++ [c, 'r'] := by
    have whole := flatten_lex (aroundRaw (bufferOf (xs ++ [.code chunk])) body b)
    rw [split, List.flatMap_append, aroundRaw, last, ← List.singleton_append (x := 'r'),
      ← List.append_assoc] at whole
    rw [start, last] at offset
    simpa using (List.append_inj whole (by simpa using offset)).1
  apply visible.shown
  rw [front]
  -- the mark in front of the literal is a word of its own
  refine .inr (.inr (.inr (.inl ?_)))
  simp [endsInWord, atBoundary, boundary]

/-- **A raw string whose body may stand in a literal is read as one**, and only such a raw string
is: the text before it and the text behind it keep their lexemes. Then it is blanked out but for its
mark, the rest of the buffer is masked as it is by itself, and no candidate meets it. -/
theorem rawString_reads (hx : EndsInCode xs chunk) (hy : StartsApart ys) (body : Text) :
    (lex (aroundRaw (bufferOf (xs ++ [.code chunk])) body (bufferOf ys)) =
        lex (bufferOf (xs ++ [.code chunk])) ++
          .code 'r' :: .literal '\'' body :: lex (bufferOf ys) ↔ Inner '\'' body) ∧
    (Inner '\'' body →
      mask (aroundRaw (bufferOf (xs ++ [.code chunk])) body (bufferOf ys)) =
        mask (bufferOf (xs ++ [.code chunk])) ++
          'r' :: (List.replicate (body.length + 2) ' ' ++ mask (bufferOf ys)) ∧
      ∀ w, ∀ l ∈ scan w (aroundRaw (bufferOf (xs ++ [.code chunk])) body (bufferOf ys)),
        l.stop ≤ (bufferOf (xs ++ [.code chunk])).length ∨
          (bufferOf (xs ++ [.code chunk])).length + (body.length + 3) ≤ l.offset) := by
  refine ⟨lex_raw_iff hx hy, fun inner => ⟨?_, fun w l hl => ?_⟩⟩
  · have masked : (Lexeme.literal '\'' body).mask = List.replicate (body.length + 2) ' ' := by
      have line : '\n' ∉ '\'' :: (body ++ ['\'']) := by simp [inner.line]
      have length : body.length + 2 = ('\'' :: (body ++ ['\''])).length := by simp
      rw [length]
      exact blankOut_of_line line
    rw [mask, (lex_raw_iff hx hy).2 inner, List.flatMap_append, List.flatMap_cons,
      List.flatMap_cons, masked]
    rfl
  · have apart := offset_ne_of_mem_scan hx hl
    have mem := mem_located_of_mem_scan hl
    rw [(lex_raw_iff hx hy).2 inner, located_append, flatten_lex, Nat.zero_add,
      List.mem_append] at mem
    rcases mem with front | back
    · have within := (le_of_mem_located front).2
      rw [flatten_lex, Nat.zero_add] at within
      exact .inl within
    · -- the mark is no literal, and the quoted part is none of the candidates
      simp only [located, List.mem_cons, Prod.mk.injEq, reduceCtorEq, and_false, false_or] at back
      rcases back with ⟨offset, -⟩ | behind
      · exact absurd offset apart
      · have within := (le_of_mem_located behind).1
        simp only [Lexeme.text, List.length_cons, List.length_append, List.length_nil] at within
        exact .inr (by omega)

end

/-- A call with a text to show, behind the end of a declaration. -/
def callBehind : List Segment :=
  [.code "; f(".toList, .literal '\'' "Hi".toList, .code ");".toList]

theorem startsApart_callBehind : StartsApart callBehind := by
  have inner : Inner '\'' "Hi".toList :=
    .plain (by decide) (by decide) (by decide) (by decide) <|
      .plain (by decide) (by decide) (by decide) (by decide) .nil
  refine ⟨?_, by decide⟩
  exact .code (by decide) (by decide) (by decide) <| .literal (by decide) inner (by decide) <|
    .code (by decide) (by decide) (by decide) .nil

theorem endsInCode_declaration : EndsInCode [] "p = ".toList :=
  ⟨.code (by decide) (by decide) (by decide) .nil, by decide +kernel⟩

/-- A pattern with an escape and a sign in it. -/
theorem rawString_reads_pattern :
    EndsInCode [] "p = ".toList ∧ StartsApart callBehind ∧ Inner '\'' "\\d+$".toList ∧
      mask (aroundRaw "p = ".toList "\\d+$".toList (bufferOf callBehind)) =
        "p = r      ; f(    );".toList ∧
      ∀ w, ∀ l ∈ scan w (aroundRaw "p = ".toList "\\d+$".toList (bufferOf callBehind)),
        l.stop ≤ 4 ∨ 11 ≤ l.offset := by
  have inner : Inner '\'' "\\d+$".toList :=
    .escape (by decide) <| .plain (by decide) (by decide) (by decide) (by decide) <|
      .sign (by decide) .nil
  have reads := rawString_reads endsInCode_declaration startsApart_callBehind "\\d+$".toList
  exact ⟨endsInCode_declaration, startsApart_callBehind, inner,
    (reads.2 inner).1.trans (by decide +kernel), (reads.2 inner).2⟩

/-- The body of a raw string is read like that of any other. A backslash before the closing quote
escapes it, and the code behind the string is blanked out with it; where a brace group is left open,
the opening quote is read as code, and the text from the closing quote to the next one is a
candidate. -/
theorem raw_string_derails :
    EndsInCode [] "p = ".toList ∧ StartsApart callBehind ∧
      mask (aroundRaw "p = ".toList "C:\\".toList (bufferOf callBehind)) ≠
        "p = r     ; f(    );".toList ∧
      ∃ l ∈ scan {} (aroundRaw "p = ".toList "$\x7b".toList (bufferOf callBehind)),
        4 < l.stop ∧ l.offset < 9 :=
  ⟨endsInCode_declaration, startsApart_callBehind, by decide +kernel, by decide +kernel⟩

end Localizer.Dart
