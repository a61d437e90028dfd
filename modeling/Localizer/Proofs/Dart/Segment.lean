import Localizer.Proofs.Dart.Scan

/-!
# Well-formed buffers

A buffer that is written as a sequence of segments (chunks of code, comments, strings) is cut into
just these: the lexemes of a well-formed sequence are those of its segments, one after the other
(`lex_segments`). A segment decides where it ends by itself, but for three kinds, and for these
`WellFormed` asks what follows: a chunk of code must not open a comment together with it, a line
comment ends with its line, and a string does not touch another one, since an empty literal and a
quote would read as the opening of a triple-quoted string.
-/

namespace Localizer.Dart

open Text

/-- A unit of a buffer, as it is written. -/
inductive Segment where
  /-- A chunk of code. -/
  | code (chunk : Text)
  /-- A comment up to the end of the line. -/
  | lineComment (body : Text)
  /-- A comment between its marks. -/
  | blockComment (body : Text)
  /-- A string between three quotes. -/
  | block (quote : Char) (body : Text)
  /-- A string on one line. -/
  | literal (quote : Char) (inner : Text)
  deriving Repr, DecidableEq

namespace Segment

/-- The characters of a segment. -/
def text : Segment → Text
  | code chunk => chunk
  | lineComment body => '/' :: '/' :: body
  | blockComment body => '/' :: '*' :: (body ++ ['*', '/'])
  | block q body => q :: q :: q :: (body ++ [q, q, q])
  | literal q inner => q :: (inner ++ [q])

/-- Code as it is, and a blank for every other character but a newline. -/
def mask : Segment → Text
  | code chunk => chunk
  | x => blankOut x.text

/-- Whether a segment is a string. -/
def isString : Segment → Bool
  | block .. => true
  | literal .. => true
  | _ => false

/-- The lexemes of a segment: each character of code is one. -/
def lexemes : Segment → List Lexeme
  | code chunk => chunk.map .code
  | lineComment body => [.comment ('/' :: '/' :: body)]
  | blockComment body => [.comment ('/' :: '*' :: (body ++ ['*', '/']))]
  | block q body => [.block (q :: q :: q :: (body ++ [q, q, q]))]
  | literal q inner => [.literal q inner]

theorem flatMap_text_lexemes (x : Segment) : x.lexemes.flatMap Lexeme.text = x.text := by
  cases x with
  | code chunk => simp [lexemes, text]
  | _ => simp [lexemes, text, Lexeme.text]

theorem flatMap_mask_lexemes (x : Segment) : x.lexemes.flatMap Lexeme.mask = x.mask := by
  cases x with
  | code chunk => simp [lexemes, mask]
  | _ => simp [lexemes, mask, Lexeme.mask, text, Lexeme.text]

end Segment

/-- The buffer that segments make up. -/
def bufferOf (xs : List Segment) : Text := xs.flatMap Segment.text

/-- A comment is opened within a chunk of code, or by its last character and the next one. -/
def OpensComment (chunk rest : Text) : Prop :=
  ['/', '/'] <:+: chunk ++ rest.take 1 ∨ ['/', '*'] <:+: chunk ++ rest.take 1

instance (chunk rest : Text) : Decidable (OpensComment chunk rest) :=
  inferInstanceAs (Decidable (_ ∨ _))

/-- Segments that make up a well-formed buffer. -/
inductive WellFormed : List Segment → Prop
  | nil : WellFormed []
  /-- A chunk of code is not empty, so that what it stands between does not touch. -/
  | code {chunk : Text} {xs : List Segment} (filled : chunk ≠ []) (quote : ∀ c ∈ chunk, ¬ IsQuote c)
    (openers : ¬ OpensComment chunk (bufferOf xs)) (rest : WellFormed xs) :
    WellFormed (.code chunk :: xs)
  | lineComment {body : Text} {xs : List Segment} (line : '\n' ∉ body)
    (stop : (bufferOf xs).head? = none ∨ (bufferOf xs).head? = some '\n') (rest : WellFormed xs) :
    WellFormed (.lineComment body :: xs)
  | blockComment {body : Text} {xs : List Segment} (closed : ¬ ['*', '/'] <:+: body)
    (rest : WellFormed xs) : WellFormed (.blockComment body :: xs)
  | block {q : Char} {body : Text} {xs : List Segment} (quote : IsQuote q) (escape : '\\' ∉ body)
    (closed : ¬ [q, q, q] <:+: body) (stop : body.getLast? ≠ some q)
    (apart : ∀ x ∈ xs.head?, x.isString = false) (rest : WellFormed xs) :
    WellFormed (.block q body :: xs)
  | literal {q : Char} {inner : Text} {xs : List Segment} (quote : IsQuote q) (body : Inner q inner)
    (apart : ∀ x ∈ xs.head?, x.isString = false) (rest : WellFormed xs) :
    WellFormed (.literal q inner :: xs)

/-! ## The lexemes of a well-formed buffer -/

/-- Code stands in front of lexemes that stand, if it opens no comment with them. -/
theorem standing_chunk {chunk : Text} {ys : List Lexeme} (quote : ∀ c ∈ chunk, ¬ IsQuote c)
    (openers : ¬ OpensComment chunk (ys.flatMap Lexeme.text)) (h : Standing ys) :
    Standing (chunk.map .code ++ ys) := by
  induction chunk with
  | nil => exact h
  | cons c chunk ih =>
    have tail : ¬ OpensComment chunk (ys.flatMap Lexeme.text) := fun h =>
      openers (h.imp List.infix_cons List.infix_cons)
    rw [List.map_cons, List.cons_append]
    refine ⟨.code (quote c (by simp)) ?_, ih (fun d hd => quote d (by simp [hd])) tail⟩
    rintro rfl
    have opened (d : Char) (h : (chunk ++ ys.flatMap Lexeme.text).head? = some d) :
        ['/', d] <:+: '/' :: chunk ++ (ys.flatMap Lexeme.text).take 1 := by
      cases chunk with
      | nil =>
        obtain ⟨r, hr⟩ := List.head?_eq_some_iff.1 h
        rw [List.nil_append] at hr
        exact ⟨[], [], by simp [hr]⟩
      | cons e chunk =>
        obtain rfl : e = d := by simpa using h
        exact ⟨[], chunk ++ (ys.flatMap Lexeme.text).take 1, by simp⟩
    rw [List.flatMap_append, flatMap_text_map_code]
    exact ⟨fun h => openers (.inl (opened _ h)), fun h => openers (.inr (opened _ h))⟩

/-- What follows a string in a well-formed buffer does not start with a quote. -/
theorem head?_ne_of_apart {xs : List Segment} (h : WellFormed xs)
    (apart : ∀ x ∈ xs.head?, x.isString = false) {q : Char} (quote : IsQuote q) :
    (bufferOf xs).head? ≠ some q := by
  cases h with
  | nil => simp [bufferOf]
  | @code chunk xs filled unquoted =>
    cases chunk with
    | nil => exact absurd rfl filled
    | cons c chunk =>
      have other := unquoted c (by simp)
      rintro h
      obtain rfl : c = q := by simpa [bufferOf, Segment.text] using h
      exact other quote
  | lineComment =>
    intro h
    obtain rfl : '/' = q := by simpa [bufferOf, Segment.text] using h
    exact absurd quote (by decide)
  | blockComment =>
    intro h
    obtain rfl : '/' = q := by simpa [bufferOf, Segment.text] using h
    exact absurd quote (by decide)
  | block => exact absurd (apart _ rfl) (by simp [Segment.isString])
  | literal => exact absurd (apart _ rfl) (by simp [Segment.isString])

theorem flatMap_text_segments (xs : List Segment) :
    (xs.flatMap Segment.lexemes).flatMap Lexeme.text = bufferOf xs := by
  simp only [List.flatMap_assoc, Segment.flatMap_text_lexemes, bufferOf]

theorem flatMap_mask_segments (xs : List Segment) :
    (xs.flatMap Segment.lexemes).flatMap Lexeme.mask = xs.flatMap Segment.mask := by
  simp only [List.flatMap_assoc, Segment.flatMap_mask_lexemes]

/-- The lexemes of well-formed segments stand. -/
theorem standing_segments {xs : List Segment} (h : WellFormed xs) :
    Standing (xs.flatMap Segment.lexemes) := by
  induction h with
  | nil => trivial
  | @code chunk xs _ quote openers _ ih =>
    rw [List.flatMap_cons]
    refine standing_chunk quote ?_ ih
    rwa [flatMap_text_segments]
  | @lineComment body xs line stop _ ih =>
    rw [← flatMap_text_segments xs] at stop
    exact ⟨.line line stop, ih⟩
  | blockComment closed _ ih => exact ⟨.remark closed, ih⟩
  | block quote escape closed stop _ _ ih =>
    exact ⟨.block quote (escapedBody?_append escape closed stop quote), ih⟩
  | @literal q inner xs quote body apart rest ih =>
    have next := head?_ne_of_apart rest apart quote
    rw [← flatMap_text_segments xs] at next
    exact ⟨.literal quote body fun _ => next, ih⟩

/-- The lexemes of a well-formed buffer stand. -/
theorem standing_lex {xs : List Segment} (h : WellFormed xs) : Standing (lex (bufferOf xs)) := by
  have lexed := lex_of_standing (standing_segments h)
  rw [flatMap_text_segments] at lexed
  rw [lexed]
  exact standing_segments h

/-- A literal among the lexemes of segments is a segment of its own. -/
theorem exists_literal_segment {xs : List Segment} {n m : Nat} {q : Char} {inner : Text}
    (h : (m, .literal q inner) ∈ located n (xs.flatMap Segment.lexemes)) :
    ∃ before after, xs = before ++ .literal q inner :: after ∧
      m = n + (bufferOf before).length := by
  induction xs generalizing n with
  | nil => simp [located] at h
  | cons x xs ih =>
    rw [List.flatMap_cons, located_append, List.mem_append] at h
    rcases h with h | h
    · obtain ⟨before, after, eq, rfl⟩ := mem_located_iff.1 h
      have mem : Lexeme.literal q inner ∈ x.lexemes := by simp [eq]
      cases x with
      | literal =>
        obtain ⟨rfl, rfl⟩ : q = _ ∧ inner = _ := by simpa [Segment.lexemes] using mem
        obtain rfl : before = [] := by
          cases before with
          | nil => rfl
          | cons => simp [Segment.lexemes] at eq
        exact ⟨[], xs, rfl, rfl⟩
      | _ => simp [Segment.lexemes] at mem
    · obtain ⟨before, after, rfl, rfl⟩ := ih h
      refine ⟨x :: before, after, rfl, ?_⟩
      simp [Segment.flatMap_text_lexemes, bufferOf, Nat.add_assoc]

/-- **A well-formed buffer is cut into its segments.** Its lexemes are those of its segments; masking
keeps its code and blanks out the rest; and every candidate is one of its literals. -/
theorem lex_segments {xs : List Segment} (h : WellFormed xs) :
    lex (bufferOf xs) = xs.flatMap Segment.lexemes ∧
      mask (bufferOf xs) = xs.flatMap Segment.mask ∧
      ∀ w, ∀ l ∈ scan w (bufferOf xs), ∃ before after,
        xs = before ++ .literal l.quote l.inner :: after ∧ l.offset = (bufferOf before).length := by
  have standing := standing_segments h
  have lexed := lex_of_standing standing
  have masked := mask_of_standing standing
  rw [flatMap_text_segments] at lexed masked
  refine ⟨lexed, masked.trans (flatMap_mask_segments xs), ?_⟩
  intro w l hl
  have mem := mem_located_of_mem_scan hl
  rw [lexed] at mem
  simpa using exists_literal_segment mem

/-- An empty literal, a group with quotes in it, and quotes in comments and in a triple-quoted
string. -/
def quoteRich : List Segment :=
  [.code "f(".toList, .literal '\'' [], .code ", ".toList,
   .literal '"' "$a$\x7bb[\"c\"]\x7d\\\"".toList, .code "/2); ".toList, .lineComment " it's".toList,
   .code "\n".toList, .blockComment " \"x\" //*".toList, .code " ".toList,
   .block '\'' "''y".toList]

theorem wellFormed_quoteRich : WellFormed quoteRich := by
  have inner : Inner '"' "$a$\x7bb[\"c\"]\x7d\\\"".toList :=
    .sign (by decide) <| .plain (by decide) (by decide) (by decide) (by decide) <|
      .group (e := "b[\"c\"]".toList) (by decide) (by decide) <| .escape (by decide) .nil
  exact .code (by decide) (by decide) (by decide) <| .literal (by decide) .nil (by decide) <|
    .code (by decide) (by decide) (by decide) <| .literal (by decide) inner (by decide) <|
    .code (by decide) (by decide) (by decide) <| .lineComment (by decide) (by decide) <|
    .code (by decide) (by decide) (by decide) <| .blockComment (by decide) <|
    .code (by decide) (by decide) (by decide) <|
    .block (by decide) (by decide) (by decide) (by decide) (by decide) .nil

theorem lex_segments_quoteRich : WellFormed quoteRich ∧
    lex (bufferOf quoteRich) = quoteRich.flatMap Segment.lexemes ∧
      mask (bufferOf quoteRich) = quoteRich.flatMap Segment.mask ∧
      ∀ w, ∀ l ∈ scan w (bufferOf quoteRich), ∃ before after,
        quoteRich = before ++ .literal l.quote l.inner :: after ∧
          l.offset = (bufferOf before).length :=
  ⟨wellFormed_quoteRich, lex_segments wellFormed_quoteRich⟩

end Localizer.Dart
