import Localizer.Proofs.Dart.Lexeme
import Localizer.Proofs.Text.Infix

/-!
# Which literals are candidates

The scan walks over the lexemes of a buffer and keeps the offset at which it resumes. All that this
offset tells at a lexeme is whether the scan is passing over the line at the moment (`Resumes`), and
that can be read off the lexemes before it (`passesAfter`). So the candidates are described without
the walk (`mem_scan_iff`): a literal is one if the lexemes before it leave the scan reading, if all of
its groups are closed, and if it is not excluded.
-/

namespace Localizer.Dart

open Text

/-! ## Lines that are passed over -/

/-- Whether a lexeme is a literal with a group that is never closed. -/
def Lexeme.opens : Lexeme → Bool
  | literal _ inner => hasOpenGroup inner
  | _ => false

/-- Whether the scan passes over the rest of the line after a lexeme: it does so from a literal with
an open group on, up to the next newline. -/
def passesAfter (passing : Bool) (x : Lexeme) : Bool :=
  x.opens || (passing && !x.text.contains '\n')

/-- Where the scan resumes when it has come to offset `n` and `rest` follows. -/
def Resumes (passing : Bool) (resume n : Nat) (rest : Text) : Prop :=
  if passing then resume = n + (rest.takeWhile (· != '\n')).length else resume ≤ n

theorem takeWhile_line {a : Text} (line : '\n' ∉ a) (b : Text) :
    (a ++ b).takeWhile (· != '\n') = a ++ b.takeWhile (· != '\n') := by
  apply List.takeWhile_append_of_pos
  intro c hc
  simpa using fun h : c = '\n' => line (h ▸ hc)

theorem takeWhile_of_newline {a : Text} (line : '\n' ∈ a) (b : Text) :
    (a ++ b).takeWhile (· != '\n') = a.takeWhile (· != '\n') := by
  induction a with
  | nil => simp at line
  | cons c a ih =>
    by_cases h : c = '\n'
    · simp [h]
    · have rest := ih ((List.mem_cons.1 line).resolve_left fun e => h e.symm)
      simp [h, rest]

/-- The scan goes on past a lexeme, unless a literal with an open group makes it resume later. -/
theorem Resumes.past {passing : Bool} {resume n : Nat} {x : Lexeme} {rest : Text}
    (h : Resumes passing resume n (x.text ++ rest))
    (opens : x.opens = true → passing = true ∧ '\n' ∉ x.text) :
    Resumes (passesAfter passing x) resume (n + x.text.length) rest := by
  cases passing with
  | false =>
    have closed : x.opens = false := by
      cases hx : x.opens with
      | false => rfl
      | true => simpa using (opens hx).1
    have before : resume ≤ n := h
    have later : resume ≤ n + x.text.length := by omega
    simpa [passesAfter, closed, Resumes] using later
  | true =>
    have stop : resume = n + ((x.text ++ rest).takeWhile (· != '\n')).length := h
    by_cases line : '\n' ∈ x.text
    · have closed : x.opens = false := by
        cases hx : x.opens with
        | false => rfl
        | true => exact absurd line (opens hx).2
      rw [takeWhile_of_newline line] at stop
      have shorter := (List.takeWhile_prefix (l := x.text) (· != '\n')).length_le
      have later : resume ≤ n + x.text.length := by omega
      simpa [passesAfter, closed, line, Resumes] using later
    · rw [takeWhile_line line, List.length_append, ← Nat.add_assoc] at stop
      simpa [passesAfter, line, Resumes] using stop

/-! ## Candidates -/

/-- A literal of a buffer is taken up where the scan is not passing over the line. -/
structure IsCandidate (w : Windows) (s : Text) (passing : Bool) (l : Literal) : Prop where
  taken : passing = false
  closed : hasOpenGroup l.inner = false
  shown : isExcluded w l.quote (.of s l.offset) (s.drop l.stop) = false
  context : l.context = .ofWindow ((Place.of s l.offset).window w.context)

theorem exists_split_cons {x y : Lexeme} {xs : List Lexeme} {P : List Lexeme → Prop} :
    (∃ before after, x :: xs = before ++ y :: after ∧ P before) ↔
      (x = y ∧ P []) ∨ ∃ before after, xs = before ++ y :: after ∧ P (x :: before) := by
  constructor
  · rintro ⟨before, after, eq, h⟩
    cases before with
    | nil => exact .inl ⟨(List.cons.inj eq).1, h⟩
    | cons z before =>
      obtain ⟨rfl, rfl⟩ := List.cons.inj eq
      exact .inr ⟨before, after, rfl, h⟩
  · rintro (⟨rfl, h⟩ | ⟨before, after, rfl, h⟩)
    · exact ⟨[], xs, rfl, h⟩
    · exact ⟨x :: before, after, rfl, h⟩

/-- The candidates among lexemes that start at offset `n` of a buffer. -/
def candidatesFrom (w : Windows) (s : Text) (resume n : Nat) (xs : List Lexeme) : List Literal :=
  candidates w resume ((located n xs).map fun x => (.of s x.1, x))

/-- The literal at offset `n` of a buffer. -/
def literalAt (w : Windows) (s : Text) (n : Nat) (q : Char) (inner : Text) : Literal :=
  ⟨q, inner, n, .ofWindow ((Place.of s n).window w.context)⟩

section

variable {w : Windows} {s : Text} {resume n : Nat} {q : Char} {inner : Text} {xs : List Lexeme}

/-- What the walk makes of a literal. -/
theorem candidatesFrom_literal :
    candidatesFrom w s resume n (.literal q inner :: xs) =
      let l := literalAt w s n q inner
      if n < resume then candidatesFrom w s resume l.stop xs
      else if hasOpenGroup inner then
        candidatesFrom w s (l.stop + ((s.drop l.stop).takeWhile (· != '\n')).length) l.stop xs
      else if isExcluded w q (.of s n) (s.drop l.stop) then candidatesFrom w s resume l.stop xs
      else l :: candidatesFrom w s resume l.stop xs := by
  have behind : (Place.of s n).rest.drop (Lexeme.literal q inner).text.length =
      s.drop (n + (Lexeme.literal q inner).text.length) := List.drop_drop
  rw [candidatesFrom, located, List.map_cons, candidates]
  dsimp only
  rw [behind]
  rfl

theorem candidatesFrom_passed (h : n < resume) :
    candidatesFrom w s resume n (.literal q inner :: xs) =
      candidatesFrom w s resume (literalAt w s n q inner).stop xs := by
  rw [candidatesFrom_literal]
  exact if_pos h

variable (reached : resume ≤ n)
include reached

theorem candidatesFrom_open (opens : hasOpenGroup inner = true) :
    candidatesFrom w s resume n (.literal q inner :: xs) =
      candidatesFrom w s ((literalAt w s n q inner).stop +
          ((s.drop (literalAt w s n q inner).stop).takeWhile (· != '\n')).length)
        (literalAt w s n q inner).stop xs := by
  rw [candidatesFrom_literal]
  dsimp only
  rw [if_neg (Nat.not_lt.2 reached), if_pos opens]

theorem candidatesFrom_excluded (closed : hasOpenGroup inner = false)
    (excluded : isExcluded w q (.of s n) (s.drop (literalAt w s n q inner).stop) = true) :
    candidatesFrom w s resume n (.literal q inner :: xs) =
      candidatesFrom w s resume (literalAt w s n q inner).stop xs := by
  rw [candidatesFrom_literal]
  dsimp only
  rw [if_neg (Nat.not_lt.2 reached), if_neg (by simp [closed]), if_pos excluded]

theorem candidatesFrom_listed (closed : hasOpenGroup inner = false)
    (shown : isExcluded w q (.of s n) (s.drop (literalAt w s n q inner).stop) = false) :
    candidatesFrom w s resume n (.literal q inner :: xs) =
      literalAt w s n q inner ::
        candidatesFrom w s resume (literalAt w s n q inner).stop xs := by
  rw [candidatesFrom_literal]
  dsimp only
  rw [if_neg (Nat.not_lt.2 reached), if_neg (by simp [closed]), if_neg (by simp [shown])]

end

section

variable {w : Windows} {s : Text} {passing : Bool} {resume n : Nat} {l : Literal} {q : Char}
  {inner : Text} {xs : List Lexeme}

/-- A candidate at the offset of a literal is that literal. -/
theorem isCandidate_literal_iff :
    (Lexeme.literal q inner = .literal l.quote l.inner ∧ l.offset = n ∧ IsCandidate w s passing l) ↔
      l = literalAt w s n q inner ∧ IsCandidate w s passing (literalAt w s n q inner) := by
  constructor
  · rintro ⟨same, rfl, candidate⟩
    obtain ⟨rfl, rfl⟩ := Lexeme.literal.inj same
    have here : l = literalAt w s l.offset l.quote l.inner := by rw [literalAt, ← candidate.context]
    exact ⟨here, here ▸ candidate⟩
  · rintro ⟨rfl, candidate⟩
    exact ⟨rfl, rfl, candidate⟩

/-- The walk takes a literal up if it is a candidate, and resumes behind it or at the end of the
line. -/
theorem exists_resumes_literal (line : '\n' ∉ (Lexeme.literal q inner).text)
    (rest : s.drop (literalAt w s n q inner).stop = xs.flatMap Lexeme.text)
    (h : Resumes passing resume n ((Lexeme.literal q inner).text ++ xs.flatMap Lexeme.text)) :
    ∃ later, Resumes (passesAfter passing (.literal q inner)) later (literalAt w s n q inner).stop
        (xs.flatMap Lexeme.text) ∧
      (l ∈ candidatesFrom w s resume n (.literal q inner :: xs) ↔
        (l = literalAt w s n q inner ∧ IsCandidate w s passing (literalAt w s n q inner)) ∨
          l ∈ candidatesFrom w s later (literalAt w s n q inner).stop xs) := by
  cases passing with
  | true =>
    have before : n < resume := by
      have stop : resume = n + _ := h
      rw [takeWhile_line line, List.length_append] at stop
      simp only [Lexeme.text, List.length_cons] at stop
      omega
    refine ⟨resume, h.past fun _ => ⟨rfl, line⟩, ?_⟩
    rw [candidatesFrom_passed before]
    exact (or_iff_right fun h => absurd h.2.taken (by simp)).symm
  | false =>
    cases opens : hasOpenGroup inner with
    | true =>
      refine ⟨(literalAt w s n q inner).stop +
        ((s.drop (literalAt w s n q inner).stop).takeWhile (· != '\n')).length, ?_, ?_⟩
      · simp [passesAfter, Lexeme.opens, opens, Resumes, rest]
      · rw [candidatesFrom_open h opens]
        exact (or_iff_right fun h => absurd (h.2.closed.symm.trans opens) (by simp)).symm
    | false =>
      refine ⟨resume, h.past fun some => ?_, ?_⟩
      · simp [Lexeme.opens, opens] at some
      · cases excluded : isExcluded w q (.of s n) (s.drop (literalAt w s n q inner).stop) with
        | true =>
          rw [candidatesFrom_excluded h opens excluded]
          exact (or_iff_right fun h => absurd (h.2.shown.symm.trans excluded) (by simp)).symm
        | false =>
          rw [candidatesFrom_listed h opens excluded, List.mem_cons]
          exact or_congr_left (and_iff_left ⟨rfl, opens, excluded, rfl⟩).symm

/-- The candidates among lexemes that start at offset `n`. -/
theorem mem_candidatesFrom_iff
    (lines : ∀ q inner, .literal q inner ∈ xs → '\n' ∉ (Lexeme.literal q inner).text)
    (hs : s.drop n = xs.flatMap Lexeme.text)
    (h : Resumes passing resume n (xs.flatMap Lexeme.text)) :
    l ∈ candidatesFrom w s resume n xs ↔
      ∃ before after, xs = before ++ .literal l.quote l.inner :: after ∧
        l.offset = n + (before.flatMap Lexeme.text).length ∧
        IsCandidate w s (before.foldl passesAfter passing) l := by
  induction xs generalizing passing resume n with
  | nil => simp [candidatesFrom, located, candidates]
  | cons x xs ih =>
    rw [List.flatMap_cons] at hs h
    have rest : s.drop (n + x.text.length) = xs.flatMap Lexeme.text := by
      rw [← List.drop_drop, hs, List.drop_left]
    have later {resume : Nat}
        (h : Resumes (passesAfter passing x) resume (n + x.text.length) (xs.flatMap Lexeme.text)) :=
      ih (fun q inner mem => lines q inner (List.mem_cons_of_mem _ mem)) rest h
    rw [exists_split_cons]
    simp only [List.flatMap_cons, List.length_append, ← Nat.add_assoc, List.foldl_cons,
      List.flatMap_nil, List.length_nil, Nat.add_zero, List.foldl_nil]
    cases x with
    | literal q inner =>
      obtain ⟨resume', resumes, taken⟩ :=
        exists_resumes_literal (l := l) (lines q inner List.mem_cons_self) rest h
      rw [taken, isCandidate_literal_iff, ← later resumes]
      rfl
    | _ =>
      have past := h.past (by simp [Lexeme.opens])
      exact (later past).trans (or_iff_right (by simp)).symm

end

/-- **The candidates of a buffer** are the literals that are not passed over, have no open group and
are not excluded. -/
theorem mem_scan_iff {w : Windows} {s : Text} {l : Literal} :
    l ∈ scan w s ↔ ∃ before after, lex s = before ++ .literal l.quote l.inner :: after ∧
      l.offset = (before.flatMap Lexeme.text).length ∧
      IsCandidate w s (before.foldl passesAfter false) l := by
  have lines : ∀ q inner, .literal q inner ∈ lex s → '\n' ∉ (Lexeme.literal q inner).text := by
    intro q inner mem
    exact (single_of_mem_lex mem).2
  have whole : s.drop 0 = (lex s).flatMap Lexeme.text := (flatten_lex s).symm
  have resumes : Resumes false 0 0 ((lex s).flatMap Lexeme.text) := Nat.le_refl 0
  have walk := mem_candidatesFrom_iff (w := w) (l := l) lines whole resumes
  rw [candidatesFrom] at walk
  rw [scan, Place.along_of, walk]
  simp

/-- A candidate is a literal among the lexemes of the buffer, at its offset. -/
theorem mem_located_of_mem_scan {w : Windows} {s : Text} {l : Literal} (hl : l ∈ scan w s) :
    (l.offset, .literal l.quote l.inner) ∈ located 0 (lex s) := by
  obtain ⟨before, after, split, offset, -⟩ := mem_scan_iff.1 hl
  exact mem_located_iff.2 ⟨before, after, split, by simpa using offset⟩

end Localizer.Dart
