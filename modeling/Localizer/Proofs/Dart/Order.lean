import Localizer.Proofs.Dart.Scan

/-!
# Candidates in order

Whatever a buffer holds, however broken it is, its lexemes follow one another, and the candidates are
some of the literals among them, in their order (`candidates_sublist`). So the spans of candidates
increase and do not meet (`pairwise_scan`), and each candidate stands in its span, on one line and
between two quotes of a kind (`stands_of_mem_scan`). Nothing is asked of the buffer here.
-/

namespace Localizer.Dart

open Text

/-! ## The order -/

theorem pairwise_located (n : Nat) (xs : List Lexeme) :
    (located n xs).Pairwise fun a b => a.1 + a.2.text.length ≤ b.1 := by
  induction xs generalizing n with
  | nil => exact .nil
  | cons x xs ih =>
    refine List.pairwise_cons.2 ⟨?_, ih _⟩
    rintro ⟨m, y⟩ mem
    exact (le_of_mem_located mem).1

/-- A literal as a lexeme with its offset. -/
def Literal.located (l : Literal) : Nat × Lexeme := (l.offset, .literal l.quote l.inner)

/-- The candidates are some of the lexemes, in their order. -/
theorem candidates_sublist (w : Windows) (resume : Nat) (xs : List (Place Char × Nat × Lexeme)) :
    ((candidates w resume xs).map Literal.located).Sublist (xs.map Prod.snd) := by
  induction xs generalizing resume with
  | nil => simp [candidates]
  | cons x xs ih =>
    obtain ⟨p, start, y⟩ := x
    cases y with
    | literal q inner =>
      simp only [candidates, List.map_cons]
      split
      next => exact (ih _).cons _
      next =>
        split
        next => exact (ih _).cons _
        next =>
          split
          next => exact (ih _).cons _
          next => exact (ih _).cons_cons _
    | _ => exact (ih _).cons _

theorem scan_sublist (w : Windows) (s : Text) :
    ((scan w s).map Literal.located).Sublist (Dart.located 0 (lex s)) := by
  have sublist := candidates_sublist w 0 ((Place.of s 0).along Prod.fst (Dart.located 0 (lex s)))
  have whole : ((Place.of s 0).along Prod.fst (Dart.located 0 (lex s))).map Prod.snd =
      Dart.located 0 (lex s) := by
    rw [Place.along_of, List.map_map]
    exact List.map_id _
  rwa [whole] at sublist

/-- The spans of candidates increase and do not meet. -/
theorem pairwise_scan (w : Windows) (s : Text) :
    (scan w s).Pairwise fun a b => a.stop ≤ b.offset :=
  List.pairwise_map.1 ((pairwise_located 0 (lex s)).sublist (scan_sublist w s))

/-- A candidate stands in its span, between two quotes and on one line. -/
theorem stands_of_mem_scan {w : Windows} {s : Text} {l : Literal} (h : l ∈ scan w s) :
    slice s l.offset l.stop = l.text ∧ IsQuote l.quote ∧ '\n' ∉ l.text := by
  have mem : l.located ∈ Dart.located 0 (lex s) :=
    (scan_sublist w s).subset (List.mem_map_of_mem h)
  obtain ⟨before, after, split, offset⟩ := mem_located_iff.1 mem
  rw [Nat.zero_add] at offset
  have literal : Lexeme.literal l.quote l.inner ∈ lex s := by
    simp [split]
  refine ⟨?_, single_of_mem_lex literal⟩
  have whole := flatten_lex s
  rw [split, List.flatMap_append, List.flatMap_cons] at whole
  have text : (Lexeme.literal l.quote l.inner).text = l.text := rfl
  rw [text, ← List.append_assoc] at whole
  have stop : l.stop = (before.flatMap Lexeme.text ++ l.text).length := by
    rw [Literal.stop, offset, List.length_append]
  rw [← whole, slice, stop, List.take_left, offset, List.drop_left]

end Localizer.Dart
