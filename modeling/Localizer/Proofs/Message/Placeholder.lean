import Localizer.Proofs.Message.Escape
import Localizer.Proofs.Message.Pieces
import Localizer.Proofs.Text.Infix

/-!
# Placeholders that a message uses

A message uses a placeholder if it holds its name in braces (`Uses`). The text that a message comes of is
cut by its markers into stretches (`stretches`), which are read one by one: braces are no escape, and
an escape that a stretch ends in does not go on in a marker, unless it is the start of a number and the
name of the marker would be the digits (`namesCodePoint`). So a message uses the placeholders of the
markers, and those that some stretch itself shows (`uses_iff`). The induction is on the pieces, the
stretch up to the next marker being kept aside.
-/

namespace Localizer.Message

open Text

/-- A message holds the name of a placeholder in braces. -/
def Uses (m : Message) (name : Text) : Prop := ofText (Piece.marker name).placeholder <:+: m

/-- The texts before, between and behind the markers among pieces; `run` has the characters since the
last marker, the nearest first. -/
def stretches (run : Text) : List Piece → List Text
  | [] => [run.reverse]
  | .plain c :: ps => stretches (c :: run) ps
  | .marker _ :: ps => run.reverse :: stretches [] ps

/-- Whether some marker among pieces is a number in hexadecimal digits directly behind a `\u` that
starts an escape. -/
def namesCodePoint (run : Text) : List Piece → Bool
  | [] => false
  | .plain c :: ps => namesCodePoint (c :: run) ps
  | .marker name :: ps => opensCodePoint run && name.all isHexDigit || namesCodePoint [] ps

/-! ## One marker -/

/-- A name holds no braces and no backslash. -/
theorem not_mem_of_isIdentifier {name : Text} (h : isIdentifier name = true) :
    '{' ∉ name ∧ '}' ∉ name ∧ '\\' ∉ name := by
  have word := isWord_of_isIdentifier h
  have other : isWord '{' = false ∧ isWord '}' = false ∧ isWord '\\' = false := by
    decide +kernel
  refine ⟨fun mem => ?_, fun mem => ?_, fun mem => ?_⟩
  · simp [word _ mem] at other
  · simp [word _ mem] at other
  · simp [word _ mem] at other

theorem placeholder_eq_marked (name : Text) :
    ofText (Piece.marker name).placeholder = marked (.ofChar '{') (.ofChar '}') (ofText name) := by
  simp [Piece.placeholder, ofText, marked]

/-- A message with a placeholder in it uses that one and those on its sides. -/
theorem uses_append {name other : Text} (hn : isIdentifier name = true)
    (ho : isIdentifier other = true) (x y : Message) :
    Uses (x ++ (ofText (Piece.marker other).placeholder ++ y)) name ↔
      Uses x name ∨ name = other ∨ Uses y name := by
  have differ : CodePoint.ofChar '{' ≠ CodePoint.ofChar '}' := by decide
  have apart {t : Text} (h : isIdentifier t = true) :
      CodePoint.ofChar '{' ∉ ofText t ∧ CodePoint.ofChar '}' ∉ ofText t := by
    obtain ⟨first, last, -⟩ := not_mem_of_isIdentifier h
    exact ⟨ofChar_mem_ofText.not.2 first, ofChar_mem_ofText.not.2 last⟩
  have same : ofText name = ofText other ↔ name = other := ⟨ofText_injective, congrArg ofText⟩
  simp only [Uses, placeholder_eq_marked]
  rw [infix_marked_iff differ (apart hn) (apart ho), same]

/-- A placeholder is shown as it is, between what the texts around it show. -/
theorem unescape_placeholder {u v name : Text} {value : Message} (hn : isIdentifier name = true)
    (closed : u.getLast? ≠ some '\\')
    (apart : opensCodePoint u.reverse = true → name.all isHexDigit = false)
    (h : unescape (u ++ ((Piece.marker name).placeholder ++ v)) = .ok value) :
    ∃ x y, unescape u = .ok x ∧ unescape v = .ok y ∧
      value = x ++ (ofText (Piece.marker name).placeholder ++ y) := by
  obtain ⟨-, closes, slash⟩ := not_mem_of_isIdentifier hn
  have first : (Piece.marker name).placeholder ++ v = '{' :: (name ++ '}' :: v) := by
    simp [Piece.placeholder]
  have ends : Closed u (name ++ '}' :: v) := by
    refine ⟨closed, fun opens => ?_⟩
    rw [Option.eq_none_iff_forall_ne_some]
    rintro ⟨n, rest⟩ read
    obtain ⟨ds, whole, -, digits, -⟩ := bracedHex?_eq_some_iff.1 read
    have digitless : '}' ∉ ds := by
      intro mem
      exact absurd (digits '}' mem) (by decide)
    obtain ⟨rfl, -⟩ := append_cons_inj closes digitless (List.cons.inj whole).2
    have all := apart opens
    rw [List.all_eq_true.2 digits] at all
    contradiction
  rw [first] at h
  obtain ⟨x, y, hx, hy, rfl⟩ := unescape_brace ends h
  rw [← first] at hy
  have plain : '\\' ∉ (Piece.marker name).placeholder := by
    simp [Piece.placeholder, slash]
  obtain ⟨z, hz, rfl⟩ := unescape_plain plain hy
  exact ⟨x, z, hx, hz, rfl⟩

/-! ## All markers -/

/-- **A message uses the placeholders of its markers and those that its text shows.** -/
theorem uses_iff {ps : List Piece} {run : Text} {value : Message}
    (simple : ∀ name, .marker name ∈ ps → isIdentifier name = true)
    (unmarked : Unmarked run.head? ps) (apart : namesCodePoint run ps = false)
    (h : unescape (run.reverse ++ ps.flatMap Piece.placeholder) = .ok value) {name : Text}
    (hn : isIdentifier name = true) :
    Uses value name ↔ .marker name ∈ ps ∨
      ∃ t ∈ stretches run ps, ∃ shown, unescape t = .ok shown ∧ Uses shown name := by
  induction ps generalizing run value with
  | nil =>
    rw [List.flatMap_nil, List.append_nil] at h
    simp [stretches, h]
  | cons p ps ih =>
    have later (run : Text) (value : Message) := @ih run value
      fun m mem => simple m (List.mem_cons_of_mem _ mem)
    cases p with
    | plain c =>
      have next : run.reverse ++ (.plain c :: ps).flatMap Piece.placeholder =
          (c :: run).reverse ++ ps.flatMap Piece.placeholder := by
        simp [Piece.placeholder]
      rw [next] at h
      rw [later _ _ unmarked apart h]
      simp [stretches]
    | marker other =>
      have ho := simple other List.mem_cons_self
      simp only [namesCodePoint, Bool.or_eq_false_iff, Bool.and_eq_false_iff] at apart
      have closed : run.reverse.getLast? ≠ some '\\' := by simpa using unmarked.1
      have number (opens : opensCodePoint run.reverse.reverse = true) :
          other.all isHexDigit = false := by
        rw [List.reverse_reverse] at opens
        exact apart.1.resolve_left (by simp [opens])
      rw [List.flatMap_cons] at h
      obtain ⟨x, y, hx, hy, rfl⟩ := unescape_placeholder ho closed number h
      have behind := later [] y unmarked.2 apart.2 hy
      rw [uses_append hn ho, behind]
      simp only [stretches, List.mem_cons, Piece.marker.injEq, exists_eq_or_imp, hx,
        Except.ok.injEq, exists_eq_left']
      constructor
      · rintro (front | rfl | marker | shown)
        · exact .inr (.inl front)
        · exact .inl (.inl rfl)
        · exact .inl (.inr marker)
        · exact .inr (.inr shown)
      · rintro ((rfl | marker) | front | shown)
        · exact .inr (.inl rfl)
        · exact .inr (.inr (.inl marker))
        · exact .inl front
        · exact .inr (.inr (.inr shown))

end Localizer.Message
