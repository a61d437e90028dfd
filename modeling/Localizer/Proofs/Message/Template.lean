import Localizer.Message.Template

/-!
# Templates without variables

A text that names no variable is its own template (`Template.text_of_names_eq_nil`). Both readings
of a text, that of its groups and that of its words, cut it into pieces; as long as no piece is a
marker, the pieces are the characters of the text.
-/

namespace Localizer.Message

open Text

theorem flatMap_placeholder_groupPieces (before : Option Char) (s : Text)
    (h : (groupPieces before s).filterMap Piece.name? = []) :
    (groupPieces before s).flatMap Piece.placeholder = s := by
  fun_induction groupPieces before s with
  | case1 => rfl
  | case2 => simp [Piece.name?] at h
  | case3 before r _ ih => simpa [Piece.placeholder] using ih (by simpa [Piece.name?] using h)
  | case4 before c r _ ih => simpa [Piece.placeholder] using ih (by simpa [Piece.name?] using h)

theorem flatMap_placeholder_wordPieces (before : Option Char) (s : Text)
    (h : (wordPieces before s).filterMap Piece.name? = []) :
    (wordPieces before s).flatMap Piece.placeholder = s := by
  fun_induction wordPieces before s with
  | case1 => rfl
  | case2 => simp [Piece.name?] at h
  | case3 before r _ ih => simpa [Piece.placeholder] using ih (by simpa [Piece.name?] using h)
  | case4 before c r _ ih => simpa [Piece.placeholder] using ih (by simpa [Piece.name?] using h)

theorem eq_nil_of_eraseDups_eq_nil {α : Type} [BEq α] {l : List α} (h : l.eraseDups = []) :
    l = [] := by
  cases l with
  | nil => rfl
  | cons a l => simp [List.eraseDups_cons] at h

/-- The template of a text that names no variable is the text. -/
theorem Template.text_of_names_eq_nil {s : Text} (h : (Template.of s).names = []) :
    (Template.of s).text = s := by
  have markers := eq_nil_of_eraseDups_eq_nil h
  rw [List.filterMap_append, List.append_eq_nil_iff] at markers
  obtain ⟨groups, words⟩ := markers
  simp only [Template.of]
  rw [flatMap_placeholder_wordPieces _ _ words, flatMap_placeholder_groupPieces _ _ groups]

theorem nodup_eraseDups {α : Type} [BEq α] [LawfulBEq α] (l : List α) : l.eraseDups.Nodup := by
  match l with
  | [] => simp
  | a :: l =>
    have shorter : (l.filter fun b => !b == a).length < (a :: l).length :=
      Nat.lt_succ_of_le (List.length_filter_le _ _)
    rw [List.eraseDups_cons, List.nodup_cons, List.mem_eraseDups]
    exact ⟨by simp, nodup_eraseDups _⟩
termination_by l.length
decreasing_by exact shorter

/-- No variable of a text is named twice. -/
theorem Template.nodup_names (s : Text) : (Template.of s).names.Nodup := nodup_eraseDups _

end Localizer.Message
