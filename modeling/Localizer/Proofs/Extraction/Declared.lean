import Localizer.Proofs.Extraction.Entries
import Localizer.Proofs.Message.Placeholder

/-!
# Which placeholders are declared

The entry of an accepted text declares the names of its markers, which are identifiers
(`isIdentifier_of_mem_placeholderNames`). Its value uses these and the names that the text has in braces of its own, in what
its stretches between the markers show (`Spells`): braces are no escape, so they stay in the value
and look like a placeholder there (`uses_value_iff`). Every entry of a session is the one of an accepted
text, so this goes for all of them (`Session.after_declared`).
-/

namespace Localizer.Extraction

open Text Message Resource

/-- A text has a name in braces of its own: in what it shows before, between or behind its markers. -/
def Spells (content name : Text) : Prop :=
  ∃ t ∈ stretches [] (pieces content), ∃ shown, unescape t = .ok shown ∧ Uses shown name

section

variable {content : Text} {e : Entry} (h : IsEntryOf content e)
  (simple : (Template.of content).isSimple = true) {name : Text}
include h simple

theorem isIdentifier_of_mem_placeholderNames (mem : name ∈ placeholderNames e) :
    isIdentifier name = true := by
  rw [h.placeholderNames] at mem
  exact List.all_eq_true.1 simple name mem

/-- The value of an entry uses the placeholders that are declared, and what its text spells. -/
theorem uses_value_iff (apart : namesCodePoint [] (pieces content) = false)
    (hn : isIdentifier name = true) :
    Uses e.value name ↔ name ∈ placeholderNames e ∨ Spells content name := by
  have value : unescape (([] : Text).reverse ++ (pieces content).flatMap Piece.placeholder) =
      .ok e.value := by
    simpa [text_of_simple simple] using h.value
  have identifiers (m : Text) (mem : .marker m ∈ pieces content) : isIdentifier m = true :=
    isIdentifier_of_mem_pieces simple mem
  have unmarked : Unmarked ([] : Text).head? (pieces content) := unmarked_pieces content
  rw [uses_iff identifiers unmarked apart value hn, h.placeholderNames,
    mem_names_iff_of_simple simple, Spells]

end

namespace Session

/-- **The placeholders that an entry uses.** Whatever buffers a fresh session is fed, each of its entries is
the one of an accepted text that some buffer records, under the key of that text. All placeholders that it
declares are identifiers. Unless a marker of the text is the hexadecimal number behind a `\u`, the identifiers
that the value has in braces are those that are declared and those that the text itself spells. -/
theorem after_declared (bs : List Feed) {e : Entry} (he : e ∈ (after bs).table.recorded) :
    ∃ content, (∃ b ∈ bs, content ∈ b.recordedTexts ∧ accepts b.filter content = true) ∧
      (after bs).keys.lookup? content = some e.key ∧ IsEntryOf content e ∧
      (∀ name ∈ placeholderNames e, isIdentifier name = true) ∧
      (namesCodePoint [] (pieces content) = false → ∀ name, isIdentifier name = true →
        (Uses e.value name ↔ name ∈ placeholderNames e ∨ Spells content name)) := by
  obtain ⟨texts, -, mem, entries⟩ := exists_texts_after bs
  obtain ⟨content, hcontent, found, entry⟩ := exists_of_forall₂ entries he
  obtain ⟨b, hb, recorded⟩ := List.mem_flatMap.1 ((mem content).1 hcontent)
  have accepted := Feed.accepts_of_mem_recordedTexts recorded
  have simple : (Template.of content).isSimple = true := (Bool.and_eq_true_iff.1 accepted).2
  have isEntry := (isEntryOf_entryOf entry).2
  refine ⟨content, ⟨b, hb, recorded, accepted⟩, found, isEntry, ?_, ?_⟩
  · intro name declared
    exact isIdentifier_of_mem_placeholderNames isEntry simple declared
  · intro apart name hn
    exact uses_value_iff isEntry simple apart hn

/-- A text with a marker and with braces of its own. -/
def bracesText : Text := "Hi $name, \x7bx\x7d".toList

/-- A source with a literal of this text. -/
def bracesSource : Feed where
  content := "Text('Hi $name, \x7bx\x7d')".toList

/-- Its entry. -/
def bracesEntry : Entry where
  key := "hiX".toList
  value := ofText "Hi \x7bname\x7d, \x7bx\x7d".toList
  description := "Localized string with parameters: name".toList
  placeholders := some [.ofVariable "name".toList]

/-- A name with a letter beyond the basic alphabet. -/
def accentEntry : Entry where
  key := "hi".toList
  value := ofText "Hi \x7bnaïve\x7d".toList
  description := "Localized string with parameters: naïve".toList
  placeholders := some [.ofVariable "naïve".toList]

/-- A name that is the number of a code point. -/
def codePointEntry : Entry where
  key := "aU".toList
  value := ofText "A ઼".toList
  description := "Localized string with parameters: abc".toList
  placeholders := some [.ofVariable "abc".toList]

/-- What this source and two others record. They are computed together, since most of it is to read
the marks of code. -/
theorem recorded_sources :
    bracesSource.issuedTexts = [bracesText] ∧
      (after [bracesSource]).table.recorded = [bracesEntry] ∧
      (after [{ content := "Text('Hi $naïve')".toList }]).table.recorded = [accentEntry] ∧
      (after [{ content := "Text('A \\u$\x7babc\x7d')".toList }]).table.recorded =
        [codePointEntry] := by
  decide +kernel

theorem after_declared_bracesSource :
    bracesEntry ∈ (after [bracesSource]).table.recorded ∧ isIdentifier "x".toList = true ∧
      (Uses bracesEntry.value "x".toList ↔
        "x".toList ∈ placeholderNames bracesEntry ∨ Spells bracesText "x".toList) := by
  obtain ⟨issued, table, -⟩ := recorded_sources
  have mem : bracesEntry ∈ (after [bracesSource]).table.recorded :=
    table ▸ List.mem_singleton_self _
  have recorded : bracesSource.recordedTexts = [bracesText] := by
    rw [← Feed.filter_issuedTexts, issued]
    decide +kernel
  have x : isIdentifier "x".toList = true := by
    decide +kernel
  obtain ⟨content, ⟨b, hb, hcontent, -⟩, -, -, -, used⟩ := after_declared [bracesSource] mem
  obtain rfl := List.mem_singleton.1 hb
  rw [recorded] at hcontent
  obtain rfl := List.mem_singleton.1 hcontent
  exact ⟨mem, x, used (by decide +kernel) _ x⟩

/-- The plain names that an entry uses are exactly those that it declares. -/
def Matches (e : Entry) : Prop :=
  ∀ name, (IsPlainName name ∧ Uses e.value name) ↔ name ∈ placeholderNames e

/-- Braces of a text are undeclared placeholders, a declared name may have letters beyond the basic
alphabet, and a marker behind a `\u` that is a hexadecimal number is not used. -/
theorem declared_differ_from_used :
    (∃ e ∈ (after [bracesSource]).table.recorded, ¬ Matches e) ∧
    (∃ e ∈ (after [{ content := "Text('Hi $naïve')".toList }]).table.recorded, ¬ Matches e) ∧
    ∃ e ∈ (after [{ content := "Text('A \\u$\x7babc\x7d')".toList }]).table.recorded,
      ¬ Matches e := by
  obtain ⟨-, braces, accent, codePoint⟩ := recorded_sources
  refine ⟨⟨bracesEntry, braces ▸ List.mem_singleton_self _, ?_⟩,
    ⟨accentEntry, accent ▸ List.mem_singleton_self _, ?_⟩,
    ⟨codePointEntry, codePoint ▸ List.mem_singleton_self _, ?_⟩⟩
  · intro same
    have used : Uses bracesEntry.value "x".toList := by
      rw [Uses, ← occursIn_iff]
      decide +kernel
    exact absurd ((same "x".toList).1 ⟨by decide, used⟩) (by decide)
  · intro same
    exact absurd ((same "naïve".toList).2 (by decide)).1 (by decide)
  · intro same
    have used := ((same "abc".toList).2 (by decide)).2
    rw [Uses, ← occursIn_iff] at used
    exact absurd used (by decide +kernel)

end Session

end Localizer.Extraction
