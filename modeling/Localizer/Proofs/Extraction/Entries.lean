import Localizer.Proofs.Extraction.Accepted
import Mathlib.Data.List.Dedup

/-!
# Which texts have entries

A session takes up texts one after the other (`Session.note`): it gives each of them a key and, if its
escapes are right, an entry. A buffer brings the texts of its accepted literals, up to the first with a
bad escape (`Feed.issuedTexts`), and those before that one are recorded (`Feed.recordedTexts`). Neither list
depends on the session.

What a session has taken up decides what it holds, up to the names of the keys (`Session.Holds`): the
induction is on the texts, and a text that comes again finds its key and its entry. So the entries belong
one by one to the distinct texts that were recorded, and other orders of the buffers only change keys
(`Session.after_entries`).
-/

namespace Localizer.Extraction

open Text Dart Message Resource Edit

/-! ## The texts that a buffer brings -/

/-- Whether the escapes of a literal's text are right, so that it gets an entry. -/
def isReadable (content : Text) : Bool := (unescape (Template.of content).text).isOk

/-- The texts of the accepted ones among literals, in order. -/
def acceptedTexts (f : Filter) (ls : List Literal) : List Text :=
  (ls.map (·.inner)).filter (accepts f)

/-- The texts at the front of a list up to and with the first that is not readable. -/
def upToBad (texts : List Text) : List Text := texts.take ((texts.takeWhile isReadable).length + 1)

namespace Feed

/-- The texts that a buffer gives entries: those of its accepted literals before the first with a bad
escape. -/
def recordedTexts (b : Feed) : List Text :=
  (acceptedTexts b.filter (scan b.windows b.content)).takeWhile isReadable

/-- The texts that a buffer gives keys: the recorded ones, and the one whose bad escape ends the buffer. -/
def issuedTexts (b : Feed) : List Text :=
  upToBad (acceptedTexts b.filter (scan b.windows b.content))

end Feed

theorem upToBad_cons (content : Text) (texts : List Text) :
    upToBad (content :: texts) =
      if isReadable content then content :: upToBad texts else [content] := by
  cases h : isReadable content <;> simp [upToBad, h]

theorem filter_upToBad (texts : List Text) :
    (upToBad texts).filter isReadable = texts.takeWhile isReadable := by
  induction texts with
  | nil => rfl
  | cons content texts ih =>
    rw [upToBad_cons]
    cases h : isReadable content with
    | true => simpa [h] using ih
    | false => simp [h]

theorem Feed.filter_issuedTexts (b : Feed) :
    b.issuedTexts.filter isReadable = b.recordedTexts :=
  filter_upToBad _

/-- What is recorded of a buffer is accepted. -/
theorem Feed.accepts_of_mem_recordedTexts {b : Feed} {content : Text}
    (h : content ∈ b.recordedTexts) : accepts b.filter content = true := by
  have mem := (List.takeWhile_prefix isReadable).subset h
  exact (List.mem_filter.1 mem).2

theorem isReadable_of_entryOf {key content : Text} {e : Entry}
    (h : entryOf key (Template.of content) = .ok e) : isReadable content = true := by
  have value := (isEntryOf_entryOf h).2.value
  rw [isReadable, value]
  rfl

theorem not_isReadable_of_entryOf {key content : Text} {bad : EscapeError}
    (h : entryOf key (Template.of content) = .error bad) : isReadable content = false := by
  simp only [entryOf, bind, Except.bind, pure, Except.pure] at h
  split at h
  next value =>
    rw [isReadable, value]
    rfl
  next => cases h

/-! ## Taking up texts -/

namespace Session

/-- A text is given a key and, if its escapes are right, an entry. -/
def note (s : Session) (content : Text) : Session :=
  let (key, keys) := s.keys.generate s.table content
  match entryOf key (Template.of content) with
  | .error _ => { s with keys }
  | .ok entry => ⟨s.table.record entry, keys⟩

/-- Collecting takes up the texts of the literals that are accepted, up to a bad escape. -/
theorem collect_eq_foldl (f : Filter) (s : Session) (ls : List Literal) :
    (collect f s ls).1 = (upToBad (acceptedTexts f ls)).foldl note s := by
  induction ls generalizing s with
  | nil => rfl
  | cons l ls ih =>
    have refused (h : accepts f l.inner = false) :
        acceptedTexts f (l :: ls) = acceptedTexts f ls := by
      simp [acceptedTexts, h]
    have taken (h : accepts f l.inner = true) :
        acceptedTexts f (l :: ls) = l.inner :: acceptedTexts f ls := by
      simp [acceptedTexts, h]
    simp only [collect]
    split
    next ignored => rw [ih, refused (by simp [accepts, ignored])]
    next kept =>
      split
      next simple =>
        rw [taken (by simp [accepts, kept, simple]), upToBad_cons]
        split
        next bad entry =>
          rw [not_isReadable_of_entryOf entry]
          simp [note, entry]
        next e entry =>
          rw [isReadable_of_entryOf entry, if_pos rfl, List.foldl_cons, ih]
          simp only [note, entry]
      next notSimple => rw [ih, refused (by simp [accepts, notSimple])]

theorem feed_eq_foldl (s : Session) (b : Feed) : s.feed b = b.issuedTexts.foldl note s :=
  collect_eq_foldl b.filter s (scan b.windows b.content)

theorem after_eq_foldl (bs : List Feed) :
    after bs = (bs.flatMap Feed.issuedTexts).foldl note {} := by
  have step : Session.feed = fun s b => b.issuedTexts.foldl note s := by
    funext s b
    exact feed_eq_foldl s b
  rw [after, step, List.foldl_flatMap]

/-! ## What a session holds -/

/-- An entry is the one of this text, under the key that the text has. -/
def Records (s : Session) (content : Text) (e : Entry) : Prop :=
  s.keys.lookup? content = some e.key ∧ entryOf e.key (Template.of content) = .ok e

/-- The session holds what taking up these texts gives: keys for them, and entries for the distinct
ones that are readable. -/
structure Holds (s : Session) (taken : List Text) : Prop where
  consistent : s.Consistent
  issued : ∀ content, (∃ key, s.keys.lookup? content = some key) ↔ content ∈ taken
  recorded : ∃ texts : List Text, texts.Nodup ∧
    (∀ content, content ∈ texts ↔ content ∈ taken ∧ isReadable content = true) ∧
    List.Forall₂ s.Records texts s.table.recorded

theorem holds_empty : Holds {} [] := by
  refine ⟨consistent_empty, ?_, [], List.nodup_nil, by simp, .nil⟩
  intro content
  constructor
  · rintro ⟨key, found⟩
    cases found
  · intro mem
    cases mem

/-- One more text brings no new readable one, if it is not readable or there already. -/
theorem mem_concat_of_mem {texts taken : List Text} {content : Text}
    (mem : ∀ c, c ∈ texts ↔ c ∈ taken ∧ isReadable c = true)
    (there : isReadable content = true → content ∈ texts) (c : Text) :
    c ∈ texts ↔ c ∈ taken ++ [content] ∧ isReadable c = true := by
  rw [mem, List.mem_append, List.mem_singleton, or_and_right]
  constructor
  · exact .inl
  · rintro (old | ⟨rfl, readable⟩)
    · exact old
    · exact (mem _).1 (there readable)

section

variable {s : Session} {taken : List Text} (h : s.Holds taken) (content : Text)
include h

/-- The keys after one more text: it has one, and the others have those that they had. -/
theorem Holds.issued_generate (c : Text) :
    (∃ key, (s.keys.generate s.table content).2.lookup? c = some key) ↔
      c ∈ taken ++ [content] := by
  simp only [h.consistent.keys.lookup?_generate_iff, List.mem_append, List.mem_singleton, ← h.issued,
    exists_or, exists_and_left, exists_eq', and_true]

/-- What is recorded stays right when one more key is given out. -/
theorem Records.generate {c : Text} {e : Entry} (records : s.Records c e) (t : Table) :
    Session.Records ⟨t, (s.keys.generate s.table content).2⟩ c e :=
  ⟨(h.consistent.keys.lookup?_generate_iff s.table).2 (.inl records.1), records.2⟩

/-- Taking up a text with a bad escape gives out a key only. -/
theorem Holds.note_bad (bad : isReadable content = false) :
    Holds { s with keys := (s.keys.generate s.table content).2 } (taken ++ [content]) := by
  obtain ⟨texts, nodup, mem, entries⟩ := h.recorded
  refine ⟨h.consistent.generate content, h.issued_generate content, texts, nodup, ?_, ?_⟩
  · refine mem_concat_of_mem mem fun readable => ?_
    rw [bad] at readable
    contradiction
  · exact entries.imp fun c e records => records.generate h content s.table

/-- Taking up a readable text gives it an entry, unless it has one. -/
theorem Holds.note_readable {e : Entry}
    (entry : entryOf (s.keys.generate s.table content).1 (Template.of content) = .ok e) :
    Holds ⟨s.table.record e, (s.keys.generate s.table content).2⟩ (taken ++ [content]) := by
  obtain ⟨texts, nodup, mem, entries⟩ := h.recorded
  have readable := isReadable_of_entryOf entry
  have own : (s.keys.generate s.table content).2.lookup? content = some e.key := by
    rw [(isEntryOf_entryOf entry).1]
    exact s.keys.lookup?_generate s.table content
  rw [← (isEntryOf_entryOf entry).1] at entry
  obtain ⟨consistent, -⟩ := (h.consistent.generate content).record own entry
  by_cases seen : content ∈ texts
  · -- the entry of the text is there, and it is the same
    obtain ⟨old, hold, records⟩ : ∃ old ∈ s.table.recorded, s.Records content old :=
      exists_of_forall₂ entries.flip seen
    have again := (records.generate h content s.table).1
    have key : old.key = e.key := Option.some.inj (again.symm.trans own)
    have same : old = e := Except.ok.inj (records.2.symm.trans (key ▸ entry))
    have unchanged := Table.record_of_mem h.consistent.distinct (same ▸ hold)
    refine ⟨consistent, h.issued_generate content, texts, nodup,
      mem_concat_of_mem mem fun _ => seen, ?_⟩
    rw [unchanged]
    exact entries.imp fun c e records => records.generate h content s.table
  · -- no entry has the key of the text, since it would be of this text
    have new : s.table.contains e.key = false := by
      rw [← Bool.not_eq_true, Table.contains_iff]
      rintro ⟨old, hold, key⟩
      obtain ⟨c, hc, records⟩ := exists_of_forall₂ entries hold
      have again := (records.generate h content s.table).1
      rw [key] at again
      obtain rfl := (h.consistent.keys.generate s.table content).lookup?_injective again own
      exact seen hc
    refine ⟨consistent, h.issued_generate content, texts ++ [content], ?_, ?_, ?_⟩
    · rw [List.nodup_append_comm]
      exact List.nodup_cons.2 ⟨seen, nodup⟩
    · intro c
      simp only [List.mem_append, List.mem_singleton, mem, or_and_right]
      constructor
      · rintro (old | rfl)
        · exact .inl old
        · exact .inr ⟨rfl, readable⟩
      · rintro (old | ⟨rfl, -⟩)
        · exact .inl old
        · exact .inr rfl
    · rw [Table.record_of_new new]
      refine List.rel_append ?_ (.cons ⟨own, entry⟩ .nil)
      exact entries.imp fun c e records => records.generate h content _

/-- One step: the session after one more text holds what one more text gives. -/
theorem Holds.note : (s.note content).Holds (taken ++ [content]) := by
  unfold Session.note
  dsimp only
  split
  next bad entry => exact h.note_bad content (not_isReadable_of_entryOf entry)
  next e entry => exact h.note_readable content entry

/-- A run: the same for texts in any number. -/
theorem Holds.foldl_note (texts : List Text) : (texts.foldl Session.note s).Holds (taken ++ texts) := by
  induction texts generalizing s taken with
  | nil => simpa using h
  | cons content texts ih => simpa using ih (h.note content)

end

theorem holds_after (bs : List Feed) : (after bs).Holds (bs.flatMap Feed.issuedTexts) := by
  rw [after_eq_foldl]
  exact holds_empty.foldl_note _

/-- The entries after buffers are one by one those of the distinct texts that the buffers record. -/
theorem exists_texts_after (bs : List Feed) :
    ∃ texts : List Text, texts.Nodup ∧
      (∀ content, content ∈ texts ↔ content ∈ bs.flatMap Feed.recordedTexts) ∧
      List.Forall₂ (after bs).Records texts (after bs).table.recorded := by
  obtain ⟨texts, nodup, mem, entries⟩ := (holds_after bs).recorded
  refine ⟨texts, nodup, ?_, entries⟩
  intro content
  simp only [mem, List.mem_flatMap, ← Feed.filter_issuedTexts, List.mem_filter]
  constructor
  · rintro ⟨⟨b, hb, issued⟩, readable⟩
    exact ⟨b, hb, issued, readable⟩
  · rintro ⟨b, hb, issued, readable⟩
    exact ⟨⟨b, hb, issued⟩, readable⟩

/-! ## Other orders of the buffers -/

/-- An entry without its key: the value, the description and the placeholders. -/
def unkeyed (e : Entry) : Message × Text × Option (List Placeholder) :=
  (e.value, e.description, e.placeholders)

/-- The entry of a text without its key. -/
def unkeyedOf (content : Text) : Option (Message × Text × Option (List Placeholder)) :=
  (entryOf [] (Template.of content)).toOption.map unkeyed

theorem unkeyedOf_of_records {s : Session} {content : Text} {e : Entry} (h : s.Records content e) :
    unkeyedOf content = some (unkeyed e) := by
  obtain ⟨value, -, description, placeholders⟩ := (isEntryOf_entryOf h.2).2
  simp [unkeyedOf, entryOf, unkeyed, value, description, placeholders, Table.placeholders?, bind,
    Except.bind, pure, Except.pure, Except.toOption]

theorem map_unkeyed {s : Session} {texts : List Text} {entries : List Entry}
    (h : List.Forall₂ s.Records texts entries) : entries.map unkeyed = texts.filterMap unkeyedOf := by
  induction h with
  | nil => rfl
  | cons records _ ih => simp [unkeyedOf_of_records records, ih]

/-- Two sessions that took up the same texts differ in their keys only. -/
theorem Holds.perm {s s' : Session} {taken taken' : List Text} (h : s.Holds taken)
    (h' : s'.Holds taken') (same : ∀ content, content ∈ taken ↔ content ∈ taken') :
    (s.table.recorded.map unkeyed).Perm (s'.table.recorded.map unkeyed) ∧
      s.keys.size = s'.keys.size := by
  obtain ⟨texts, nodup, mem, entries⟩ := h.recorded
  obtain ⟨texts', nodup', mem', entries'⟩ := h'.recorded
  refine ⟨?_, ?_⟩
  · have perm : texts.Perm texts' := by
      rw [List.perm_ext_iff_of_nodup nodup nodup']
      intro content
      rw [mem, mem', same]
    rw [map_unkeyed entries, map_unkeyed entries']
    exact perm.filterMap unkeyedOf
  · have perm : (s.keys.assigned.map Prod.fst).Perm (s'.keys.assigned.map Prod.fst) := by
      rw [List.perm_ext_iff_of_nodup h.consistent.keys.texts h'.consistent.keys.texts]
      intro content
      rw [h.consistent.keys.mem_texts_iff, h'.consistent.keys.mem_texts_iff, h.issued, h'.issued, same]
    simpa [Keys.size] using perm.length_eq

/-- **Entries belong to texts one by one.** Whatever buffers a fresh session is fed, its entries are those
of the distinct texts that the buffers record, each of them under the key of its text and under no other;
there are as many entries as there are such texts, and as many keys as there are texts that get one. Fed
in any other order, the buffers lead to as many keys and to entries that say the same. -/
theorem after_entries (bs : List Feed) :
    (∃ texts : List Text, texts.Nodup ∧
      (∀ content, content ∈ texts ↔ ∃ b ∈ bs, content ∈ b.recordedTexts) ∧
      List.Forall₂ (fun content e => IsEntryOf content e ∧
          ∀ c, (after bs).keys.lookup? c = some e.key ↔ c = content)
        texts (after bs).table.recorded) ∧
    (after bs).table.Distinct ∧
    (after bs).table.size = (bs.flatMap Feed.recordedTexts).dedup.length ∧
    (after bs).keys.size = (bs.flatMap Feed.issuedTexts).dedup.length ∧
    ∀ bs', bs'.Perm bs →
      ((after bs').table.recorded.map unkeyed).Perm ((after bs).table.recorded.map unkeyed) ∧
        (after bs').keys.size = (after bs).keys.size := by
  have h := holds_after bs
  obtain ⟨texts, nodup, mem_texts, entries⟩ := exists_texts_after bs
  refine ⟨⟨texts, nodup, ?_, ?_⟩, h.consistent.distinct, ?_, ?_, ?_⟩
  · intro content
    rw [mem_texts, List.mem_flatMap]
  · refine entries.imp ?_
    intro content e records
    refine ⟨(isEntryOf_entryOf records.2).2, ?_⟩
    intro c
    constructor
    · intro found
      exact h.consistent.keys.lookup?_injective found records.1
    · rintro rfl
      exact records.1
  · have perm : texts.Perm (bs.flatMap Feed.recordedTexts).dedup := by
      rw [List.perm_ext_iff_of_nodup nodup (List.nodup_dedup _)]
      intro content
      rw [mem_texts, List.mem_dedup]
    rw [Table.size, ← entries.length_eq, perm.length_eq]
  · have perm : ((after bs).keys.assigned.map Prod.fst).Perm
        (bs.flatMap Feed.issuedTexts).dedup := by
      rw [List.perm_ext_iff_of_nodup h.consistent.keys.texts (List.nodup_dedup _)]
      intro content
      rw [h.consistent.keys.mem_texts_iff, h.issued, List.mem_dedup]
    simpa [Keys.size] using perm.length_eq
  · intro bs' perm
    refine (holds_after bs').perm h ?_
    intro content
    exact (perm.flatMap_right Feed.issuedTexts).mem_iff

end Session

end Localizer.Extraction
