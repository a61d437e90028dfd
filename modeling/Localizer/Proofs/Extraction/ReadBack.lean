import Localizer.Proofs.Extraction.Rounds
import Localizer.Proofs.Message.Template
import Localizer.Proofs.Resource.Document

/-!
# The resource file loses nothing

The table that buffers lead to is plain (`plain_after`): its keys are given out once and are made of
letters, digits and underscores, and the placeholders of an entry are the variables of a text, each
named once. So its document names no member twice, and its text is read back as the locale and the
entries (`document_reads_back`).
-/

namespace Localizer.Extraction

open Text Message Resource Arb
open Workspace (ofText_of_toText?)

namespace Session

theorem plain_after (bs : List Feed) : Plain (after bs).table := by
  have h := consistent_after bs
  refine ⟨h.distinct, fun e he => h.sign_not_mem_key (Table.contains_iff.2 ⟨e, he, rfl⟩), ?_⟩
  intro e he ps hps
  obtain ⟨content, -, entry⟩ := h.entries e he
  have placeholders := (isEntryOf_entryOf entry).2.placeholders
  split at placeholders
  next => simp [placeholders] at hps
  next some =>
    obtain rfl : (Template.of content).names.map Placeholder.ofVariable = ps := by
      simpa [placeholders] using hps
    refine ⟨by simpa using some, ?_, fun p hp => ?_⟩
    · rw [List.map_map]
      exact (List.map_id _).symm ▸ Template.nodup_names content
    · obtain ⟨name, -, rfl⟩ := List.mem_map.1 hp
      change ["type".toList, "example".toList].Nodup
      decide

/-- A reader of JSON reads a text as an object that holds a locale and the entries of a table, under the
names of their document in order; and no object in it names a member twice. -/
def ReadsAs (t : Table) (locale : Message) (text : Text) : Prop :=
  ∃ members : Dictionary Message Json, Json.read (ofText text) = some (.object members) ∧
    DistinctNames (.object members) ∧
    members.names = (documentNames t).map ofText ∧
    members.get? (ofText "@@locale".toList) = some (.text locale) ∧
    ∀ e ∈ t.recorded, HoldsEntry members e

/-- **The resource file loses nothing.** For the table that any buffers lead to, and any locale, the
names of the document are different: the locale's, and for each key in order that key and the name of its
metadata. If no text of it holds a surrogate, the document has a text, from which the locale and every
entry are read back; and a table and a locale with the same text are the same. -/
theorem document_reads_back (bs : List Feed) (locale : Message) :
    let t := (after bs).table
    let d := document t (.value locale)
    (d.names = documentNames t ∧ d.names.Nodup ∧ d.names.length = 2 * t.size + 1) ∧
    (t.keys.Pairwise (fun a b => le a b = true ∧ a ≠ b) ∧
      ∀ key, key ∈ t.keys ↔ t.contains key = true) ∧
    (locale.toText?.isSome = true → (∀ e ∈ t.recorded, e.value.toText?.isSome = true) →
      ∃ text, (render d).toText? = some text ∧ ReadsAs t locale text ∧
        ∀ (bs' : List Feed) (locale' : Message),
          (render (document (after bs').table (.value locale'))).toText? = some text →
            locale' = locale ∧ (after bs').table.entries = t.entries ∧
              ∀ key, (after bs').table.get? key = t.get? key) := by
  intro t d
  have plain : Plain t := plain_after bs
  have names : d.names = documentNames t := plain.names_document _
  refine ⟨⟨names, ?_, ?_⟩, ⟨Table.pairwise_keys plain.distinct, fun key => ?_⟩, fun named free => ?_⟩
  · rw [names]
    exact plain.nodup_documentNames
  · rw [names, length_documentNames]
  · rw [Table.contains_iff, Table.keys, List.mem_map]
    exact exists_congr fun e => and_congr_left fun _ => Table.mem_entries_iff
  · have encoded := plain.isSome_toText?_document named free
    obtain ⟨text, htext⟩ := Option.isSome_iff_exists.1 encoded
    have message := ofText_of_toText? htext
    refine ⟨text, htext, ⟨readMembers d, ?_, ?_, ?_, plain.get?_locale _, ?_⟩,
      fun bs' locale' other => ?_⟩
    · rw [message]
      exact Json.read_render d
    · exact plain.distinctNames_document _ (.text locale)
    · rw [names_readMembers, names]
    · exact fun e he => plain.holds _ he
    · have same := (ofText_of_toText? other).symm.trans message
      obtain ⟨locales, entries, found⟩ := (plain_after bs').eq_of_render plain same
      exact ⟨Member.value.inj locales, entries, found⟩

/-- A source with texts that hold a quote, a backslash, a newline, a control character and a
variable. -/
def escapedSource : Feed where
  content := "[Text('Say \\\"hi\\\" \\\\ $name'), Text('A\\nB \\u0001')]".toList

/-- The entry of the first. -/
def sayEntry : Entry where
  key := "sayHi".toList
  value := ofText "Say \"hi\" \\ \x7bname\x7d".toList
  description := "Localized string with parameters: name".toList
  placeholders := some [.ofVariable "name".toList]

/-- The entry of the second. -/
def controlEntry : Entry where
  key := "aNbU0001".toList
  value := ofText "A\nB \x01".toList
  description := "Localized string".toList
  placeholders := none

theorem recorded_escapedSource :
    (after [escapedSource]).table.recorded = [sayEntry, controlEntry] := by
  decide +kernel

theorem document_reads_back_escapedSource :
    sayEntry ∈ (after [escapedSource]).table.recorded ∧
      (∀ e ∈ (after [escapedSource]).table.recorded, e.value.toText?.isSome = true) ∧
      ∃ text, (render (document (after [escapedSource]).table (.value (ofText "en".toList)))).toText? =
          some text ∧
        ReadsAs (after [escapedSource]).table (ofText "en".toList) text ∧
        ∀ (bs' : List Feed) (locale' : Message),
          (render (document (after bs').table (.value locale'))).toText? = some text →
            locale' = ofText "en".toList ∧
              (after bs').table.entries = (after [escapedSource]).table.entries ∧
              ∀ key, (after bs').table.get? key = (after [escapedSource]).table.get? key := by
  have free : ∀ e ∈ (after [escapedSource]).table.recorded, e.value.toText?.isSome = true := by
    rw [recorded_escapedSource]
    decide
  have mem : sayEntry ∈ (after [escapedSource]).table.recorded := by
    rw [recorded_escapedSource]
    exact List.mem_cons_self
  exact ⟨mem, free,
    (document_reads_back [escapedSource] (ofText "en".toList)).2.2 (by decide) free⟩

end Session

end Localizer.Extraction
