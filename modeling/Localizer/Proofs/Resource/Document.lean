import Localizer.Proofs.Resource.Json
import Localizer.Proofs.Resource.Table
import Mathlib.Data.List.Pairwise

/-!
# What the resource file holds

The keys of a table come once and hold no at sign (`Plain`). So no name of its document comes twice, and
they are the locale's, and for each key in order that key and the name of its metadata
(`Plain.names_document`).

The text of a document is read back as the document, so two documents with one text are the same
(`render_injective`); what is read holds the locale and every entry (`HoldsEntry`, `Plain.holds`), and no
object in it names a member twice (`Distinct`), so that a reader may keep any of the members of a name.
-/

namespace Localizer

namespace Resource

open Text Message

/-! ## Keys in order -/

namespace Table

theorem nodup_keys {t : Table} (h : t.Distinct) : t.keys.Nodup :=
  ((List.mergeSort_perm t.recorded _).map _).nodup_iff.2 h

/-- The keys of a table increase. -/
theorem pairwise_keys {t : Table} (h : t.Distinct) :
    t.keys.Pairwise fun a b => le a b = true ∧ a ≠ b := by
  have transitive (a b c : Entry) (hab : le a.key b.key = true) (hbc : le b.key c.key = true) :
      le a.key c.key = true := le_trans hab hbc
  have total (a b : Entry) : (le a.key b.key || le b.key a.key) = true := le_total a.key b.key
  have sorted : t.keys.Pairwise fun a b => le a b = true :=
    List.pairwise_map.2 (List.pairwise_mergeSort transitive total t.recorded)
  exact sorted.and (nodup_keys h)

end Table

namespace Arb

/-! ## The names of a document -/

/-- A table whose keys are different and hold no at sign, and whose entries name no placeholder and no
attribute twice. -/
structure Plain (t : Table) : Prop where
  distinct : t.Distinct
  sign : ∀ e ∈ t.recorded, '@' ∉ e.key
  placeholders : ∀ e ∈ t.recorded, ∀ ps ∈ e.placeholders, ps ≠ [] ∧
    (ps.map Placeholder.name).Nodup ∧ ∀ p ∈ ps, (p.attributes.map Prod.fst).Nodup

/-- The names of the document of a table, in order. -/
def documentNames (t : Table) : List Text :=
  "@@locale".toList :: t.keys.flatMap fun key => [key, '@' :: key]

theorem map_fst_members (t : Table) (locale : Member) :
    (("@@locale".toList, locale) :: t.entries.flatMap members).map Prod.fst = documentNames t := by
  simp [documentNames, Table.keys, members, List.map_flatMap, List.flatMap_map]

theorem length_documentNames (t : Table) : (documentNames t).length = 2 * t.size + 1 := by
  have size : t.keys.length = t.size := by simp [Table.keys, Table.entries, Table.size]
  rw [← size]
  simp [documentNames, List.length_flatMap]
  omega

namespace Plain

variable {t : Table} (plain : Plain t) (locale : Member)
include plain

theorem sign_not_mem {key : Text} (mem : key ∈ t.keys) : '@' ∉ key := by
  obtain ⟨e, he, rfl⟩ := List.mem_map.1 mem
  exact plain.sign e (Table.mem_entries_iff.1 he)

theorem nodup_documentNames : (documentNames t).Nodup := by
  rw [documentNames, List.nodup_cons]
  constructor
  · intro mem
    obtain ⟨key, hkey, mem⟩ := List.mem_flatMap.1 mem
    have sign := plain.sign_not_mem hkey
    simp only [List.mem_cons, List.not_mem_nil, or_false] at mem
    rcases mem with rfl | same
    · exact sign (by decide)
    · obtain rfl : "@locale".toList = key := (List.cons.inj same).2
      exact sign (by decide)
  · refine List.nodup_flatMap.2 ⟨?_, (Table.nodup_keys plain.distinct).imp_of_mem ?_⟩
    · intro key _
      simp
    · intro a b ha hb differs name inA inB
      have signA := plain.sign_not_mem ha
      have signB := plain.sign_not_mem hb
      simp only [List.mem_cons, List.not_mem_nil, or_false] at inA inB
      rcases inA with rfl | rfl
      · rcases inB with same | rfl
        · exact differs same
        · exact signA (by simp)
      · rcases inB with rfl | same
        · exact signB (by simp)
        · exact differs (List.cons.inj same).2

theorem names_document : (document t locale).names = documentNames t := by
  rw [document, Dictionary.ofPairs_of_nodup, Dictionary.names, map_fst_members]
  rw [map_fst_members]
  exact plain.nodup_documentNames

end Plain

/-! ## One text, one document -/

theorem ofPlaceholder_injective : Function.Injective fun p : Placeholder =>
    (ofText p.name, Json.ofPlaceholder p) := by
  have pair : Function.Injective fun a : Text × Text => (ofText a.1, Json.text (ofText a.2)) := by
    intro a b eq
    obtain ⟨name, value⟩ := Prod.mk.inj eq
    exact Prod.ext (ofText_injective name) (ofText_injective (Json.text.inj value))
  rintro ⟨name, attributes⟩ ⟨name', attributes'⟩ eq
  obtain ⟨same, value⟩ := Prod.mk.inj eq
  exact congrArg₂ Placeholder.mk (ofText_injective same)
    (List.map_injective_iff.2 pair (Json.object.inj value))

/-- The members of metadata behind the description are those of its placeholders. -/
theorem placeholders_injective : Function.Injective fun ps : List Placeholder =>
    if ps.isEmpty then []
    else [(ofText "placeholders".toList,
      Json.object (ps.map fun p => (ofText p.name, Json.ofPlaceholder p)))] := by
  intro ps ps' eq
  cases ps with
  | nil =>
    cases ps' with
    | nil => rfl
    | cons => exact absurd eq (List.cons_ne_nil _ _).symm
  | cons p ps =>
    cases ps' with
    | nil => exact absurd eq (List.cons_ne_nil _ _)
    | cons p' ps' =>
      have members := (Prod.mk.inj (List.cons.inj eq).1).2
      exact List.map_injective_iff.2 ofPlaceholder_injective (Json.object.inj members)

theorem ofMember_injective : Function.Injective Json.ofMember := by
  intro m m' eq
  cases m with
  | value m =>
    cases m' with
    | value m' => rw [Json.text.inj eq]
    | emptyList => exact absurd eq Json.noConfusion
    | metadata => exact absurd eq Json.noConfusion
  | emptyList =>
    cases m' with
    | value m' => exact absurd eq Json.noConfusion
    | emptyList => rfl
    | metadata => exact absurd eq Json.noConfusion
  | metadata description ps =>
    cases m' with
    | value m' => exact absurd eq Json.noConfusion
    | emptyList => exact absurd eq Json.noConfusion
    | metadata description' ps' =>
      obtain ⟨first, rest⟩ := List.cons.inj (Json.object.inj eq)
      rw [ofText_injective (Json.text.inj (Prod.mk.inj first).2), placeholders_injective rest]

/-- Documents with one text are the same. -/
theorem render_injective : Function.Injective render := by
  intro d d' eq
  have read := Json.read_render d
  rw [eq, Json.read_render d', Option.some.injEq, Json.object.injEq] at read
  refine (List.map_injective_iff.2 ?_ read).symm
  intro m m' eq
  obtain ⟨name, value⟩ := Prod.mk.inj eq
  exact Prod.ext (ofText_injective name) (ofMember_injective value)

/-! ## The text of a file -/

/-- A message without surrogates. -/
def Free (m : Message) : Prop := ∀ p ∈ m, p.isSurrogate = false

theorem free_append {m n : Message} (hm : Free m) (hn : Free n) : Free (m ++ n) := by
  intro p hp
  rcases List.mem_append.1 hp with hp | hp
  · exact hm p hp
  · exact hn p hp

theorem free_intercalate {sep : Message} {ms : List Message} (hsep : Free sep)
    (h : ∀ m ∈ ms, Free m) : Free (sep.intercalate ms) := by
  induction ms with
  | nil => simp [Free]
  | cons m ms ih =>
    obtain ⟨hm, hms⟩ := List.forall_mem_cons.1 h
    cases ms with
    | nil => simpa [List.intercalate_singleton] using hm
    | cons n ms =>
      rw [List.intercalate_cons_of_ne_nil (by simp)]
      exact free_append (free_append hm hsep) (ih hms)

/-- What a code point is written as holds a surrogate only if it is one. -/
theorem free_quoteCodePoint {p : CodePoint} (h : p.isSurrogate = false) : Free (quoteCodePoint p) := by
  unfold quoteCodePoint
  split
  case h_8 n _ =>
    split
    next => exact isSurrogate_ofText
    next => simpa [Free] using h
  all_goals exact isSurrogate_ofText

theorem free_quoted {m : Message} (h : Free m) : Free (quoted m) := by
  refine free_append (free_append isSurrogate_ofText ?_) isSurrogate_ofText
  intro q hq
  obtain ⟨p, hp, hq⟩ := List.mem_flatMap.1 hq
  exact free_quoteCodePoint (h p hp) q hq

theorem free_quoted_ofText (s : Text) : Free (quoted (ofText s)) := free_quoted isSurrogate_ofText

theorem free_object {depth : Nat} {members : List (Text × Message)}
    (h : ∀ m ∈ members, Free m.2) : Free (object depth members) := by
  unfold object
  split
  next => exact isSurrogate_ofText
  next =>
    refine free_append (free_append isSurrogate_ofText (free_intercalate isSurrogate_ofText ?_))
      isSurrogate_ofText
    intro row hrow
    obtain ⟨m, hm, rfl⟩ := List.mem_map.1 hrow
    exact free_append (free_append (free_append isSurrogate_ofText (free_quoted_ofText m.1))
      isSurrogate_ofText) (h m hm)

theorem free_renderPlaceholder (p : Placeholder) : Free (renderPlaceholder p) := by
  refine free_object fun m hm => ?_
  obtain ⟨a, -, rfl⟩ := List.mem_map.1 hm
  exact free_quoted_ofText a.2

theorem free_renderMember {m : Member} (h : ∀ value, m = .value value → Free value) :
    Free (renderMember m) := by
  cases m with
  | value m => exact free_quoted (h m rfl)
  | emptyList => exact isSurrogate_ofText
  | metadata description ps =>
    refine free_object fun m hm => ?_
    rcases List.mem_cons.1 hm with rfl | hm
    · exact free_quoted_ofText description
    · split at hm
      next => simp at hm
      next =>
        obtain rfl := List.mem_singleton.1 hm
        refine free_object fun m hm => ?_
        obtain ⟨p, -, rfl⟩ := List.mem_map.1 hm
        exact free_renderPlaceholder p

/-- The text of a document can be encoded if its texts can. -/
theorem isSome_toText?_render {d : Document}
    (h : ∀ name value, (name, Member.value value) ∈ d → value.toText?.isSome = true) :
    (render d).toText?.isSome = true := by
  rw [isSome_toText?_iff]
  refine free_append (free_object fun m hm => ?_) isSurrogate_ofText
  obtain ⟨⟨name, member⟩, mem, rfl⟩ := List.mem_map.1 hm
  refine free_renderMember fun value eq => isSome_toText?_iff.1 (h name value ?_)
  rw [← eq]
  exact mem

/-! ## What is read -/

/-- No object in a value names a member twice. -/
inductive DistinctNames : Json → Prop
  | text (m : Message) : DistinctNames (.text m)
  | list {items : List Json} : (∀ item ∈ items, DistinctNames item) → DistinctNames (.list items)
  | object {members : List (Message × Json)} : (members.map Prod.fst).Nodup →
      (∀ m ∈ members, DistinctNames m.2) → DistinctNames (.object members)

/-- The members of an object hold an entry: its text, its description, and its placeholders if it has
any, each with its attributes in order. -/
structure HoldsEntry (members : Dictionary Message Json) (e : Entry) : Prop where
  value : members.get? (ofText e.key) = some (.text e.value)
  metadata : ∃ metadata : Dictionary Message Json,
    members.get? (ofText ('@' :: e.key)) = some (.object metadata) ∧
    metadata.get? (ofText "description".toList) = some (.text (ofText e.description)) ∧
    metadata.get? (ofText "placeholders".toList) = e.placeholders.map fun ps =>
      .object (ps.map fun p => (ofText p.name,
        .object (p.attributes.map fun a => (ofText a.1, .text (ofText a.2)))))

/-- The members that are read for those of a document. -/
def readMembers (d : Document) : Dictionary Message Json :=
  d.map fun m => (ofText m.1, Json.ofMember m.2)

theorem names_readMembers (d : Document) : (readMembers d).names = d.names.map ofText := by
  simp [readMembers, Dictionary.names]

theorem nodup_map_ofText {names : List Text} (nodup : names.Nodup) : (names.map ofText).Nodup :=
  nodup.map fun _ _ => ofText_injective

namespace Plain

variable {t : Table} (plain : Plain t) (locale : Member)
include plain

theorem document_eq : document t locale =
    ("@@locale".toList, locale) :: t.entries.flatMap members := by
  rw [document, Dictionary.ofPairs_of_nodup]
  rw [map_fst_members]
  exact plain.nodup_documentNames

theorem nodup_names_readMembers : (readMembers (document t locale)).names.Nodup := by
  rw [names_readMembers, plain.names_document]
  exact nodup_map_ofText plain.nodup_documentNames

/-- The locale is read. -/
theorem get?_locale : (readMembers (document t locale)).get? (ofText "@@locale".toList) =
    some (Json.ofMember locale) := by
  refine Dictionary.get?_of_mem_of_nodup (plain.nodup_names_readMembers locale) ?_
  rw [plain.document_eq]
  exact List.mem_cons_self

theorem get?_of_mem_members {e : Entry} (he : e ∈ t.recorded) (name : Text) {m : Member}
    (mem : (name, m) ∈ members e) :
    (readMembers (document t locale)).get? (ofText name) = some (Json.ofMember m) := by
  refine Dictionary.get?_of_mem_of_nodup (plain.nodup_names_readMembers locale) ?_
  rw [plain.document_eq]
  refine List.mem_map.2 ⟨(name, m), List.mem_cons_of_mem _ ?_, rfl⟩
  exact List.mem_flatMap.2 ⟨e, Table.mem_entries_iff.2 he, mem⟩

/-- Every entry is read. -/
theorem holds {e : Entry} (he : e ∈ t.recorded) : HoldsEntry (readMembers (document t locale)) e := by
  have value := plain.get?_of_mem_members locale he e.key List.mem_cons_self
  have metadata := plain.get?_of_mem_members locale he ('@' :: e.key)
    (List.mem_cons_of_mem _ List.mem_cons_self)
  have same : (ofText "description".toList == ofText "description".toList) = true := by decide
  have apart : (ofText "description".toList == ofText "placeholders".toList) = false := by decide
  have same' : (ofText "placeholders".toList == ofText "placeholders".toList) = true := by decide
  refine ⟨value, _, metadata, by rw [Dictionary.get?, same, if_pos rfl], ?_⟩
  cases hp : e.placeholders with
  | none =>
    rw [Dictionary.get?, apart]
    rfl
  | some ps =>
    obtain ⟨p, ps, rfl⟩ := List.exists_cons_of_ne_nil (plain.placeholders e he ps hp).1
    rw [Dictionary.get?, apart, if_neg (by simp), Option.getD_some, List.isEmpty_cons,
      if_neg (by simp), Dictionary.get?, same', if_pos rfl]
    rfl

theorem distinctNames_ofPlaceholders {e : Entry} (he : e ∈ t.recorded) {ps : List Placeholder}
    (hps : e.placeholders = some ps) :
    DistinctNames (.object (ps.map fun p => (ofText p.name, Json.ofPlaceholder p))) := by
  obtain ⟨-, names, attributes⟩ := plain.placeholders e he ps hps
  refine .object ?_ fun m hm => ?_
  · have nodup := nodup_map_ofText names
    rwa [List.map_map] at nodup ⊢
  · obtain ⟨p, hp, rfl⟩ := List.mem_map.1 hm
    refine .object ?_ fun a ha => ?_
    · have nodup := nodup_map_ofText (attributes p hp)
      rwa [List.map_map] at nodup ⊢
    · obtain ⟨a, -, rfl⟩ := List.mem_map.1 ha
      exact .text _

theorem distinctNames_ofMember {e : Entry} (he : e ∈ t.recorded) {m : Text × Member}
    (mem : m ∈ members e) : DistinctNames (Json.ofMember m.2) := by
  rcases List.mem_cons.1 mem with rfl | mem
  · exact .text _
  · obtain rfl := List.mem_singleton.1 mem
    cases hp : e.placeholders with
    | none =>
      refine .object (List.nodup_singleton _) fun m hm => ?_
      obtain rfl := List.mem_singleton.1 hm
      exact .text _
    | some ps =>
      obtain ⟨p, rest, rfl⟩ := List.exists_cons_of_ne_nil (plain.placeholders e he ps hp).1
      have apart : ofText "description".toList ≠ ofText "placeholders".toList := by decide
      refine .object (List.nodup_cons.2 ⟨?_, List.nodup_singleton _⟩) fun m hm => ?_
      · simpa using apart
      · rcases List.mem_cons.1 hm with rfl | hm
        · exact .text _
        · obtain rfl := List.mem_singleton.1 hm
          exact plain.distinctNames_ofPlaceholders he hp

/-- No object that is read names a member twice. -/
theorem distinctNames_document (flat : DistinctNames (Json.ofMember locale)) :
    DistinctNames (.object (readMembers (document t locale))) := by
  refine .object (plain.nodup_names_readMembers locale) fun m hm => ?_
  rw [plain.document_eq] at hm
  obtain ⟨m, mem, rfl⟩ := List.mem_map.1 hm
  rcases List.mem_cons.1 mem with rfl | mem
  · exact flat
  · obtain ⟨e, he, mem⟩ := List.mem_flatMap.1 mem
    exact plain.distinctNames_ofMember (Table.mem_entries_iff.1 he) mem

/-- The document has a text if the locale and the texts of the entries are texts. -/
theorem isSome_toText?_document {locale : Message} (named : locale.toText?.isSome = true)
    (free : ∀ e ∈ t.recorded, e.value.toText?.isSome = true) :
    (render (document t (.value locale))).toText?.isSome = true := by
  refine isSome_toText?_render fun name value mem => ?_
  rw [plain.document_eq] at mem
  rcases List.mem_cons.1 mem with eq | mem
  · obtain rfl := Member.value.inj (Prod.mk.inj eq).2
    exact named
  · obtain ⟨e, he, mem⟩ := List.mem_flatMap.1 mem
    simp only [members, List.mem_cons, List.not_mem_nil, or_false, Prod.mk.injEq,
      Member.value.injEq, reduceCtorEq, and_false] at mem
    obtain ⟨-, rfl⟩ := mem
    exact free e (Table.mem_entries_iff.1 he)

end Plain

/-- An entry is known from its members, if it has no empty list of placeholders. -/
theorem members_injective {e e' : Entry} (h : ∀ ps ∈ e.placeholders, ps ≠ [])
    (h' : ∀ ps ∈ e'.placeholders, ps ≠ []) (same : members e = members e') : e = e' := by
  obtain ⟨key, value, description, placeholders⟩ := e
  obtain ⟨key', value', description', placeholders'⟩ := e'
  simp only [members, List.cons.injEq, Prod.mk.injEq, Member.value.injEq, Member.metadata.injEq,
    and_true] at same
  obtain ⟨⟨rfl, rfl⟩, -, rfl, same⟩ := same
  have placeholders : placeholders = placeholders' := by
    cases placeholders with
    | none =>
      cases placeholders' with
      | none => rfl
      | some ps => exact absurd same.symm (h' ps rfl)
    | some ps =>
      cases placeholders' with
      | none => exact absurd same (h ps rfl)
      | some ps' => exact congrArg some same
  rw [placeholders]

/-- Entries are known from their members, if none has an empty list of placeholders. -/
theorem flatMap_members_injective {es es' : List Entry}
    (h : ∀ e ∈ es, ∀ ps ∈ e.placeholders, ps ≠ []) (h' : ∀ e ∈ es', ∀ ps ∈ e.placeholders, ps ≠ [])
    (same : es.flatMap members = es'.flatMap members) : es = es' := by
  induction es generalizing es' with
  | nil =>
    cases es' with
    | nil => rfl
    | cons e es' => simp [members] at same
  | cons e es ih =>
    cases es' with
    | nil => simp [members] at same
    | cons e' es' =>
      obtain ⟨first, others⟩ := List.forall_mem_cons.1 h
      obtain ⟨first', others'⟩ := List.forall_mem_cons.1 h'
      -- each entry has two members
      obtain ⟨front, rest⟩ := List.append_inj same rfl
      rw [members_injective first first' front, ih others others' rest]

/-- A table is known from the text of its document, and so is the locale. -/
theorem Plain.eq_of_render {t t' : Table} (plain : Plain t) (plain' : Plain t') {locale locale' : Member}
    (same : render (document t locale) = render (document t' locale')) :
    locale = locale' ∧ t.entries = t'.entries ∧ ∀ key, t.get? key = t'.get? key := by
  have documents := render_injective same
  rw [plain.document_eq, plain'.document_eq] at documents
  obtain ⟨first, rest⟩ := List.cons.inj documents
  have filled {t : Table} (plain : Plain t) : ∀ e ∈ t.entries, ∀ ps ∈ e.placeholders, ps ≠ [] :=
    fun e he ps hps => (plain.placeholders e (Table.mem_entries_iff.1 he) ps hps).1
  have entries := flatMap_members_injective (filled plain) (filled plain') rest
  refine ⟨(Prod.mk.inj first).2, entries, fun key => Option.ext fun e => ?_⟩
  rw [Table.get?_eq_some_iff plain.distinct, Table.get?_eq_some_iff plain'.distinct,
    ← Table.mem_entries_iff (t := t), entries, Table.mem_entries_iff]

end Arb

end Resource

end Localizer
