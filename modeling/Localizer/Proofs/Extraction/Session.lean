import Localizer.Extraction.Session
import Localizer.Proofs.Edit.Replace
import Localizer.Proofs.Message.Template
import Localizer.Proofs.Resource.Keys
import Localizer.Proofs.Resource.Table

/-!
# Keys, entries and calls agree

The invariant of a session, `Session.Consistent`: the keys are well-formed, no key has two entries,
and every entry is the one that the text of its key gives. Each step of `collect` keeps it. The
only way to break it would be to record an entry under a key that another text has, and the key
that is recorded was generated for the text: if the table holds that key, it holds the entry of the
same text, and recording it changes nothing. A step that stops at a bad escape has given out a key
and recorded nothing, which the invariant allows.

What was given out and recorded stays (`Session.Extends`), so that the replacements that `collect`
hands on agree with the entries of their keys (`collect_spec`). `Session.after` is the state that a
sequence of buffers leads to.
-/

namespace Localizer.Extraction

open Text Dart Message Resource Edit

/-! ## The invariant -/

/-- An entry holds what the text of its key gives. -/
structure IsEntryOf (content : Text) (e : Entry) : Prop where
  value : unescape (Template.of content).text = .ok e.value
  /-- A text without variables is its own template. -/
  plain : (Template.of content).names = [] → unescape content = .ok e.value
  description : e.description = describe (Template.of content).names
  placeholders : e.placeholders = if (Template.of content).names = [] then none
    else some ((Template.of content).names.map Placeholder.ofVariable)

/-- The names of the placeholders of an entry, in order. -/
def placeholderNames (e : Entry) : List Text := (e.placeholders.getD []).map Placeholder.name

theorem isEntryOf_entryOf {key content : Text} {e : Entry}
    (h : entryOf key (Template.of content) = .ok e) : e.key = key ∧ IsEntryOf content e := by
  simp only [entryOf, bind, Except.bind, pure, Except.pure] at h
  split at h
  next => simp at h
  next value hvalue =>
    obtain rfl := Except.ok.inj h
    refine ⟨rfl, hvalue, ?_, rfl, ?_⟩
    · intro none
      rw [← Template.text_of_names_eq_nil none]
      exact hvalue
    · simp [Table.placeholders?]

theorem IsEntryOf.placeholderNames {content : Text} {e : Entry} (h : IsEntryOf content e) :
    placeholderNames e = (Template.of content).names := by
  rw [Extraction.placeholderNames, h.placeholders]
  split
  next none => rw [none]; rfl
  next =>
    rw [Option.getD_some, List.map_map]
    exact List.map_id _

/-- In a session, every entry is the one that the text of its key gives. -/
structure Session.Consistent (s : Session) : Prop where
  keys : s.keys.WellFormed
  distinct : s.table.Distinct
  entries : ∀ e ∈ s.table.recorded, ∃ content, s.keys.lookup? content = some e.key ∧
    entryOf e.key (Template.of content) = .ok e

/-- What was given out and recorded in a session stays in a later one. -/
structure Session.Extends (s s' : Session) : Prop where
  keys : s.keys.assigned <+: s'.keys.assigned
  table : s.table.recorded <+: s'.table.recorded

namespace Session

theorem consistent_empty : Consistent {} :=
  ⟨.empty, List.nodup_nil, by simp⟩

theorem Extends.refl (s : Session) : Extends s s := ⟨List.prefix_rfl, List.prefix_rfl⟩

theorem Extends.trans {a b c : Session} (hab : Extends a b) (hbc : Extends b c) : Extends a c :=
  ⟨hab.keys.trans hbc.keys, hab.table.trans hbc.table⟩

section

variable {s s' : Session}

theorem Extends.lookup? (ext : Extends s s') (h : s.Consistent) (h' : s'.Consistent)
    {content key : Text} (found : s.keys.lookup? content = some key) :
    s'.keys.lookup? content = some key := by
  rw [h.keys.lookup?_eq_some_iff] at found
  exact h'.keys.lookup?_eq_some_iff.2 (ext.keys.subset found)

theorem Extends.get? (ext : Extends s s') (h : s.Consistent) (h' : s'.Consistent)
    {key : Text} {e : Entry} (found : s.table.get? key = some e) :
    s'.table.get? key = some e := by
  obtain ⟨mem, rfl⟩ := (Table.get?_eq_some_iff h.distinct).1 found
  exact (Table.get?_eq_some_iff h'.distinct).2 ⟨ext.table.subset mem, rfl⟩

/-- To give out a key keeps a session consistent. -/
theorem Consistent.generate (h : s.Consistent) (content : Text) :
    Consistent { s with keys := (s.keys.generate s.table content).2 } := by
  refine ⟨h.keys.generate s.table content, h.distinct, ?_⟩
  intro e he
  obtain ⟨c, found, entry⟩ := h.entries e he
  rw [h.keys.lookup?_eq_some_iff] at found
  have later := (Keys.assigned_generate s.keys s.table content).subset found
  exact ⟨c, (h.keys.generate s.table content).lookup?_eq_some_iff.2 later, entry⟩

/-- To record the entry of a text under the key of that text keeps a session consistent, and only
adds to the table. -/
theorem Consistent.record (h : s.Consistent) {content : Text} {e : Entry}
    (found : s.keys.lookup? content = some e.key)
    (entry : entryOf e.key (Template.of content) = .ok e) :
    Consistent { s with table := s.table.record e } ∧
      s.table.recorded <+: (s.table.record e).recorded ∧ e ∈ (s.table.record e).recorded := by
  cases new : s.table.contains e.key with
  | true =>
    -- the entry that is there is of a text with the same key, hence of the same text
    obtain ⟨old, hold, key⟩ := Table.contains_iff.1 new
    obtain ⟨c, foundOld, entryOld⟩ := h.entries old hold
    rw [key] at foundOld entryOld
    obtain rfl := h.keys.lookup?_injective foundOld found
    obtain rfl : old = e := Except.ok.inj (entryOld.symm.trans entry)
    rw [Table.record_of_mem h.distinct hold]
    exact ⟨h, List.prefix_rfl, hold⟩
  | false =>
    rw [Table.record_of_new new]
    refine ⟨⟨h.keys, Table.distinct_append h.distinct new, ?_⟩, List.prefix_append _ _, by simp⟩
    intro e' he'
    rcases List.mem_append.1 he' with he' | he'
    · exact h.entries e' he'
    · obtain rfl := List.mem_singleton.1 he'
      exact ⟨content, found, entry⟩

end

end Session

/-! ## Collecting -/

/-- A replacement carries the key of a literal's text, and the arguments that the entry of that key
names. -/
structure Agrees (s : Session) (l : Literal) (r : Replacement) : Prop where
  literal : r.literal = l.text
  offset : r.offset = l.offset
  key : s.keys.lookup? l.inner = some r.key
  entry : ∃ e, s.table.get? r.key = some e ∧ r.arguments = placeholderNames e

theorem Agrees.extends {s s' : Session} {l : Literal} {r : Replacement} (agrees : Agrees s l r)
    (ext : s.Extends s') (h : s.Consistent) (h' : s'.Consistent) : Agrees s' l r := by
  obtain ⟨e, found, arguments⟩ := agrees.entry
  exact ⟨agrees.literal, agrees.offset, ext.lookup? h h' agrees.key,
    e, ext.get? h h' found, arguments⟩

theorem exists_of_map_eq_ok {ε α β : Type} {f : α → β} {x : Except ε α} {b : β}
    (h : x.map f = .ok b) : ∃ a, x = .ok a ∧ f a = b := by
  cases x with
  | error e => simp [Except.map] at h
  | ok a => exact ⟨a, rfl, Except.ok.inj h⟩

/-- The session after one literal was given a key and recorded, and what it is then replaced by. -/
theorem record_literal {s : Session} (h : s.Consistent) (l : Literal) {e : Entry}
    (entry : entryOf (s.keys.generate s.table l.inner).1 (Template.of l.inner) = .ok e) :
    let s' : Session := ⟨s.table.record e, (s.keys.generate s.table l.inner).2⟩
    s'.Consistent ∧ s.Extends s' ∧
      Agrees s' l (replacementOf l (s.keys.generate s.table l.inner).1 (Template.of l.inner)) := by
  obtain ⟨key, isEntry⟩ := isEntryOf_entryOf entry
  have found := s.keys.lookup?_generate s.table l.inner
  rw [← key] at entry found
  obtain ⟨consistent, grows, mem⟩ := (h.generate l.inner).record found entry
  refine ⟨consistent, ⟨Keys.assigned_generate _ _ _, grows⟩, rfl, rfl, ?_, e, ?_, ?_⟩
  · exact s.keys.lookup?_generate s.table l.inner
  · exact (Table.get?_eq_some_iff consistent.distinct).2 ⟨mem, key⟩
  · exact isEntry.placeholderNames.symm

/-- Collecting literals keeps a session consistent and only adds to it, and the replacements that
it hands on agree with the session. -/
theorem collect_spec (f : Filter) {s : Session} (h : s.Consistent) (ls : List Literal) :
    (collect f s ls).1.Consistent ∧ s.Extends (collect f s ls).1 ∧
      ∀ rs, (collect f s ls).2.2 = .ok rs →
        ∀ r ∈ rs, ∃ l ∈ ls, Agrees (collect f s ls).1 l r := by
  induction ls generalizing s with
  | nil =>
    refine ⟨h, .refl s, ?_⟩
    intro rs hrs r hr
    simp only [collect, Except.ok.injEq] at hrs
    simp [← hrs] at hr
  | cons l ls ih =>
    have weaken {s : Session} {r : Replacement} (agrees : ∃ l ∈ ls, Agrees s l r) :
        ∃ l' ∈ l :: ls, Agrees s l' r := by
      obtain ⟨l', hl', agrees⟩ := agrees
      exact ⟨l', List.mem_cons_of_mem _ hl', agrees⟩
    simp only [collect]
    split
    next =>
      obtain ⟨consistent, ext, agree⟩ := ih h
      exact ⟨consistent, ext, fun rs hrs r hr => weaken (agree rs hrs r hr)⟩
    next =>
      split
      next =>
        split
        next =>
          -- the key is given out, and nothing is recorded
          exact ⟨h.generate l.inner, ⟨Keys.assigned_generate _ _ _, List.prefix_rfl⟩, by simp⟩
        next entry hentry =>
          obtain ⟨consistent, ext, agrees⟩ := record_literal h l hentry
          obtain ⟨consistent', ext', agree⟩ := ih consistent
          refine ⟨consistent', ext.trans ext', ?_⟩
          intro rs hrs r hr
          obtain ⟨rs', hrs', rfl⟩ := exists_of_map_eq_ok hrs
          rcases List.mem_cons.1 hr with rfl | hr
          · exact ⟨l, List.mem_cons_self, agrees.extends ext' consistent consistent'⟩
          · exact weaken (agree rs' hrs' r hr)
      next =>
        obtain ⟨consistent, ext, agree⟩ := ih h
        exact ⟨consistent, ext, fun rs hrs r hr => weaken (agree rs hrs r hr)⟩

/-! ## Buffers -/

/-- A buffer, and how it is treated. -/
structure Feed where
  windows : Windows := {}
  filter : Filter := .ofExtra []
  target : Option Localizations := none
  content : Text

namespace Feed

/-- What comes of a buffer in a session. -/
def process (b : Feed) (s : Session) : Session × List Log.Record × Except SourceError Outcome :=
  processSource b.windows b.filter b.target s b.content

/-- The replacements whose calls a buffer gets in a session, with their edits. -/
def calls (b : Feed) (s : Session) : List (Replacement × Edit) :=
  match b.target, (collect b.filter s (scan b.windows b.content)).2.2 with
  | some l, .ok rs => grantedIn l b.content rs
  | _, _ => []

theorem calls_of_ok {b : Feed} {s : Session} {l : Localizations} {rs : List Replacement}
    (target : b.target = some l)
    (hrs : (collect b.filter s (scan b.windows b.content)).2.2 = .ok rs) :
    b.calls s = grantedIn l b.content rs := by
  simp [calls, target, hrs]

/-- Once the literals of a buffer are collected, they are replaced. -/
theorem process_of_collect {b : Feed} {s : Session} {l : Localizations} {rs : List Replacement}
    (target : b.target = some l)
    (hrs : (collect b.filter s (scan b.windows b.content)).2.2 = .ok rs) :
    (b.process s).2.2 = (l.replace b.content rs).mapError .outOfRange := by
  cases rs with
  | nil =>
    have none : sites b.content [] = [] := by simp [sites, Place.along]
    have unchanged : l.replace b.content [] = .ok (.unchanged (ofText b.content) 0) := by
      rw [Localizations.replace, plan, none]
      rfl
    simp [process, processSource, hrs, target, unchanged, Except.mapError]
  | cons r rs => simp [process, processSource, hrs, target]

/-- The replacements of a buffer are never empty, and agree with the session after it. -/
theorem agrees_of_collect (b : Feed) {s : Session} (h : s.Consistent) {rs : List Replacement}
    (hrs : (collect b.filter s (scan b.windows b.content)).2.2 = .ok rs) :
    ∀ r ∈ rs, r.literal ≠ [] ∧ ∃ l ∈ scan b.windows b.content, Agrees (b.process s).1 l r := by
  intro r hr
  obtain ⟨l, hl, agrees⟩ := (collect_spec b.filter h _).2.2 rs hrs r hr
  refine ⟨?_, l, hl, agrees⟩
  rw [agrees.literal]
  exact List.cons_ne_nil _ _

theorem agrees_of_mem_calls {b : Feed} {s : Session} (h : s.Consistent)
    {call : Replacement × Edit} (mem : call ∈ b.calls s) :
    ∃ l ∈ scan b.windows b.content, Agrees (b.process s).1 l call.1 := by
  unfold calls at mem
  split at mem
  next l rs _ hrs =>
    have given := (granted_subperm l b.content rs).subset (List.mem_map_of_mem mem)
    exact (b.agrees_of_collect h hrs _ given).2
  next => simp at mem

/-- If the escapes of a buffer are right, there is an outcome, and it comes of the buffer by
putting in the calls. -/
theorem process_substituted {b : Feed} {s : Session} {l : Localizations} (h : s.Consistent)
    (target : b.target = some l) :
    (∃ e, (b.process s).2.2 = .error (.escape e)) ∨
      ∃ rs o, (b.process s).2.2 = .ok o ∧ Substituted l b.content rs o (b.calls s) := by
  cases hrs : (collect b.filter s (scan b.windows b.content)).2.2 with
  | error e => exact .inl ⟨e, by simp [process, processSource, hrs]⟩
  | ok rs =>
    have ne : ∀ r ∈ rs, r.literal ≠ [] := fun r hr => (b.agrees_of_collect h hrs r hr).1
    obtain ⟨o, hreplace, substituted⟩ := replace_substituted l b.content ne
    rw [← calls_of_ok target hrs] at substituted
    refine .inr ⟨rs, o, ?_, substituted⟩
    rw [process_of_collect target hrs, hreplace]
    rfl

end Feed

namespace Session

/-- The session after a buffer. -/
def feed (s : Session) (b : Feed) : Session := (b.process s).1

theorem feed_eq_collect (s : Session) (b : Feed) :
    s.feed b = (collect b.filter s (scan b.windows b.content)).1 := rfl

/-- The session that a sequence of buffers leads to. -/
def after (bs : List Feed) : Session := bs.foldl feed {}

theorem Consistent.feed {s : Session} (h : s.Consistent) (b : Feed) :
    (s.feed b).Consistent ∧ s.Extends (s.feed b) := by
  obtain ⟨consistent, ext, -⟩ := collect_spec b.filter h (scan b.windows b.content)
  exact ⟨consistent, ext⟩

theorem Consistent.feeds {s : Session} (h : s.Consistent) (bs : List Feed) :
    (bs.foldl Session.feed s).Consistent ∧ s.Extends (bs.foldl Session.feed s) := by
  induction bs generalizing s with
  | nil => exact ⟨h, .refl s⟩
  | cons b bs ih =>
    obtain ⟨consistent, ext⟩ := h.feed b
    obtain ⟨consistent', ext'⟩ := ih consistent
    exact ⟨consistent', ext.trans ext'⟩

theorem consistent_after (bs : List Feed) : (after bs).Consistent :=
  (consistent_empty.feeds bs).1

/-- **Keys, entries and calls agree.** Whatever buffers a fresh session is fed, each entry is found
under its key, which exactly one text has, and holds what that text gives; the calls that a further
buffer gets are those of literals of it, with the arguments that the entry of their key names; and
no later buffer changes an entry. -/
theorem after_agrees (bs : List Feed) :
    (∀ e ∈ (after bs).table.recorded, (after bs).table.get? e.key = some e ∧
      ∃ content, (∀ c, (after bs).keys.lookup? c = some e.key ↔ c = content) ∧
        IsEntryOf content e) ∧
    (∀ b : Feed, ∀ l, b.target = some l →
      ((∃ e, (b.process (after bs)).2.2 = .error (.escape e)) ∨
        ∃ rs o, (b.process (after bs)).2.2 = .ok o ∧
          Substituted l b.content rs o (b.calls (after bs))) ∧
      ∀ call ∈ b.calls (after bs), ∃ literal ∈ scan b.windows b.content,
        Agrees (after (bs ++ [b])) literal call.1) ∧
    (∀ (later : List Feed) (key : Text) (e : Entry), (after bs).table.get? key = some e →
      (after (bs ++ later)).table.get? key = some e) := by
  have h := consistent_after bs
  refine ⟨?_, ?_, ?_⟩
  · intro e he
    obtain ⟨content, found, entry⟩ := h.entries e he
    refine ⟨(Table.get?_eq_some_iff h.distinct).2 ⟨he, rfl⟩, content, ?_,
      (isEntryOf_entryOf entry).2⟩
    intro c
    refine ⟨fun hc => h.keys.lookup?_injective hc found, ?_⟩
    rintro rfl
    exact found
  · intro b l target
    refine ⟨Feed.process_substituted h target, ?_⟩
    intro call mem
    have last : after (bs ++ [b]) = (b.process (after bs)).1 := List.foldl_concat ..
    rw [last]
    exact Feed.agrees_of_mem_calls h mem
  · intro later key e found
    obtain ⟨h', ext⟩ := h.feeds later
    have later_eq : after (bs ++ later) = later.foldl feed (after bs) := List.foldl_append ..
    rw [later_eq]
    exact ext.get? h h' found

end Session

end Localizer.Extraction
