import Localizer.Proofs.Resource.Keys
import Localizer.Proofs.Resource.Table
import Mathlib.Data.List.Dedup
import Mathlib.Data.List.Induction

/-!
# Calls in any order

Keys are given out beside a table to which entries of any key may be added in the meantime. A `Store`
holds both, and a `Call` on it generates a key, looks one up or records an entry. What was said of one
call in `Localizer.Proofs.Resource.Keys` is carried over to calls in any number and order: in the store that
they lead to, the keys are well-formed, and a content has the key that one of the calls returned for it
(`lookup?_after`). The induction is on the last call, since an answer depends on all calls before it.

From this everything that a user of the store can see follows (`keys_after`): no key is held twice, a
key stays as it was returned, and a new one is free at the moment.
-/

namespace Localizer.Resource

open Text

/-- A table, and the keys that are given out beside it. -/
structure Store where
  table : Table
  keys : Keys := {}

namespace Store

/-- A call on a store. -/
inductive Call where
  /-- Give a content its key. -/
  | generate (content : Text)
  /-- Ask for the key of a content. -/
  | lookup (content : Text)
  /-- Record an entry, whatever its key. -/
  | record (entry : Entry)

/-- The content that a call generates a key for. -/
def Call.generated? : Call → Option Text
  | generate content => some content
  | lookup _ => none
  | record _ => none

theorem Call.generated?_eq_some_iff {call : Call} {content : Text} :
    call.generated? = some content ↔ call = .generate content := by
  cases call <;> simp [generated?]

/-- The key that a call answers with. -/
def answer (s : Store) : Call → Option Text
  | .generate content => some (s.keys.generate s.table content).1
  | .lookup content => s.keys.lookup? content
  | .record _ => none

/-- The store after a call. -/
def perform (s : Store) : Call → Store
  | .generate content => { s with keys := (s.keys.generate s.table content).2 }
  | .lookup _ => s
  | .record entry => { s with table := s.table.record entry }

/-- The store that calls lead to, from a table and no keys. -/
def after (t : Table) (calls : List Call) : Store := calls.foldl perform { table := t }

/-- Among calls on a table there is one that generates this key for this content. -/
def Returns (t : Table) (calls : List Call) (content key : Text) : Prop :=
  ∃ earlier later, calls = earlier ++ .generate content :: later ∧
    (after t earlier).answer (.generate content) = some key

theorem after_concat (t : Table) (calls : List Call) (call : Call) :
    after t (calls ++ [call]) = (after t calls).perform call :=
  List.foldl_concat ..

theorem returns_of_mem (t : Table) {calls : List Call} {content : Text}
    (h : .generate content ∈ calls) : ∃ key, Returns t calls content key := by
  obtain ⟨earlier, later, split⟩ := List.append_of_mem h
  exact ⟨_, earlier, later, split, rfl⟩

theorem Returns.mem {t : Table} {calls : List Call} {content key : Text}
    (h : Returns t calls content key) : .generate content ∈ calls := by
  obtain ⟨earlier, later, rfl, -⟩ := h
  simp

theorem Returns.append {t : Table} {calls : List Call} {content key : Text}
    (h : Returns t calls content key) (later : List Call) :
    Returns t (calls ++ later) content key := by
  obtain ⟨earlier, rest, rfl, answer⟩ := h
  exact ⟨earlier, rest ++ later, by simp, answer⟩

/-- A key is returned by one of the calls before the last, or by the last. -/
theorem returns_concat_iff {t : Table} {calls : List Call} {call : Call} {content key : Text} :
    Returns t (calls ++ [call]) content key ↔ Returns t calls content key ∨
      call = .generate content ∧ (after t calls).answer call = some key := by
  constructor
  · rintro ⟨earlier, later, split, answer⟩
    rcases List.eq_nil_or_concat later with rfl | ⟨later, last, rfl⟩
    · obtain ⟨rfl, single⟩ := List.append_inj' split rfl
      obtain rfl := List.singleton_inj.1 single
      exact .inr ⟨rfl, answer⟩
    · rw [List.concat_eq_append, ← List.cons_append, ← List.append_assoc] at split
      exact .inl ⟨earlier, later, (List.append_inj' split rfl).1, answer⟩
  · rintro (returned | ⟨rfl, answer⟩)
    · exact returned.append [call]
    · exact ⟨calls, [], rfl, answer⟩

/-! ## The keys after calls -/

/-- **A content has the key that was returned for it.** -/
theorem lookup?_after (t : Table) (calls : List Call) :
    (after t calls).keys.WellFormed ∧ ∀ content key,
      (after t calls).keys.lookup? content = some key ↔ Returns t calls content key := by
  induction calls using List.reverseRecOn with
  | nil =>
    refine ⟨Keys.WellFormed.empty, ?_⟩
    intro content key
    constructor
    · intro found
      cases found
    · intro returned
      cases returned.mem
  | append_singleton calls call ih =>
    obtain ⟨wellFormed, lookup⟩ := ih
    rw [after_concat]
    cases call with
    | generate content' =>
      refine ⟨wellFormed.generate _ content', ?_⟩
      intro content key
      rw [returns_concat_iff, ← lookup, perform, wellFormed.lookup?_generate_iff]
      simp only [answer, Call.generate.injEq, Option.some.injEq, eq_comm]
    | lookup content' =>
      refine ⟨wellFormed, ?_⟩
      intro content key
      rw [returns_concat_iff, ← lookup]
      simp [perform]
    | record entry =>
      refine ⟨wellFormed, ?_⟩
      intro content key
      rw [returns_concat_iff, ← lookup]
      simp [perform]

/-- A content has a key once one was generated for it. -/
theorem lookup?_after_eq_none_iff {t : Table} {calls : List Call} {content : Text} :
    (after t calls).keys.lookup? content = none ↔ .generate content ∉ calls := by
  rw [Option.eq_none_iff_forall_ne_some]
  constructor
  · intro none mem
    obtain ⟨key, returned⟩ := returns_of_mem t mem
    exact none key (((lookup?_after t calls).2 content key).2 returned)
  · intro notMem key found
    exact notMem (((lookup?_after t calls).2 content key).1 found).mem

/-- There are as many keys as there are contents that one was generated for. -/
theorem size_after (t : Table) (calls : List Call) :
    (after t calls).keys.size = (calls.filterMap Call.generated?).dedup.length := by
  obtain ⟨wellFormed, -⟩ := lookup?_after t calls
  have same : ((after t calls).keys.assigned.map Prod.fst).Perm
      (calls.filterMap Call.generated?).dedup := by
    rw [List.perm_ext_iff_of_nodup wellFormed.texts (List.nodup_dedup _)]
    intro content
    rw [wellFormed.mem_texts_iff, ← Option.ne_none_iff_exists', Ne, lookup?_after_eq_none_iff, not_not,
      List.mem_dedup, List.mem_filterMap]
    simp only [Call.generated?_eq_some_iff, exists_eq_right]
  rw [Keys.size, ← same.length_eq, List.length_map]

/-- **Keys are fresh, stay, and are held once.** Whatever calls are made on a table, in whatever order:
no two contents hold the same key; a key that was returned for a content is the answer to every later call
for this content; a key that is returned for a new content is at that moment neither in the table nor
returned before; a content has no key just if none was generated for it; and the keys are as many as the
contents that one was generated for. -/
theorem keys_after (t : Table) (calls : List Call) :
    (∀ c c' key, (after t calls).answer (.lookup c) = some key →
      (after t calls).answer (.lookup c') = some key → c = c') ∧
    (∀ c key, Returns t calls c key → ∀ later,
      (after t (calls ++ later)).answer (.generate c) = some key ∧
        (after t (calls ++ later)).answer (.lookup c) = some key) ∧
    (∀ c key, .generate c ∉ calls → (after t calls).answer (.generate c) = some key →
      (after t calls).table.contains key = false ∧ ∀ c', ¬ Returns t calls c' key) ∧
    (∀ c, (after t calls).answer (.lookup c) = none ↔ .generate c ∉ calls) ∧
    (after t calls).keys.size = (calls.filterMap Call.generated?).dedup.length := by
  obtain ⟨wellFormed, lookup⟩ := lookup?_after t calls
  refine ⟨?_, ?_, ?_, fun c => lookup?_after_eq_none_iff, size_after t calls⟩
  · intro c c' key held held'
    exact wellFormed.lookup?_injective held held'
  · intro c key returned later
    have found := ((lookup?_after t (calls ++ later)).2 c key).2 (returned.append later)
    refine ⟨?_, found⟩
    rw [answer, Keys.generate_of_lookup? found]
  · intro c key new returned
    obtain rfl := Option.some.inj returned
    have unseen : (after t calls).keys.lookup? c = none := lookup?_after_eq_none_iff.2 new
    have free := (Keys.generate_of_new (t := (after t calls).table) unseen).2
    rw [Keys.taken, List.mem_append, not_or] at free
    obtain ⟨unrecorded, unissued⟩ := free
    refine ⟨?_, ?_⟩
    · rw [← Bool.not_eq_true, Table.contains_iff]
      rintro ⟨e, mem, key⟩
      exact unrecorded (List.mem_map.2 ⟨e, mem, key⟩)
    · intro c' held
      rw [← lookup, wellFormed.lookup?_eq_some_iff] at held
      exact unissued (List.mem_map_of_mem held)

end Store

end Localizer.Resource
