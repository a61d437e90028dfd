import Localizer.Resource.Table
import Mathlib.Data.List.Nodup
import Mathlib.Data.List.Perm.Subperm

/-!
# Recording

A table whose keys are pairwise different holds one entry per key, so that `get?` finds every entry
that was recorded (`get?_eq_some_iff`). To record an entry that is there changes nothing
(`record_of_mem`), and one with a new key comes last (`record_of_new`).
-/

namespace Localizer.Resource.Table

open Text Message

/-- No key has two entries. -/
def Distinct (t : Table) : Prop := (t.recorded.map (·.key)).Nodup

theorem contains_iff {t : Table} {key : Text} :
    t.contains key = true ↔ ∃ e ∈ t.recorded, e.key = key := by
  simp [contains, List.any_eq_true]

theorem mem_entries_iff {t : Table} {e : Entry} : e ∈ t.entries ↔ e ∈ t.recorded :=
  (List.mergeSort_perm t.recorded _).mem_iff

/-- Entries that came in the order of their keys are listed as they came. -/
theorem entries_of_pairwise {t : Table}
    (ordered : t.recorded.Pairwise fun a b => le a.key b.key = true) : t.entries = t.recorded :=
  List.mergeSort_of_pairwise ordered

theorem eq_of_key_eq {t : Table} (h : t.Distinct) {e e' : Entry} (he : e ∈ t.recorded)
    (he' : e' ∈ t.recorded) (key : e.key = e'.key) : e = e' :=
  List.inj_on_of_nodup_map h he he' key

theorem get?_eq_some_iff {t : Table} (h : t.Distinct) {key : Text} {e : Entry} :
    t.get? key = some e ↔ e ∈ t.recorded ∧ e.key = key := by
  constructor
  · intro found
    exact ⟨List.mem_of_find?_eq_some found, by simpa using List.find?_some found⟩
  · rintro ⟨mem, rfl⟩
    obtain ⟨e', found⟩ : ∃ e', t.get? e.key = some e' :=
      Option.isSome_iff_exists.1 (List.find?_isSome.2 ⟨e, mem, by simp⟩)
    have same : e'.key = e.key := by simpa using List.find?_some found
    rw [found, eq_of_key_eq h (List.mem_of_find?_eq_some found) mem same]

/-- To record an entry changes nothing where the entry of its key is kept. -/
theorem record_of_keep {t : Table} {new : Entry} (known : t.contains new.key = true)
    (kept : ∀ old ∈ t.recorded, old.key = new.key → keep old new = old) : t.record new = t := by
  have same : ∀ old ∈ t.recorded, (if old.key == new.key then keep old new else old) = old := by
    intro old hold
    split
    next key => exact kept old hold (by simpa using key)
    next => rfl
  rw [record, if_pos known, List.map_congr_left same, List.map_id'']
  intro old
  rfl

/-- To record an entry that is there changes nothing. -/
theorem record_of_mem {t : Table} (h : t.Distinct) {e : Entry} (he : e ∈ t.recorded) :
    t.record e = t := by
  refine record_of_keep (contains_iff.2 ⟨e, he, rfl⟩) fun old hold key => ?_
  obtain rfl := eq_of_key_eq h hold he key
  simp [keep]

/-- An entry with a new key comes last. -/
theorem record_of_new {t : Table} {e : Entry} (h : t.contains e.key = false) :
    t.record e = ⟨t.recorded ++ [e]⟩ := by
  simp [record, h]

theorem distinct_append {t : Table} (h : t.Distinct) {e : Entry}
    (new : t.contains e.key = false) : Distinct ⟨t.recorded ++ [e]⟩ := by
  have fresh : e.key ∉ t.recorded.map (·.key) := by
    rintro mem
    obtain ⟨old, hold, key⟩ := List.mem_map.1 mem
    rw [contains_iff.2 ⟨old, hold, key⟩] at new
    contradiction
  rw [Distinct, List.map_append, List.map_singleton, List.nodup_append_comm]
  exact List.nodup_cons.2 ⟨fresh, h⟩

end Localizer.Resource.Table
