import Localizer.Proofs.Resource.Document
import Mathlib.Data.List.Induction

/-!
# What a history of recordings leaves

To record an entry looks only at the entry that its key has (`get?_record`). Over a history of any
length this comes to a rule that needs no table: of the recordings for a key, the first that brings
placeholders stays, or the very first if none does (`settled`, `get?_after`). The induction is on
the last recording, since each one is weighed against what all before it left.

`kept_after` draws from that rule what a user of the table sees: its keys, in order and each of
them once, the entries behind them, and that neither recordings for other keys nor repetitions
matter.
-/

namespace Localizer.Resource.Table

open Text Message

/-! ## Keys of a table -/

theorem lex_of_le_of_ne {a b : Text} (h : le a b = true) (ne : a ≠ b) : List.Lex (· < ·) a b := by
  induction a generalizing b with
  | nil =>
    cases b with
    | nil => contradiction
    | cons y b => exact .nil
  | cons x a ih =>
    cases b with
    | nil => simp [le] at h
    | cons y b =>
      simp only [le, Bool.or_eq_true, decide_eq_true_eq, Bool.and_eq_true, beq_iff_eq] at h
      rcases h with first | ⟨rfl, rest⟩
      · exact .rel first
      · exact .cons (ih rest fun same => ne (same ▸ rfl))

theorem mem_keys_iff {t : Table} {key : Text} : key ∈ t.keys ↔ (t.get? key).isSome = true := by
  simp only [keys, List.mem_map, mem_entries_iff, get?, List.find?_isSome, beq_iff_eq]

/-- The entries of a table are those of its keys, in the same order. -/
theorem map_get?_keys {t : Table} (h : t.Distinct) : t.keys.map t.get? = t.entries.map some := by
  rw [keys, List.map_map]
  refine List.map_congr_left fun e mem => ?_
  exact (get?_eq_some_iff h).2 ⟨mem_entries_iff.1 mem, rfl⟩

theorem size_eq_length_keys (t : Table) : t.size = t.keys.length := by
  simp [keys, entries, size]

/-! ## One recording -/

theorem get?_eq_none_iff {t : Table} {key : Text} : t.get? key = none ↔ t.contains key = false := by
  rw [get?, List.find?_eq_none, contains, List.any_eq_false]

/-- What a recording puts in the place of an entry has the key of that entry. -/
theorem key_over (old new : Entry) :
    (if old.key == new.key then keep old new else old).key = old.key := by
  split
  next same =>
    rw [keep]
    split
    next => exact (beq_iff_eq.1 same).symm
    next => rfl
  next => rfl

/-- To record keeps the entries of other keys, and weighs the new entry against that of its own
key. -/
theorem get?_record (t : Table) (new : Entry) (key : Text) :
    (t.record new).get? key =
      if new.key = key then some (((t.get? key).map (keep · new)).getD new) else t.get? key := by
  cases known : t.contains new.key with
  | false =>
    rw [record_of_new known, get?, List.find?_append, ← get?]
    split
    next same =>
      subst same
      rw [get?_eq_none_iff.2 known]
      simp
    next other => simp [other]
  | true =>
    have found : (t.record new).get? key =
        (t.get? key).map fun old => if old.key == new.key then keep old new else old := by
      rw [record, if_pos known, get?, List.find?_map]
      simp only [Function.comp_def, key_over]
      rfl
    rw [found]
    split
    next same =>
      subst same
      cases held : t.get? new.key with
      | none =>
        rw [get?_eq_none_iff.1 held] at known
        contradiction
      | some old =>
        have own : old.key = new.key := by simpa using List.find?_some held
        simp [own]
    next other =>
      cases held : t.get? key with
      | none => rfl
      | some old =>
        have own : old.key = key := by simpa using List.find?_some held
        simp [own, Ne.symm other]

theorem distinct_record {t : Table} (h : t.Distinct) (new : Entry) : (t.record new).Distinct := by
  cases known : t.contains new.key with
  | false =>
    rw [record_of_new known]
    exact distinct_append h known
  | true =>
    rw [record, if_pos known, Distinct, List.map_map]
    simp only [Function.comp_def, key_over]
    exact h

/-! ## A history -/

/-- Whether a recording brings placeholders. -/
def brings (given : Entry) : Bool := given.placeholders.any (!·.isEmpty)

/-- The table that recordings leave, one after the other. -/
def after (history : List Entry) : Table := history.foldl add {}

/-- What recordings for one key leave: the first that brings placeholders or, if none does, the
first, without any. -/
def settled (own : List Entry) : Option Entry :=
  match own.find? brings with
  | some e => some e
  | none => own.head?.map fun e => { e with placeholders := none }

/-- The recordings for a key. -/
def own (key : Text) (history : List Entry) : List Entry := history.filter (·.key == key)

theorem after_concat (history : List Entry) (given : Entry) :
    after (history ++ [given]) = (after history).add given :=
  List.foldl_concat ..

theorem distinct_after (history : List Entry) : (after history).Distinct := by
  induction history using List.reverseRecOn with
  | nil => exact List.nodup_nil
  | append_singleton history given ih =>
    rw [after_concat]
    exact distinct_record ih _

theorem stored_eq (given : Entry) :
    stored given = if brings given then given else { given with placeholders := none } := by
  obtain ⟨key, value, description, placeholders⟩ := given
  cases placeholders with
  | none => rfl
  | some ps => cases ps <;> rfl

theorem isSome_of_brings {given : Entry} (h : brings given = true) :
    given.placeholders.isSome = true := by
  cases none : given.placeholders with
  | none => simp [brings, none] at h
  | some ps => rfl

theorem keep_of_brings {old : Entry} (h : brings old = true) (new : Entry) :
    keep old new = old := by
  simp [keep, Option.isNone_eq_false_iff.2 (isSome_of_brings h)]

/-- One more recording for a key is weighed against what those before it leave. -/
theorem settled_concat (earlier : List Entry) (given : Entry) :
    settled (earlier ++ [given]) =
      some (((settled earlier).map (keep · (stored given))).getD (stored given)) := by
  rw [settled, settled, List.find?_append]
  cases found : earlier.find? brings with
  | some e =>
    have held := keep_of_brings (List.find?_some found) (stored given)
    simp [held]
  | none =>
    cases earlier with
    | nil => cases new : brings given <;> simp [stored_eq, new]
    | cons first earlier =>
      cases new : brings given with
      | false => simp [stored_eq, new, keep]
      | true => simp [stored_eq, new, keep, isSome_of_brings new]

/-- **What a history leaves for a key** is told by its recordings for this key. -/
theorem get?_after (history : List Entry) (key : Text) :
    (after history).get? key = settled (own key history) := by
  induction history using List.reverseRecOn with
  | nil => rfl
  | append_singleton history given ih =>
    have split : own key (history ++ [given]) =
        own key history ++ [given].filter (·.key == key) := List.filter_append ..
    rw [after_concat, add, get?_record, ih, split]
    split
    next same =>
      have mine : [given].filter (·.key == key) = [given] := by simpa [stored] using same
      rw [mine, settled_concat]
    next other =>
      have none : [given].filter (·.key == key) = [] := by simpa [stored] using other
      rw [none, List.append_nil]

/-- What recordings for a key leave is kept over each of them. -/
theorem keep_settled {own : List Entry} {given old : Entry} (mem : given ∈ own)
    (held : settled own = some old) : keep old (stored given) = old := by
  cases new : brings given with
  | false => simp [stored_eq, new, keep]
  | true =>
    obtain ⟨first, found⟩ := Option.isSome_iff_exists.1 (List.find?_isSome.2 ⟨given, mem, new⟩)
    rw [settled, found] at held
    obtain rfl := Option.some.inj held
    exact keep_of_brings (List.find?_some found) _

theorem mem_own_iff {key : Text} {history : List Entry} {given : Entry} :
    given ∈ own key history ↔ given ∈ history ∧ given.key = key := by
  simp [own]

theorem isSome_settled_iff {own : List Entry} : (settled own).isSome = true ↔ own ≠ [] := by
  rw [settled]
  cases own with
  | nil => simp
  | cons first rest => split <;> simp

/-- A key is in the table once something was recorded for it. -/
theorem mem_keys_after_iff {history : List Entry} {key : Text} :
    key ∈ (after history).keys ↔ ∃ given ∈ history, given.key = key := by
  rw [mem_keys_iff, get?_after, isSome_settled_iff, own, Ne, List.filter_eq_nil_iff]
  simp

/-- To record something again changes nothing. -/
theorem after_repeated {history : List Entry} {given : Entry} (mem : given ∈ history) :
    after (history ++ [given]) = after history := by
  rw [after_concat, add]
  refine record_of_keep ?_ ?_
  · have held : ((after history).get? (stored given).key).isSome = true :=
      mem_keys_iff.1 (mem_keys_after_iff.2 ⟨given, mem, rfl⟩)
    cases known : (after history).contains (stored given).key with
    | true => rfl
    | false => simp [get?_eq_none_iff.2 known] at held
  · intro old hold key
    refine keep_settled (mem_own_iff.2 ⟨mem, rfl⟩) ?_
    rw [← get?_after]
    exact (get?_eq_some_iff (distinct_after history)).2 ⟨hold, key⟩

/-- **What a history of recordings leaves.** The keys increase, and they are those that something
was recorded for; there is one entry for each, in the same order. A key has the entry of the first
recording for it that brings placeholders or, if none does, of the first recording for it, without
any. So recordings for other keys do not matter to it, and to record something again changes
nothing. -/
theorem kept_after (history : List Entry) :
    ((after history).keys.Pairwise (List.Lex (· < ·)) ∧
      ∀ key, key ∈ (after history).keys ↔ ∃ given ∈ history, given.key = key) ∧
    ((after history).keys.map (after history).get? = (after history).entries.map some ∧
      (after history).size = (after history).keys.length) ∧
    (∀ key, (after history).get? key = settled (own key history)) ∧
    (∀ key, (after history).get? key = (after (own key history)).get? key) ∧
    ∀ given ∈ history, after (history ++ [given]) = after history := by
  refine ⟨⟨?_, fun key => mem_keys_after_iff⟩, ⟨map_get?_keys (distinct_after history),
    size_eq_length_keys _⟩, get?_after history, ?_, fun given => after_repeated⟩
  · exact (pairwise_keys (distinct_after history)).imp fun h => lex_of_le_of_ne h.1 h.2
  · intro key
    have twice : own key (own key history) = own key history := by
      simp [own]
    rw [get?_after, get?_after, twice]

end Localizer.Resource.Table
