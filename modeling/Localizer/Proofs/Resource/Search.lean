import Localizer.Proofs.Resource.Keys
import Mathlib.Data.PFun
import Mathlib.Order.Bounds.Basic

/-!
# The search for a free key

A new text starts from its base and has a number put behind it for as long as the name is in the
table or given out. Nothing in that rule bounds the search (`search`), while `Keys.generate` looks
at no more candidates than there are names to avoid. The two agree since the search ends: its names
are the candidates of the base in turn (`search_candidate`), those that it leaves behind are
pairwise different and each of them is to be avoided (`le_card_of_not_free`), so it counts no
further than there are keys in the table and keys given out. It ends at the first candidate that is
free, and that is the key of the text (`generate_ends_search`).
-/

namespace Localizer.Resource.Keys

open Text Message

variable {k : Keys} {t : Table}

/-! ## Searching without a bound -/

/-- A name that is neither in the table nor given out. -/
def IsFree (k : Keys) (t : Table) (name : Text) : Prop :=
  t.contains name = false ∧ name ∉ k.issued

instance (k : Keys) (t : Table) (name : Text) : Decidable (k.IsFree t name) :=
  inferInstanceAs (Decidable (_ ∧ _))

/-- Where a search stands. -/
structure Search where
  /-- The name that is looked at. -/
  name : Text
  /-- The number to put behind the base next. -/
  number : Nat

/-- One turn of a search: it ends at a name that is free, and goes on with the next number if the
name is not. -/
def turn (k : Keys) (t : Table) (base : Text) (s : Search) : Search ⊕ Search :=
  if k.IsFree t s.name then .inl s else .inr ⟨base ++ '_' :: ofNat s.number, s.number + 1⟩

/-- Turn after turn, as often as it takes. A search that never ends has no result. -/
def search (k : Keys) (t : Table) (base : Text) : Search →. Search :=
  PFun.fix (PFun.lift (k.turn t base))

theorem search_of_free {base : Text} {s : Search} (free : k.IsFree t s.name) :
    k.search t base s = Part.some s := by
  refine Part.eq_some_iff.2 (PFun.fix_stop ?_)
  simp [turn, free]

/-- A candidate that is not free gives way to the next one. -/
theorem search_of_not_free {base : Text} {n : Nat} (avoided : ¬k.IsFree t (candidate base n)) :
    k.search t base ⟨candidate base n, n + 1⟩ =
      k.search t base ⟨candidate base (n + 1), n + 2⟩ := by
  have turned : k.turn t base ⟨candidate base n, n + 1⟩ = .inr ⟨candidate base (n + 1), n + 2⟩ := by
    rw [turn, if_neg avoided]
    rfl
  exact PFun.fix_fwd_eq (by simp [turned])

/-- From any candidate the search goes over those that are not free to the first that is. -/
theorem search_candidate {base : Text} {m n : Nat} (le : m ≤ n)
    (passed : ∀ i, m ≤ i → i < n → ¬k.IsFree t (candidate base i))
    (free : k.IsFree t (candidate base n)) :
    k.search t base ⟨candidate base m, m + 1⟩ = Part.some ⟨candidate base n, n + 1⟩ := by
  -- the induction goes down from the free candidate, since each turn leads to the one above
  induction le using Nat.decreasingInduction with
  | self => exact search_of_free free
  | of_succ m less ih =>
    rw [search_of_not_free (passed m (Nat.le_refl m) less)]
    exact ih fun i low high => passed i (by omega) high

/-! ## Names to avoid -/

theorem isFree_iff_not_mem_taken {name : Text} : k.IsFree t name ↔ name ∉ k.taken t := by
  simp [IsFree, taken, Table.contains]

theorem mem_taken_iff {name : Text} : name ∈ k.taken t ↔ name ∈ t.keys ∨ name ∈ k.issued := by
  simp [taken, Table.keys, Table.entries]

/-- The candidates that are not free are no more than the keys of the table and those given out. -/
theorem le_card_of_not_free {base : Text} {n : Nat}
    (passed : ∀ i < n, ¬k.IsFree t (candidate base i)) :
    n ≤ t.keys.toFinset.card + k.issued.toFinset.card := by
  have all : ∀ i < n, candidate base i ∈ t.keys.toFinset ∪ k.issued.toFinset := by
    intro i hi
    have avoided : candidate base i ∈ k.taken t := by
      simpa [isFree_iff_not_mem_taken] using passed i hi
    simpa using mem_taken_iff.1 avoided
  calc
    n ≤ (t.keys.toFinset ∪ k.issued.toFinset).card := le_card_of_candidates all
    _ ≤ t.keys.toFinset.card + k.issued.toFinset.card := Finset.card_union_le ..

/-! ## The end of the search -/

/-- The search from a base ends at a key after `n` numbers were put behind the base, and `n` is the
number of the first candidate that is free. -/
structure EndsSearch (k : Keys) (t : Table) (base : Text) (n : Nat) (key : Text) : Prop where
  ends : k.search t base ⟨base, 1⟩ = Part.some ⟨key, n + 1⟩
  name : key = candidate base n
  first : IsLeast {i | k.IsFree t (candidate base i)} n

/-- **The search for a key ends.** For a new text, whatever the table holds and whatever keys were
given out, the search from its base ends after at most as many numbers as there are keys in the
table and keys given out together. It ends at the key of the text: the base if that is free, and
otherwise the base with the least number behind it that makes it free. -/
theorem generate_ends_search {content : Text} (new : k.lookup? content = none) :
    ∃ n ≤ t.keys.toFinset.card + k.issued.toFinset.card,
      k.EndsSearch t (k.base content).1 n (k.generate t content).1 := by
  obtain ⟨n, key, passed⟩ := exists_generate_eq_candidate (t := t) new
  have avoided : ∀ i < n, ¬k.IsFree t (candidate (k.base content).1 i) := by
    intro i hi free
    exact isFree_iff_not_mem_taken.1 free (passed i hi)
  have free : k.IsFree t (candidate (k.base content).1 n) := by
    rw [isFree_iff_not_mem_taken, ← key]
    exact (generate_of_new new).2
  have ends : k.search t (k.base content).1 ⟨(k.base content).1, 1⟩ =
      Part.some ⟨(k.generate t content).1, n + 1⟩ := by
    rw [key]
    exact search_candidate (Nat.zero_le n) (fun i _ hi => avoided i hi) free
  refine ⟨n, le_card_of_not_free avoided, ends, key, free, ?_⟩
  intro i other
  by_contra less
  exact avoided i (by omega) other

/-- A table that got two keys from elsewhere, both of them candidates of one base. -/
def crowdedTable : Table := ⟨[
  ⟨"welcome_2".toList, ofText "Welcome back".toList, "Localized string".toList, none⟩,
  ⟨"welcome_1".toList, ofText "Welcome home".toList, "Localized string".toList, none⟩]⟩

/-- The same base was given out as the key of a text. -/
def crowdedKeys : Keys := ⟨[("Welcome".toList, "welcome".toList)], 0⟩

/-- All three keys are passed, which is as far as the search can go. -/
theorem generate_ends_search_crowded :
    crowdedKeys.lookup? "Welcome!".toList = none ∧
      (∃ n ≤ crowdedTable.keys.toFinset.card + crowdedKeys.issued.toFinset.card,
        crowdedKeys.EndsSearch crowdedTable (crowdedKeys.base "Welcome!".toList).1 n
          (crowdedKeys.generate crowdedTable "Welcome!".toList).1) ∧
      (crowdedKeys.generate crowdedTable "Welcome!".toList).1 = "welcome_3".toList :=
  ⟨rfl, generate_ends_search rfl, by decide +kernel⟩

end Localizer.Resource.Keys
