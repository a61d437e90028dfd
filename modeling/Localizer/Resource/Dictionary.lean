/-!
# Dictionaries

A dictionary is a list of names with their values, in the order in which the names came in. To
write under a name that is there keeps its place.
-/

namespace Localizer

/-- Names with their values, in the order in which the names came in. -/
abbrev Dictionary (κ α : Type) := List (κ × α)

namespace Dictionary

variable {κ α : Type} [BEq κ]

/-- The value under a name. -/
def get? (name : κ) : Dictionary κ α → Option α
  | [] => none
  | (n, v) :: d => if n == name then some v else get? name d

/-- Write a value under a name: in its place if the name is there, at the end otherwise. -/
def set (name : κ) (value : α) : Dictionary κ α → Dictionary κ α
  | [] => [(name, value)]
  | (n, v) :: d => if n == name then (n, value) :: d else (n, v) :: set name value d

/-- The dictionary of a list of pairs, written one after the other. -/
def ofPairs (pairs : List (κ × α)) : Dictionary κ α :=
  pairs.foldl (fun d p => set p.1 p.2 d) []

/-- The names, in order. -/
def names (d : Dictionary κ α) : List κ := d.map Prod.fst

theorem get?_set [LawfulBEq κ] (name other : κ) (value : α) (d : Dictionary κ α) :
    get? other (set name value d) = if name == other then some value else get? other d := by
  induction d with
  | nil => simp [set, get?]
  | cons p d ih =>
    obtain ⟨n, v⟩ := p
    by_cases h : n = name
    · subst h
      by_cases h' : n = other <;> simp [set, get?, h']
    · by_cases h' : n = other
      · subst h'
        simp [set, get?, h, Ne.symm h]
      · simp [set, get?, h, h', ih]

/-- To write under a new name adds a member at the end. -/
theorem set_of_not_mem [LawfulBEq κ] {name : κ} {value : α} {d : Dictionary κ α} (new : name ∉ d.names) :
    set name value d = d ++ [(name, value)] := by
  induction d with
  | nil => rfl
  | cons p d ih =>
    simp only [names, List.map_cons, List.mem_cons, not_or] at new
    simp [set, Ne.symm new.1, ih new.2]

theorem foldl_set_of_nodup [LawfulBEq κ] {d pairs : Dictionary κ α} (nodup : (names (d ++ pairs)).Nodup) :
    pairs.foldl (fun d p => set p.1 p.2 d) d = d ++ pairs := by
  induction pairs generalizing d with
  | nil => simp
  | cons p pairs ih =>
    have new : p.1 ∉ d.names := by
      rw [names, List.map_append, List.map_cons, List.nodup_append] at nodup
      exact fun mem => nodup.2.2 _ mem _ List.mem_cons_self rfl
    have step : d ++ p :: pairs = d ++ [(p.1, p.2)] ++ pairs := by simp
    rw [step] at nodup ⊢
    rw [List.foldl_cons, set_of_not_mem new, ih nodup]

/-- Pairs whose names are different are the members of their dictionary. -/
theorem ofPairs_of_nodup [LawfulBEq κ] {pairs : List (κ × α)} (nodup : (pairs.map Prod.fst).Nodup) :
    ofPairs pairs = pairs :=
  foldl_set_of_nodup (d := []) nodup

/-- A member is found under its name, if no other has that name. -/
theorem get?_of_mem_of_nodup [LawfulBEq κ] {d : Dictionary κ α} (distinct : d.names.Nodup)
    {name : κ} {value : α} (mem : (name, value) ∈ d) : get? name d = some value := by
  induction d with
  | nil => simp at mem
  | cons p d ih =>
    obtain ⟨first, v⟩ := p
    obtain ⟨new, distinct⟩ := List.nodup_cons.1 distinct
    rcases List.mem_cons.1 mem with here | later
    · obtain ⟨rfl, rfl⟩ := Prod.mk.inj here
      simp [get?]
    · have other : first ≠ name := by
        intro same
        have known := List.mem_map_of_mem (f := Prod.fst) later
        exact new (same ▸ known)
      simpa [get?, other] using ih distinct later

end Dictionary

end Localizer
