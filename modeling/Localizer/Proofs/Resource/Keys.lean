import Localizer.Proofs.Resource.Words
import Mathlib.Data.Finset.Card
import Mathlib.Data.List.Nodup

/-!
# Keys are fresh and stay

What `Keys.generate` does to the keys that were given out. A text that has a key keeps it
(`generate_of_lookup?`); a new text gets one that is neither in the table nor given out before
(`generate_of_new`). Freshness rests on two facts: the candidates of one base are pairwise
different (`candidate_injective`), so that no more of them can be taken than there are names to
avoid (`le_card_of_candidates`), and one that is free is found (`firstFree_not_mem`).

`WellFormed` says that no text has two keys, that no two texts share one, and which characters keys
are made of. It holds of the keys of a fresh session and is kept by `generate`, so that in every
reachable state `lookup?` is an injective partial map.
-/

namespace Localizer.Resource.Keys

open Text Message

/-! ## Candidates -/

theorem ofNat_injective : Function.Injective ofNat := by
  intro m n h
  have digits : Nat.toDigits 10 m = Nat.toDigits 10 n := by
    simpa [ofNat, Nat.repr] using h
  have value (k : ℕ) : Nat.ofDigitChars 10 (Nat.toDigits 10 k) 0 = k :=
    Nat.ofDigitChars_toDigits (by decide) (by decide)
  rw [← value m, digits, value n]

/-- The candidates of one base are pairwise different. -/
theorem candidate_injective (base : Text) : Function.Injective (candidate base) := by
  intro m n h
  cases m with
  | zero =>
    cases n with
    | zero => rfl
    | succ n => simp [candidate] at h
  | succ m =>
    cases n with
    | zero => simp [candidate] at h
    | succ n =>
      have tail : ofNat (m + 1) = ofNat (n + 1) := by simpa [candidate] using h
      exact ofNat_injective tail

/-- The search ends at some candidate; those that it passed are taken, and it stops early only at
one that is not. -/
theorem firstFree_eq_candidate (taken : List Text) (base : Text) (fuel n : Nat) :
    ∃ m, n ≤ m ∧ m ≤ n + fuel ∧ firstFree taken base fuel n = candidate base m ∧
      (∀ i, n ≤ i → i < m → candidate base i ∈ taken) ∧
      (m < n + fuel → candidate base m ∉ taken) := by
  induction fuel generalizing n with
  | zero => exact ⟨n, Nat.le_refl _, Nat.le_refl _, rfl, by omega, by omega⟩
  | succ fuel ih =>
    by_cases h : candidate base n ∈ taken
    · obtain ⟨m, low, high, eq, passed, free⟩ := ih (n + 1)
      refine ⟨m, by omega, by omega, by simp [firstFree, h, eq], ?_, fun hm => free (by omega)⟩
      intro i hi him
      rcases Nat.eq_or_lt_of_le hi with rfl | hi
      · exact h
      · exact passed i hi him
    · exact ⟨n, Nat.le_refl _, by omega, by simp [firstFree, h], by omega, fun _ => h⟩

/-- Where the first candidates are all among some names, there are no more of them than names. -/
theorem le_card_of_candidates {base : Text} {names : Finset Text} {n : Nat}
    (all : ∀ i < n, candidate base i ∈ names) : n ≤ names.card := by
  have inside : (Finset.range n).image (candidate base) ⊆ names := by
    intro name mem
    obtain ⟨i, hi, rfl⟩ := Finset.mem_image.1 mem
    exact all i (Finset.mem_range.1 hi)
  calc
    n = ((Finset.range n).image (candidate base)).card := by
      rw [Finset.card_image_of_injective _ (candidate_injective base), Finset.card_range]
    _ ≤ names.card := Finset.card_le_card inside

/-- A search that may look as often as there are names to avoid finds a free one. -/
theorem firstFree_not_mem (taken : List Text) (base : Text) :
    firstFree taken base taken.length 0 ∉ taken := by
  obtain ⟨m, -, high, eq, passed, free⟩ := firstFree_eq_candidate taken base taken.length 0
  rw [eq]
  intro mem
  rcases Nat.lt_or_ge m taken.length with h | h
  · exact free (by omega) mem
  -- all candidates up to number `m` are taken, which are more than there are names to avoid
  · have all : ∀ i < m + 1, candidate base i ∈ taken.toFinset := by
      intro i hi
      rw [List.mem_toFinset]
      rcases Nat.eq_or_lt_of_le (Nat.le_of_lt_succ hi) with rfl | hi
      · exact mem
      · exact passed i (Nat.zero_le i) hi
    have count := (le_card_of_candidates all).trans taken.toFinset_card_le
    omega

/-! ## The characters of keys -/

/-- The characters of keys: letters and digits of the basic alphabet, and `_`. -/
def IsKeyChar (c : Char) : Prop := c.isAlphanum = true ∨ c = '_'

theorem isAlphanum_toLower_toUpper {c : Char} (h : c.isAlphanum = true) :
    c.toLower.isAlphanum = true ∧ c.toUpper.isAlphanum = true :=
  of_small (P := fun c => c.isAlphanum = true →
    c.toLower.isAlphanum = true ∧ c.toUpper.isAlphanum = true) (by decide +kernel)
    (toNat_lt_of_isAlphanum h) h

/-- A word that a key is made of holds letters and digits only. -/
theorem isAlphanum_of_mem_words {s w : Text} {c : Char} (hw : w ∈ words (clean s)) (hc : c ∈ w) :
    c.isAlphanum = true := by
  rw [words_clean] at hw
  have letter := (((isRuns_runs s).of_mem hw).2 c hc).2
  simpa [isGap] using letter

theorem isAlphanum_of_mem_camelCase {s : Text} {c : Char} (h : c ∈ camelCase s) :
    c.isAlphanum = true := by
  rw [camelCase_eq_words] at h
  split at h
  next => simp at h
  next w ws eq =>
    rcases List.mem_append.1 h with h | h
    · obtain ⟨d, hd, rfl⟩ := List.mem_map.1 h
      exact (isAlphanum_toLower_toUpper (isAlphanum_of_mem_words (eq ▸ List.mem_cons_self) hd)).1
    · obtain ⟨v, hv, hcv⟩ := List.mem_flatMap.1 h
      have letters : ∀ d ∈ v, d.isAlphanum = true :=
        fun d hd => isAlphanum_of_mem_words (eq ▸ List.mem_cons_of_mem _ hv) hd
      cases v with
      | nil => simp [capitalize] at hcv
      | cons d v =>
        rcases List.mem_cons.1 hcv with rfl | hcv
        · exact (isAlphanum_toLower_toUpper (letters d (by simp))).2
        · obtain ⟨d', hd', rfl⟩ := List.mem_map.1 hcv
          exact (isAlphanum_toLower_toUpper (letters d' (by simp [hd']))).1

theorem isDigit_of_mem_ofNat {n : Nat} {c : Char} (h : c ∈ ofNat n) : c.isDigit = true := by
  refine Nat.isDigit_of_mem_toDigits (by decide : 0 < 10) (by decide) ?_ (n := n)
  simpa [ofNat, Nat.repr] using h

theorem isKeyChar_of_mem_ofNat {n : Nat} {c : Char} (h : c ∈ ofNat n) : IsKeyChar c :=
  .inl (by simp [Char.isAlphanum, isDigit_of_mem_ofNat h])

theorem isKeyChar_of_mem_base {k : Keys} {content : Text} {c : Char}
    (h : c ∈ (k.base content).1) : IsKeyChar c := by
  have letters (s : Text) (hs : s.all Char.isAlphanum = true) (hc : c ∈ s) : IsKeyChar c :=
    .inl (List.all_eq_true.1 hs c hc)
  unfold base at h
  dsimp only at h
  split at h
  next =>
    rcases List.mem_append.1 h with h | h
    · exact letters _ (by decide) h
    · exact isKeyChar_of_mem_ofNat h
  next =>
    split at h
    next =>
      rcases List.mem_append.1 h with h | h
      · exact .inl (isAlphanum_of_mem_camelCase h)
      · exact letters _ (by decide) h
    next => exact .inl (isAlphanum_of_mem_camelCase h)

theorem isKeyChar_of_mem_candidate {name : Text} (h : ∀ c ∈ name, IsKeyChar c) (n : Nat) :
    ∀ c ∈ candidate name n, IsKeyChar c := by
  intro c hc
  cases n with
  | zero => exact h c hc
  | succ n =>
    rcases List.mem_append.1 hc with hc | hc
    · exact h c hc
    · rcases List.mem_cons.1 hc with rfl | hc
      · exact .inr rfl
      · exact isKeyChar_of_mem_ofNat hc

/-! ## Generating -/

theorem generate_of_lookup? {k : Keys} {t : Table} {content key : Text}
    (h : k.lookup? content = some key) : k.generate t content = (key, k) := by
  simp [generate, h]

/-- The key of a new text is a candidate, and those before it are taken. -/
theorem exists_generate_eq_candidate {k : Keys} {t : Table} {content : Text}
    (h : k.lookup? content = none) :
    ∃ n, (k.generate t content).1 = candidate (k.base content).1 n ∧
      ∀ i < n, candidate (k.base content).1 i ∈ k.taken t := by
  obtain ⟨n, -, -, eq, passed, -⟩ :=
    firstFree_eq_candidate (k.taken t) (k.base content).1 (k.taken t).length 0
  refine ⟨n, ?_, fun i => passed i (Nat.zero_le i)⟩
  simp only [generate, h]
  exact eq

/-- A new text gets a key that is neither in the table nor given out, and the keys given out before
stay as they are. -/
theorem generate_of_new {k : Keys} {t : Table} {content : Text} (h : k.lookup? content = none) :
    (k.generate t content).2.assigned = k.assigned ++ [(content, (k.generate t content).1)] ∧
      (k.generate t content).1 ∉ k.taken t := by
  simp only [generate, h]
  exact ⟨trivial, firstFree_not_mem _ _⟩

/-- The keys given out before stay. -/
theorem assigned_generate (k : Keys) (t : Table) (content : Text) :
    k.assigned <+: (k.generate t content).2.assigned := by
  cases hl : k.lookup? content with
  | some key => simp [generate_of_lookup? hl]
  | none =>
    rw [(generate_of_new hl).1]
    exact List.prefix_append _ _

/-- A text keeps its key when more keys are given out. -/
theorem lookup?_of_prefix {k k' : Keys} (h : k.assigned <+: k'.assigned) {content key : Text}
    (found : k.lookup? content = some key) : k'.lookup? content = some key := by
  obtain ⟨more, eq⟩ := h
  obtain ⟨pair, first, rfl⟩ := Option.map_eq_some_iff.1 found
  rw [lookup?, ← eq, List.find?_append, first]
  rfl

/-- The text has the generated key from then on. -/
theorem lookup?_generate (k : Keys) (t : Table) (content : Text) :
    (k.generate t content).2.lookup? content = some (k.generate t content).1 := by
  cases hl : k.lookup? content with
  | some key => rw [generate_of_lookup? hl, hl]
  | none =>
    have old : k.assigned.find? (·.1 == content) = none := by simpa [lookup?] using hl
    rw [lookup?, (generate_of_new hl).1, List.find?_append, old]
    simp

theorem isKeyChar_of_generate {k : Keys} {t : Table} {content : Text}
    (h : k.lookup? content = none) : ∀ c ∈ (k.generate t content).1, IsKeyChar c := by
  obtain ⟨n, key, -⟩ := exists_generate_eq_candidate (t := t) h
  rw [key]
  exact isKeyChar_of_mem_candidate (fun c => isKeyChar_of_mem_base) n

/-- No text has two keys, no two texts share a key, and keys are made of letters, digits and `_`. -/
structure WellFormed (k : Keys) : Prop where
  texts : (k.assigned.map Prod.fst).Nodup
  keys : k.issued.Nodup
  chars : ∀ key ∈ k.issued, ∀ c ∈ key, IsKeyChar c

namespace WellFormed

theorem empty : WellFormed {} := ⟨List.nodup_nil, List.nodup_nil, by simp [issued]⟩

theorem lookup?_eq_some_iff {k : Keys} (h : k.WellFormed) {content key : Text} :
    k.lookup? content = some key ↔ (content, key) ∈ k.assigned := by
  simp only [lookup?, Option.map_eq_some_iff]
  constructor
  · rintro ⟨⟨c, x⟩, found, rfl⟩
    have same : c = content := by simpa using List.find?_some found
    exact same ▸ List.mem_of_find?_eq_some found
  · intro mem
    obtain ⟨⟨c, x⟩, found⟩ : ∃ p, k.assigned.find? (·.1 == content) = some p :=
      Option.isSome_iff_exists.1 (List.find?_isSome.2 ⟨_, mem, by simp⟩)
    have same : c = content := by simpa using List.find?_some found
    have eq := List.inj_on_of_nodup_map h.texts (List.mem_of_find?_eq_some found) mem same
    exact ⟨_, found, congrArg Prod.snd eq⟩

theorem mem_texts_iff {k : Keys} (h : k.WellFormed) {content : Text} :
    content ∈ k.assigned.map Prod.fst ↔ ∃ key, k.lookup? content = some key := by
  simp only [List.mem_map, Prod.exists, exists_and_right, exists_eq_right, h.lookup?_eq_some_iff]

/-- A key belongs to one text. -/
theorem lookup?_injective {k : Keys} (h : k.WellFormed) {c c' key : Text}
    (hc : k.lookup? c = some key) (hc' : k.lookup? c' = some key) : c = c' := by
  rw [h.lookup?_eq_some_iff] at hc hc'
  exact congrArg Prod.fst (List.inj_on_of_nodup_map h.keys hc hc' rfl)

/-- Generating a key keeps the keys well-formed. -/
theorem generate {k : Keys} (h : k.WellFormed) (t : Table) (content : Text) :
    (k.generate t content).2.WellFormed := by
  cases hl : k.lookup? content with
  | some key => rwa [generate_of_lookup? hl]
  | none =>
    obtain ⟨eq, fresh⟩ := generate_of_new (t := t) hl
    have newText : content ∉ k.assigned.map Prod.fst := by
      rintro mem
      obtain ⟨⟨c, x⟩, hx, rfl⟩ := List.mem_map.1 mem
      rw [h.lookup?_eq_some_iff.2 hx] at hl
      simp at hl
    have newKey : (k.generate t content).1 ∉ k.issued := by
      intro mem
      exact fresh (List.mem_append_right _ mem)
    refine ⟨?_, ?_, ?_⟩
    · rw [eq, List.map_append, List.map_singleton, List.nodup_append_comm]
      exact List.nodup_cons.2 ⟨newText, h.texts⟩
    · rw [issued, eq, List.map_append, List.map_singleton, List.nodup_append_comm]
      exact List.nodup_cons.2 ⟨newKey, h.keys⟩
    · rw [issued, eq, List.map_append, List.map_singleton]
      intro key hkey
      rcases List.mem_append.1 hkey with hkey | hkey
      · exact h.chars key hkey
      · obtain rfl := List.mem_singleton.1 hkey
        exact isKeyChar_of_generate hl

/-- No other text gets a key, and none another one. -/
theorem lookup?_generate_iff {k : Keys} (h : k.WellFormed) (t : Table) {content c key : Text} :
    (k.generate t content).2.lookup? c = some key ↔
      k.lookup? c = some key ∨ c = content ∧ (k.generate t content).1 = key := by
  cases hl : k.lookup? content with
  | some old =>
    rw [generate_of_lookup? hl]
    constructor
    · exact .inl
    · rintro (found | ⟨rfl, rfl⟩)
      · exact found
      · exact hl
  | none =>
    rw [(h.generate t content).lookup?_eq_some_iff, h.lookup?_eq_some_iff, (generate_of_new hl).1,
      List.mem_append, List.mem_singleton, Prod.mk.injEq, eq_comm (a := key)]

end WellFormed

end Localizer.Resource.Keys
