import Localizer.Proofs.Resource.Calls

/-!
# Keys name getters

A key is written into sources as the name of a getter, whatever the text is that it was made of. So
it has to be a name in camel case, possibly with a number behind it, and no reserved word
(`NamesGetter`). Each stage of making a key does its part: the words of a text give letters and
digits of the basic alphabet, the first of them not in upper case (`isCamel_camelCase`); a base
without a letter in front gives way to a numbered one, and a reserved word gets a suffix
(`isCamel_base`, `base_not_mem_reservedWords`); and the number that tells a key from others has no
zero in front (`isNumeral_ofNat`).

`generate_names_getter` says it of the key that a text gets after calls in any number and order.
-/

namespace Localizer.Resource

open Text Message

/-! ## Names of getters -/

/-- A small letter, and then letters and digits of the basic alphabet. -/
def IsCamel : Text → Prop
  | [] => False
  | c :: r => c.isLower = true ∧ ∀ d ∈ r, d.isAlphanum = true

/-- A positive number in decimal digits, without a zero in front. -/
structure IsNumeral (s : Text) : Prop where
  filled : s ≠ []
  digits : ∀ c ∈ s, c.isDigit = true
  leading : s.head? ≠ some '0'

/-- A name in camel case, possibly with a number that is set off by `_`. -/
inductive IsKeyName : Text → Prop
  | plain {name : Text} (camel : IsCamel name) : IsKeyName name
  | numbered {name number : Text} (camel : IsCamel name) (numeral : IsNumeral number) :
    IsKeyName (name ++ '_' :: number)

/-- A key that can name a getter. -/
structure NamesGetter (key : Text) : Prop where
  name : IsKeyName key
  unreserved : key ∉ reservedWords

theorem IsCamel.append {name suffix : Text} (h : IsCamel name)
    (more : ∀ c ∈ suffix, c.isAlphanum = true) : IsCamel (name ++ suffix) := by
  cases name with
  | nil => exact absurd h id
  | cons c r =>
    refine ⟨h.1, ?_⟩
    intro d hd
    rcases List.mem_append.1 hd with hd | hd
    · exact h.2 d hd
    · exact more d hd

/-- Reserved words are made of small letters, so a text with any other character is none. -/
theorem not_mem_reservedWords {s : Text} {c : Char} (mem : c ∈ s) (other : c.isLower = false) :
    s ∉ reservedWords := by
  have small : ∀ w ∈ reservedWords, ∀ c ∈ w, c.isLower = true := by decide
  intro reserved
  rw [small s reserved c mem] at other
  contradiction

namespace Keys

/-! ## Numbers -/

theorem head?_toDigits_ne_zero {n : Nat} (positive : 0 < n) :
    (Nat.toDigits 10 n).head? ≠ some '0' := by
  induction n using Nat.strongRecOn with
  | ind n ih =>
    rw [Nat.toDigits_eq_if (by decide)]
    split
    next small => simp [Nat.ne_of_gt positive]
    next large =>
      have filled : Nat.toDigits 10 (n / 10) ≠ [] := Nat.toDigits_ne_nil
      rw [List.head?_append_of_ne_nil _ filled]
      exact ih (n / 10) (by omega) (by omega)

/-- The digits of a positive number have no zero in front. -/
theorem isNumeral_ofNat {n : Nat} (positive : 0 < n) : IsNumeral (ofNat n) := by
  have digits : ofNat n = Nat.toDigits 10 n := by simp [ofNat, Nat.repr]
  refine ⟨?_, fun c => isDigit_of_mem_ofNat, ?_⟩
  · rw [digits]
    exact Nat.toDigits_ne_nil
  · rw [digits]
    exact head?_toDigits_ne_zero positive

/-! ## Bases -/

theorem isLower_toLower {c : Char} (h : c.isAlphanum = true) (letter : c.toLower.isDigit = false) :
    c.toLower.isLower = true :=
  of_small (P := fun c => c.isAlphanum = true → c.toLower.isDigit = false →
    c.toLower.isLower = true) (by decide +kernel) (toNat_lt_of_isAlphanum h) h letter

/-- The words of a text make up a name in camel case, unless there are none or the first character is
a digit. -/
theorem isCamel_camelCase {s : Text} (filled : camelCase s ≠ [])
    (letter : (camelCase s).head?.any Char.isDigit = false) : IsCamel (camelCase s) := by
  have letters : ∀ c ∈ camelCase s, c.isAlphanum = true := fun c => isAlphanum_of_mem_camelCase
  obtain ⟨w, ws, split⟩ : ∃ w ws, words (clean s) = w :: ws := by
    apply List.exists_cons_of_ne_nil
    intro none
    exact filled (by simp [camelCase_eq_words, none])
  have mem : w ∈ words (clean s) := by simp [split]
  obtain ⟨c, r, rfl⟩ := List.exists_cons_of_ne_nil ((isRuns_runs _).of_mem mem).1
  have eq : camelCase s = c.toLower :: (r.map Char.toLower ++ ws.flatMap capitalize) := by
    simp [camelCase_eq_words, split]
  rw [eq] at letter letters ⊢
  exact ⟨isLower_toLower (isAlphanum_of_mem_words mem List.mem_cons_self) (by simpa using letter),
    fun d hd => letters d (List.mem_cons_of_mem _ hd)⟩

theorem isCamel_base (k : Keys) (content : Text) : IsCamel (k.base content).1 := by
  have fallback : IsCamel "stringKey".toList := ⟨by decide, by decide⟩
  unfold base
  dsimp only
  split
  next =>
    exact fallback.append fun c hc => by simp [Char.isAlphanum, isDigit_of_mem_ofNat hc]
  next unusable =>
    simp only [Bool.or_eq_true, List.isEmpty_iff, not_or, Bool.not_eq_true] at unusable
    have camel := isCamel_camelCase unusable.1 unusable.2
    split
    next => exact camel.append (by decide)
    next => exact camel

theorem base_not_mem_reservedWords (k : Keys) (content : Text) :
    (k.base content).1 ∉ reservedWords := by
  unfold base
  dsimp only
  split
  next => exact not_mem_reservedWords (c := 'K') (by simp) (by decide)
  next =>
    split
    next => exact not_mem_reservedWords (c := 'L') (by simp) (by decide)
    next unreserved => simpa using unreserved

/-! ## Keys -/

/-- A name in camel case that is not reserved, and every candidate for it, can name a getter. -/
theorem namesGetter_candidate {name : Text} (camel : IsCamel name) (unreserved : name ∉ reservedWords)
    (n : Nat) : NamesGetter (candidate name n) := by
  cases n with
  | zero => exact ⟨.plain camel, unreserved⟩
  | succ n =>
    refine ⟨.numbered camel (isNumeral_ofNat (Nat.succ_pos n)), ?_⟩
    exact not_mem_reservedWords (c := '_') (by simp [candidate]) (by decide)

theorem namesGetter_generate_of_new {k : Keys} {t : Table} {content : Text}
    (h : k.lookup? content = none) : NamesGetter (k.generate t content).1 := by
  obtain ⟨n, key, -⟩ := exists_generate_eq_candidate (t := t) h
  rw [key]
  exact namesGetter_candidate (isCamel_base k content) (base_not_mem_reservedWords k content) n

/-- Where all keys that were given out can name getters, so can the next one. -/
theorem namesGetter_generate {k : Keys}
    (h : ∀ content key, k.lookup? content = some key → NamesGetter key) (t : Table)
    (content : Text) : NamesGetter (k.generate t content).1 := by
  cases hl : k.lookup? content with
  | some key =>
    rw [generate_of_lookup? hl]
    exact h content key hl
  | none => exact namesGetter_generate_of_new hl

end Keys

namespace Store

theorem namesGetter_of_lookup? (t : Table) (calls : List Call) :
    ∀ content key, (after t calls).keys.lookup? content = some key → NamesGetter key := by
  induction calls using List.reverseRecOn with
  | nil =>
    intro content key found
    cases found
  | append_singleton calls call ih =>
    rw [after_concat]
    cases call with
    | generate content' =>
      intro content key found
      rw [perform, (lookup?_after t calls).1.lookup?_generate_iff] at found
      rcases found with found | ⟨-, rfl⟩
      · exact ih content key found
      · exact Keys.namesGetter_generate ih _ content'
    | lookup content' => exact ih
    | record entry => exact ih

/-- **Keys name getters.** Whatever calls were made on a table, every text gets a key, which is a
name in camel case, possibly with a number behind `_`, and no reserved word. -/
theorem generate_names_getter (t : Table) (calls : List Call) (content : Text) :
    ∃ key, (after t calls).answer (.generate content) = some key ∧ NamesGetter key :=
  ⟨_, rfl, Keys.namesGetter_generate (namesGetter_of_lookup? t calls) _ content⟩

end Store

end Localizer.Resource
