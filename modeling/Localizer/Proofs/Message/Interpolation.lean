import Localizer.Proofs.Message.Template
import Localizer.Text.CodePoint
import Mathlib.Data.List.TakeWhile

/-!
# Interpolations are named by the template

An interpolation of a text (`Interpolates`) is a `$` sign that is not escaped, before a plain name or
before a group in braces. The template of a text is read in two passes, and each of them starts anew
behind what it has just read; so the sign has to be reached, by the first pass and then by the
second, as a character of its own and with the same character before it. A pass gives the pieces of
the text before a sign and goes on there (`exists_groupPieces_append`, `wordPieces_append`), unless the
sign is taken into a group that was opened before it; then that group is no identifier, and the
template is not simple.

`mem_names_of_interpolates`: in a simple template every interpolation is named that stands clear of
backslashes and, without braces, of further word characters (`Clear`).
-/

namespace Localizer.Message

open Text

/-! ## Interpolations -/

/-- Letters and digits of the basic alphabet, and the underscore. -/
def isPlain (c : Char) : Bool := c.isAlphanum || c == '_'

/-- A name of plain characters, of which the first is no digit. -/
def IsPlainName : Text → Prop
  | [] => False
  | c :: r => (c.isAlpha || c == '_') = true ∧ ∀ d ∈ r, isPlain d = true

instance : DecidablePred IsPlainName
  | [] => .isFalse id
  | _ :: _ => inferInstanceAs (Decidable (_ ∧ _))

/-- What may follow a `$` sign that shows the value of an expression. -/
inductive Shows : (name : Text) → (after : Text) → Prop
  /-- The expression in braces, possibly with blanks around it. -/
  | group {e rest : Text} (filled : e ≠ []) (closed : '}' ∉ e) :
    Shows (strip e) ('{' :: (e ++ '}' :: rest))
  /-- A plain name that goes on as far as it can. -/
  | word {name rest : Text} (plain : IsPlainName name)
    (maximal : ∀ c ∈ rest.head?, isPlain c = false) : Shows name (name ++ rest)

/-- In a text, the `$` sign between `before` and `after` is not escaped and shows a value. -/
structure Interpolates (s before after name : Text) : Prop where
  split : s = before ++ '$' :: after
  /-- The backslashes directly before the sign escape one another. -/
  unescaped : (before.reverse.takeWhile (· == '\\')).length % 2 = 0
  shown : Shows name after

/-- An interpolation stands clear: its sign does not follow a backslash; and if it has no braces,
its sign does not follow a word character and no further word character follows the name. -/
structure Clear (before after name : Text) : Prop where
  escape : before.getLast? ≠ some '\\'
  word : after.head? ≠ some '{' → (∀ c ∈ before.getLast?, isWord c = false) ∧
    ∀ c ∈ (after.drop name.length).head?, isWord c = false

/-! ## Characters -/

theorem isWord_of_isPlain {c : Char} (h : isPlain c = true) : isWord c = true := by
  simp only [isPlain, Bool.or_eq_true] at h
  rcases h with h | h
  · simp [isWord, isAlnum, toNat_lt_of_isAlphanum h, h]
  · simp [isWord, h]

theorem toNat_lt_of_isPlain {c : Char} (h : isPlain c = true) : c.toNat < 128 := by
  simp only [isPlain, Bool.or_eq_true, beq_iff_eq] at h
  rcases h with h | rfl
  · exact toNat_lt_of_isAlphanum h
  · decide

theorem isPlain_of_first {c : Char} (h : (c.isAlpha || c == '_') = true) : isPlain c = true := by
  rcases Bool.or_eq_true_iff.1 h with letter | line
  · simp [isPlain, Char.isAlphanum, letter]
  · simp [isPlain, line]

theorem isDigit_eq_false {c : Char} (h : (c.isAlpha || c == '_') = true) : isDigit c = false :=
  of_small (P := fun c => (c.isAlpha || c == '_') = true → isDigit c = false)
    (by decide +kernel) (toNat_lt_of_isPlain (isPlain_of_first h)) h

@[simp] theorem isWord_sign : isWord '$' = false := by
  decide +kernel

@[simp] theorem isWord_brace : isWord '{' = false := by
  decide +kernel

theorem sign_not_mem_of_isIdentifier {name : Text} (h : isIdentifier name = true) :
    '$' ∉ name := by
  cases name with
  | nil => simp
  | cons c r =>
    simp only [isIdentifier, Bool.and_eq_true, List.all_eq_true] at h
    intro mem
    rcases List.mem_cons.1 mem with rfl | mem
    · exact absurd h.1 (by decide)
    · simpa using h.2 '$' mem

theorem isPlain_of_mem {name : Text} (h : IsPlainName name) {c : Char} (mem : c ∈ name) :
    isPlain c = true := by
  cases name with
  | nil => exact absurd h id
  | cons d r =>
    rcases List.mem_cons.1 mem with rfl | mem
    · exact isPlain_of_first h.1
    · exact h.2 c mem

/-- A plain name is read by the reader of words. -/
theorem isWord_of_isPlainName {name : Text} (h : IsPlainName name) :
    name ≠ [] ∧ ∀ c ∈ name, isWord c = true := by
  refine ⟨?_, fun c mem => isWord_of_isPlain (isPlain_of_mem h mem)⟩
  rintro rfl
  exact h

theorem getLast?_cons_eq_or (c : Char) (r : Text) :
    (c :: r).getLast? = r.getLast?.or (some c) := by
  rw [← List.singleton_append, List.getLast?_append, List.getLast?_singleton]

theorem mem_strip {c : Char} {s : Text} (mem : c ∈ s) (blank : isBlank c = false) :
    c ∈ strip s := by
  have keep {s : Text} (mem : c ∈ s) : c ∈ s.dropWhile isBlank := by
    rw [← List.takeWhile_append_dropWhile (p := isBlank) (l := s), List.mem_append] at mem
    refine mem.resolve_left fun h => ?_
    rw [List.mem_takeWhile_imp h] at blank
    contradiction
  rw [strip, stripRight, List.mem_reverse]
  exact keep (List.mem_reverse.2 (keep mem))

/-! ## Groups -/

theorem expression?_eq_some_iff {s e r : Text} :
    expression? s = some (e, r) ↔ s = e ++ '}' :: r ∧ e ≠ [] ∧ '}' ∉ e := by
  constructor
  · intro h
    unfold expression? at h
    split at h
    next c e' r' taken dropped =>
      obtain ⟨rfl, rfl⟩ := Prod.mk.inj (Option.some.inj h)
      refine ⟨?_, by simp, ?_⟩
      · rw [← taken, ← dropped, List.takeWhile_append_dropWhile]
      · intro mem
        rw [← taken] at mem
        simpa using List.mem_takeWhile_imp mem
    next => simp at h
  · rintro ⟨rfl, filled, closed⟩
    have inside : ∀ c ∈ e, (c != '}') = true := by
      intro c hc
      simpa using fun h : c = '}' => closed (h ▸ hc)
    obtain ⟨c, e, rfl⟩ := List.exists_cons_of_ne_nil filled
    rw [expression?, List.takeWhile_append_of_pos inside, List.dropWhile_append_of_pos inside]
    simp

/-- A group that is closed is read alike before whatever follows. -/
theorem expression?_append {r e rest : Text} (h : expression? r = some (e, rest)) (b : Text) :
    expression? (r ++ b) = some (e, rest ++ b) := by
  obtain ⟨rfl, filled, closed⟩ := expression?_eq_some_iff.1 h
  exact expression?_eq_some_iff.2 ⟨by simp, filled, closed⟩

/-- A group that only the text behind a sign closes takes the sign in. -/
theorem sign_mem_of_closed_behind {r b e rest : Text} (unread : expression? r = none)
    (h : expression? (r ++ '$' :: b) = some (e, rest)) : '$' ∈ e := by
  obtain ⟨text, filled, closed⟩ := expression?_eq_some_iff.1 h
  rcases List.append_eq_append_iff.1 text with ⟨t, rfl, ht⟩ | ⟨t, rfl, ht⟩
  · cases t with
    | nil => simp at ht
    | cons d t =>
      obtain rfl := (List.cons.inj ht).1
      simp
  · -- the brace stands before the sign, so the group was closed without it
    cases t with
    | nil => simp at ht
    | cons d t =>
      obtain rfl := (List.cons.inj ht).1
      rw [expression?_eq_some_iff.2 ⟨rfl, filled, closed⟩] at unread
      contradiction

/-- A character that opens no group is a piece. -/
theorem groupPieces_cons {before : Option Char} {c : Char} {r : Text}
    (opens : c = '$' → r.head? ≠ some '{') :
    groupPieces before (c :: r) = .plain c :: groupPieces (some c) r := by
  rw [groupPieces.eq_def]
  split
  next h => simp at h
  next h =>
    obtain ⟨rfl, rfl⟩ := List.cons.inj h
    exact absurd rfl (opens rfl)
  next h =>
    obtain ⟨rfl, rfl⟩ := List.cons.inj h
    rfl

theorem groupPieces_group {before : Option Char} {r e rest : Text} (escape : before ≠ some '\\')
    (h : expression? r = some (e, rest)) :
    groupPieces before ('$' :: '{' :: r) =
      .marker (strip e) :: groupPieces (some '}') rest := by
  rw [groupPieces.eq_def]
  simp only
  split
  next e' rest' h' =>
    rw [if_neg escape, h, Option.some.injEq, Prod.mk.injEq] at h'
    obtain ⟨rfl, rfl⟩ := h'
    rfl
  next h' => simp [if_neg escape, h] at h'

theorem groupPieces_open {before : Option Char} {r : Text}
    (h : before = some '\\' ∨ expression? r = none) :
    groupPieces before ('$' :: '{' :: r) = .plain '$' :: groupPieces (some '$') ('{' :: r) := by
  have none : (if before = some '\\' then none else expression? r) = none := by
    rcases h with h | h <;> simp [h]
  rw [groupPieces.eq_def]
  simp only
  split
  next h' => simp [none] at h'
  next => rfl

/-- A text without a sign is its own pieces. -/
theorem groupPieces_plain {v : Text} (h : '$' ∉ v) (before : Option Char) (r : Text) :
    groupPieces before (v ++ r) = v.map .plain ++ groupPieces (v.getLast?.or before) r := by
  induction v generalizing before with
  | nil => rfl
  | cons c v ih =>
    simp only [List.mem_cons, not_or] at h
    rw [List.cons_append, groupPieces_cons fun hc => absurd hc.symm h.1, ih h.2,
      getLast?_cons_eq_or]
    simp

/-- The reading of groups comes to the sign behind `a`, with the pieces of `a` before it, which end in
the same character; or a group has taken the sign in. -/
def ReachesSign (before : Option Char) (a b : Text) : Prop :=
  (∃ m, .marker m ∈ groupPieces before (a ++ '$' :: b) ∧ '$' ∈ m) ∨
    ∃ ps, groupPieces before (a ++ '$' :: b) =
        ps ++ groupPieces (a.getLast?.or before) ('$' :: b) ∧
      (ps.flatMap Piece.placeholder).getLast? = a.getLast?

/-- One piece more at the front. -/
theorem ReachesSign.cons {before : Option Char} {p : Piece} {x a b : Text} {last : Char}
    (first : groupPieces before (x ++ a ++ '$' :: b) =
      p :: groupPieces (some last) (a ++ '$' :: b))
    (hx : x.getLast? = some last) (hp : p.placeholder.getLast? = some last)
    (h : ReachesSign (some last) a b) : ReachesSign before (x ++ a) b := by
  have ends : (x ++ a).getLast? = a.getLast?.or (some last) := by
    rw [List.getLast?_append, hx]
  rcases h with ⟨m, mem, sign⟩ | ⟨ps, pieces, same⟩
  · refine .inl ⟨m, ?_, sign⟩
    rw [first]
    exact List.mem_cons_of_mem _ mem
  · refine .inr ⟨p :: ps, ?_, ?_⟩
    · rw [first, pieces, ends]
      simp
    · rw [ends, List.flatMap_cons, List.getLast?_append, same, hp]

/-- Whatever a text is, the sign behind it is reached or taken in. -/
theorem reachesSign (before : Option Char) (a b : Text) : ReachesSign before a b := by
  fun_induction groupPieces before a with
  | case1 before => exact .inr ⟨[], rfl, rfl⟩
  | case2 before r e rest h _ ih =>
    -- the group is closed before the sign
    have escape : before ≠ some '\\' := by
      intro h'
      simp [h'] at h
    simp only [escape, dite_false] at h
    obtain ⟨rfl, -, -⟩ := expression?_eq_some_iff.1 h
    have first : groupPieces before ('$' :: '{' :: (e ++ ['}']) ++ rest ++ '$' :: b) =
        .marker (strip e) :: groupPieces (some '}') (rest ++ '$' :: b) := by
      simpa using groupPieces_group escape (expression?_append h ('$' :: b))
    have reaches := ReachesSign.cons first (by simp [List.getLast?_cons])
      (by simp [Piece.placeholder, List.getLast?_cons]) ih
    simpa using reaches
  | case3 before r h ih =>
    by_cases taken : before ≠ some '\\' ∧ ∃ g, expression? (r ++ '$' :: b) = some g
    · -- the group is closed behind the sign
      obtain ⟨escape, ⟨e, rest⟩, hg⟩ := taken
      simp only [escape, dite_false] at h
      have sign : '$' ∈ e := sign_mem_of_closed_behind h hg
      refine .inl ⟨strip e, ?_, mem_strip sign (by decide +kernel)⟩
      rw [List.cons_append, List.cons_append, groupPieces_group escape hg]
      exact List.mem_cons_self
    · have first : groupPieces before ('$' :: '{' :: r ++ '$' :: b) = .plain '$' ::
          groupPieces (some '$') ('{' :: r ++ '$' :: b) := by
        apply groupPieces_open
        by_contra h'
        simp only [not_or] at h'
        exact taken ⟨h'.1, Option.ne_none_iff_exists'.1 h'.2⟩
      exact ReachesSign.cons (x := ['$']) first rfl rfl ih
  | case4 before c r opens ih =>
    have first : groupPieces before ([c] ++ r ++ '$' :: b) = .plain c ::
        groupPieces (some c) (r ++ '$' :: b) := by
      apply groupPieces_cons
      rintro rfl
      cases r with
      | nil => simp
      | cons d r =>
        intro h
        obtain rfl : d = '{' := by simpa using h
        exact opens r rfl rfl
    exact ReachesSign.cons first rfl rfl ih

/-! ## Words -/

/-- A character that is no part of a word ends one. -/
theorem wordName?_append {d : Char} (stop : isWord d = false) (r b : Text) :
    wordName? (r ++ d :: b) = (wordName? r).map fun w => (w.1, w.2 ++ d :: b) := by
  have parts : (r ++ d :: b).takeWhile isWord = r.takeWhile isWord ∧
      (r ++ d :: b).dropWhile isWord = r.dropWhile isWord ++ d :: b := by
    induction r with
    | nil => simp [stop]
    | cons c r ih => cases h : isWord c <;> simp [h, ih]
  rw [wordName?, wordName?, parts.1, parts.2]
  split
  next => rfl
  next c w _ => cases h : isDigit c <;> simp

theorem eq_of_wordName? {s w r : Text} (h : wordName? s = some (w, r)) : s = w ++ r ∧ w ≠ [] := by
  unfold wordName? at h
  split at h
  next => simp at h
  next c w' taken =>
    split at h
    next => simp at h
    next =>
      obtain ⟨rfl, rfl⟩ := Prod.mk.inj (Option.some.inj h)
      refine ⟨?_, by simp⟩
      rw [← taken, List.takeWhile_append_dropWhile]

theorem wordName?_of_isPlainName {name rest : Text} (plain : IsPlainName name)
    (ends : ∀ c ∈ rest.head?, isWord c = false) :
    wordName? (name ++ rest) = some (name, rest) := by
  obtain ⟨filled, word⟩ := isWord_of_isPlainName plain
  have stop : rest.takeWhile isWord = [] ∧ rest.dropWhile isWord = rest := by
    cases rest with
    | nil => exact ⟨rfl, rfl⟩
    | cons c rest => simp [ends c rfl]
  rw [wordName?, List.takeWhile_append_of_pos word, List.dropWhile_append_of_pos word, stop.1,
    stop.2, List.append_nil]
  cases name with
  | nil => exact absurd rfl filled
  | cons c r => simp [isDigit_eq_false plain.1]

theorem wordPieces_word {before : Option Char} {r w rest : Text} (allows : allowsSign before = true)
    (h : wordName? r = some (w, rest)) :
    wordPieces before ('$' :: r) = .marker w :: wordPieces w.getLast? rest := by
  rw [wordPieces.eq_def]
  simp only
  split
  next w' rest' h' =>
    rw [if_pos allows, h, Option.some.injEq, Prod.mk.injEq] at h'
    obtain ⟨rfl, rfl⟩ := h'
    rfl
  next h' => simp [allows, h] at h'

theorem wordPieces_sign {before : Option Char} {r : Text}
    (h : allowsSign before = false ∨ wordName? r = none) :
    wordPieces before ('$' :: r) = .plain '$' :: wordPieces (some '$') r := by
  have none : (if allowsSign before then wordName? r else none) = none := by
    rcases h with h | h <;> simp [h]
  rw [wordPieces.eq_def]
  simp only
  split
  next h' => simp [none] at h'
  next => rfl

theorem wordPieces_cons {before : Option Char} {c : Char} {r : Text} (sign : c = '$' → False) :
    wordPieces before (c :: r) = .plain c :: wordPieces (some c) r := by
  rw [wordPieces.eq_def]
  split
  next h => simp at h
  next h => exact absurd (List.cons.inj h).1 sign
  next h =>
    obtain ⟨rfl, rfl⟩ := List.cons.inj h
    rfl

/-- Behind some characters the reading of words goes on at one that is no part of a word. -/
theorem wordPieces_append {d : Char} (stop : isWord d = false) (before : Option Char) (a b : Text) :
    wordPieces before (a ++ d :: b) =
      wordPieces before a ++ wordPieces (a.getLast?.or before) (d :: b) := by
  fun_induction wordPieces before a with
  | case1 before => rfl
  | case2 before r w rest h _ ih =>
    have allows : allowsSign before = true := by
      by_contra h'
      simp [h'] at h
    simp only [allows, dite_true] at h
    have read : wordName? (r ++ d :: b) = some (w, rest ++ d :: b) := by
      rw [wordName?_append stop, h]
      rfl
    obtain ⟨rfl, filled⟩ := eq_of_wordName? h
    have last : ('$' :: (w ++ rest)).getLast?.or before = rest.getLast?.or w.getLast? := by
      obtain ⟨c, hc⟩ := Option.ne_none_iff_exists'.1 (mt List.getLast?_eq_none_iff.1 filled)
      rw [getLast?_cons_eq_or, List.getLast?_append, hc]
      simp
    rw [List.cons_append, wordPieces_word allows read, ih, last]
    rfl
  | case3 before r h ih =>
    have none : allowsSign before = false ∨ wordName? (r ++ d :: b) = none := by
      cases allows : allowsSign before with
      | false => exact .inl rfl
      | true =>
        simp only [allows, dite_true] at h
        rw [wordName?_append stop, h]
        exact .inr rfl
    rw [List.cons_append, wordPieces_sign none, ih, getLast?_cons_eq_or]
    simp
  | case4 before c r sign ih =>
    rw [List.cons_append, wordPieces_cons sign, ih, getLast?_cons_eq_or]
    simp

/-! ## The names of a template -/

/-- After the first pass a text starts with its first character or with the brace of a placeholder. -/
theorem head?_placeholder_groupPieces (before : Option Char) (s : Text) {c : Char}
    (h : ((groupPieces before s).flatMap Piece.placeholder).head? = some c) :
    s.head? = some c ∨ c = '{' := by
  revert h
  fun_cases groupPieces before s with
  | case1 => simp
  | case2 => exact fun h => .inr (Option.some.inj h).symm
  | case3 => exact .inl
  | case4 => exact .inl

/-- A marker of either pass is a name of the template. -/
theorem Template.mem_names_iff {s name : Text} : name ∈ (Template.of s).names ↔
    .marker name ∈ groupPieces none s ∨
      .marker name ∈ wordPieces none ((groupPieces none s).flatMap Piece.placeholder) := by
  have isMarker (p : Piece) : p.name? = some name ↔ p = .marker name := by
    cases p <;> simp [Piece.name?]
  simp only [Template.of, List.mem_eraseDups, List.mem_filterMap, List.mem_append, isMarker,
    exists_eq_right]

/-- Where the template of a text is simple, the reading of groups comes to every sign. -/
theorem exists_groupPieces_append {s before after : Text} (simple : (Template.of s).isSimple = true)
    (split : s = before ++ '$' :: after) :
    ∃ ps, groupPieces none s = ps ++ groupPieces before.getLast? ('$' :: after) ∧
      (ps.flatMap Piece.placeholder).getLast? = before.getLast? := by
  subst split
  rcases reachesSign none before after with ⟨m, mem, sign⟩ | ⟨ps, pieces, ends⟩
  · -- the group that took the sign in is a name, but no identifier
    have identifier : isIdentifier m = true :=
      List.all_eq_true.1 simple m (Template.mem_names_iff.2 (.inl mem))
    exact absurd sign (sign_not_mem_of_isIdentifier identifier)
  · exact ⟨ps, by simpa using pieces, ends⟩

/-- **In a simple template every interpolation that stands clear is named.** -/
theorem mem_names_of_interpolates {s before after name : Text}
    (simple : (Template.of s).isSimple = true) (h : Interpolates s before after name)
    (clear : Clear before after name) : name ∈ (Template.of s).names := by
  obtain ⟨ps, pieces, ends⟩ := exists_groupPieces_append simple h.split
  rw [Template.mem_names_iff]
  cases h.shown with
  | @group e rest filled closed =>
    have read : expression? (e ++ '}' :: rest) = some (e, rest) :=
      expression?_eq_some_iff.2 ⟨rfl, filled, closed⟩
    rw [pieces, groupPieces_group clear.escape read]
    exact .inl (by simp)
  | @word _ rest plain =>
    obtain ⟨filled, word⟩ := isWord_of_isPlainName plain
    have unsigned : '$' ∉ name := by
      intro mem
      simpa using word '$' mem
    have braceless : (name ++ rest).head? ≠ some '{' := by
      intro h
      obtain ⟨c, r, rfl⟩ := List.exists_cons_of_ne_nil filled
      obtain rfl : c = '{' := by simpa using h
      simpa using word '{' (by simp)
    obtain ⟨apart, ended⟩ := clear.word braceless
    rw [List.drop_left] at ended
    have first := groupPieces_plain unsigned (some '$') rest
    let rest' := (groupPieces (name.getLast?.or (some '$')) rest).flatMap Piece.placeholder
    have text : (groupPieces none s).flatMap Piece.placeholder =
        ps.flatMap Piece.placeholder ++ '$' :: (name ++ rest') := by
      rw [pieces, groupPieces_cons fun _ => braceless, first]
      simp [rest', List.flatMap_map, Piece.placeholder]
    have stop : ∀ c ∈ rest'.head?, isWord c = false := by
      intro c hc
      rcases head?_placeholder_groupPieces _ rest hc with hc | rfl
      · exact ended c hc
      · exact isWord_brace
    have allows : allowsSign before.getLast? = true := by
      cases last : before.getLast? with
      | none => rfl
      | some c =>
        have escape : c ≠ '\\' := by
          rintro rfl
          exact clear.escape last
        simp [allowsSign, apart c last, escape]
    have words := wordPieces_append isWord_sign none (ps.flatMap Piece.placeholder) (name ++ rest')
    rw [text, words, ends, Option.or_none,
      wordPieces_word allows (wordName?_of_isPlainName plain stop)]
    exact .inr (by simp)

end Localizer.Message
