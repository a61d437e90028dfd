import Localizer.Proofs.Message.Pieces

/-!
# Texts that are put together from fragments

A text that is written as a sequence of fragments (plain text, names in groups, names behind signs,
amounts) has the template that the fragments tell: each name in braces and all else as it stands
(`template_of_fragments`). A fragment is read as such wherever it stands, but for a name behind a
sign, which other word characters must not touch; `Composed` asks that, with the character before
the fragments.

Both readings of a text go along its fragments. The first makes markers of the groups and goes on
with the character before in step (`groupPieces_textOf`); the second then finds the fragments with
their groups written out, and neither a name in braces nor an amount is a marker for it
(`wordPieces_written`).
-/

namespace Localizer.Message

open Text

/-- A unit of a text, as it is written. -/
inductive Fragment where
  /-- Plain text. -/
  | plain (t : Text)
  /-- A name in braces, with blanks around it. -/
  | group (left name right : Text)
  /-- A name behind a sign. -/
  | word (name : Text)
  /-- A number, or a word that starts like one, behind a sign. -/
  | amount (w : Text)
  deriving Repr, DecidableEq

namespace Fragment

/-- The characters of a fragment. -/
def text : Fragment → Text
  | plain t => t
  | group left name right => '$' :: '{' :: (left ++ (name ++ right) ++ ['}'])
  | word name => '$' :: name
  | amount w => '$' :: w

/-- A name in braces, and all else as it stands. -/
def placeholder : Fragment → Text
  | plain t => t
  | group _ name _ => '{' :: (name ++ ['}'])
  | word name => '{' :: (name ++ ['}'])
  | amount w => '$' :: w

/-- The name in a group. -/
def grouped? : Fragment → Option Text
  | group _ name _ => some name
  | _ => none

/-- The name behind a sign. -/
def signed? : Fragment → Option Text
  | word name => some name
  | _ => none

/-- Whether a fragment names a variable. -/
def isMarker : Fragment → Bool
  | group .. => true
  | word _ => true
  | _ => false

/-- What the reading of groups makes of a fragment. -/
def groups : Fragment → List Piece
  | group _ name _ => [.marker name]
  | x => x.text.map .plain

/-- What the reading of words makes of a fragment whose group is written out. -/
def words : Fragment → List Piece
  | word name => [.marker name]
  | x => x.placeholder.map .plain

end Fragment

/-- The text that fragments make up. -/
def textOf (xs : List Fragment) : Text := xs.flatMap Fragment.text

/-- Fragments that make up a text behind the character `before`. -/
inductive Composed : (before : Option Char) → List Fragment → Prop
  | nil {before : Option Char} : Composed before []
  | plain {before : Option Char} {t : Text} {xs : List Fragment}
    (unsigned : '$' ∉ t) (unescaped : '\\' ∉ t)
    (rest : Composed (t.getLast?.or before) xs) : Composed before (.plain t :: xs)
  | group {before : Option Char} {left name right : Text} {xs : List Fragment}
    (start : ∀ c ∈ left, isBlank c = true) (plain : IsPlainName name)
    (stop : ∀ c ∈ right, isBlank c = true) (rest : Composed (some '}') xs) :
    Composed before (.group left name right :: xs)
  /-- No word character stands directly before the sign or behind the name. -/
  | word {before : Option Char} {name : Text} {xs : List Fragment} (plain : IsPlainName name)
    (start : ∀ c ∈ before, isWord c = false) (stop : ∀ c ∈ (textOf xs).head?, isWord c = false)
    (rest : Composed name.getLast? xs) : Composed before (.word name :: xs)
  /-- A word that starts with a digit, of whatever script. -/
  | amount {before : Option Char} {c : Char} {w : Text} {xs : List Fragment}
    (digit : isDigit c = true) (word : ∀ d ∈ c :: w, isWord d = true)
    (rest : Composed (c :: w).getLast? xs) : Composed before (.amount (c :: w) :: xs)

/-! ## Characters -/

theorem isBlank_eq_false {c : Char} (h : isPlain c = true) : isBlank c = false :=
  of_small (P := fun c => isPlain c = true → isBlank c = false) (by decide +kernel)
    (toNat_lt_of_isPlain h) h

theorem isIdentifier_of_isPlainName {name : Text} (h : IsPlainName name) :
    isIdentifier name = true := by
  cases name with
  | nil => exact absurd h id
  | cons c r =>
    rw [isIdentifier, h.1, Bool.true_and, List.all_eq_true]
    exact fun d hd => isWord_of_isPlain (h.2 d hd)

/-- A character that is neither plain nor blank stands in no group. -/
theorem not_mem_group {left name right : Text} (start : ∀ c ∈ left, isBlank c = true)
    (plain : IsPlainName name) (stop : ∀ c ∈ right, isBlank c = true) {c : Char}
    (solid : isBlank c = false) (other : isPlain c = false) : c ∉ left ++ (name ++ right) := by
  simp only [List.mem_append, not_or]
  refine ⟨?_, ?_, ?_⟩
  · intro mem
    simp [start c mem] at solid
  · intro mem
    simp [isPlain_of_mem plain mem] at other
  · intro mem
    simp [stop c mem] at solid

/-- A name without the blanks around it. -/
theorem strip_group {left name right : Text} (start : ∀ c ∈ left, isBlank c = true)
    (plain : IsPlainName name) (stop : ∀ c ∈ right, isBlank c = true) :
    strip (left ++ (name ++ right)) = name := by
  have solid (c : Char) (mem : c ∈ name) : isBlank c = false :=
    isBlank_eq_false (isPlain_of_mem plain mem)
  have front : stripLeft (left ++ (name ++ right)) = name ++ right := by
    rw [stripLeft, List.dropWhile_append_of_pos start]
    cases name with
    | nil => exact absurd plain id
    | cons c r => simp [solid c (by simp)]
  have back : name.reverse.dropWhile isBlank = name.reverse := by
    rw [List.dropWhile_eq_self_iff]
    intro filled
    have last := solid _ (List.mem_reverse.1 (List.getElem_mem filled))
    simpa using last
  rw [strip, front, stripRight, List.reverse_append,
    List.dropWhile_append_of_pos (by simpa using stop), back, List.reverse_reverse]

theorem getLast?_or_ne {t : Text} {before : Option Char} {c : Char} (inside : c ∉ t)
    (outside : before ≠ some c) : t.getLast?.or before ≠ some c := by
  cases last : t.getLast? with
  | none => simpa using outside
  | some d =>
    intro same
    obtain rfl : d = c := by simpa using same
    exact inside (List.mem_of_getLast? last)

theorem getLast?_or {t : Text} (filled : t ≠ []) (before : Option Char) :
    t.getLast?.or before = t.getLast? := by
  rw [List.getLast?_eq_some_getLast filled, Option.some_or]

theorem not_mem_of_isWord {w : Text} (word : ∀ c ∈ w, isWord c = true) {c : Char}
    (other : isWord c = false) : c ∉ w := by
  intro mem
  rw [word c mem] at other
  contradiction

/-- No backslash is the last character of a word. -/
theorem getLast?_ne_of_isWord {w : Text} (word : ∀ c ∈ w, isWord c = true) :
    w.getLast? ≠ some '\\' := by
  intro last
  exact not_mem_of_isWord word (by decide +kernel) (List.mem_of_getLast? last)

/-! ## The reading of groups -/

/-- A sign and the word behind it are no group. -/
theorem groupPieces_signed {w : Text} (filled : w ≠ []) (word : ∀ c ∈ w, isWord c = true)
    (before : Option Char) (r : Text) :
    groupPieces before ('$' :: (w ++ r)) = ('$' :: w).map .plain ++ groupPieces w.getLast? r := by
  have unsigned : '$' ∉ w := not_mem_of_isWord word isWord_sign
  have braceless : (w ++ r).head? ≠ some '{' := by
    obtain ⟨c, w, rfl⟩ := List.exists_cons_of_ne_nil filled
    intro same
    obtain rfl : c = '{' := by simpa using same
    exact not_mem_of_isWord word isWord_brace (by simp)
  rw [groupPieces_cons fun _ => braceless, groupPieces_plain unsigned, getLast?_or filled]
  rfl

/-- The first reading makes markers of the groups. -/
theorem groupPieces_textOf {before : Option Char} {xs : List Fragment} (h : Composed before xs)
    (escape : before ≠ some '\\') :
    groupPieces before (textOf xs) = xs.flatMap Fragment.groups := by
  induction h with
  | nil => simp [textOf, groupPieces]
  | @plain before t xs unsigned unescaped rest ih =>
    have later := ih (getLast?_or_ne unescaped escape)
    rw [textOf, List.flatMap_cons, Fragment.text, groupPieces_plain unsigned, ← textOf, later]
    rfl
  | @group before left name right xs start plain stop rest ih =>
    have closed : '}' ∉ left ++ (name ++ right) :=
      not_mem_group start plain stop (by decide) (by decide)
    have filled : left ++ (name ++ right) ≠ [] := by
      have := (isWord_of_isPlainName plain).1
      simp [this]
    have read : expression? (left ++ (name ++ right) ++ '}' :: textOf xs) =
        some (left ++ (name ++ right), textOf xs) :=
      expression?_eq_some_iff.2 ⟨rfl, filled, closed⟩
    have text : textOf (.group left name right :: xs) =
        '$' :: '{' :: (left ++ (name ++ right) ++ '}' :: textOf xs) := by
      simp [textOf, Fragment.text]
    rw [text, groupPieces_group escape read, strip_group start plain stop, ih (by decide)]
    rfl
  | @word before name xs plain start stop rest ih =>
    obtain ⟨filled, word⟩ := isWord_of_isPlainName plain
    have later := ih (getLast?_ne_of_isWord word)
    rw [textOf, List.flatMap_cons, Fragment.text, List.cons_append, groupPieces_signed filled word,
      ← textOf, later]
    rfl
  | @amount before c w xs digit word rest ih =>
    have filled : c :: w ≠ [] := by simp
    have later := ih (getLast?_ne_of_isWord word)
    rw [textOf, List.flatMap_cons, Fragment.text, List.cons_append, groupPieces_signed filled word,
      ← textOf, later]
    rfl

/-! ## The reading of words -/

/-- The text of fragments with their groups written out. -/
def written (xs : List Fragment) : Text :=
  (xs.flatMap Fragment.groups).flatMap Piece.placeholder

theorem written_cons (x : Fragment) (xs : List Fragment) :
    written (x :: xs) = x.groups.flatMap Piece.placeholder ++ written xs := by
  simp [written]

/-- Written out, fragments start with a word character only if their text does. -/
theorem head?_written {before : Option Char} {xs : List Fragment} (h : Composed before xs)
    (escape : before ≠ some '\\') (stop : ∀ c ∈ (textOf xs).head?, isWord c = false) :
    ∀ c ∈ (written xs).head?, isWord c = false := by
  intro c hc
  rw [written, ← groupPieces_textOf h escape] at hc
  rcases head?_placeholder_groupPieces before (textOf xs) hc with hc | rfl
  · exact stop c hc
  · exact isWord_brace

/-- An amount is no marker, whatever stands around it. -/
theorem wordPieces_amount {c : Char} {w : Text} (digit : isDigit c = true)
    (word : ∀ d ∈ c :: w, isWord d = true) (before : Option Char) (r : Text) :
    wordPieces before ('$' :: (c :: w ++ r)) =
      ('$' :: c :: w).map .plain ++ wordPieces (c :: w).getLast? r := by
  have none : wordName? (c :: w ++ r) = none := by
    simp [wordName?, word c (by simp), digit]
  have unsigned : '$' ∉ c :: w := not_mem_of_isWord word isWord_sign
  rw [wordPieces_sign (.inr none), wordPieces_plain unsigned, getLast?_or (by simp)]
  rfl

/-- The second reading makes markers of the names behind signs, and of nothing else. -/
theorem wordPieces_written {before : Option Char} {xs : List Fragment} (h : Composed before xs)
    (escape : before ≠ some '\\') : wordPieces before (written xs) = xs.flatMap Fragment.words := by
  induction h with
  | nil => simp [written, wordPieces]
  | @plain before t xs unsigned unescaped rest ih =>
    have later := ih (getLast?_or_ne unescaped escape)
    have text : written (.plain t :: xs) = t ++ written xs := by
      simp [written_cons, Fragment.groups, Fragment.text, List.flatMap_map, Piece.placeholder]
    rw [text, wordPieces_plain unsigned, later]
    rfl
  | @group before left name right xs start plain stop rest ih =>
    have unsigned : '$' ∉ '{' :: (name ++ ['}']) := by
      simp [not_mem_of_isWord (isWord_of_isPlainName plain).2 isWord_sign]
    have text : written (.group left name right :: xs) = '{' :: (name ++ ['}']) ++ written xs := by
      simp [written_cons, Fragment.groups, Piece.placeholder]
    have last : ('{' :: (name ++ ['}'])).getLast?.or before = some '}' := by
      simp [List.getLast?_cons]
    rw [text, wordPieces_plain unsigned, last, ih (by decide)]
    rfl
  | @word before name xs plain start stop rest ih =>
    obtain ⟨filled, word⟩ := isWord_of_isPlainName plain
    have unescaped := getLast?_ne_of_isWord word
    have allows : allowsSign before = true := by
      cases before with
      | none => rfl
      | some c => simpa [allowsSign, start c rfl] using escape
    have read : wordName? (name ++ written xs) = some (name, written xs) :=
      wordName?_of_isPlainName plain (head?_written rest unescaped stop)
    have text : written (.word name :: xs) = '$' :: (name ++ written xs) := by
      simp [written_cons, Fragment.groups, Fragment.text, List.flatMap_map, Piece.placeholder]
    rw [text, wordPieces_word allows read, ih unescaped]
    rfl
  | @amount before c w xs digit word rest ih =>
    have text : written (.amount (c :: w) :: xs) = '$' :: (c :: w ++ written xs) := by
      simp [written_cons, Fragment.groups, Fragment.text, List.flatMap_map, Piece.placeholder]
    rw [text, wordPieces_amount digit word, ih (getLast?_ne_of_isWord word)]
    rfl

/-! ## The template -/

/-- The names in groups, in order. -/
def groupedNames (xs : List Fragment) : List Text := xs.filterMap Fragment.grouped?

/-- The names behind signs, in order. -/
def signedNames (xs : List Fragment) : List Text := xs.filterMap Fragment.signed?

theorem flatMap_placeholder_words (xs : List Fragment) :
    (xs.flatMap Fragment.words).flatMap Piece.placeholder = xs.flatMap Fragment.placeholder := by
  have single (x : Fragment) : x.words.flatMap Piece.placeholder = x.placeholder := by
    cases x <;>
      simp [Fragment.words, Fragment.placeholder, List.flatMap_map, Piece.placeholder]
  simp only [List.flatMap_assoc, single]

/-- The names of pieces are those of the fragments, if this holds of the pieces of each. -/
theorem filterMap_name?_flatMap {read : Fragment → List Piece} {name? : Fragment → Option Text}
    (single : ∀ x, (read x).filterMap Piece.name? = (name? x).toList) (xs : List Fragment) :
    (xs.flatMap read).filterMap Piece.name? = xs.filterMap name? := by
  induction xs with
  | nil => rfl
  | cons x xs ih =>
    rw [List.flatMap_cons, List.filterMap_append, ih, single, List.filterMap_cons]
    cases name? x <;> rfl

theorem filterMap_name?_map_plain (t : Text) : (t.map Piece.plain).filterMap Piece.name? = [] := by
  simp [Piece.name?]

theorem filterMap_name?_groups (xs : List Fragment) :
    (xs.flatMap Fragment.groups).filterMap Piece.name? = groupedNames xs := by
  apply filterMap_name?_flatMap
  intro x
  cases x with
  | group left name right => rfl
  | _ => exact filterMap_name?_map_plain _

theorem filterMap_name?_words (xs : List Fragment) :
    (xs.flatMap Fragment.words).filterMap Piece.name? = signedNames xs := by
  apply filterMap_name?_flatMap
  intro x
  cases x with
  | word name => rfl
  | _ => exact filterMap_name?_map_plain _

/-- The template of a text, told by its fragments. -/
theorem template_textOf {xs : List Fragment} (h : Composed none xs) :
    Template.of (textOf xs) =
      ⟨(groupedNames xs ++ signedNames xs).eraseDups, xs.flatMap Fragment.placeholder⟩ := by
  have groups := groupPieces_textOf h (by simp)
  have words := wordPieces_written h (by simp)
  rw [written] at words
  simp only [Template.of, groups, words, List.filterMap_append, filterMap_name?_groups,
    filterMap_name?_words, flatMap_placeholder_words]

theorem mem_names_iff {xs : List Fragment} {name : Text} :
    name ∈ groupedNames xs ++ signedNames xs ↔
      ∃ x ∈ xs, x.grouped? = some name ∨ x.signed? = some name := by
  simp only [groupedNames, signedNames, List.mem_append, List.mem_filterMap, and_or_left, exists_or]

/-- The names of fragments are plain names. -/
theorem Composed.isPlainName {before : Option Char} {xs : List Fragment} (h : Composed before xs) :
    ∀ x ∈ xs, ∀ name, x.grouped? = some name ∨ x.signed? = some name → IsPlainName name := by
  induction h with
  | nil => simp
  | plain _ _ _ ih =>
    exact List.forall_mem_cons.2 ⟨by simp [Fragment.grouped?, Fragment.signed?], ih⟩
  | group _ plain _ _ ih =>
    exact List.forall_mem_cons.2 ⟨by simpa [Fragment.grouped?, Fragment.signed?] using plain, ih⟩
  | word plain _ _ _ ih =>
    exact List.forall_mem_cons.2 ⟨by simpa [Fragment.grouped?, Fragment.signed?] using plain, ih⟩
  | amount _ _ _ ih =>
    exact List.forall_mem_cons.2 ⟨by simp [Fragment.grouped?, Fragment.signed?], ih⟩

theorem Fragment.isMarker_iff {x : Fragment} :
    x.isMarker = true ↔ ∃ name, x.grouped? = some name ∨ x.signed? = some name := by
  cases x <;> simp [grouped?, signed?, isMarker]

theorem Template.hasVariables_iff {t : Template} :
    t.hasVariables = true ↔ ∃ name, name ∈ t.names := by
  cases h : t.names <;> simp [hasVariables, h]

/-- **A text of fragments has the template that they tell.** Each marker becomes its name in braces,
and plain text and amounts stay; each name is listed once, those in groups first and then the others
behind signs, in the order in which they first occur; there are variables just if there is a marker;
and the template is simple. -/
theorem template_of_fragments {xs : List Fragment} (h : Composed none xs) :
    (Template.of (textOf xs)).text = xs.flatMap Fragment.placeholder ∧
      (Template.of (textOf xs)).names = (groupedNames xs).eraseDups ++
        ((signedNames xs).filter fun name => name ∉ groupedNames xs).eraseDups ∧
      (Template.of (textOf xs)).names.Nodup ∧
      ((Template.of (textOf xs)).hasVariables = true ↔ ∃ x ∈ xs, x.isMarker = true) ∧
      (Template.of (textOf xs)).isSimple = true := by
  have template := template_textOf h
  have mem (name : Text) : name ∈ (Template.of (textOf xs)).names ↔
      ∃ x ∈ xs, x.grouped? = some name ∨ x.signed? = some name := by
    rw [template, List.mem_eraseDups, mem_names_iff]
  refine ⟨by rw [template], ?_, Template.nodup_names _, ?_, ?_⟩
  · rw [template, List.eraseDups_append, List.removeAll]
    simp
  · simp only [Template.hasVariables_iff, mem, Fragment.isMarker_iff]
    exact ⟨fun ⟨name, x, hx, named⟩ => ⟨x, hx, name, named⟩,
      fun ⟨x, hx, name, named⟩ => ⟨name, x, hx, named⟩⟩
  · rw [Template.isSimple, List.all_eq_true]
    intro name named
    obtain ⟨x, hx, named⟩ := (mem name).1 named
    exact isIdentifier_of_isPlainName (h.isPlainName x hx name named)

/-- Markers of both kinds next to one another, a name twice, blanks in a group, and an amount. -/
def greeting : List Fragment :=
  [.plain "Hi ".toList, .group [] "user".toList [], .word "count".toList,
   .group " ".toList "_x1".toList "\t".toList, .plain " of ".toList, .amount "50k".toList,
   .plain ", ".toList, .word "user".toList]

theorem composed_greeting : Composed none greeting := by
  refine .plain (by decide) (by decide) <| .group (by decide) (by decide) (by decide) <|
    .word (by decide) ?_ ?_ <| .group (by decide) (by decide) (by decide) <|
    .plain (by decide) (by decide) <| .amount (by decide) ?_ <| .plain (by decide) (by decide) <|
    .word (by decide) ?_ ?_ .nil
  all_goals decide +kernel

theorem template_of_fragments_greeting : Composed none greeting ∧
    (Template.of (textOf greeting)).text = greeting.flatMap Fragment.placeholder ∧
      (Template.of (textOf greeting)).names = (groupedNames greeting).eraseDups ++
        ((signedNames greeting).filter fun name => name ∉ groupedNames greeting).eraseDups ∧
      (Template.of (textOf greeting)).names.Nodup ∧
      ((Template.of (textOf greeting)).hasVariables = true ↔ ∃ x ∈ greeting, x.isMarker = true) ∧
      (Template.of (textOf greeting)).isSimple = true :=
  ⟨composed_greeting, template_of_fragments composed_greeting⟩

end Localizer.Message
