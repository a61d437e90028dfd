import Localizer.Proofs.Dart.Order

/-!
# Open groups

A text with interpolations is read from group to group: each group ends at the brace that closes
what its sign and brace opened, however many braces are nested in it (`Nested`), and the reading
goes on behind it (`GroupsClosed`). A literal with a group that is never closed makes the scan discard
its line from the literal on. Such a literal may itself stand on a discarded line; it then discards
nothing more, since both lines end at the same newline. So a candidate is known by itself and by the
literals with an open group on its line (`mem_scan_iff_of_opens`), and no line before it matters
(`scan_discards_lines`).
-/

namespace Localizer.Dart

open Text

/-! ## Nested braces -/

/-- A text that closes `depth` of the braces open before it, and not more of them anywhere. -/
structure Nested (depth : Nat) (s : Text) : Prop where
  count : s.count '}' = s.count '{' + depth
  fronts : ∀ front, front <+: s → front.count '}' ≤ front.count '{' + depth

/-- Every group of a text is closed, each by the brace that closes its first one, reading on after
each closed group. -/
inductive GroupsClosed : Text → Prop
  | nil : GroupsClosed []
  | other {c : Char} {r : Text} (noGroup : ¬['$', '{'] <+: c :: r) (rest : GroupsClosed r) :
    GroupsClosed (c :: r)
  | group {body r : Text} (nested : Nested 0 body) (rest : GroupsClosed r) :
    GroupsClosed ('$' :: '{' :: (body ++ '}' :: r))

section

variable {depth : Nat} {s r : Text}

theorem nested_nil : Nested 0 [] := ⟨rfl, by simp⟩

theorem nested_cons {c : Char} : Nested depth (c :: s) ↔
    [c].count '}' ≤ [c].count '{' + depth ∧
      Nested ([c].count '{' + depth - [c].count '}') s := by
  have cons (x : Char) (t : Text) : (c :: t).count x = [c].count x + t.count x := by
    rw [← List.count_append, List.singleton_append]
  constructor
  · rintro ⟨count, fronts⟩
    have here := fronts [c] ⟨s, rfl⟩
    rw [cons _ s, cons _ s] at count
    refine ⟨here, by omega, fun front inner => ?_⟩
    have whole := fronts (c :: front) (List.cons_prefix_cons.2 ⟨rfl, inner⟩)
    rw [cons _ front, cons _ front] at whole
    omega
  · rintro ⟨here, count, fronts⟩
    refine ⟨by rw [cons _ s, cons _ s]; omega, fun front inner => ?_⟩
    rcases List.prefix_cons_iff.1 inner with rfl | ⟨front, rfl, behind⟩
    · simp
    · have rest := fronts front behind
      rw [cons _ front, cons _ front]
      omega

theorem nested_opener : Nested depth ('{' :: s) ↔ Nested (depth + 1) s := by
  simp [nested_cons, Nat.add_comm]

theorem nested_closer : Nested depth ('}' :: s) ↔ 0 < depth ∧ Nested (depth - 1) s := by
  simp [nested_cons, Nat.succ_le_iff]

theorem nested_other {c : Char} (opener : c ≠ '{') (closer : c ≠ '}') :
    Nested depth (c :: s) ↔ Nested depth s := by
  simp [nested_cons, opener, closer]

/-- What follows a group follows the brace that closes the last of the braces open in it. -/
theorem closeBraces?_eq_some_iff :
    closeBraces? depth s = some r ↔ ∃ body, s = body ++ '}' :: r ∧ Nested depth body := by
  -- a text is its first character and the rest, so that the body is empty or starts with it
  have step {c : Char} {t : Text} {P : Text → Prop} :
      (∃ body, c :: t = body ++ '}' :: r ∧ P body) ↔
        (c = '}' ∧ t = r ∧ P []) ∨ ∃ body, t = body ++ '}' :: r ∧ P (c :: body) := by
    constructor
    · rintro ⟨_ | ⟨d, body⟩, eq, h⟩
      · obtain ⟨rfl, rfl⟩ := List.cons.inj eq
        exact .inl ⟨rfl, rfl, h⟩
      · obtain ⟨rfl, rfl⟩ := List.cons.inj eq
        exact .inr ⟨body, rfl, h⟩
    · rintro (⟨rfl, rfl, h⟩ | ⟨body, rfl, h⟩)
      · exact ⟨[], rfl, h⟩
      · exact ⟨c :: body, rfl, h⟩
  fun_induction closeBraces? depth s with
  | case1 => simp
  | case2 depth t ih =>
    refine ih.trans ?_
    simp [step, nested_opener]
  | case3 t => simp [step, nested_closer, nested_nil]
  | case4 depth t ih =>
    have open_ : ¬Nested (depth + 1) [] := fun h => by simpa using h.count
    refine ih.trans ?_
    simp [step, nested_closer, open_]
  | case5 depth c t opener closer closer' ih =>
    have notCloser : c ≠ '}' := by
      rintro rfl
      cases depth with
      | zero => exact closer rfl rfl
      | succ depth => exact closer' depth rfl rfl
    refine ih.trans ?_
    simp [step, nested_other opener notCloser, notCloser]

theorem groupsClosed_other_iff {c : Char} (noGroup : ¬['$', '{'] <+: c :: s) :
    GroupsClosed (c :: s) ↔ GroupsClosed s := by
  refine ⟨fun h => ?_, .other noGroup⟩
  cases h with
  | other _ rest => exact rest
  | group => exact absurd ⟨_, rfl⟩ noGroup

theorem groupsClosed_group_iff :
    GroupsClosed ('$' :: '{' :: s) ↔ ∃ r, closeBraces? 0 s = some r ∧ GroupsClosed r := by
  simp only [closeBraces?_eq_some_iff]
  constructor
  · intro h
    cases h with
    | other noGroup => exact absurd ⟨_, rfl⟩ noGroup
    | group nested rest => exact ⟨_, ⟨_, rfl, nested⟩, rest⟩
  · rintro ⟨r, ⟨body, rfl, nested⟩, rest⟩
    exact .group nested rest

/-- **The test for an open group** is right about every text. -/
theorem hasOpenGroup_eq_false_iff : hasOpenGroup s = false ↔ GroupsClosed s := by
  fun_induction hasOpenGroup s with
  | case1 => simp [GroupsClosed.nil]
  | case2 s h => simp [groupsClosed_group_iff, h]
  | case3 s rest h _ ih =>
    rw [groupsClosed_group_iff, h]
    simpa using ih
  | case4 c s noGroup ih =>
    rw [groupsClosed_other_iff, ih]
    rintro ⟨r, eq⟩
    obtain ⟨rfl, rfl⟩ := List.cons.inj eq
    exact noGroup r rfl rfl

instance : Decidable (GroupsClosed s) := decidable_of_iff _ hasOpenGroup_eq_false_iff

end

/-! ## The end of a line -/

/-- Where the line of an offset ends: at the next newline, or else where the buffer does. -/
def lineEnd (s : Text) (n : Nat) : Nat := n + ((s.drop n).takeWhile (· != '\n')).length

section

variable {s : Text} {n m : Nat}

/-- The line of an offset has ended by the offset of another character if a newline stands between
them. -/
theorem lineEnd_le_iff {c : Char} (order : n ≤ m) (char : s[m]? = some c) (newline : c ≠ '\n') :
    lineEnd s n ≤ m ↔ '\n' ∈ slice s n m := by
  have cut : s.drop n = slice s n m ++ s.drop m := by
    have split := List.take_append_drop (m - n) (s.drop n)
    rw [List.drop_drop, Nat.add_sub_cancel' order] at split
    rw [slice, List.drop_take, split]
  have size : (slice s n m).length = m - n := by
    have within := (List.getElem?_eq_some_iff.1 char).1
    rw [slice, List.length_drop, List.length_take]
    omega
  by_cases mem : '\n' ∈ slice s n m
  · refine iff_of_true ?_ mem
    rw [lineEnd, cut, takeWhile_of_newline mem]
    have shorter := (List.takeWhile_prefix (l := slice s n m) (· != '\n')).length_le
    omega
  · refine iff_of_false ?_ mem
    have goesOn : 0 < ((s.drop m).takeWhile (· != '\n')).length := by
      rw [List.drop_eq_getElem?_toList_append, char]
      simp [newline]
    rw [lineEnd, cut, takeWhile_line mem, List.length_append]
    omega

theorem getElem?_lineEnd (inside : lineEnd s n < s.length) : s[lineEnd s n]? = some '\n' := by
  have cut := List.takeWhile_append_dropWhile (p := (· != '\n')) (l := s.drop n)
  have here : s[lineEnd s n]? = ((s.drop n).dropWhile (· != '\n')).head? := by
    rw [lineEnd, ← List.getElem?_drop, ← cut, List.getElem?_append_right (by simp), cut]
    simp [List.head?_eq_getElem?]
  have stop := List.head?_dropWhile_not (· != '\n') (s.drop n)
  rw [← here, List.getElem?_eq_getElem inside] at stop
  rw [List.getElem?_eq_getElem inside]
  simpa using stop

end

/-! ## Discarded lines -/

/-- A literal with a group that is never closed starts at the offset. -/
def OpensAt (s : Text) (n : Nat) : Prop :=
  ∃ q inner, (n, .literal q inner) ∈ located 0 (lex s) ∧ ¬GroupsClosed inner

/-- The scan passes over the line behind lexemes among which a literal has an open group, if no
newline follows it. -/
theorem passesAfter_eq_true_iff {xs : List Lexeme} : xs.foldl passesAfter false = true ↔
    ∃ before x after, xs = before ++ x :: after ∧ x.opens = true ∧
      '\n' ∉ after.flatMap Lexeme.text := by
  induction xs using List.reverseRecOn with
  | nil => simp
  | append_singleton xs y ih =>
    rw [List.foldl_append, List.foldl_cons, List.foldl_nil, passesAfter]
    simp only [Bool.or_eq_true, Bool.and_eq_true, ih]
    constructor
    · rintro (opens | ⟨⟨before, x, after, rfl, opens, line⟩, last⟩)
      · exact ⟨xs, y, [], rfl, opens, by simp⟩
      · refine ⟨before, x, after ++ [y], by simp, opens, ?_⟩
        simpa [line] using last
    · rintro ⟨before, x, after, split, opens, line⟩
      rcases List.eq_nil_or_concat after with rfl | ⟨after, z, rfl⟩
      · obtain ⟨-, eq⟩ := List.append_inj' split rfl
        obtain rfl := List.singleton_inj.1 eq
        exact .inl opens
      · have split : xs ++ [y] = (before ++ x :: after) ++ [z] := by simpa using split
        obtain ⟨rfl, eq⟩ := List.append_inj' split rfl
        obtain rfl := List.singleton_inj.1 eq
        rw [List.concat_eq_append, List.flatMap_append, List.mem_append, not_or] at line
        exact .inr ⟨⟨before, x, after, rfl, opens, line.1⟩, by simpa using line.2⟩

/-- A literal that no rule about its place leaves out, with its context. -/
structure Eligible (w : Windows) (s : Text) (l : Literal) : Prop where
  shown : isExcluded w l.quote (.of s l.offset) (s.drop l.stop) = false
  context : l.context = .ofWindow ((Place.of s l.offset).window w.context)

/-- A literal starts with its quote. -/
theorem quote_of_mem_located {s : Text} {n : Nat} {q : Char} {inner : Text}
    (mem : (n, .literal q inner) ∈ located 0 (lex s)) : s[n]? = some q ∧ q ≠ '\n' := by
  obtain ⟨before, after, split, offset⟩ := mem_located_iff.1 mem
  have literal : .literal q inner ∈ lex s := by simp [split]
  refine ⟨?_, ?_⟩
  · have whole := flatten_lex s
    rw [split, List.flatMap_append, List.flatMap_cons, Lexeme.text] at whole
    rw [← whole, offset, Nat.zero_add, List.getElem?_append_right (Nat.le_refl _), Nat.sub_self]
    rfl
  · rintro rfl
    have quote := (single_of_mem_lex literal).1
    revert quote
    decide

theorem slice_lexemes {s : Text} {before xs after : List Lexeme}
    (split : lex s = before ++ (xs ++ after)) :
    slice s (before.flatMap Lexeme.text).length ((before ++ xs).flatMap Lexeme.text).length =
      xs.flatMap Lexeme.text := by
  have whole := flatten_lex s
  rw [split, ← List.append_assoc, List.flatMap_append] at whole
  rw [slice, ← whole, List.take_left, List.flatMap_append, List.drop_left]

theorem opens_eq_true_iff {x : Lexeme} :
    x.opens = true ↔ ∃ q inner, x = .literal q inner ∧ ¬GroupsClosed inner := by
  cases x with
  | literal q inner => simp [Lexeme.opens, ← hasOpenGroup_eq_false_iff]
  | _ => simp [Lexeme.opens]

theorem opensAt_iff {s : Text} {n : Nat} : OpensAt s n ↔
    ∃ before x after, lex s = before ++ x :: after ∧ x.opens = true ∧
      n = (before.flatMap Lexeme.text).length := by
  constructor
  · rintro ⟨q, inner, mem, open_⟩
    obtain ⟨before, after, split, offset⟩ := mem_located_iff.1 mem
    exact ⟨before, _, after, split, opens_eq_true_iff.2 ⟨q, inner, rfl, open_⟩,
      offset.trans (Nat.zero_add _)⟩
  · rintro ⟨before, x, after, split, opens, rfl⟩
    obtain ⟨q, inner, rfl, open_⟩ := opens_eq_true_iff.1 opens
    exact ⟨q, inner, mem_located_iff.2 ⟨before, after, split, (Nat.zero_add _).symm⟩, open_⟩

section

variable {s : Text} {q : Char} {inner : Text} {before after : List Lexeme}

/-- The line of a literal with an open group has ended by a later literal if a newline stands among
the lexemes between them; the literal with the open group holds none. -/
theorem lineEnd_opens_le_iff {x : Lexeme} {passed : List Lexeme}
    (split : lex s = before ++ ((x :: passed) ++ .literal q inner :: after))
    (opens : x.opens = true) :
    lineEnd s (before.flatMap Lexeme.text).length ≤
      ((before ++ x :: passed).flatMap Lexeme.text).length ↔
        '\n' ∈ passed.flatMap Lexeme.text := by
  obtain ⟨q', inner', rfl, -⟩ := opens_eq_true_iff.1 opens
  obtain ⟨char, newline⟩ := quote_of_mem_located <| mem_located_iff.2
    ⟨before ++ .literal q' inner' :: passed, after, by simpa using split, (Nat.zero_add _).symm⟩
  have mem : Lexeme.literal q' inner' ∈ lex s := by simp [split]
  rw [lineEnd_le_iff (by simp) char newline, slice_lexemes split, List.flatMap_cons,
    List.mem_append]
  exact or_iff_right (single_of_mem_lex mem).2

/-- Where the scan comes to a literal whose own groups are closed, it passes over the line just if a
literal with an open group stands before it on the line. -/
theorem passesAfter_eq_false_iff (split : lex s = before ++ .literal q inner :: after)
    (closed : GroupsClosed inner) :
    before.foldl passesAfter false = false ↔
      ∀ n, OpensAt s n → n ≤ (before.flatMap Lexeme.text).length →
        lineEnd s n ≤ (before.flatMap Lexeme.text).length := by
  have own : (Lexeme.literal q inner).opens = false := hasOpenGroup_eq_false_iff.2 closed
  constructor
  · intro reading n opensAt order
    obtain ⟨a, x, b, split', opens, rfl⟩ := opensAt_iff.1 opensAt
    have apart : x ≠ .literal q inner := by
      rintro rfl
      rw [own] at opens
      contradiction
    rcases List.append_eq_append_iff.1 (split.symm.trans split') with
      ⟨passed, rfl, rest⟩ | ⟨passed, rfl, rest⟩
    · cases passed with
      | nil => exact absurd (List.cons.inj rest).1.symm apart
      | cons y passed =>
        obtain ⟨rfl, -⟩ := List.cons.inj rest
        simp only [List.flatMap_append, List.flatMap_cons, Lexeme.text, List.length_append,
          List.length_cons] at order
        omega
    · cases passed with
      | nil => exact absurd (List.cons.inj rest).1 apart
      | cons y passed =>
        obtain ⟨rfl, -⟩ := List.cons.inj rest
        rw [lineEnd_opens_le_iff (by simpa using split) opens]
        by_contra line
        rw [passesAfter_eq_true_iff.2 ⟨a, x, passed, rfl, opens, line⟩] at reading
        contradiction
  · intro ends
    by_contra passing
    rw [Bool.not_eq_false] at passing
    obtain ⟨a, x, b, rfl, opens, line⟩ := passesAfter_eq_true_iff.1 passing
    have opensAt : OpensAt s (a.flatMap Lexeme.text).length :=
      opensAt_iff.2 ⟨a, x, _, by simpa using split, opens, rfl⟩
    exact line ((lineEnd_opens_le_iff (by simpa using split) opens).1 (ends _ opensAt (by simp)))

end

/-- **The candidates of a buffer**: the literals whose own groups are closed, that no rule about
their place leaves out, and that stand behind no literal with an open group on its line. -/
theorem mem_scan_iff_of_opens {w : Windows} {s : Text} {l : Literal} :
    l ∈ scan w s ↔ l.located ∈ Dart.located 0 (lex s) ∧ GroupsClosed l.inner ∧ Eligible w s l ∧
      ∀ n, OpensAt s n → n ≤ l.offset → lineEnd s n ≤ l.offset := by
  rw [mem_scan_iff]
  constructor
  · rintro ⟨before, after, split, offset, candidate⟩
    have closed := hasOpenGroup_eq_false_iff.1 candidate.closed
    refine ⟨mem_located_iff.2 ⟨before, after, split, by simpa using offset⟩, closed,
      ⟨candidate.shown, candidate.context⟩, ?_⟩
    rw [offset]
    exact (passesAfter_eq_false_iff split closed).1 candidate.taken
  · rintro ⟨mem, closed, eligible, ends⟩
    obtain ⟨before, after, split, offset⟩ := mem_located_iff.1 mem
    rw [Nat.zero_add] at offset
    rw [offset] at ends
    exact ⟨before, after, split, offset, (passesAfter_eq_false_iff split closed).2 ends,
      hasOpenGroup_eq_false_iff.2 closed, eligible.shown, eligible.context⟩

/-- **Open groups discard lines.** All groups of a candidate are closed. Where a literal has an open
group, no candidate starts between its first quote and the end of its line. Behind that line, a
literal is a candidate just by what it is itself and by the literals with an open group that start
there; whether the scan has discarded lines before makes no difference. -/
theorem scan_discards_lines (w : Windows) (s : Text) :
    (∀ l ∈ scan w s, GroupsClosed l.inner) ∧
    ∀ n, OpensAt s n →
      (∀ l ∈ scan w s, l.offset < n ∨ lineEnd s n ≤ l.offset) ∧
      ∀ l : Literal, lineEnd s n ≤ l.offset →
        (l ∈ scan w s ↔ l.located ∈ located 0 (lex s) ∧ GroupsClosed l.inner ∧ Eligible w s l ∧
          ∀ m, OpensAt s m → lineEnd s n ≤ m → m ≤ l.offset → lineEnd s m ≤ l.offset) := by
  refine ⟨fun l hl => (mem_scan_iff_of_opens.1 hl).2.1, fun n opens => ⟨fun l hl => ?_, ?_⟩⟩
  · obtain ⟨-, -, -, ends⟩ := mem_scan_iff_of_opens.1 hl
    exact (Nat.lt_or_ge l.offset n).imp_right (ends n opens)
  · intro l behind
    rw [mem_scan_iff_of_opens]
    refine and_congr_right fun mem => and_congr_right fun _ => and_congr_right fun _ => ?_
    refine ⟨fun ends m opens _ => ends m opens, fun ends m opens order => ?_⟩
    -- the newline at the end of the line ends the line of every literal before it
    rcases Nat.lt_or_ge m (lineEnd s n) with before | after
    · obtain ⟨char, newline⟩ := quote_of_mem_located mem
      have inside := (List.getElem?_eq_some_iff.1 char).1
      have break_ := getElem?_lineEnd (Nat.lt_of_le_of_lt behind inside)
      have apart : lineEnd s n < l.offset := by
        refine Nat.lt_of_le_of_ne behind fun eq => newline ?_
        rw [eq, char] at break_
        exact Option.some.inj break_
      rw [lineEnd_le_iff order char newline, List.mem_iff_getElem?]
      refine ⟨lineEnd s n - m, ?_⟩
      rw [getElem?_slice (by omega), Nat.add_sub_cancel' (Nat.le_of_lt before), break_]
    · exact ends m opens after order

/-- A literal that its last quote cuts off inside of a group, another literal on its line, and one
on the next line. -/
def cutOff : Text := "f('$\x7ba\x7bb\x7d', 'x');\ng('d');".toList

theorem scan_discards_lines_cutOff :
    OpensAt cutOff 2 ∧ lineEnd cutOff 2 = 17 ∧
      (∀ l ∈ scan {} cutOff, l.offset < 2 ∨ 17 ≤ l.offset) ∧
      ⟨'\'', ['d'], 20, .general⟩ ∈ scan {} cutOff := by
  have opens : OpensAt cutOff 2 :=
    ⟨'\'', "$\x7ba\x7bb\x7d".toList, by decide +kernel, by decide +kernel⟩
  have discards := (scan_discards_lines {} cutOff).2 2 opens
  exact ⟨opens, by decide +kernel, discards.1, by decide +kernel⟩

end Localizer.Dart
