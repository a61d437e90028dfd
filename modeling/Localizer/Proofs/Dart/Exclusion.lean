import Localizer.Proofs.Dart.Scan
import Localizer.Proofs.Edit.Plan
import Localizer.Proofs.Text.Break

/-!
# Exclusion looks at near text

Whether a literal is left out depends on the text around it, and edits change this text. Most of the
tests look back from the literal over the end of its line, and none of them gets past a quote, or
past the bracket that opens a call whose arguments are shown: such a text is a `Wall`. A test that
holds in front of a wall still holds when another text takes the wall's place, provided that no word
goes on across the joint (`Near`); each test is built from a few forms that keep this. The tests
that look at the start of the line and at the text behind the literal are treated in the same way.

`Hidden` gathers all tests but that for the title of an app root, which looks back over a window of
its own. A literal that is hidden stays hidden when a wall gives way (`Hidden.past_wall`) and when
the lines before it do (`Hidden.past_line`).
-/

namespace Localizer.Dart

open Text Edit

theorem isBlank_quote {q : Char} (h : IsQuote q) : isBlank q = false := by
  rcases h with rfl | rfl <;> decide +kernel

/-! ## Walls -/

/-- A text, read backwards, that no test of the text before a literal gets past: it ends in a quote, or
in the bracket of a call whose first argument may be shown. -/
inductive Wall : Text → Prop
  | quote {q : Char} (quote : IsQuote q) (r : Text) : Wall (q :: r)
  | bracket {r : Text} (shown : ∀ word ∈ silentCalls, ¬ word.reverse <+: r) : Wall ('(' :: r)

/-- No word goes on across the joint of two texts, read backwards. -/
def Joint (u b : Text) : Prop := (∀ c ∈ u.getLast?, isWord c = false) ∨ atBoundary b = true

/-- A predicate of a text, read backwards from a place, that looks at most as far back as a wall: what
comes from the wall on may change. -/
def Near (a : Text) (Q : Text → Bool) : Prop :=
  ∀ u b, Joint u b → Q (u ++ a) = true → Q (u ++ b) = true

/-- A predicate that does not hold at a wall. -/
def Blind (a : Text) (Q : Text → Bool) : Prop := Q a = false

/-- The characters that a wall ends in. -/
def IsWallChar (c : Char) : Prop := IsQuote c ∨ c = '('

instance : DecidablePred IsWallChar := fun _ => inferInstanceAs (Decidable (_ ∨ _))

theorem IsWallChar.plain {c : Char} (h : IsWallChar c) : isBlank c = false ∧ isWord c = false := by
  rcases h with (rfl | rfl) | rfl <;> decide +kernel

theorem Wall.exists_cons {a : Text} (h : Wall a) : ∃ c r, a = c :: r ∧ IsWallChar c := by
  cases h with
  | quote quote r => exact ⟨_, r, rfl, .inl quote⟩
  | bracket => exact ⟨_, _, rfl, .inr rfl⟩

/-- A prefix ends before a wall, if it has no character in which a wall ends. -/
theorem prefix_of_wall {p l a : Text} (h : p <+: l ++ a) (wall : Wall a)
    (apart : ∀ c ∈ p, ¬ IsWallChar c) : p <+: l := by
  obtain ⟨c, r, rfl, hc⟩ := wall.exists_cons
  refine prefix_of_not_mem h ?_
  intro d hd mem
  obtain rfl := Option.some.inj hd
  exact apart c mem hc

theorem stripLeft_append (u b : Text) :
    stripLeft (u ++ b) = if (stripLeft u).isEmpty then stripLeft b else stripLeft u ++ b :=
  List.dropWhile_append

theorem stripLeft_of_head {c : Char} (h : isBlank c = false) (r : Text) :
    stripLeft (c :: r) = c :: r := by
  simp [stripLeft, h]

/-- What a text starts with behind its blanks, a longer one starts with, too. -/
theorem head?_stripLeft_mono {a b : Text} {c : Char} (h : a <+: b)
    (first : (stripLeft a).head? = some c) : (stripLeft b).head? = some c := by
  obtain ⟨t, rfl⟩ := h
  rw [stripLeft_append]
  split
  next empty =>
    rw [List.isEmpty_iff.1 empty] at first
    contradiction
  next => rw [List.head?_append, first, Option.some_or]

section

variable {a : Text} (wall : Wall a)
include wall

theorem stripLeft_wall : stripLeft a = a := by
  obtain ⟨c, r, rfl, hc⟩ := wall.exists_cons
  exact stripLeft_of_head hc.plain.1 r

theorem near_stripLeft {Q : Text → Bool} (near : Near a Q) (blind : Blind a Q) :
    Near a (Q ∘ stripLeft) := by
  intro u b joint h
  simp only [Function.comp_apply, stripLeft_append] at h ⊢
  split at h
  next =>
    rw [stripLeft_wall wall, blind] at h
    contradiction
  next filled =>
    rw [if_neg filled]
    refine near _ b ?_ h
    obtain ⟨pad, eq, -⟩ := eq_stripLeft u
    refine joint.imp_left fun ends c hc => ends c ?_
    rw [eq, List.getLast?_append]
    simp [Option.mem_def.1 hc]

omit wall in
/-- Whether a text, read backwards, ends in a character, and `Q` holds of what comes before it. -/
def endsIn (c : Char) (Q : Text → Bool) : Text → Bool
  | d :: r => d == c && Q r
  | [] => false

omit wall in
theorem near_endsIn {c : Char} {Q : Text → Bool} (blind : Blind a (endsIn c Q)) (near : Near a Q) :
    Near a (endsIn c Q) := by
  intro u b joint h
  cases u with
  | nil =>
    rw [List.nil_append, blind] at h
    contradiction
  | cons d u =>
    simp only [List.cons_append, endsIn, Bool.and_eq_true] at h ⊢
    refine ⟨h.1, near _ b ?_ h.2⟩
    refine joint.imp_left fun ends e he => ends e ?_
    rw [List.getLast?_cons, Option.mem_def.1 he]
    rfl

theorem blind_endsIn {c : Char} (Q : Text → Bool) (other : ¬ IsWallChar c) :
    Blind a (endsIn c Q) := by
  obtain ⟨d, r, rfl, hd⟩ := wall.exists_cons
  have differs : d ≠ c := fun h => other (h ▸ hd)
  simp [Blind, endsIn, differs]

end

/-- Words to look for: the first character is a word character, and a wall ends in none of them. -/
def IsWordlike (word : Text) : Prop :=
  word.head?.any isWord = true ∧ ∀ c ∈ word, ¬ IsWallChar c

instance : DecidablePred IsWordlike := fun _ => inferInstanceAs (Decidable (_ ∧ _))

section

variable {a : Text} (wall : Wall a)
include wall

theorem near_endsInWord {word : Text} (h : IsWordlike word) : Near a (endsInWord word) := by
  intro u b joint hu
  obtain ⟨rest, eq, boundary⟩ := eq_of_endsInWord hu
  obtain ⟨z, rfl⟩ : word.reverse <+: u :=
    prefix_of_wall ⟨rest, eq.symm⟩ wall fun c hc => h.2 c (List.mem_reverse.1 hc)
  rw [List.append_assoc, List.append_cancel_left_eq] at eq
  rw [List.append_assoc]
  have stop : atBoundary (z ++ b) = true := by
    cases z with
    | nil =>
      -- the word would end in a character that is none of a word
      refine joint.resolve_left fun ends => ?_
      have first := h.1
      rw [← List.getLast?_reverse] at first
      obtain ⟨c, hc, word⟩ := (Option.any_eq_true _ _).1 first
      rw [ends c (by simpa using hc)] at word
      contradiction
    | cons d z =>
      rw [← eq] at boundary
      exact boundary
  simp [endsInWord, List.drop_left', stop]

theorem blind_endsInWord {word : Text} (h : IsWordlike word) : Blind a (endsInWord word) := by
  rw [Blind, ← Bool.not_eq_true]
  intro ends
  obtain ⟨rest, eq, -⟩ := eq_of_endsInWord ends
  have front : word.reverse <+: [] :=
    prefix_of_wall (l := []) ⟨rest, eq.symm⟩ wall fun c hc => h.2 c (List.mem_reverse.1 hc)
  have first := h.1
  rw [List.reverse_eq_nil_iff.1 (List.prefix_nil.1 front)] at first
  contradiction

omit wall in
theorem near_any {words : List Text} {Q : Text → Text → Bool}
    (near : ∀ word ∈ words, Near a (Q word)) : Near a fun s => words.any fun word => Q word s := by
  intro u b joint h
  simp only [List.any_eq_true] at h ⊢
  obtain ⟨word, mem, h⟩ := h
  exact ⟨word, mem, near word mem u b joint h⟩

omit wall in
theorem near_or {Q R : Text → Bool} (hQ : Near a Q) (hR : Near a R) :
    Near a fun s => Q s || R s := by
  intro u b joint h
  simp only [Bool.or_eq_true] at h ⊢
  exact h.imp (hQ u b joint) (hR u b joint)

theorem near_isPrefixOf {p : Text} (apart : ∀ c ∈ p, ¬ IsWallChar c) : Near a p.isPrefixOf := by
  intro u b _ h
  rw [List.isPrefixOf_iff_prefix] at h ⊢
  exact (prefix_of_wall h wall apart).trans (List.prefix_append _ _)

end

/-! ## The tests of a line -/

theorem endsIn_eq_false {c : Char} {Q : Text → Bool} {s : Text} (h : ∀ r, s = c :: r → False) :
    endsIn c Q s = false := by
  cases s with
  | nil => rfl
  | cons d r =>
    have differs : d ≠ c := by
      rintro rfl
      exact h r rfl
    simp [endsIn, differs]

/-- Whether a text, read backwards, ends in what can be indexed, possibly with a question mark. -/
def endsInIndexed : Text → Bool
  | '?' :: c :: _ => isWord c || c == ')' || c == ']'
  | c :: _ => isWord c || c == ')' || c == ']'
  | [] => false

theorem IsWallChar.not_indexed {c : Char} (h : IsWallChar c) :
    (isWord c || c == ')' || c == ']') = false := by
  rw [h.plain.2]
  rcases h with (rfl | rfl) | rfl <;> decide

theorem endsInIndexed_cons {c : Char} (h : c ≠ '?') (r : Text) :
    endsInIndexed (c :: r) = (isWord c || c == ')' || c == ']') := by
  cases r <;> simp [endsInIndexed, h]

theorem isPrefixOf_eq_false {p s : Text} (h : ∀ r, s = p ++ r → False) :
    p.isPrefixOf s = false := by
  rw [← Bool.not_eq_true, List.isPrefixOf_iff_prefix]
  rintro ⟨r, rfl⟩
  exact h r rfl

section

variable {a : Text} (wall : Wall a)
include wall

theorem near_opensSilentCall : Near a opensSilentCall := by
  have eq : opensSilentCall =
      endsIn '(' (fun r => silentCalls.any fun word => endsInWord word r) ∘ stripLeft := by
    funext back
    rw [opensSilentCall, Function.comp_apply]
    split
    next r h => simp [h, endsIn]
    next h => rw [endsIn_eq_false h]
  have words : ∀ word ∈ silentCalls, IsWordlike word := by
    decide +kernel
  have blind : Blind a
      (endsIn '(' fun r => silentCalls.any fun word => endsInWord word r) := by
    cases wall with
    | @quote q quote r =>
      have differs : q ≠ '(' := by rcases quote with rfl | rfl <;> decide
      simp [Blind, endsIn, differs]
    | @bracket r shown =>
      rw [Blind, ← Bool.not_eq_true]
      intro silent
      simp only [endsIn, Bool.and_eq_true, List.any_eq_true] at silent
      obtain ⟨-, word, mem, ends⟩ := silent
      obtain ⟨rest, rfl, -⟩ := eq_of_endsInWord ends
      exact shown word mem (List.prefix_append _ _)
  rw [eq]
  exact near_stripLeft wall
    (near_endsIn blind (near_any fun word mem => near_endsInWord wall (words word mem))) blind

theorem near_namesSilentProperty : Near a namesSilentProperty := by
  have eq : namesSilentProperty =
      endsIn ':' (fun r => silentProperties.any fun word => (endsInWord word ∘ stripLeft) r) ∘
        stripLeft := by
    funext back
    rw [namesSilentProperty, Function.comp_apply]
    split
    next r h => simp [h, endsIn]
    next h => rw [endsIn_eq_false h]
  have words : ∀ word ∈ silentProperties, IsWordlike word := by
    decide +kernel
  have blind (Q : Text → Bool) : Blind a (endsIn ':' Q) := blind_endsIn wall Q (by decide)
  rw [eq]
  refine near_stripLeft wall (near_endsIn (blind _) (near_any fun word mem => ?_)) (blind _)
  exact near_stripLeft wall (near_endsInWord wall (words word mem))
    (blind_endsInWord wall (words word mem))

theorem blind_endsInIndexed : Blind a endsInIndexed := by
  obtain ⟨c, r, rfl, hc⟩ := wall.exists_cons
  have differs : c ≠ '?' := by rcases hc with (rfl | rfl) | rfl <;> decide
  rw [Blind, endsInIndexed_cons differs, hc.not_indexed]

theorem near_endsInIndexed : Near a endsInIndexed := by
  intro u b _ h
  cases u with
  | nil =>
    rw [List.nil_append, blind_endsInIndexed wall] at h
    contradiction
  | cons c u =>
    by_cases hc : c = '?'
    · subst hc
      cases u with
      | nil =>
        obtain ⟨c, r, rfl, hc⟩ := wall.exists_cons
        simp [endsInIndexed, hc.not_indexed] at h
      | cons d u => exact h
    · rw [List.cons_append, endsInIndexed_cons hc] at h ⊢
      exact h

theorem near_opensSubscript : Near a opensSubscript := by
  have eq : opensSubscript = endsIn '[' (endsInIndexed ∘ stripLeft) ∘ stripLeft := by
    funext back
    rw [opensSubscript, Function.comp_apply]
    split
    next r h =>
      rw [h]
      rfl
    next h => rw [endsIn_eq_false h]
  have blind : Blind a (endsIn '[' (endsInIndexed ∘ stripLeft)) :=
    blind_endsIn wall _ (by decide)
  have indexed : Near a (endsInIndexed ∘ stripLeft) :=
    near_stripLeft wall (near_endsInIndexed wall) (blind_endsInIndexed wall)
  rw [eq]
  exact near_stripLeft wall (near_endsIn blind indexed) blind

theorem near_endsInComparison : Near a endsInComparison := by
  have eq : endsInComparison = (fun s => ['=', '='].isPrefixOf s || ['=', '!'].isPrefixOf s ||
      endsInWord "case".toList s) ∘ stripLeft := by
    funext back
    rw [endsInComparison, Function.comp_apply]
    split
    next h => simp [h]
    next h => simp [h]
    next h₁ h₂ => rw [isPrefixOf_eq_false h₁, isPrefixOf_eq_false h₂, Bool.or_self, Bool.false_or]
  have case : IsWordlike "case".toList := by
    decide +kernel
  have equal : Near a ['=', '='].isPrefixOf := near_isPrefixOf wall (by decide)
  have unequal : Near a ['=', '!'].isPrefixOf := near_isPrefixOf wall (by decide)
  rw [eq]
  refine near_stripLeft wall (near_or (near_or equal unequal) (near_endsInWord wall case)) ?_
  obtain ⟨c, r, rfl, hc⟩ := wall.exists_cons
  have differs : '=' ≠ c := by rcases hc with (rfl | rfl) | rfl <;> decide
  rw [Blind, blind_endsInWord wall case]
  simp [List.isPrefixOf, differs]

end

/-! ## Lines -/

/-- The line, read backwards, that ends where a text ends. -/
def lineBack (back : Text) : Text := back.takeWhile (· != '\n')

/-- A line does not go back past a newline. -/
theorem lineBack_of_newline {u : Text} (newline : '\n' ∈ u) (b : Text) :
    lineBack (u ++ b) = lineBack u := by
  rw [lineBack, lineBack, takeWhile_of_newline newline]

theorem Wall.lineBack {a : Text} (wall : Wall a) : Wall (lineBack a) := by
  cases wall with
  | @quote q quote r =>
    have line : q ≠ '\n' := by rcases quote with rfl | rfl <;> decide
    simpa [Dart.lineBack, line] using Wall.quote quote (r.takeWhile (· != '\n'))
  | @bracket r shown =>
    have line : Dart.lineBack ('(' :: r) = '(' :: r.takeWhile (· != '\n') := by
      simp [Dart.lineBack]
    rw [line]
    exact .bracket fun word mem front => shown word mem (front.trans (List.takeWhile_prefix _))

/-- The line up to a place is the same behind a newline; otherwise it goes on behind the wall. -/
theorem near_lineBack {a : Text} (wall : Wall a) {Q : Text → Bool}
    (near : ∀ {a : Text}, Wall a → Near a Q) : Near a fun back => Q (lineBack back) := by
  intro u b joint h
  dsimp only [lineBack] at h ⊢
  by_cases line : '\n' ∈ u
  · rw [takeWhile_of_newline line] at h ⊢
    exact h
  · rw [takeWhile_line line] at h ⊢
    refine near wall.lineBack u _ (joint.imp_right fun boundary => ?_) h
    cases b with
    | nil => rfl
    | cons c b =>
      by_cases newline : c = '\n'
      · simp [newline, atBoundary]
      · simpa [newline, atBoundary] using boundary

/-- A line that starts a directive does so before any wall in it. -/
theorem startsDirective_of_append {line a : Text} {c : Char} (wall : IsWallChar c)
    (h : startsDirective (line ++ c :: a) = true) : startsDirective line = true := by
  have stripped : stripLeft (line ++ c :: a) = stripLeft line ++ c :: a := by
    rw [stripLeft_append, stripLeft_of_head wall.plain.1]
    split
    next empty => rw [List.isEmpty_iff.1 empty, List.nil_append]
    next => rfl
  have apart : ∀ word ∈ directiveWords, ∀ c ∈ word, ¬ IsWallChar c := by
    decide
  simp only [startsDirective, List.any_eq_true, stripped, startsWithWord, Bool.and_eq_true,
    List.isPrefixOf_iff_prefix] at h ⊢
  obtain ⟨word, mem, front, boundary⟩ := h
  obtain ⟨z, hz⟩ : word <+: stripLeft line := by
    refine prefix_of_not_mem front ?_
    intro d hd inside
    obtain rfl := Option.some.inj hd
    exact apart word mem c inside wall
  rw [← hz, List.append_assoc, List.drop_left] at boundary
  refine ⟨word, mem, ⟨z, hz⟩, ?_⟩
  rw [← hz, List.drop_left]
  cases z with
  | nil => rfl
  | cons d z => exact boundary

/-- If a line starts a directive, and the line in front of a wall does not, then the wall is not on the
line. -/
theorem newline_of_startsDirective {u a : Text} {c : Char} (wall : IsWallChar c)
    (front : startsDirective (lineBack a).reverse = false)
    (directive : startsDirective (lineBack (u ++ c :: a)).reverse = true) : '\n' ∈ u := by
  by_contra newline
  have plain : c ≠ '\n' := by
    rintro rfl
    exact absurd wall (by decide)
  have whole : (lineBack (u ++ c :: a)).reverse = (lineBack a).reverse ++ c :: u.reverse := by
    rw [lineBack, takeWhile_line newline]
    simp [lineBack, plain]
  rw [whole] at directive
  rw [startsDirective_of_append wall directive] at front
  contradiction

/-- A text that does not start, behind blanks, like a comparison. -/
def NoComparison (a : Text) : Prop := ∀ c ∈ (stripLeft a).head?, c ≠ '=' ∧ c ≠ '!'

instance : DecidablePred NoComparison :=
  fun a => inferInstanceAs (Decidable (∀ c ∈ (stripLeft a).head?, c ≠ '=' ∧ c ≠ '!'))

theorem NoComparison.take {a : Text} (h : NoComparison a) (n : Nat) : NoComparison (a.take n) :=
  fun c hc => h c (head?_stripLeft_mono (List.take_prefix n a) hc)

/-- A text that starts, behind blanks, with the sign of a comparison does so before one that does
not. -/
theorem prefix_stripLeft_append {c d : Char} {u a : Text} (hc : c = '=' ∨ c = '!')
    (hd : d = '=' ∨ d = '!') (apart : NoComparison a) (h : [c, d] <+: stripLeft (u ++ a)) (b : Text) :
    [c, d] <+: stripLeft (u ++ b) := by
  have none {e : Char} (first : (stripLeft a).head? = some e) : ¬ (e = '=' ∨ e = '!') :=
    fun sign => sign.elim (apart e first).1 (apart e first).2
  rw [stripLeft_append] at h ⊢
  split at h
  next =>
    obtain ⟨r, eq⟩ := h
    exact absurd hc (none (by simp [← eq]))
  next nonblank =>
    rw [if_neg nonblank]
    refine (prefix_of_not_mem h ?_).trans (List.prefix_append _ _)
    intro e he mem
    have sign : e = '=' ∨ e = '!' := by
      rcases List.mem_pair.1 mem with rfl | rfl
      · exact hc
      · exact hd
    have solid : isBlank e = false := by rcases sign with rfl | rfl <;> decide +kernel
    refine none ?_ sign
    cases a with
    | nil => simp at he
    | cons f a =>
      obtain rfl := Option.some.inj he
      rw [stripLeft_of_head solid]
      rfl

theorem comparisonFollows_eq (rest : Text) : comparisonFollows rest =
    (['=', '='].isPrefixOf (stripLeft (rest.take 8)) ||
      ['!', '='].isPrefixOf (stripLeft (rest.take 8))) := by
  rw [comparisonFollows]
  split
  next h => simp [h]
  next h => simp [h]
  next h₁ h₂ => rw [isPrefixOf_eq_false h₁, isPrefixOf_eq_false h₂, Bool.or_self]

/-- A comparison that follows a literal does so before a text that starts none. -/
theorem comparisonFollows_append {u a : Text} (apart : NoComparison a)
    (h : comparisonFollows (u ++ a) = true) (b : Text) : comparisonFollows (u ++ b) = true := by
  have cut := apart.take (8 - u.length)
  simp only [comparisonFollows_eq, Bool.or_eq_true, List.isPrefixOf_iff_prefix,
    List.take_append] at h ⊢
  rcases h with h | h
  · exact .inl (prefix_stripLeft_append (.inl rfl) (.inl rfl) cut h _)
  · exact .inr (prefix_stripLeft_append (.inr rfl) (.inl rfl) cut h _)

theorem NoComparison.comparisonFollows {a : Text} (h : NoComparison a) :
    comparisonFollows a = false := by
  have cut := h.take 8
  rw [Dart.comparisonFollows]
  split
  next eq => exact absurd rfl (cut '=' (by rw [eq]; rfl)).1
  next eq => exact absurd rfl (cut '!' (by rw [eq]; rfl)).2
  next => rfl

/-! ## Hidden literals -/

/-- Whether a literal with the quote `q` is hidden by what stands around it: by the text `back` before
it, read backwards, or by the text `rest` behind it. Only the title of an app root is left out for
another reason. -/
def Hidden (q : Char) (back rest : Text) : Prop :=
  startsDirective (lineBack back).reverse = true ∨ back.head? = some q ∨ rest.head? = some q ∨
    endsInWord "r".toList back = true ∨ opensSubscript (lineBack back) = true ∨
    endsInComparison (lineBack back) = true ∨ comparisonFollows rest = true ∨
    opensSilentCall (lineBack back) = true ∨ namesSilentProperty (lineBack back) = true

instance (q : Char) (back rest : Text) : Decidable (Hidden q back rest) :=
  inferInstanceAs (Decidable (_ ∨ _))

theorem isExcluded_iff {w : Windows} {q : Char} {p : Place Char} {rest : Text} :
    isExcluded w q p rest = true ↔
      Hidden q p.back rest ∨ namesAppTitle (p.window w.title) = true := by
  have raw : isRawOrAdjacent q p.back rest = true ↔
      p.back.head? = some q ∨ rest.head? = some q ∨ endsInWord "r".toList p.back = true := by
    cases p.back with
    | nil => simp [isRawOrAdjacent, endsInWord]
    | cons c back =>
      have mark : (c = 'r' ∧ atBoundary back = true) ↔ ('r' = c ∧ atBoundary back = true) := by
        rw [eq_comm]
      simp [isRawOrAdjacent, endsInWord, List.isPrefixOf, or_assoc, mark]
  simp only [isExcluded, Bool.or_eq_true, raw, Hidden, lineBack, Place.lineBack]
  simp only [or_assoc, or_comm, or_left_comm]

section

variable {q : Char} {back back' rest rest' : Text}

/-- A hidden literal stays hidden if each test that hides it still does. -/
theorem Hidden.imp (h : Hidden q back rest)
    (directive : startsDirective (lineBack back).reverse = true →
      startsDirective (lineBack back').reverse = true)
    (before : back.head? = some q → back'.head? = some q)
    (behind : rest.head? = some q → rest'.head? = some q)
    (follows : comparisonFollows rest = true → comparisonFollows rest' = true)
    (raw : endsInWord "r".toList back = true → endsInWord "r".toList back' = true)
    (line : ∀ Q ∈ [opensSubscript, endsInComparison, opensSilentCall, namesSilentProperty],
      Q (lineBack back) = true → Q (lineBack back') = true) : Hidden q back' rest' :=
  Or.imp directive (.imp before <| .imp behind <| .imp raw <| .imp (line _ (by simp)) <|
    .imp (line _ (by simp)) <| .imp follows <| .imp (line _ (by simp)) (line _ (by simp))) h

/-- What stands from a wall on does not matter, except for a directive that starts there and the quote
before the literal. -/
theorem Hidden.past_wall {u a b : Text} (h : Hidden q (u ++ a) rest) (wall : Wall a)
    (joint : Joint u b)
    (directive : startsDirective (lineBack (u ++ a)).reverse = true →
      startsDirective (lineBack (u ++ b)).reverse = true)
    (before : (u ++ a).head? = some q → (u ++ b).head? = some q)
    (behind : rest.head? = some q → rest'.head? = some q)
    (follows : comparisonFollows rest = true → comparisonFollows rest' = true) :
    Hidden q (u ++ b) rest' := by
  have near {Q : Text → Bool} (near : ∀ {a : Text}, Wall a → Near a Q) :
      Q (lineBack (u ++ a)) = true → Q (lineBack (u ++ b)) = true :=
    near_lineBack wall near u b joint
  refine h.imp directive before behind follows ?_ ?_
  · exact near_endsInWord wall (by decide +kernel) u b joint
  · intro Q hQ
    simp only [List.mem_cons, List.not_mem_nil, or_false] at hQ
    rcases hQ with rfl | rfl | rfl | rfl
    · exact near near_opensSubscript
    · exact near near_endsInComparison
    · exact near near_opensSilentCall
    · exact near near_namesSilentProperty

/-- A text that is empty or starts with a newline, as what stands before a line does. -/
def AtLine (a : Text) : Prop := ∀ c ∈ a.head?, c = '\n'

theorem lineBack_append {u c : Text} (hc : AtLine c) (line : '\n' ∉ u) : lineBack (u ++ c) = u := by
  rw [lineBack, takeWhile_line line]
  cases c with
  | nil => exact List.append_nil u
  | cons d c => simp [hc d rfl]

/-- What stands before the line of a literal does not matter. -/
theorem Hidden.past_line {u a b : Text} (h : Hidden q (u ++ a) rest) (quote : IsQuote q)
    (ha : AtLine a) (hb : AtLine b) (behind : rest.head? = some q → rest'.head? = some q)
    (follows : comparisonFollows rest = true → comparisonFollows rest' = true) :
    Hidden q (u ++ b) rest' := by
  have line {c : Text} (hc : AtLine c) : lineBack (u ++ c) = lineBack u := by
    by_cases newline : '\n' ∈ u
    · exact lineBack_of_newline newline c
    · rw [lineBack_append hc newline, ← List.append_nil u, lineBack_append (by simp [AtLine]) newline,
        List.append_nil]
  have boundary {c : Text} (hc : AtLine c) : atBoundary c = true := by
    cases c with
    | nil => rfl
    | cons d c =>
      have newline : isWord '\n' = false := by decide +kernel
      simp [atBoundary, hc d rfl, newline]
  refine h.imp ?_ ?_ behind follows ?_ ?_
  · rw [line ha, line hb]
    exact id
  · cases u with
    | nil =>
      intro head
      obtain rfl := ha q (by simpa using head)
      exact absurd quote (by decide)
    | cons => exact id
  · cases u with
    | nil =>
      intro raw
      obtain ⟨z, eq, -⟩ := eq_of_endsInWord raw
      obtain rfl : a = 'r' :: z := by simpa using eq
      exact absurd (ha 'r' rfl) (by decide)
    | cons c u =>
      cases u with
      | nil => simp [endsInWord, boundary ha, boundary hb]
      | cons => exact id
  · intro Q _
    rw [line ha, line hb]
    exact id

end

/-! ## Around a candidate -/

/-- Two texts end alike: they are the same, or one has a candidate of the buffer in it and they are the
same behind that. -/
inductive EndsAlike (w : Windows) (s : Text) : Text → Text → Prop
  | same (front : Text) : EndsAlike w s front front
  | behind {x : Literal} {a : Text} (candidate : x ∈ scan w s) (offset : x.offset = a.length)
    (u b : Text) : EndsAlike w s (a ++ (x.text ++ u)) (b ++ u)

/-- Two texts start alike: they are the same, or the same up to where one of them goes on with what
starts no comparison. -/
inductive StartsAlike : Text → Text → Prop
  | same (rest : Text) : StartsAlike rest rest
  | before {a : Text} (apart : NoComparison a) (u b : Text) : StartsAlike (u ++ a) (u ++ b)

theorem StartsAlike.comparisonFollows {rest rest' : Text} (h : StartsAlike rest rest')
    (follows : comparisonFollows rest = true) : Dart.comparisonFollows rest' = true := by
  cases h with
  | same => exact follows
  | before apart u b => exact comparisonFollows_append apart follows b

/-- What is known of a candidate, given the text before it and the text behind it. -/
theorem shown_of_mem_scan {w : Windows} {s a u : Text} {x : Literal} (hx : x ∈ scan w s)
    (offset : x.offset = a.length) (hs : s = a ++ (x.text ++ u)) :
    IsQuote x.quote ∧ '\n' ∉ x.text ∧ ¬ Hidden x.quote a.reverse u ∧ s.drop x.stop = u := by
  obtain ⟨before, after, split, -, candidate⟩ := mem_scan_iff.1 hx
  have mem : Lexeme.literal x.quote x.inner ∈ lex s := by
    simp [split]
  obtain ⟨quote, single⟩ := single_of_mem_lex mem
  have back : (Place.of s x.offset).back = a.reverse := by
    rw [hs, offset]
    simp [Place.of]
  have behind : s.drop x.stop = u := by
    rw [hs, Literal.stop, offset, ← List.drop_drop, List.drop_left, List.drop_left]
  have shown := candidate.shown
  rw [behind, ← Bool.not_eq_true, isExcluded_iff, back, not_or] at shown
  exact ⟨quote, single, shown.1, behind⟩

/-- **A hidden literal stays hidden** when the texts around it change into texts that end and start
alike. -/
theorem Hidden.alike {w : Windows} {s front front' rest rest' tail : Text} {q : Char}
    (hidden : Hidden q front.reverse rest) (hs : s = front ++ q :: tail)
    (ends : EndsAlike w s front front') (starts : StartsAlike rest rest')
    (behind : rest.head? = some q → rest'.head? = some q)
    (apart : ∀ x ∈ scan w s, ∀ c ∈ (s.drop x.stop).head?, isWord c = false) :
    Hidden q front'.reverse rest' := by
  cases ends with
  | same => exact hidden.imp id id behind starts.comparisonFollows id fun _ _ => id
  | @behind x a candidate offset u b =>
    have text : s = a ++ (x.text ++ (u ++ q :: tail)) := by
      simpa using hs
    obtain ⟨quote, single, shown, stop⟩ := shown_of_mem_scan candidate offset text
    have split : (a ++ (x.text ++ u)).reverse = u.reverse ++ (x.text.reverse ++ a.reverse) := by
      simp
    have mirrored : x.text.reverse = x.quote :: (x.inner.reverse ++ [x.quote]) := by
      simp [Literal.text]
    rw [split] at hidden
    rw [List.reverse_append]
    refine hidden.past_wall ?_ (.inl ?_) ?_ ?_ behind starts.comparisonFollows
    · rw [mirrored]
      exact .quote quote _
    · -- no word goes on behind the candidate
      intro c hc
      rw [List.getLast?_reverse] at hc
      refine apart x candidate c ?_
      rw [stop, List.head?_append]
      simp [Option.mem_def.1 hc]
    · -- a directive on the line of the candidate would begin before it
      intro directive
      have line : startsDirective (lineBack a.reverse).reverse = false :=
        eq_false_of_ne_true fun starts => shown (.inl starts)
      have newline : '\n' ∈ u.reverse := by
        have within := newline_of_startsDirective (u := u.reverse ++ x.quote :: x.inner.reverse)
          (.inl quote) line (by simpa [mirrored] using directive)
        simp only [Literal.text, List.mem_cons, List.mem_append, not_or] at single
        simpa [single.1, single.2.1] using within
      rw [lineBack_of_newline newline] at directive
      rw [lineBack_of_newline newline]
      exact directive
    · -- the quote before the literal would touch the candidate
      intro head
      cases hu : u.reverse with
      | nil =>
        rw [hu, mirrored] at head
        obtain rfl : x.quote = q := by simpa using head
        obtain rfl : u = [] := by simpa using hu
        exact absurd (.inr (.inr (.inl (by simp)))) shown
      | cons c r => simpa [hu] using head

/-! ## Visible literals -/

/-- A literal among lexemes, which stands behind `before` and in front of `after`, is a candidate
unless it is the title of an app root. -/
structure Visible (before : List Lexeme) (q : Char) (inner : Text) (after : List Lexeme) : Prop where
  taken : before.foldl passesAfter false = false
  closed : hasOpenGroup inner = false
  shown : ¬ Hidden q (before.flatMap Lexeme.text).reverse (after.flatMap Lexeme.text)

section

variable {w : Windows} {s : Text} {before after : List Lexeme}

/-- The text around a literal among the lexemes of a buffer. -/
theorem split_at_literal {q : Char} {inner : Text}
    (split : lex s = before ++ .literal q inner :: after) :
    let n := (before.flatMap Lexeme.text).length
    n ≤ s.length ∧ (Place.of s n).back = (before.flatMap Lexeme.text).reverse ∧
      slice s n (n + (q :: (inner ++ [q])).length) = q :: (inner ++ [q]) ∧
      s.drop (n + (q :: (inner ++ [q])).length) = after.flatMap Lexeme.text := by
  have whole := flatten_lex s
  rw [split, List.flatMap_append, List.flatMap_cons, Lexeme.text] at whole
  refine ⟨?_, ?_, ?_, ?_⟩
  · rw [← whole, List.length_append]
    exact Nat.le_add_right _ _
  · rw [Place.of, ← whole, List.take_left]
  · rw [slice, ← whole, ← List.append_assoc, ← List.length_append, List.take_left, List.drop_left]
  · rw [← whole, ← List.append_assoc, ← List.length_append, List.drop_left]

theorem mem_scan_of_visible {q : Char} {inner : Text}
    (split : lex s = before ++ .literal q inner :: after) (visible : Visible before q inner after)
    (title : isAppTitle s (before.flatMap Lexeme.text).length w.title = false) :
    ∃ x ∈ scan w s, x.quote = q ∧ x.inner = inner ∧
      x.offset = (before.flatMap Lexeme.text).length := by
  obtain ⟨inside, back, -, rest⟩ := split_at_literal split
  let n := (before.flatMap Lexeme.text).length
  refine ⟨literalAt w s n q inner, mem_scan_iff.2
    ⟨before, after, split, rfl, visible.taken, visible.closed, ?_, rfl⟩, rfl, rfl, rfl⟩
  dsimp only [literalAt, n]
  rw [← Bool.not_eq_true, isExcluded_iff, back, Place.window_of w.title inside]
  rintro (hidden | named)
  · exact visible.shown (rest ▸ hidden)
  · rw [isAppTitle, preceding, named] at title
    contradiction

theorem visible_of_mem_scan {x : Literal} (hx : x ∈ scan w s) :
    ∃ before after, lex s = before ++ .literal x.quote x.inner :: after ∧
      x.offset = (before.flatMap Lexeme.text).length ∧ Visible before x.quote x.inner after := by
  obtain ⟨before, after, split, offset, candidate⟩ := mem_scan_iff.1 hx
  refine ⟨before, after, split, offset, candidate.taken, candidate.closed, ?_⟩
  obtain ⟨-, back, -, rest⟩ := split_at_literal split
  have shown := candidate.shown
  rw [Literal.stop, Literal.text, offset, rest, ← Bool.not_eq_true, isExcluded_iff, back,
    not_or] at shown
  exact shown.1

end

end Localizer.Dart
