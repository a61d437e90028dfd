import Localizer.Proofs.Dart.AppRoot
import Localizer.Proofs.Dart.Exclusion
import Localizer.Proofs.Edit.Relexing
import Localizer.Proofs.Edit.Wiring

/-!
# Scanning a wired buffer

Wiring puts lexemes into a buffer: the import as a line of its own, the properties of the app root
behind the bracket of its call. Lexemes are `Discreet` at a place if they hide their own literals, and
if what is hidden before and behind them stays so; then the buffer shows nothing new
(`nothingNew_of_discreet`). A directive is discreet because the tests look back no further than the
start of a line (`discreet_line`, `discreet_last`), and the properties are because they start behind
a bracket that no test looks past, and end in a comma, behind which a word may begin
(`discreet_call`).

`Wirable` says what this takes of a buffer: what is put in is put between characters of code.
-/

namespace Localizer.Dart

open Text

/-! ## Putting lexemes in -/

/-- Whatever is visible in the text `t` is visible in the text `s`. -/
structure NothingNew (s t : Text) : Prop where
  standing : Standing (lex t)
  visible : ∀ {before after : List Lexeme} {q : Char} {inner : Text},
    lex t = before ++ .literal q inner :: after → Visible before q inner after →
      ∃ before' after', lex s = before' ++ .literal q inner :: after' ∧
        Visible before' q inner after'

theorem NothingNew.refl {s : Text} (standing : Standing (lex s)) : NothingNew s s :=
  ⟨standing, fun split visible => ⟨_, _, split, visible⟩⟩

theorem NothingNew.trans {s t u : Text} (hst : NothingNew s t) (htu : NothingNew t u) :
    NothingNew s u := by
  refine ⟨htu.standing, ?_⟩
  intro before after q inner split visible
  obtain ⟨before', after', split', visible'⟩ := htu.visible split visible
  exact hst.visible split' visible'

/-- Lexemes `ts` that can be put between `as` and `bs` without making a literal visible. -/
structure Discreet (as ts bs : List Lexeme) : Prop where
  passing : bs ≠ [] → (as ++ ts).foldl passesAfter false = as.foldl passesAfter false
  inside : ∀ {front back : List Lexeme} {q : Char} {inner : Text},
    ts = front ++ .literal q inner :: back → ∀ rest,
      Hidden q ((as ++ front).flatMap Lexeme.text).reverse rest
  ahead : ∀ {front cs : List Lexeme} {q : Char} {inner : Text},
    as = front ++ .literal q inner :: cs → ∀ back,
      Hidden q back ((cs ++ bs).flatMap Lexeme.text) →
        Hidden q back ((cs ++ (ts ++ bs)).flatMap Lexeme.text)
  behind : bs ≠ [] → ∀ {q : Char}, IsQuote q → ∀ u rest,
    Hidden q (u ++ (as.flatMap Lexeme.text).reverse) rest →
      Hidden q (u ++ ((as ++ ts).flatMap Lexeme.text).reverse) rest

theorem nothingNew_of_discreet {s : Text} {as ts bs : List Lexeme} (split : lex s = as ++ bs)
    (standing : Standing (as ++ (ts ++ bs))) (h : Discreet as ts bs) :
    NothingNew s ((as ++ (ts ++ bs)).flatMap Lexeme.text) := by
  have read := lex_of_standing standing
  refine ⟨by rwa [read], ?_⟩
  intro before after q inner eq visible
  rw [read] at eq
  rcases split_append eq with ⟨cs, rfl, rfl⟩ | ⟨cs, rfl, rest⟩
  · refine ⟨before, cs ++ bs, by simp [split], visible.taken, visible.closed, ?_⟩
    exact fun hidden => visible.shown (h.ahead rfl _ hidden)
  · rcases split_append rest with ⟨ds, rfl, rfl⟩ | ⟨ds, rfl, rfl⟩
    · exact absurd (h.inside rfl _) visible.shown
    · have filled : ds ++ .literal q inner :: after ≠ [] := by simp
      obtain ⟨next, stands⟩ : ∃ next, Stands (.literal q inner) next :=
        stands_of_mem standing (by simp)
      have taken := visible.taken
      rw [← List.append_assoc, List.foldl_append, h.passing filled, ← List.foldl_append] at taken
      refine ⟨as ++ ds, after, by simp [split], taken, visible.closed, ?_⟩
      intro hidden
      rw [List.flatMap_append, List.reverse_append] at hidden
      have still := h.behind filled stands.single.1 _ _ hidden
      rw [← List.reverse_append, ← List.flatMap_append, List.append_assoc] at still
      exact visible.shown still

/-- A literal in front of code that goes on with no comparison stays hidden, whatever is put in behind
that code. -/
theorem hidden_ahead {as front cs bs : List Lexeme} {c q : Char} {inner back : Text}
    (split : as ++ [.code c] = front ++ .literal q inner :: cs)
    (apart : NoComparison (c :: bs.flatMap Lexeme.text)) (ts : List Lexeme)
    (hidden : Hidden q back ((cs ++ bs).flatMap Lexeme.text)) :
    Hidden q back ((cs ++ (ts ++ bs)).flatMap Lexeme.text) := by
  rcases split_append split with ⟨ds, rfl, rfl⟩ | ⟨ds, -, split⟩
  · have parts (xs : List Lexeme) : ((ds ++ [Lexeme.code c]) ++ xs).flatMap Lexeme.text =
        ds.flatMap Lexeme.text ++ c :: xs.flatMap Lexeme.text := by
      simp [Lexeme.text]
    rw [parts] at hidden ⊢
    refine hidden.imp id id ?_ ?_ id fun _ _ => id
    · rw [List.head?_append, List.head?_append]
      exact id
    · exact fun follows => comparisonFollows_append apart follows _
  · have mem : Lexeme.literal q inner ∈ [Lexeme.code c] := by
      simp [split]
    simp at mem

/-! ## Lines of their own -/

theorem passesAfter_newline (xs : List Lexeme) :
    (xs ++ [Lexeme.code '\n']).foldl passesAfter false = false := by
  rw [List.foldl_append]
  simp [passesAfter, Lexeme.opens, Lexeme.text]

/-- A directive, as it is put in on a line of its own. -/
structure IsDirective (statement : Text) : Prop where
  line : '\n' ∉ statement
  starts : startsDirective statement = true
  standing : Standing (lex statement)

/-- The literals of a directive are hidden. -/
theorem IsDirective.hidden {statement : Text} (h : IsDirective statement) {front back : List Lexeme}
    {q : Char} {inner : Text} (split : lex statement = front ++ .literal q inner :: back) {z : Text}
    (start : AtLine z) (rest : Text) : Hidden q ((front.flatMap Lexeme.text).reverse ++ z) rest := by
  have whole := flatten_lex statement
  rw [split, List.flatMap_append, List.flatMap_cons, Lexeme.text] at whole
  have quote : IsQuote q := by
    have standing := h.standing
    rw [split] at standing
    exact (standing_of_append standing).1.single.1
  have line : '\n' ∉ (front.flatMap Lexeme.text).reverse := by
    have single := h.line
    rw [← whole, List.mem_append, not_or] at single
    simpa using single.1
  have starts := h.starts
  rw [← whole] at starts
  refine .inl ?_
  rw [lineBack_append start line, List.reverse_reverse]
  exact startsDirective_of_append (.inl quote) (by simpa using starts)

/-- A directive can be put in at the start of a line, with newlines behind it, if no comparison goes on
there. -/
theorem discreet_line {statement : Text} (h : IsDirective statement) {as ns bs : List Lexeme}
    (start : as = [] ∨ (∃ front, as = front ++ [.code '\n']) ∧ NoComparison (bs.flatMap Lexeme.text))
    (newlines : ∀ x ∈ ns, x = .code '\n') :
    Discreet as (lex statement ++ (ns ++ [.code '\n'])) bs := by
  have fresh : as.foldl passesAfter false = false := by
    rcases start with rfl | ⟨⟨front, rfl⟩, -⟩
    · rfl
    · exact passesAfter_newline front
  have atLine : AtLine (as.flatMap Lexeme.text).reverse := by
    rcases start with rfl | ⟨⟨front, rfl⟩, -⟩
    · simp [AtLine]
    · simp [AtLine, Lexeme.text]
  refine ⟨?_, ?_, ?_, ?_⟩
  · intro _
    rw [← List.append_assoc, ← List.append_assoc, passesAfter_newline, fresh]
  · intro front back q inner split rest
    rcases split_append split with ⟨cs, split, -⟩ | ⟨cs, -, split⟩
    · rw [List.flatMap_append, List.reverse_append]
      exact h.hidden split atLine rest
    · have mem : Lexeme.literal q inner ∈ ns ++ [.code '\n'] := by
        simp [split]
      rcases List.mem_append.1 mem with mem | mem
      · exact absurd (newlines _ mem) (by simp)
      · simp at mem
  · intro front cs q inner split back hidden
    rcases start with rfl | ⟨⟨as, rfl⟩, apart⟩
    · simp at split
    · have newline : NoComparison ('\n' :: bs.flatMap Lexeme.text) := by
        have blank : stripLeft ('\n' :: bs.flatMap Lexeme.text) = stripLeft (bs.flatMap Lexeme.text) :=
          List.dropWhile_cons_of_pos (by decide +kernel)
        rw [NoComparison, blank]
        exact apart
      exact hidden_ahead split newline _ hidden
  · intro _ q quote u rest hidden
    refine hidden.past_line quote atLine ?_ id id
    simp [AtLine, Lexeme.text]

/-- A directive can be put in on a new line at the end. -/
theorem discreet_last {statement : Text} (h : IsDirective statement) (as : List Lexeme) :
    Discreet as (.code '\n' :: lex statement) [] := by
  refine ⟨fun filled => absurd rfl filled, ?_, ?_, fun filled => absurd rfl filled⟩
  · intro front back q inner split rest
    cases front with
    | nil => simp at split
    | cons x front =>
      obtain ⟨rfl, rest'⟩ := List.cons.inj split
      have parts : ((as ++ .code '\n' :: front).flatMap Lexeme.text).reverse =
          (front.flatMap Lexeme.text).reverse ++ '\n' :: (as.flatMap Lexeme.text).reverse := by
        simp [Lexeme.text]
      rw [parts]
      exact h.hidden rest' (by simp [AtLine]) rest
  · intro front cs q inner split back hidden
    rw [List.append_nil] at hidden
    rw [List.append_nil, List.flatMap_append]
    refine hidden.imp id id ?_ ?_ id fun _ _ => id
    · intro head
      rw [List.head?_append, head]
      rfl
    · intro follows
      refine comparisonFollows_append (a := []) (by simp [NoComparison, stripLeft]) ?_ _
      rwa [List.append_nil]

/-! ## Behind the bracket of a call -/

theorem passesAfter_codes (v : Text) :
    (v.map Lexeme.code).foldl passesAfter false = false := by
  induction v with
  | nil => rfl
  | cons c v ih => simpa [passesAfter, Lexeme.opens] using ih

/-- Code that ends in a comma can be put behind the bracket of a call whose first argument may be shown,
unless the line starts a directive or is passed over. -/
theorem discreet_call {as bs : List Lexeme} (v : Text)
    (taken : as.foldl passesAfter false = false)
    (shown : ∀ word ∈ silentCalls, ¬ word.reverse <+: (as.flatMap Lexeme.text).reverse)
    (line : startsDirective (lineBack (as.flatMap Lexeme.text).reverse).reverse = false) :
    Discreet (as ++ [.code '(']) ((v ++ [',']).map .code) bs := by
  have bracket : (as ++ [Lexeme.code '(']).foldl passesAfter false = false := by
    rw [List.foldl_append, taken]
    rfl
  have mirrored : ((as ++ [Lexeme.code '(']).flatMap Lexeme.text).reverse =
      '(' :: (as.flatMap Lexeme.text).reverse := by
    simp [Lexeme.text]
  refine ⟨?_, ?_, ?_, ?_⟩
  · intro _
    rw [List.foldl_append, bracket, passesAfter_codes]
  · intro front back q inner split
    have mem : Lexeme.literal q inner ∈ (v ++ [',']).map Lexeme.code := by
      simp [split]
    simp at mem
  · intro front cs q inner split back hidden
    have apart : NoComparison ('(' :: bs.flatMap Lexeme.text) := by
      rw [NoComparison, stripLeft_of_head (by decide +kernel)]
      simp
    exact hidden_ahead split apart _ hidden
  · intro _ q quote u rest hidden
    have wall : Wall ('(' :: (as.flatMap Lexeme.text).reverse) := .bracket shown
    rw [mirrored] at hidden
    rw [List.flatMap_append, List.reverse_append, mirrored, flatMap_text_map_code,
      List.reverse_append]
    have comma : isWord ',' = false := by
      decide +kernel
    refine hidden.past_wall wall (.inr (by simp [atBoundary, comma])) ?_ ?_ id id
    · intro directive
      have newline := newline_of_startsDirective (.inr rfl) line directive
      rw [lineBack_of_newline newline] at directive
      rw [List.append_assoc, lineBack_of_newline newline]
      exact directive
    · intro head
      cases u with
      | nil =>
        obtain rfl : '(' = q := by simpa using head
        exact absurd quote (by decide)
      | cons => exact head

/-! ## Directives in place -/

theorem Stands.newline {x : Lexeme} (h : Stands x none) : Stands x (some '\n') := by
  cases h with
  | code quote _ => exact .code quote fun _ => by simp
  | line line _ => exact .line line (.inr rfl)
  | remark closed => exact .remark closed
  | block quote closed => exact .block quote closed
  | literal quote body _ =>
    refine .literal quote body fun _ => ?_
    rcases quote with rfl | rfl <;> decide

/-- Lexemes that stand at the end of a buffer stand before a newline. -/
theorem standing_newline {xs ys : List Lexeme} (hx : Standing xs) (hy : Standing ys) :
    Standing (xs ++ .code '\n' :: ys) := by
  induction xs with
  | nil => exact ⟨.code (by decide) (by simp), hy⟩
  | cons x xs ih =>
    obtain ⟨stands, rest⟩ := hx
    refine ⟨?_, ih rest⟩
    cases h : (xs.flatMap Lexeme.text) with
    | nil =>
      rw [h] at stands
      simpa [h, Lexeme.text] using stands.newline
    | cons c r =>
      rw [h] at stands
      simpa [h] using stands

variable {statement s : Text} (h : IsDirective statement) (standing : Standing (lex s))
include h standing

theorem nothingNew_top : NothingNew s (statement ++ '\n' :: '\n' :: s) := by
  have stands : Standing ([] ++ ((lex statement ++ ([.code '\n'] ++ [.code '\n'])) ++ lex s)) := by
    have behind : Standing ([] ++ .code '\n' :: lex s) := standing_newline trivial standing
    simpa using standing_newline h.standing behind
  have quiet : Discreet [] (lex statement ++ ([.code '\n'] ++ [.code '\n'])) (lex s) :=
    discreet_line h (.inl rfl) (by simp)
  have new := nothingNew_of_discreet (s := s) (List.nil_append _).symm stands quiet
  simpa [flatten_lex, Lexeme.text] using new

theorem nothingNew_last : NothingNew s (s ++ '\n' :: statement) := by
  have stands : Standing (lex s ++ ((.code '\n' :: lex statement) ++ [])) := by
    simpa using standing_newline standing h.standing
  have new := nothingNew_of_discreet (s := s) (List.append_nil _).symm stands
    (discreet_last h (lex s))
  simpa [flatten_lex, Lexeme.text] using new

theorem nothingNew_between {as bs : List Lexeme} (split : lex s = as ++ .code '\n' :: bs)
    (apart : NoComparison (bs.flatMap Lexeme.text)) :
    NothingNew s (as.flatMap Lexeme.text ++
      '\n' :: (statement ++ '\n' :: bs.flatMap Lexeme.text)) := by
  have split' : lex s = (as ++ [.code '\n']) ++ bs := by
    simp [split]
  have quiet : Discreet (as ++ [.code '\n']) (lex statement ++ ([] ++ [.code '\n'])) bs :=
    discreet_line h (.inr ⟨⟨as, rfl⟩, apart⟩) (by simp)
  have rest : Standing bs := by
    rw [split'] at standing
    exact standing_of_append standing
  have stands : Standing (as ++ (.code '\n' :: (lex statement ++ .code '\n' :: bs))) := by
    rw [split] at standing
    have line : Standing ([] ++ .code '\n' :: (lex statement ++ .code '\n' :: bs)) :=
      standing_newline trivial (standing_newline h.standing rest)
    exact standing.replace_end line (.inl rfl)
  have new := nothingNew_of_discreet split' (by simpa using stands) quiet
  simpa [flatten_lex, Lexeme.text] using new

end Localizer.Dart

namespace Localizer.Edit

open Text Dart
open Message (newline ofText)

/-! ## The import -/

/-- The offset of the newline behind the last import directive of a buffer, if a line follows it. -/
def importPlace? (s : Text) : Option Nat :=
  let ls := (ofText s).lines
  let n := importEnd false 0 0 (ls.map Message.view)
  if n = 0 ∨ ls.drop n = [] then none else some (Message.unlines (ls.take n)).length

/-- Where the import is put in. -/
theorem ensureImport_ofText (statement s : Text) :
    let t := ensureImport (ofText statement) (ofText s)
    t = ofText s ∨ t = ofText (statement ++ '\n' :: '\n' :: s) ∨ t = ofText (s ++ '\n' :: statement) ∨
      ∃ a b, s = a ++ '\n' :: b ∧ importPlace? s = some a.length ∧
        t = ofText (a ++ '\n' :: (statement ++ '\n' :: b)) := by
  have joined (a b : Text) : ofText (a ++ '\n' :: b) = ofText a ++ newline :: ofText b := by
    simp [ofText, newline]
  intro t
  unfold t ensureImport
  split
  next => exact .inl rfl
  next =>
    right
    dsimp only
    split
    next =>
      left
      rw [unlines_cons _ (by simp), unlines_cons [] (lines_ne_nil _), unlines_lines]
      simp [ofText, newline]
    next n zero =>
      right
      have pos : importEnd false 0 0 ((ofText s).lines.map Message.view) ≠ 0 := fun h => zero h
      generalize hn : importEnd false 0 0 ((ofText s).lines.map Message.view) = n at pos
      by_cases back : (ofText s).lines.drop n = []
      · left
        have front : (ofText s).lines.take n = (ofText s).lines := by
          simpa [back] using List.take_append_drop n (ofText s).lines
        rw [back, front, unlines_append (lines_ne_nil _) (by simp), unlines_lines,
          unlines_singleton, joined]
      · right
        have front : (ofText s).lines.take n ≠ [] := by
          intro h
          rcases List.take_eq_nil_iff.1 h with h | h
          · exact pos h
          · exact lines_ne_nil _ h
        have halves : ofText s = Message.unlines ((ofText s).lines.take n) ++
            newline :: Message.unlines ((ofText s).lines.drop n) := by
          rw [← unlines_append front back, List.take_append_drop, unlines_lines]
        obtain ⟨a, b', rfl, ha, hb'⟩ := List.map_eq_append_iff.1 halves
        obtain ⟨c, b, rfl, hc, hb⟩ := List.map_eq_cons_iff.1 hb'
        obtain rfl := CodePoint.ofChar_injective hc
        refine ⟨a, b, rfl, ?_, ?_⟩
        · have length := congrArg List.length ha
          rw [List.length_map] at length
          simp [importPlace?, hn, pos, back, length]
        · rw [unlines_append front (by simp), unlines_cons _ back, ← ha, ← hb, joined, joined]
          rfl

/-- A buffer takes an import: it is a directive, and where it is put in between two lines, the newline
between them is code, and no comparison goes on behind it. -/
structure TakesImport (statement s : Text) : Prop where
  directive : IsDirective statement
  place : ∀ n, importPlace? s = some n →
    (n, .code '\n') ∈ located 0 (lex s) ∧ NoComparison (s.drop (n + 1))

/-- **The import makes nothing visible.** -/
theorem nothingNew_ensureImport {statement s : Text} (standing : Standing (lex s))
    (h : TakesImport statement s) :
    ∃ t, ensureImport (ofText statement) (ofText s) = ofText t ∧ NothingNew s t := by
  rcases ensureImport_ofText statement s with same | top | last | ⟨a, b, rfl, place, between⟩
  · exact ⟨s, same, .refl standing⟩
  · exact ⟨_, top, nothingNew_top h.directive standing⟩
  · exact ⟨_, last, nothingNew_last h.directive standing⟩
  · obtain ⟨located, apart⟩ := h.place _ place
    obtain ⟨as, bs, split, offset⟩ := mem_located_iff.1 located
    have whole := flatten_lex (a ++ '\n' :: b)
    rw [split, List.flatMap_append, List.flatMap_cons, Lexeme.text, List.singleton_append] at whole
    obtain ⟨ha, hb⟩ := List.append_inj whole (by omega)
    obtain rfl := (List.cons.inj hb).2
    have behind : (a ++ '\n' :: bs.flatMap Lexeme.text).drop (a.length + 1) =
        bs.flatMap Lexeme.text := by
      rw [← List.drop_drop, List.drop_left]
      rfl
    rw [behind] at apart
    refine ⟨_, between, ?_⟩
    rw [← ha] at standing split ⊢
    exact nothingNew_between h.directive standing split apart

/-! ## The properties of the app root -/

/-- No silent call ends like an app root call. -/
theorem not_silent {tail : Text} (h : tail ∈ ["re".toList, "pp".toList]) :
    ∀ word ∈ silentCalls, ∀ z, ¬ word.reverse <+: tail ++ z := by
  have differs : ∀ tail ∈ ["re".toList, "pp".toList], ∀ word ∈ silentCalls,
      tail.length ≤ word.reverse.length ∧ ¬ tail <+: word.reverse := by
    decide
  intro word mem z front
  obtain ⟨shorter, apart⟩ := differs tail h word mem
  exact apart (List.prefix_of_prefix_length_le (List.prefix_append tail z) front shorter)

/-- The head of an app root call is a name that is none of a silent call, and a bracket. -/
theorem exists_name_of_appRootHead {head : Text} (h : AppRootHead head) :
    ∃ name, head = name ++ ['('] ∧
      ∀ word ∈ silentCalls, ∀ z, ¬ word.reverse <+: name.reverse ++ z := by
  obtain ⟨known, form, blank⟩ := h
  rename_i name variant gap
  have classes : ∀ name ∈ appRootClasses, "pp".toList <+: name.reverse := by
    decide
  obtain ⟨tail, short, y, hy⟩ : ∃ tail ∈ ["re".toList, "pp".toList],
      tail <+: (name ++ variant).reverse := by
    rcases form with rfl | rfl
    · refine ⟨"pp".toList, by simp, ?_⟩
      rw [List.append_nil]
      exact classes name known
    · refine ⟨"re".toList, by simp, ?_⟩
      rw [List.reverse_append]
      exact (by decide : "re".toList <+: ".router".toList.reverse).trans (List.prefix_append _ _)
  refine ⟨name ++ variant ++ gap, rfl, ?_⟩
  intro word silent z front
  cases hgap : gap.reverse with
  | nil =>
    rw [List.reverse_append, hgap, List.nil_append, ← hy, List.append_assoc] at front
    exact not_silent short word silent _ front
  | cons c w =>
    -- no word ends in a blank
    have inside : isBlank c = true := blank c (List.mem_reverse.1 (by simp [hgap]))
    have solid : ∀ word ∈ silentCalls, word.reverse.head?.any isBlank = false ∧
        word.reverse ≠ [] := by
      decide +kernel
    obtain ⟨plain, filled⟩ := solid word silent
    obtain ⟨d, v, hv⟩ := List.exists_cons_of_ne_nil filled
    rw [List.reverse_append, hgap, hv, List.cons_append, List.cons_append,
      List.cons_prefix_cons] at front
    rw [hv, List.head?_cons, Option.any_some, front.1, inside] at plain
    contradiction

/-- A buffer takes the properties of its app root: the bracket of the first app root call is code, on a
line that starts no directive and is not passed over. -/
def TakesDelegates (s : Text) : Prop :=
  ∀ before head rest, appRoot? s = some (before, head, rest) →
    ∃ as bs, lex s = as ++ .code '(' :: bs ∧ as.flatMap Lexeme.text ++ ['('] = before ++ head ∧
      as.foldl passesAfter false = false ∧
      startsDirective (lineBack (as.flatMap Lexeme.text).reverse).reverse = false

theorem delegates_ofText {name indent : Text} (hname : ∀ c ∈ name, ¬ IsQuote c ∧ c ≠ '/')
    (hindent : ∀ c ∈ indent, ¬ IsQuote c ∧ c ≠ '/') :
    ∃ v, delegates (ofText name) indent = ofText (v ++ [',']) ∧
      ∀ c ∈ v ++ [','], ¬ IsQuote c ∧ c ≠ '/' := by
  let locales := indent ++ ("supportedLocales: ".toList ++ (name ++ ".supportedLocales".toList))
  let v := '\n' :: (indent ++ ("localizationsDelegates: ".toList ++
    (name ++ (".localizationsDelegates,".toList ++ '\n' :: locales))))
  have marks : ∀ v ∈ ["localizationsDelegates: ".toList, ".localizationsDelegates,".toList,
      "supportedLocales: ".toList, ".supportedLocales".toList],
      ∀ c ∈ v, ¬ IsQuote c ∧ c ≠ '/' := by
    decide
  simp only [List.forall_mem_cons] at marks
  obtain ⟨key, value, key', value', -⟩ := marks
  have front : ∀ c ∈ locales, ¬ IsQuote c ∧ c ≠ '/' :=
    List.forall_mem_append.2 ⟨hindent, List.forall_mem_append.2 ⟨key',
      List.forall_mem_append.2 ⟨hname, value'⟩⟩⟩
  have codes : ∀ c ∈ v, ¬ IsQuote c ∧ c ≠ '/' :=
    List.forall_mem_cons.2 ⟨by decide, List.forall_mem_append.2 ⟨hindent,
      List.forall_mem_append.2 ⟨key, List.forall_mem_append.2 ⟨hname,
        List.forall_mem_append.2 ⟨value, List.forall_mem_cons.2 ⟨by decide, front⟩⟩⟩⟩⟩⟩
  refine ⟨v, ?_, List.forall_mem_append.2 ⟨codes, by decide⟩⟩
  simp [delegates, ofText, v, locales]

/-- The indentation of the properties is blank. -/
theorem plain_of_mem_indent (line : Text) :
    ∀ c ∈ indentation line ++ [' ', ' '], ¬ IsQuote c ∧ c ≠ '/' := by
  intro c hc
  rcases List.mem_append.1 hc with hc | hc
  · have blank : isBlank c = true := List.mem_takeWhile_imp hc
    refine ⟨fun quote => ?_, ?_⟩
    · rw [isBlank_quote quote] at blank
      contradiction
    · rintro rfl
      exact absurd blank (by decide +kernel)
  · obtain rfl : c = ' ' := by simpa using hc
    decide

/-- **The properties of the app root make nothing visible.** -/
theorem nothingNew_ensureDelegates {name s : Text} (plain : ∀ c ∈ name, ¬ IsQuote c ∧ c ≠ '/')
    (standing : Standing (lex s)) (h : TakesDelegates s) :
    ∃ t, ensureDelegates (ofText name) (ofText s) = ofText t ∧ NothingNew s t := by
  unfold ensureDelegates
  split
  next => exact ⟨s, rfl, .refl standing⟩
  next =>
    rw [Message.view_ofText]
    split
    next => exact ⟨s, rfl, .refl standing⟩
    next before head rest root =>
      obtain ⟨as, bs, split, front, taken, line⟩ := h before head rest root
      obtain ⟨isHead, -, rfl⟩ := findAppRoot_eq_some root
      obtain ⟨name', rfl, shown⟩ := exists_name_of_appRootHead isHead
      rw [← List.append_assoc] at front
      obtain ⟨front, -⟩ := List.append_inj' front rfl
      obtain ⟨v, hv, codes⟩ := delegates_ofText plain
        (plain_of_mem_indent (before.reverse.takeWhile (· != '\n')).reverse)
      have quiet : Discreet (as ++ [.code '(']) ((v ++ [',']).map .code) bs := by
        refine discreet_call v taken ?_ line
        intro word silent
        rw [front, List.reverse_append]
        exact shown word silent _
      have split' : lex (before ++ (name' ++ ['('] ++ rest)) = (as ++ [.code '(']) ++ bs := by
        rw [split, List.append_assoc]
        rfl
      have stands : Standing (as ++ (.code '(' :: ((v ++ [',']).map .code ++ bs))) := by
        rw [split] at standing
        have behind := (standing_of_append standing).2
        refine standing.replace_end ⟨.code (by decide) (by simp), ?_⟩ (.inl rfl)
        exact standing_codes codes behind
      have new := nothingNew_of_discreet split' (by simpa using stands) quiet
      have behind : bs.flatMap Lexeme.text = rest := by
        have whole := flatten_lex (before ++ (name' ++ ['('] ++ rest))
        rw [split, List.flatMap_append, List.flatMap_cons, front] at whole
        simpa [Lexeme.text] using whole
      have halves : ofText (before ++ (name' ++ ['('] ++ rest)) =
          ofText (before ++ (name' ++ ['('])) ++ ofText rest := by
        simp [ofText]
      have place : before.length + (name' ++ ['(']).length =
          (ofText (before ++ (name' ++ ['(']))).length := by
        simp [ofText]
      refine ⟨_, ?_, new⟩
      dsimp only
      rw [hv, halves, place, List.take_left, List.drop_left]
      simp [front, behind, ofText, Lexeme.text, List.flatMap_map]

/-! ## Wiring -/

/-- A buffer with the import in it, if it takes one. -/
def imported (l : Localizations) (s : Message) : Message :=
  if l.importStatement.any (!·.isEmpty) && !isPartFile s.view then
    ensureImport (l.importStatement.getD []) s
  else s

theorem content_wire (l : Localizations) (s : Message) (p : Progress) :
    (wire l s p).content = ensureDelegates l.className (imported l s) := rfl

/-- A buffer can be wired: what is put in meets code, and is read as code. -/
structure Wirable (l : Localizations) (s : Text) : Prop where
  statement : imported l (ofText s) ≠ ofText s →
    ∃ statement, l.importStatement = some (ofText statement) ∧ TakesImport statement s
  root : ∀ t, imported l (ofText s) = ofText t →
    ensureDelegates l.className (ofText t) ≠ ofText t → TakesDelegates t

/-- **Wiring makes nothing visible.** -/
theorem nothingNew_wire {l : Localizations} {name s : Text} (hl : l.className = ofText name)
    (plain : ∀ c ∈ name, ¬ IsQuote c ∧ c ≠ '/') (standing : Standing (lex s)) (h : Wirable l s)
    (p : Progress) : ∃ t, (wire l (ofText s) p).content = ofText t ∧ NothingNew s t := by
  obtain ⟨i, himport, first⟩ : ∃ i, imported l (ofText s) = ofText i ∧ NothingNew s i := by
    by_cases same : imported l (ofText s) = ofText s
    · exact ⟨s, same, .refl standing⟩
    · obtain ⟨statement, eq, takes⟩ := h.statement same
      obtain ⟨i, hi, new⟩ := nothingNew_ensureImport standing takes
      refine ⟨i, ?_, new⟩
      rw [imported] at same ⊢
      split at same
      next taken => rwa [if_pos taken, eq]
      next => exact absurd rfl same
  rw [content_wire, himport, hl]
  by_cases same : ensureDelegates (ofText name) (ofText i) = ofText i
  · exact ⟨i, same, first⟩
  · obtain ⟨t, ht, second⟩ :=
      nothingNew_ensureDelegates plain first.standing (h.root i himport (hl ▸ same))
    exact ⟨t, ht, first.trans second⟩

end Localizer.Edit
