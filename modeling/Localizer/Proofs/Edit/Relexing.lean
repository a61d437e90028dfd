import Localizer.Proofs.Dart.Segment
import Localizer.Proofs.Edit.Replace

/-!
# Calls in the place of literals are code

A call is made of `Calm` characters: none of them opens or closes a string or a comment, and none
ends a line. So it is read as code wherever it is put, and what stands before it goes on standing,
since all that a lexeme asks of the next character a calm one grants (`Yields`, `Stands.eq_code_or`).

`Relexed` follows the edits of a plan over the lexemes of a buffer, from the first to the last: each
takes a candidate away, and possibly the code of a constant `Text(` head in front of it. The edited
lexemes stand (`Relexed.standing`) and make up the edited buffer (`Relexed.substitute`); what this
buffer masks to is read off from them (`mask_edited`).
-/

namespace Localizer.Dart

open Text

/-- Whether a lexeme is a character of code. -/
def Lexeme.isCode : Lexeme → Bool
  | code _ => true
  | _ => false

/-! ## Calm characters -/

/-- Characters that open and close nothing, and end no line. -/
def Calm (c : Char) : Prop := ¬ IsQuote c ∧ c ≠ '/' ∧ c ≠ '*' ∧ c ≠ '\n'

instance : DecidablePred Calm := fun _ => inferInstanceAs (Decidable (_ ∧ _))

/-- An identifier. -/
def IsName : Text → Prop
  | [] => False
  | c :: r => isNameStart c = true ∧ ∀ d ∈ r, isNamePart d = true

instance : DecidablePred IsName
  | [] => .isFalse id
  | _ :: _ => inferInstanceAs (Decidable (_ ∧ _))

/-- The members of a class without the five other characters are calm. -/
theorem calm_of_class {p : Char → Bool} (class' : ∀ d ∈ ['"', '\'', '/', '*', '\n'], p d = false)
    {c : Char} (h : p c = true) : Calm c := by
  have other (d : Char) (hd : d ∈ ['"', '\'', '/', '*', '\n']) : c ≠ d := by
    rintro rfl
    rw [class' c hd] at h
    contradiction
  refine ⟨?_, other '/' (by simp), other '*' (by simp), other '\n' (by simp)⟩
  rintro (rfl | rfl)
  · exact other '"' (by simp) rfl
  · exact other '\'' (by simp) rfl

theorem calm_of_isName {s : Text} (h : IsName s) : ∀ c ∈ s, Calm c := by
  cases s with
  | nil => exact absurd h id
  | cons c r =>
    intro d hd
    rcases List.mem_cons.1 hd with rfl | hd
    · exact calm_of_class (by decide +kernel) h.1
    · exact calm_of_class (by decide +kernel) (h.2 d hd)

theorem calm_join {arguments : List Text} (h : ∀ a ∈ arguments, ∀ c ∈ a, Calm c) :
    ∀ c ∈ join ", ".toList arguments, Calm c := by
  induction arguments with
  | nil => simp [join]
  | cons a as ih =>
    have first := h a (by simp)
    cases as with
    | nil => simpa [join, List.intercalate_singleton] using first
    | cons b bs =>
      have rest := ih fun d hd => h d (by simp [hd])
      have separator : ∀ c ∈ ", ".toList, Calm c := by
        decide
      rw [join, List.intercalate_cons_of_ne_nil (by simp)]
      intro c hc
      simp only [List.mem_append] at hc
      rcases hc with (hc | hc) | hc
      · exact first c hc
      · exact separator c hc
      · exact rest c hc

/-! ## Replacing the end of a sequence of lexemes -/

/-- What a buffer starts with after an edit, and what it started with: the same, or a calm character
where there was one that ends no line. -/
def Yields (old new : Option Char) : Prop :=
  new = old ∨ ∃ c d, old = some c ∧ c ≠ '\n' ∧ new = some d ∧ Calm d

theorem Yields.append {a b : Text} (h : Yields a.head? b.head?) (t : Text) :
    Yields (t ++ a).head? (t ++ b).head? := by
  cases t with
  | nil => exact h
  | cons c t => exact .inl rfl

theorem Yields.stands {x : Lexeme} {old new : Option Char} (h : Yields old new)
    (stands : Stands x old) : Stands x new := by
  rcases h with rfl | ⟨c, d, rfl, line, rfl, quote, slash, star, -⟩
  · exact stands
  · cases stands with
    | code unquoted _ => exact .code unquoted fun _ => by simp [slash, star]
    | line _ stop => simp [line] at stop
    | remark closed => exact .remark closed
    | block isQuote closed => exact .block isQuote closed
    | literal isQuote body _ =>
      refine .literal isQuote body fun _ h => quote ?_
      obtain rfl := Option.some.inj h
      exact isQuote

theorem Standing.replace_end {as xs ys : List Lexeme} (h : Standing (as ++ xs)) (hy : Standing ys)
    (yields : Yields (xs.flatMap Lexeme.text).head? (ys.flatMap Lexeme.text).head?) :
    Standing (as ++ ys) := by
  induction as with
  | nil => exact hy
  | cons x as ih =>
    obtain ⟨stands, rest⟩ : Stands x ((as ++ xs).flatMap Lexeme.text).head? ∧ Standing (as ++ xs) :=
      h
    have first := yields.append (as.flatMap Lexeme.text)
    rw [← List.flatMap_append, ← List.flatMap_append] at first
    exact ⟨first.stands stands, ih rest⟩

theorem standing_codes {v : Text} {ys : List Lexeme} (codes : ∀ c ∈ v, ¬ IsQuote c ∧ c ≠ '/')
    (h : Standing ys) : Standing (v.map .code ++ ys) := by
  induction v with
  | nil => exact h
  | cons c v ih =>
    obtain ⟨quote, slash⟩ := codes c (by simp)
    exact ⟨.code quote fun h => absurd h slash, ih fun d hd => codes d (by simp [hd])⟩

/-- Every lexeme but one of code ends in a quote, in a slash or with its line. -/
theorem Stands.eq_code_or {x : Lexeme} {next : Option Char} (h : Stands x next) {d : Char}
    (last : x.text.getLast? = some d) :
    x = .code d ∨ IsQuote d ∨ d = '/' ∨ next = none ∨ next = some '\n' := by
  cases h with
  | code => exact .inl (by simpa [Lexeme.text] using last)
  | line _ stop => exact .inr (.inr (.inr stop))
  | remark =>
    obtain rfl : '/' = d := by simpa [Lexeme.text, List.getLast?_cons] using last
    exact .inr (.inr (.inl rfl))
  | @block q _ _ quote =>
    obtain rfl : q = d := by simpa [Lexeme.text, List.getLast?_cons] using last
    exact .inr (.inl quote)
  | @literal q _ _ quote =>
    obtain rfl : q = d := by simpa [Lexeme.text, List.getLast?_cons] using last
    exact .inr (.inl quote)

/-- Calm text directly before a lexeme that does not start with a newline is code. -/
theorem exists_map_code {as xs : List Lexeme} {u v : Text} (h : Standing (as ++ xs)) {c : Char}
    (next : (xs.flatMap Lexeme.text).head? = some c) (line : c ≠ '\n')
    (text : as.flatMap Lexeme.text = u ++ v) (calm : ∀ c ∈ v, Calm c) :
    ∃ bs, as = bs ++ v.map .code ∧ bs.flatMap Lexeme.text = u := by
  induction v using List.reverseRecOn generalizing as xs c with
  | nil => exact ⟨as, by simp, by simpa using text⟩
  | append_singleton v d ih =>
    obtain ⟨quote, slash, -, newline⟩ := calm d (by simp)
    obtain rfl | ⟨bs, x, rfl⟩ := List.eq_nil_or_concat' as
    · simp at text
    · rw [List.append_assoc, List.singleton_append] at h
      rw [List.flatMap_append, List.flatMap_singleton, ← List.append_assoc] at text
      have stands := (standing_of_append h).1
      rw [next] at stands
      have last : x.text.getLast? = some d := by
        have ends := congrArg List.getLast? text
        rwa [List.getLast?_append_of_ne_nil _ stands.text_ne_nil, List.getLast?_concat] at ends
      obtain rfl : x = .code d := by
        simpa [quote, slash, line] using stands.eq_code_or last
      obtain ⟨rest, -⟩ := List.append_inj' text rfl
      obtain ⟨cs, rfl, hu⟩ := ih h rfl newline rest fun e he => calm e (by simp [he])
      exact ⟨cs, by simp, hu⟩

end Localizer.Dart

namespace Localizer.Edit

open Text Dart
open Message (ofText)

/-! ## Calls are calm -/

/-- What stands between the arguments of a call and around them is calm, so a call of calm names is. -/
theorem accessor_calm {l : Localizations} {name key : Text} {arguments : List Text}
    (hl : l.className = ofText name) (hname : ∀ c ∈ name, Calm c) (hkey : ∀ c ∈ key, Calm c)
    (harguments : ∀ a ∈ arguments, ∀ c ∈ a, Calm c) :
    ∃ t, l.accessor key arguments = ofText t ∧ t ≠ [] ∧ ∀ c ∈ t, Calm c := by
  have around : ∀ c ∈ ".of(context).".toList, Calm c := by
    decide
  have listed := calm_join harguments
  let call := name ++ ".of(context).".toList ++ key
  have calm : ∀ c ∈ call, Calm c := by
    intro c hc
    simp only [call, List.mem_append] at hc
    rcases hc with (hc | hc) | hc
    · exact hname c hc
    · exact around c hc
    · exact hkey c hc
  by_cases none : arguments = []
  · refine ⟨call, ?_, by simp [call], calm⟩
    simp [Localizations.accessor, none, hl, call, ofText]
  · refine ⟨call ++ '(' :: (join ", ".toList arguments ++ [')']), ?_, by simp [call], ?_⟩
    · simp [Localizations.accessor, none, hl, call, ofText]
    · intro c hc
      simp only [List.mem_append, List.mem_cons, List.not_mem_nil, or_false] at hc
      rcases hc with hc | rfl | hc | rfl
      · exact calm c hc
      · decide
      · exact listed c hc
      · decide

/-! ## Lexemes of the edited buffer -/

/-- What an edit takes away before a literal: nothing, or the head of a constant widget. -/
structure IsHead (v : Text) : Prop where
  calm : ∀ c ∈ v, Calm c
  first : ∀ c ∈ v.head?, c = 'c'

theorem length_text (x : Literal) : x.text.length = x.inner.length + 2 := by
  simp [Literal.text]

/-- How edits turn lexemes, the first of which starts at offset `n`, into those of the edited buffer:
each edit takes away one of the literals `ls`, possibly with a head before it, and puts calm code
there. -/
inductive Relexed (ls : List Literal) : Nat → List Lexeme → List Edit → List Lexeme → Prop
  | done (n : Nat) (xs : List Lexeme) : Relexed ls n xs [] xs
  | edit {n : Nat} {as bs ys : List Lexeme} {v t : Text} {x : Literal} {e : Edit} {es : List Edit}
    (taken : x ∈ ls) (start : e.start = n + (as.flatMap Lexeme.text).length)
    (offset : x.offset = e.start + v.length) (stop : e.stop = x.stop) (text : e.text = ofText t)
    (old : IsHead v) (filled : t ≠ []) (new : ∀ c ∈ t, Calm c) (rest : Relexed ls e.stop bs es ys) :
    Relexed ls n (as ++ (v.map .code ++ .literal x.quote x.inner :: bs)) (e :: es)
      (as ++ (t.map .code ++ ys))

namespace Relexed

variable {ls : List Literal} {n : Nat} {xs ys : List Lexeme} {edits : List Edit}

theorem le_start (h : Relexed ls n xs edits ys) : ∀ e ∈ edits, n ≤ e.start := by
  induction h with
  | done => simp
  | @edit n as bs ys v t x e es _ start offset stop _ _ _ _ _ ih =>
    intro d hd
    rcases List.mem_cons.1 hd with rfl | hd
    · omega
    · have later := ih d hd
      rw [stop, Literal.stop] at later
      omega

/-- The lexemes of the edited buffer stand. -/
theorem standing (h : Relexed ls n xs edits ys) (hx : Standing xs) : Standing ys ∧
    Yields (xs.flatMap Lexeme.text).head? (ys.flatMap Lexeme.text).head? := by
  induction h with
  | done => exact ⟨hx, .inl rfl⟩
  | @edit n as bs ys v t x e es _ _ _ _ _ old filled new rest ih =>
    have tail : Standing (v.map .code ++ .literal x.quote x.inner :: bs) := standing_of_append hx
    obtain ⟨literal, later⟩ : Stands (.literal x.quote x.inner) (bs.flatMap Lexeme.text).head? ∧
        Standing bs := standing_of_append tail
    have quote := literal.single.1
    have calls : Standing (t.map .code ++ ys) := standing_codes (fun c hc => ⟨(new c hc).1, (new c hc).2.1⟩) (ih later).1
    have first : Yields
        ((v.map Lexeme.code ++ Lexeme.literal x.quote x.inner :: bs).flatMap Lexeme.text).head?
        ((t.map Lexeme.code ++ ys).flatMap Lexeme.text).head? := by
      obtain ⟨d, r, rfl⟩ := List.exists_cons_of_ne_nil filled
      have calm := new d (by simp)
      cases v with
      | nil =>
        refine .inr ⟨x.quote, d, rfl, ?_, rfl, calm⟩
        rcases quote with h | h <;> simp [h]
      | cons c v => exact .inr ⟨c, d, rfl, (old.calm c (by simp)).2.2.2, rfl, calm⟩
    refine ⟨hx.replace_end calls first, ?_⟩
    simpa only [List.flatMap_append] using first.append (as.flatMap Lexeme.text)

/-- The edited buffer is the text of the new lexemes, and the same holds for any other way to write
lexemes that keeps their lengths and writes code as it is. -/
theorem substitute (h : Relexed ls n xs edits ys) {f : Lexeme → Text} (code : ∀ c, f (.code c) = [c])
    (size : ∀ x, (f x).length = x.text.length) {front : Text} (hn : front.length = n) :
    Edit.substitute (ofText (front ++ xs.flatMap f)) n edits = ofText (ys.flatMap f) := by
  have codes (v : Text) : (v.map Lexeme.code).flatMap f = v := by
    simp [List.flatMap_map, code]
  induction h generalizing front with
  | done n xs =>
    rw [Edit.substitute, ofText, ← List.map_drop, List.drop_left' hn]
    rfl
  | @edit n as bs ys v t x e es _ start offset stop text old filled new rest ih =>
    let front' := front ++ as.flatMap f ++ v ++ f (.literal x.quote x.inner)
    have length : (as.flatMap f).length = (as.flatMap Lexeme.text).length := by
      simp [List.length_flatMap, size]
    have hstart : (front ++ as.flatMap f).length = e.start := by
      rw [List.length_append, hn, length, start]
    have hstop : front'.length = e.stop := by
      rw [stop, Literal.stop, offset, ← hstart]
      simp only [front', List.length_append, size]
      rfl
    have whole : front ++
        (as ++ (v.map Lexeme.code ++ Lexeme.literal x.quote x.inner :: bs)).flatMap f =
          front' ++ bs.flatMap f := by
      simp [front', codes]
    have cut : slice (ofText (front' ++ bs.flatMap f)) n e.start = ofText (as.flatMap f) := by
      have parts : front' ++ bs.flatMap f =
          front ++ as.flatMap f ++ (v ++ f (.literal x.quote x.inner) ++ bs.flatMap f) := by
        simp [front']
      rw [slice, parts, ofText, ← List.map_take, ← List.map_drop, List.take_left' hstart,
        List.drop_left' hn]
      rfl
    rw [Edit.substitute, whole, ih hstop, cut, text]
    simp [codes, ofText]

end Relexed

/-! ## Comments and strings that no edit covers -/

/-- The comments and strings among lexemes with their offsets that no edit covers. -/
def untouched (edits : List Edit) (xs : List (Nat × Lexeme)) : List Lexeme :=
  (xs.filter fun x => !x.2.isCode && edits.all fun e => x.1 < e.start || e.stop ≤ x.1).map Prod.snd

theorem untouched_append (edits : List Edit) (xs ys : List (Nat × Lexeme)) :
    untouched edits (xs ++ ys) = untouched edits xs ++ untouched edits ys := by
  simp [untouched]

theorem untouched_nil (n : Nat) (xs : List Lexeme) :
    untouched [] (located n xs) = xs.filter (!·.isCode) := by
  induction xs generalizing n with
  | nil => rfl
  | cons x xs ih =>
    have rest := ih (n + x.text.length)
    simp only [untouched, List.all_nil, Bool.and_true] at rest ⊢
    cases code : x.isCode <;> simp [located, code, rest]

/-- Edits that cover none of the lexemes do not matter. -/
theorem untouched_congr {es ds : List Edit} {xs : List (Nat × Lexeme)}
    (h : ∀ x ∈ xs, (es.all fun e => x.1 < e.start || e.stop ≤ x.1) =
      ds.all fun e => x.1 < e.start || e.stop ≤ x.1) : untouched es xs = untouched ds xs := by
  rw [untouched, untouched]
  congr 1
  apply List.filter_congr
  intro x hx
  rw [h x hx]

theorem untouched_code (edits : List Edit) (n : Nat) (v : Text) :
    untouched edits (located n (v.map .code)) = [] := by
  induction v generalizing n with
  | nil => rfl
  | cons c v ih =>
    have rest := ih (n + 1)
    simpa [untouched, located, Lexeme.isCode, Lexeme.text] using rest

namespace Relexed

variable {ls : List Literal} {n : Nat} {xs ys : List Lexeme} {edits : List Edit}

/-- The comments and strings of the edited buffer are those that no edit covers. -/
theorem untouched (h : Relexed ls n xs edits ys) (hx : Standing xs) :
    ys.filter (!·.isCode) = Edit.untouched edits (located n xs) := by
  induction h with
  | done n xs => rw [untouched_nil]
  | @edit n as bs ys v t x e es _ start offset stop text old filled new rest ih =>
    have tail := standing_of_append (standing_of_append hx)
    have span : e.stop = e.start + v.length + (x.inner.length + 2) := by
      rw [stop, Literal.stop, offset, length_text]
    have place : n + (as.flatMap Lexeme.text).length +
        ((v.map Lexeme.code).flatMap Lexeme.text).length = e.start + v.length := by
      rw [flatMap_text_map_code, start]
    have behind : e.start + v.length + (Lexeme.literal x.quote x.inner).text.length = e.stop := by
      simp [Lexeme.text, span]
    have before : Edit.untouched (e :: es) (located n as) = as.filter (!·.isCode) := by
      rw [← untouched_nil n]
      apply untouched_congr
      rintro ⟨m, y⟩ hm
      obtain ⟨-, bound⟩ := le_of_mem_located hm
      obtain ⟨next, stands⟩ : ∃ next, Stands y next := by
        obtain ⟨front, back, rfl, -⟩ := mem_located_iff.1 hm
        exact stands_of_mem hx (by simp)
      have size := List.length_pos_iff.2 stands.text_ne_nil
      rw [List.all_nil, List.all_eq_true]
      intro d hd
      have later : e.start ≤ d.start := by
        rcases List.mem_cons.1 hd with rfl | hd
        · exact Nat.le_refl _
        · have := rest.le_start d hd
          omega
      simp only [Bool.or_eq_true, decide_eq_true_eq]
      omega
    have literal (xs : List (Nat × Lexeme)) :
        Edit.untouched (e :: es) ((e.start + v.length, Lexeme.literal x.quote x.inner) :: xs) =
          Edit.untouched (e :: es) xs := by
      simp [Edit.untouched, span]
    have after : Edit.untouched (e :: es) (located e.stop bs) =
        Edit.untouched es (located e.stop bs) := by
      apply untouched_congr
      rintro ⟨m, x⟩ hm
      have bound := (le_of_mem_located hm).1
      simp [bound]
    have codes : (t.map Lexeme.code).filter (!·.isCode) = [] := by
      simp [List.filter_map, Lexeme.isCode]
    rw [located_append, located_append, located, place, behind, untouched_append, before,
      untouched_append, untouched_code, literal, after, ← ih tail.2, List.filter_append,
      List.filter_append, codes]

end Relexed

/-! ## The edits of a plan -/

/-- Among lexemes of which the first starts at offset `n`, the span of an edit is one of the literals
`ls`, possibly with a head before it, and what comes there is calm. -/
structure Covers (ls : List Literal) (n : Nat) (xs : List Lexeme) (e : Edit) : Prop where
  span : ∃ x ∈ ls, ∃ (as : List Lexeme) (v : Text) (bs : List Lexeme),
    xs = as ++ (v.map .code ++ .literal x.quote x.inner :: bs) ∧ IsHead v ∧
      e.start = n + (as.flatMap Lexeme.text).length ∧ x.offset = e.start + v.length ∧
      e.stop = x.stop
  text : ∃ t, e.text = ofText t ∧ t ≠ [] ∧ ∀ c ∈ t, Calm c

/-- An edit that starts behind some lexemes has its span among the others. -/
theorem Covers.behind {ls : List Literal} {n : Nat} {cs ys : List Lexeme} {e : Edit}
    (h : Covers ls n (cs ++ ys) e) (filled : ∀ x ∈ cs, x.text ≠ [])
    (start : n + (cs.flatMap Lexeme.text).length ≤ e.start) :
    Covers ls (n + (cs.flatMap Lexeme.text).length) ys e := by
  obtain ⟨x, taken, as, v, bs, split, head, hstart, hstop⟩ := h.span
  refine ⟨⟨x, taken, ?_⟩, h.text⟩
  rcases List.append_eq_append_iff.1 split with ⟨ds, rfl, rfl⟩ | ⟨ds, rfl, rest⟩
  · refine ⟨ds, v, bs, rfl, head, ?_, hstop⟩
    rw [hstart, List.flatMap_append, List.length_append, Nat.add_assoc]
  · -- nothing is left between the two, since every lexeme has a character
    cases ds with
    | nil => exact ⟨[], v, bs, by simpa using rest.symm, head, by simpa using hstart, hstop⟩
    | cons y ds =>
      have size := List.length_pos_iff.2 (filled y (by simp))
      simp only [List.flatMap_append, List.flatMap_cons, List.length_append] at start
      omega

/-- Edits in order that cover literals give lexemes of the edited buffer. -/
theorem exists_relexed {ls : List Literal} {n : Nat} {xs : List Lexeme} {edits : List Edit}
    (standing : Standing xs) (order : edits.Pairwise fun a b => a.stop ≤ b.start)
    (covers : ∀ e ∈ edits, Covers ls n xs e) : ∃ ys, Relexed ls n xs edits ys := by
  induction edits generalizing n xs with
  | nil => exact ⟨xs, .done n xs⟩
  | cons e es ih =>
    obtain ⟨first, order⟩ := List.pairwise_cons.1 order
    obtain ⟨⟨x, taken, as, v, bs, rfl, head, start, offset, stop⟩, t, text, filled, new⟩ :=
      covers e (by simp)
    let cs := as ++ (v.map Lexeme.code ++ [.literal x.quote x.inner])
    have split : as ++ (v.map Lexeme.code ++ .literal x.quote x.inner :: bs) = cs ++ bs := by
      simp [cs]
    have length : n + (cs.flatMap Lexeme.text).length = e.stop := by
      rw [stop, Literal.stop, offset, start]
      simp [cs, Lexeme.text, Literal.text, Nat.add_assoc]
    rw [split] at standing covers
    have later : ∀ d ∈ es, Covers ls e.stop bs d := by
      intro d hd
      rw [← length]
      refine (covers d (by simp [hd])).behind ?_ (length ▸ first d hd)
      intro y hy
      obtain ⟨next, stands⟩ := stands_of_mem standing (List.mem_append_left _ hy)
      exact stands.text_ne_nil
    obtain ⟨ys, relexed⟩ := ih (standing_of_append standing) order later
    exact ⟨_, .edit taken start offset stop text head filled new relexed⟩

/-- A replacement of a candidate of a buffer, with names for its key and its arguments. -/
structure OfCandidate (w : Windows) (s : Text) (r : Replacement) : Prop where
  literal : ∃ x ∈ scan w s, r.literal = x.text ∧ r.offset = x.offset ∧ r.context = x.context
  key : IsName r.key
  arguments : ∀ a ∈ r.arguments, IsName a

/-- A replacement puts a calm call in the place of one of the literals `ls`. -/
structure PutsCall (l : Localizations) (ls : List Literal) (r : Replacement) : Prop where
  literal : ∃ x ∈ ls, r.literal = x.text ∧ r.offset = x.offset
  call : ∃ t, l.accessor r.key r.arguments = ofText t ∧ t ≠ [] ∧ ∀ c ∈ t, Calm c

theorem OfCandidate.putsCall {w : Windows} {s name : Text} {l : Localizations} {r : Replacement}
    (h : OfCandidate w s r) (hl : l.className = ofText name) (hname : IsName name) :
    PutsCall l (scan w s) r := by
  obtain ⟨x, hx, literal, offset, -⟩ := h.literal
  have arguments : ∀ a ∈ r.arguments, ∀ c ∈ a, Calm c := by
    intro a ha
    exact calm_of_isName (h.arguments a ha)
  exact ⟨⟨x, hx, literal, offset⟩,
    accessor_calm hl (calm_of_isName hname) (calm_of_isName h.key) arguments⟩

/-- The head of a constant widget is calm, and starts with a letter. -/
theorem isHead_of_constTextHead {s : Text} {start stop : Nat} (h : ConstTextHead s start stop) :
    IsHead (slice s start stop) := by
  obtain ⟨gap, pad, text, -, gapBlank, padBlank⟩ := h.text
  have line := h.line
  have words : ∀ c ∈ "const".toList ++ "Text(".toList, Calm c := by
    decide
  have blank {c : Char} (newline : c ≠ '\n') (h : isBlank c = true) : Calm c :=
    calm_of_class (p := fun c => isBlank c && c != '\n') (by decide +kernel) (by simp [h, newline])
  refine ⟨?_, by simp [text]⟩
  intro c hc
  have newline : c ≠ '\n' := by
    rintro rfl
    exact line hc
  rw [text] at hc
  simp only [List.mem_append] at hc
  rcases hc with ((hc | hc) | hc) | hc
  · exact words c (List.mem_append_left _ hc)
  · exact blank newline (gapBlank c hc)
  · exact words c (List.mem_append_right _ hc)
  · exact blank newline (padBlank c hc)

section

variable {w : Windows} {l : Localizations} {s : Text} {rs : List Replacement}
  (hrs : ∀ r ∈ rs, PutsCall l (scan w s) r)
include hrs

theorem ne_nil_of_putsCall : ∀ r ∈ rs, r.literal ≠ [] := by
  intro r hr
  obtain ⟨x, -, literal, -⟩ := (hrs r hr).literal
  rw [literal]
  exact List.cons_ne_nil _ _

/-- The edits of a plan cover candidates, alone or with the head of the constant widget before
them. -/
theorem covers_of_mem_grantedIn (standing : Standing (lex s)) {r : Replacement} {e : Edit}
    (mem : (r, e) ∈ grantedIn l s rs) : Covers (scan w s) 0 (lex s) e := by
  have ne := ne_nil_of_putsCall hrs
  have given : r ∈ rs := (granted_subperm l s rs).subset (List.mem_map_of_mem mem)
  have fits := fits_of_mem_grantedIn ne mem
  obtain ⟨x, hx, literal, offset⟩ := (hrs r given).literal
  obtain ⟨call, hcall, filled, calm⟩ := (hrs r given).call
  obtain ⟨as, bs, split, before⟩ := mem_located_iff.1 (mem_located_of_mem_scan hx)
  have stop : e.stop = x.stop := by
    rw [fits.stop, Replacement.stop, literal, offset]
    rfl
  rcases fits.start with ⟨start, text⟩ | ⟨head, text⟩
  · refine ⟨⟨x, hx, as, [], bs, split, ⟨by simp, by simp⟩, ?_, ?_, stop⟩, call, ?_, filled, calm⟩
    · rw [start, offset, before]
    · rw [start, offset]
      rfl
    · rw [text, hcall]
  · rw [Nat.zero_add, ← offset] at before
    have order := head.lt
    have inside : r.offset + r.literal.length ≤ s.length := fits.stands.stop_le (ne r given)
    have widget : ∀ c ∈ "Text(".toList, Calm c := by
      decide
    have taken := isHead_of_constTextHead head
    have front : as.flatMap Lexeme.text = s.take e.start ++ slice s e.start r.offset := by
      have buffer := flatten_lex s
      rw [split, List.flatMap_append] at buffer
      calc as.flatMap Lexeme.text
          = s.take r.offset := by rw [← buffer, List.take_left' before.symm]
        _ = s.take e.start ++ slice s e.start r.offset := by
          rw [slice, ← Nat.min_eq_left (Nat.le_of_lt order), ← List.take_take,
            Nat.min_eq_left (Nat.le_of_lt order), List.take_append_drop]
    rw [split] at standing
    have line : x.quote ≠ '\n' := by
      rcases (standing_of_append standing).1.single.1 with h | h <;> simp [h]
    obtain ⟨cs, rfl, hcs⟩ := exists_map_code standing rfl line front taken.calm
    have size := congrArg List.length front
    have start := congrArg List.length hcs
    simp only [List.length_append, List.length_take] at size start
    refine ⟨⟨x, hx, cs, slice s e.start r.offset, bs, ?_, taken, ?_, ?_, stop⟩,
      "Text(".toList ++ call, ?_, by simp, ?_⟩
    · rw [split, List.append_assoc]
    · omega
    · omega
    · rw [text, hcall]
      simp [ofText]
    · intro c hc
      rcases List.mem_append.1 hc with hc | hc
      · exact widget c hc
      · exact calm c hc

/-- Where lexemes stand, there is a plan, its edits turn them into lexemes that stand, and the edited
buffer is their text. -/
theorem exists_relexed_plan (standing : Standing (lex s)) :
    ∃ p ys, plan l s rs = .ok p ∧ p.edits = (grantedIn l s rs).map Prod.snd ∧
      Relexed (scan w s) 0 (lex s) p.edits ys ∧ Standing ys ∧
      applyAll (ofText s) p.edits = ofText (ys.flatMap Lexeme.text) := by
  have ne := ne_nil_of_putsCall hrs
  obtain ⟨p, hplan, edits, -⟩ := plan_eq_granted (l := l) (s := s) ne
  have order : InOrder s.length p.edits := edits ▸ inOrder_grantedIn ne
  have covers : ∀ e ∈ p.edits, Covers (scan w s) 0 (lex s) e := by
    intro e he
    rw [edits] at he
    obtain ⟨⟨r, e⟩, mem, rfl⟩ := List.mem_map.1 he
    exact covers_of_mem_grantedIn hrs standing mem
  obtain ⟨ys, relexed⟩ := exists_relexed standing order.disjoint covers
  have text : substitute (ofText ([] ++ (lex s).flatMap Lexeme.text)) 0 p.edits =
      ofText (ys.flatMap Lexeme.text) := relexed.substitute (fun _ => rfl) (fun _ => rfl) rfl
  rw [List.nil_append, flatten_lex] at text
  refine ⟨p, ys, hplan, edits, relexed, (relexed.standing standing).1, ?_⟩
  rw [applyAll_eq_substitute (by simpa [ofText] using order), text]

end

/-- Without an import to add and an app root to wire, the edited buffer is what comes of
replacing. -/
theorem replace_of_unwired {l : Localizations} {s edited : Text} {rs : List Replacement}
    (ne : ∀ r ∈ rs, r.literal ≠ [])
    (applied : applyAll (ofText s) ((grantedIn l s rs).map Prod.snd) = ofText edited)
    (unimported : l.importStatement = none) (rootless : appRoot? edited = none) :
    ∃ o, l.replace s rs = .ok o ∧ o.content = ofText edited := by
  obtain ⟨p, edits, -, hreplace⟩ := replace_eq_ok l s ne
  rw [← edits] at applied
  refine ⟨_, hreplace, ?_⟩
  split
  next empty =>
    rw [List.isEmpty_iff.1 empty, applyAll_eq_substitute .nil] at applied
    exact applied
  next => simp [wire, unimported, applied, ensureDelegates, rootless]

/-- **Replacing literals changes how nothing else is read.** In a well-formed buffer, with names for
the class, the keys and the arguments, there is a plan; the edited buffer, masked, is the masked
buffer with the same edits; and its comments and strings are, in order, those that no edit covers.
Without an import to add, and with no app root in the edited buffer, it is what comes of
replacing. -/
theorem mask_edited {xs : List Segment} (h : WellFormed xs) {w : Windows} {l : Localizations}
    {name : Text} (hl : l.className = ofText name) (hname : IsName name) {rs : List Replacement}
    (hrs : ∀ r ∈ rs, OfCandidate w (bufferOf xs) r) :
    ∃ p edited, plan l (bufferOf xs) rs = .ok p ∧
      applyAll (ofText (bufferOf xs)) p.edits = ofText edited ∧
      applyAll (ofText (mask (bufferOf xs))) p.edits = ofText (mask edited) ∧
      (lex edited).filter (!·.isCode) = untouched p.edits (located 0 (lex (bufferOf xs))) ∧
      (l.importStatement = none → appRoot? edited = none →
        ∃ o, l.replace (bufferOf xs) rs = .ok o ∧ o.content = ofText edited) := by
  let s := bufferOf xs
  have puts : ∀ r ∈ rs, PutsCall l (scan w s) r := fun r hr => (hrs r hr).putsCall hl hname
  have standing := standing_lex h
  obtain ⟨p, ys, hplan, edits, relexed, stands, applied⟩ := exists_relexed_plan puts standing
  have order : InOrder s.length p.edits := edits ▸ inOrder_grantedIn (ne_nil_of_putsCall puts)
  have masked : substitute (ofText ([] ++ (lex s).flatMap Lexeme.mask)) 0 p.edits =
      ofText (ys.flatMap Lexeme.mask) := relexed.substitute (fun _ => rfl) Lexeme.length_mask rfl
  rw [List.nil_append, ← mask_of_standing stands] at masked
  refine ⟨p, ys.flatMap Lexeme.text, hplan, applied, ?_, ?_, ?_⟩
  · rw [applyAll_eq_substitute (by simpa [ofText, length_mask] using order)]
    exact masked
  · rw [lex_of_standing stands]
    exact relexed.untouched standing
  · exact replace_of_unwired (ne_nil_of_putsCall puts) (edits ▸ applied)

/-- A constant widget after a slash, a literal with the other quote, and a comment with quotes. -/
def widgets : List Segment :=
  [.code "[1/const Text(".toList, .literal '\'' "Hi $you".toList, .code "), ".toList,
   .literal '"' "Yo".toList, .code "];".toList, .lineComment " it's".toList]

/-- Calls for its literals, the last one first. -/
def widgetCalls : List Replacement :=
  [⟨"\"Yo\"".toList, 26, .text, "yo".toList, []⟩,
   ⟨"'Hi $you'".toList, 14, .text, "hi".toList, ["you".toList]⟩]

theorem wellFormed_widgets : WellFormed widgets := by
  have hi : Inner '\'' "Hi $you".toList :=
    .plain (by decide) (by decide) (by decide) (by decide) <|
    .plain (by decide) (by decide) (by decide) (by decide) <|
    .plain (by decide) (by decide) (by decide) (by decide) <| .sign (by decide) <|
    .plain (by decide) (by decide) (by decide) (by decide) <|
    .plain (by decide) (by decide) (by decide) (by decide) <|
    .plain (by decide) (by decide) (by decide) (by decide) .nil
  have yo : Inner '"' "Yo".toList :=
    .plain (by decide) (by decide) (by decide) (by decide) <|
    .plain (by decide) (by decide) (by decide) (by decide) .nil
  exact .code (by decide) (by decide) (by decide) <| .literal (by decide) hi (by decide) <|
    .code (by decide) (by decide) (by decide) <| .literal (by decide) yo (by decide) <|
    .code (by decide) (by decide) (by decide) <| .lineComment (by decide) (by decide) .nil

theorem ofCandidate_widgetCalls : ∀ r ∈ widgetCalls, OfCandidate {} (bufferOf widgets) r := by
  have scanned : scan {} (bufferOf widgets) =
      [⟨'\'', "Hi $you".toList, 14, .text⟩, ⟨'"', "Yo".toList, 26, .text⟩] := by
    decide +kernel
  intro r hr
  rw [widgetCalls, List.mem_pair] at hr
  rcases hr with rfl | rfl
  · refine ⟨⟨⟨'"', "Yo".toList, 26, .text⟩, by simp [scanned], rfl, rfl, rfl⟩, ?_, ?_⟩
    · decide +kernel
    · simp
  · refine ⟨⟨⟨'\'', "Hi $you".toList, 14, .text⟩, by simp [scanned], rfl, rfl, rfl⟩, ?_, ?_⟩
    · decide +kernel
    · decide +kernel

theorem mask_edited_widgets : WellFormed widgets ∧ IsName "L".toList ∧
    (∀ r ∈ widgetCalls, OfCandidate {} (bufferOf widgets) r) ∧
    ∃ p edited, plan ⟨ofText "L".toList, none⟩ (bufferOf widgets) widgetCalls = .ok p ∧
      applyAll (ofText (bufferOf widgets)) p.edits = ofText edited ∧
      applyAll (ofText (mask (bufferOf widgets))) p.edits = ofText (mask edited) ∧
      (lex edited).filter (!·.isCode) = untouched p.edits (located 0 (lex (bufferOf widgets))) := by
  have isName : IsName "L".toList := by
    decide +kernel
  obtain ⟨p, edited, hplan, applied, masked, kept, -⟩ := mask_edited wellFormed_widgets
    (l := ⟨ofText "L".toList, none⟩) rfl isName ofCandidate_widgetCalls
  exact ⟨wellFormed_widgets, isName, ofCandidate_widgetCalls, p, edited, hplan, applied, masked,
    kept⟩

end Localizer.Edit
