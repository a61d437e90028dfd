import Localizer.Proofs.Dart.Exclusion
import Localizer.Proofs.Edit.Relexing

/-!
# Scanning an edited buffer again

A literal that the edits leave in place has edited text before and behind it (`Relexed.split`). For
the tests that may hide it, little of that text has changed: before the literal it is the same from
the last candidate that was taken away on (`Relexed.endsAlike`), and behind the literal it is the same
up to the first one (`Relexed.startsAlike`). The tests do not look past a candidate, so what was
hidden stays hidden; the scan passes over the same lines, since no candidate ends one or has an open
group. Hence edits make nothing visible (`Relexed.visible`).
-/

namespace Localizer.Edit

open Text Dart
open Message (ofText)

/-! ## Around a lexeme that stays -/

theorem passesAfter_code {v : Text} (calm : ∀ c ∈ v, Calm c) (passing : Bool) :
    (v.map Lexeme.code).foldl passesAfter passing = passing := by
  induction v generalizing passing with
  | nil => rfl
  | cons c v ih =>
    have line : '\n' ≠ c := (calm c (by simp)).2.2.2.symm
    have here : passesAfter passing (.code c) = passing := by
      simp [passesAfter, Lexeme.opens, Lexeme.text, line]
    rw [List.map_cons, List.foldl_cons, here]
    exact ih (fun d hd => calm d (by simp [hd])) passing

/-- A comment or string behind calm code is not in it. -/
theorem exists_behind_code {t : Text} {xs as bs : List Lexeme} {x : Lexeme}
    (h : t.map Lexeme.code ++ xs = as ++ x :: bs) (other : x.isCode = false) :
    ∃ cs, as = t.map .code ++ cs ∧ xs = cs ++ x :: bs := by
  rcases split_append h with ⟨cs, codes, -⟩ | ⟨cs, rfl, hcs⟩
  · have mem : x ∈ t.map Lexeme.code := by
      simp [codes]
    obtain ⟨c, -, rfl⟩ := List.mem_map.1 mem
    contradiction
  · exact ⟨cs, rfl, hcs⟩

theorem flatMap_text_edit (as bs : List Lexeme) (v : Text) (x : Literal) :
    (as ++ (v.map Lexeme.code ++ Lexeme.literal x.quote x.inner :: bs)).flatMap Lexeme.text =
      as.flatMap Lexeme.text ++ (v ++ (x.text ++ bs.flatMap Lexeme.text)) := by
  have text : (Lexeme.literal x.quote x.inner).text = x.text := rfl
  simp [text]

namespace Relexed

variable {ls : List Literal} {n : Nat} {xs ys : List Lexeme} {edits : List Edit}

theorem stop_le (h : Relexed ls n xs edits ys) :
    ∀ e ∈ edits, e.stop ≤ n + (xs.flatMap Lexeme.text).length := by
  induction h with
  | done => simp
  | @edit n as bs ys v t x e es _ start offset stop _ _ _ _ _ ih =>
    rw [Literal.stop] at stop
    intro d hd
    rw [flatMap_text_edit]
    simp only [List.length_append]
    rcases List.mem_cons.1 hd with rfl | hd
    · omega
    · have later := ih d hd
      omega

/-- A comment or string of the edited buffer was there before, and edits are made before and behind
it. -/
theorem split {as' bs' : List Lexeme} {x : Lexeme} (h : Relexed ls n xs edits (as' ++ x :: bs'))
    (other : x.isCode = false) : ∃ as bs before behind, xs = as ++ x :: bs ∧
      edits = before ++ behind ∧ Relexed ls n as before as' ∧
      Relexed ls (n + (as.flatMap Lexeme.text).length + x.text.length) bs behind bs' := by
  generalize hys : as' ++ x :: bs' = ys at h
  induction h generalizing as' with
  | done n xs =>
    obtain rfl := hys
    exact ⟨as', bs', [], [], rfl, rfl, .done _ _, .done _ _⟩
  | @edit n as bs ys v t y e es taken start offset stop text old filled new rest ih =>
    rcases split_append hys.symm with ⟨cs, rfl, rfl⟩ | ⟨cs, rfl, hcs⟩
    · -- the lexeme comes before the edit
      refine ⟨as', cs ++ (v.map .code ++ .literal y.quote y.inner :: bs), [], e :: es, by simp,
        rfl, .done _ _, .edit taken ?_ offset stop text old filled new rest⟩
      rw [start]
      simp only [List.flatMap_append, List.flatMap_cons, List.length_append]
      omega
    · -- the lexeme comes behind the edit
      obtain ⟨cs, rfl, rfl⟩ := exists_behind_code hcs other
      obtain ⟨as₁, bs₁, before, behind, rfl, rfl, first, second⟩ := ih rfl
      refine ⟨as ++ (v.map .code ++ .literal y.quote y.inner :: as₁), bs₁, e :: before, behind,
        by simp, rfl, .edit taken start offset stop text old filled new first, ?_⟩
      have place : n + ((as ++ (v.map Lexeme.code ++ Lexeme.literal y.quote y.inner :: as₁)).flatMap
          Lexeme.text).length = e.stop + (as₁.flatMap Lexeme.text).length := by
        rw [flatMap_text_edit, stop, Literal.stop, offset, start]
        simp only [List.length_append]
        omega
      rw [place]
      exact second

/-- Whether the scan passes over a line is not changed by edits. -/
theorem foldl_passesAfter (h : Relexed ls n xs edits ys)
    (closed : ∀ x ∈ ls, hasOpenGroup x.inner = false ∧ '\n' ∉ x.text) (passing : Bool) :
    ys.foldl passesAfter passing = xs.foldl passesAfter passing := by
  induction h generalizing passing with
  | done => rfl
  | @edit n as bs ys v t x e es taken _ _ _ _ old _ new _ ih =>
    obtain ⟨group, line⟩ := closed x taken
    have literal (passing : Bool) :
        passesAfter passing (.literal x.quote x.inner) = passing := by
      have single : '\n' ∉ (Lexeme.literal x.quote x.inner).text := line
      simp [passesAfter, Lexeme.opens, group, single]
    simp only [List.foldl_append, List.foldl_cons, passesAfter_code old.calm, passesAfter_code new,
      literal, ih]

theorem endsAlike_or (h : Relexed ls n xs edits ys) : ys = xs ∨ ∃ x ∈ ls, ∃ a u b : Text,
    xs.flatMap Lexeme.text = a ++ (x.text ++ u) ∧ x.offset = n + a.length ∧
      ys.flatMap Lexeme.text = b ++ u := by
  induction h with
  | done => exact .inl rfl
  | @edit n as bs ys v t x e es taken start offset stop _ _ _ _ _ ih =>
    right
    rw [flatMap_text_edit]
    rcases ih with rfl | ⟨y, hy, a, u, b, text, place, text'⟩
    · refine ⟨x, taken, as.flatMap Lexeme.text ++ v, ys.flatMap Lexeme.text,
        as.flatMap Lexeme.text ++ t, by simp, ?_, by simp⟩
      rw [List.length_append]
      omega
    · refine ⟨y, hy, as.flatMap Lexeme.text ++ (v ++ (x.text ++ a)), u,
        as.flatMap Lexeme.text ++ (t ++ b), by simp [text], ?_, by simp [text']⟩
      rw [Literal.stop] at stop
      simp only [List.length_append]
      omega

/-- The edited text ends as it did behind the last literal that was taken away. -/
theorem endsAlike {w : Windows} {s : Text} (h : Relexed (scan w s) 0 xs edits ys) :
    EndsAlike w s (xs.flatMap Lexeme.text) (ys.flatMap Lexeme.text) := by
  rcases h.endsAlike_or with rfl | ⟨x, hx, a, u, b, text, place, text'⟩
  · exact .same _
  · rw [text, text']
    exact .behind hx (by simpa using place) u b

/-- It starts as it did up to the first one. -/
theorem startsAlike (h : Relexed ls n xs edits ys) (quotes : ∀ x ∈ ls, IsQuote x.quote) :
    StartsAlike (xs.flatMap Lexeme.text) (ys.flatMap Lexeme.text) := by
  cases h with
  | done => exact .same _
  | @edit n as bs ys v t x e es taken _ _ _ _ old =>
    rw [flatMap_text_edit, List.flatMap_append]
    refine .before ?_ _ _
    cases v with
    | nil =>
      intro c hc
      have blank := isBlank_quote (quotes x taken)
      obtain rfl : x.quote = c := by
        simpa [Literal.text, stripLeft_of_head blank] using hc
      rcases quotes x taken with h | h <;> simp [h]
    | cons d v =>
      obtain rfl := old.first d rfl
      intro c hc
      obtain rfl : 'c' = c := by
        simpa [stripLeft_of_head (show isBlank 'c' = false by decide +kernel)] using hc
      decide

/-- A quote at the front stays, unless it is that of a literal that is taken away. -/
theorem head? (h : Relexed ls n xs edits ys) {q : Char} (quote : IsQuote q)
    (apart : ∀ x ∈ ls, x.offset = n → x.quote ≠ q)
    (head : (xs.flatMap Lexeme.text).head? = some q) : (ys.flatMap Lexeme.text).head? = some q := by
  cases h with
  | done => exact head
  | @edit n as bs ys v t x e es taken start offset stop text old =>
    rw [flatMap_text_edit] at head
    rw [List.flatMap_append]
    cases front : as.flatMap Lexeme.text with
    | cons c r => simpa [front] using head
    | nil =>
      rw [front, List.nil_append] at head
      cases v with
      | nil =>
        have place : x.offset = n := by
          rw [offset, start, front]
          rfl
        exact absurd (by simpa [Literal.text] using head) (apart x taken place)
      | cons d v =>
        obtain rfl := old.first d rfl
        obtain rfl : 'c' = q := by simpa using head
        exact absurd quote (by decide)

end Relexed

/-! ## Candidates of the edited buffer -/

theorem of_mem_scan {w : Windows} {s : Text} {x : Literal} (hx : x ∈ scan w s) :
    IsQuote x.quote ∧ '\n' ∉ x.text ∧ hasOpenGroup x.inner = false := by
  obtain ⟨before, after, split, -, candidate⟩ := mem_scan_iff.1 hx
  have mem : Lexeme.literal x.quote x.inner ∈ lex s := by
    simp [split]
  obtain ⟨quote, single⟩ := single_of_mem_lex mem
  exact ⟨quote, single, candidate.closed⟩

/-- **Editing makes nothing visible.** Every visible literal of the edited buffer was visible before, and
no edit touches it, if no word character stands directly behind a candidate. -/
theorem Relexed.visible {w : Windows} {s : Text} {edits : List Edit} {as' bs' : List Lexeme} {q : Char}
    {inner : Text} (h : Relexed (scan w s) 0 (lex s) edits (as' ++ .literal q inner :: bs'))
    (apart : ∀ x ∈ scan w s, ∀ c ∈ (s.drop x.stop).head?, isWord c = false)
    (visible : Visible as' q inner bs') :
    ∃ as bs, lex s = as ++ .literal q inner :: bs ∧ Visible as q inner bs ∧
      let n := (as.flatMap Lexeme.text).length
      ∀ e ∈ edits, e.stop ≤ n ∨ n + (q :: (inner ++ [q])).length ≤ e.start := by
  obtain ⟨as, bs, before, behind, split, rfl, first, second⟩ := h.split rfl
  have whole : s = as.flatMap Lexeme.text ++ q :: (inner ++ q :: bs.flatMap Lexeme.text) := by
    have buffer := flatten_lex s
    rw [split] at buffer
    simpa [Lexeme.text] using buffer.symm
  have quote : IsQuote q := (single_of_mem_lex (split ▸ List.mem_append_right _ (.head _))).1
  have behind : (bs.flatMap Lexeme.text).head? = some q →
      (bs'.flatMap Lexeme.text).head? = some q := by
    refine second.head? quote ?_
    -- a candidate does not start where a literal with the same quote ends
    rintro x hx offset rfl
    obtain ⟨front, back, split', place, visible⟩ := visible_of_mem_scan hx
    have halves : front.flatMap Lexeme.text ++ (x.text ++ back.flatMap Lexeme.text) =
        (as.flatMap Lexeme.text ++ x.quote :: (inner ++ [x.quote])) ++ bs.flatMap Lexeme.text := by
      have buffer := flatten_lex s
      rw [split'] at buffer
      calc front.flatMap Lexeme.text ++ (x.text ++ back.flatMap Lexeme.text)
          = s := by simpa [Lexeme.text, Literal.text] using buffer
        _ = _ := by simpa using whole
    obtain ⟨same, -⟩ := List.append_inj halves (by
      rw [← place, offset, List.length_append, Nat.zero_add]
      rfl)
    exact visible.shown (.inr (.inl (by simp [same])))
  have taken := visible.taken
  rw [first.foldl_passesAfter fun x hx => (of_mem_scan hx).2.symm] at taken
  refine ⟨as, bs, split, ⟨taken, visible.closed, ?_⟩, ?_⟩
  · intro hidden
    have starts := second.startsAlike fun x hx => (of_mem_scan hx).1
    exact visible.shown (hidden.alike whole first.endsAlike starts behind apart)
  · intro n e he
    rcases List.mem_append.1 he with he | he
    · have bound := first.stop_le e he
      rw [Nat.zero_add] at bound
      exact .inl bound
    · have bound := second.le_start e he
      rw [Nat.zero_add] at bound
      exact .inr bound

end Localizer.Edit
