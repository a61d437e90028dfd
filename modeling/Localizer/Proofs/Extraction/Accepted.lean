import Localizer.Proofs.Extraction.Session
import Localizer.Proofs.Message.Interpolation
import Mathlib.Data.List.Forall2

/-!
# Calls pass what a literal shows

A text is accepted if the filter keeps it and its variables are identifiers. Collecting hands on one
replacement for each literal with an accepted text, in order; it has the key of the text, and its
arguments are the names of the literal's template (`forall₂_collect`). Together with what is known of
these names, every value that a literal shows by an interpolation standing clear is an argument of the
call that takes its place (`calls_pass_interpolated`).
-/

namespace Localizer.Extraction

open Text Dart Message Resource Edit

/-- Whether a literal with this text is replaced, as far as its text decides. -/
def accepts (f : Filter) (content : Text) : Bool :=
  !f.ignores content && (Template.of content).isSimple

/-- A replacement puts the call of some key in the place of a literal, with the variables of its
template for arguments. -/
def IsReplacementOf (l : Literal) (r : Replacement) : Prop :=
  ∃ key, r = replacementOf l key (Template.of l.inner)

/-- The key of a replacement is the one that the literal's text has. -/
def Session.Owns (s : Session) (l : Literal) (r : Replacement) : Prop :=
  ∃ key, s.keys.lookup? l.inner = some key ∧ r = replacementOf l key (Template.of l.inner)

theorem Session.Owns.isReplacementOf {s : Session} {l : Literal} {r : Replacement}
    (h : s.Owns l r) : IsReplacementOf l r := by
  obtain ⟨key, -, replaces⟩ := h
  exact ⟨key, replaces⟩

/-- Collecting keeps the keys that were given out. -/
theorem assigned_collect (f : Filter) (s : Session) (ls : List Literal) :
    s.keys.assigned <+: (collect f s ls).1.keys.assigned := by
  induction ls generalizing s with
  | nil => exact List.prefix_rfl
  | cons l ls ih =>
    have given := Keys.assigned_generate s.keys s.table l.inner
    simp only [collect]
    split
    next => exact ih s
    next =>
      split
      next =>
        split
        next => exact given
        next => exact given.trans (ih ⟨_, _⟩)
      next => exact ih s

/-- Collecting hands on one replacement for each literal whose text is accepted, with the key that the
text has from then on. -/
theorem forall₂_collect {f : Filter} {s : Session} {ls : List Literal} {rs : List Replacement}
    (h : (collect f s ls).2.2 = .ok rs) :
    List.Forall₂ (collect f s ls).1.Owns (ls.filter fun l => accepts f l.inner) rs := by
  induction ls generalizing s rs with
  | nil =>
    obtain rfl := Except.ok.inj h
    exact .nil
  | cons l ls ih =>
    simp only [collect] at h ⊢
    split at h
    next ignored =>
      rw [if_pos ignored, List.filter_cons_of_neg (by simp [accepts, ignored])]
      exact ih h
    next kept =>
      rw [if_neg kept]
      split at h
      next simple =>
        rw [if_pos simple, List.filter_cons_of_pos (by simp [accepts, kept, simple])]
        split at h
        next => simp at h
        next =>
          obtain ⟨rs', hrs', rfl⟩ := exists_of_map_eq_ok h
          refine .cons ⟨_, ?_, rfl⟩ (ih hrs')
          -- the key is found as long as more keys are added behind it
          have found := s.keys.lookup?_generate s.table l.inner
          exact Keys.lookup?_of_prefix (assigned_collect f _ ls) found
      next notSimple =>
        rw [if_neg notSimple, List.filter_cons_of_neg (by simp [accepts, notSimple])]
        exact ih h

theorem exists_of_forall₂ {α β : Type} {R : α → β → Prop} {as : List α} {bs : List β}
    (h : List.Forall₂ R as bs) {b : β} (hb : b ∈ bs) : ∃ a ∈ as, R a b := by
  induction h with
  | nil => simp at hb
  | cons related _ ih =>
    rcases List.mem_cons.1 hb with rfl | hb
    · exact ⟨_, List.mem_cons_self, related⟩
    · obtain ⟨a, ha, related⟩ := ih hb
      exact ⟨a, List.mem_cons_of_mem _ ha, related⟩

/-- A replacement that is handed on is that of an accepted literal. -/
theorem exists_literal_of_mem_collect {f : Filter} {s : Session} {ls : List Literal}
    {rs : List Replacement} (h : (collect f s ls).2.2 = .ok rs) {r : Replacement} (hr : r ∈ rs) :
    ∃ l ∈ ls, accepts f l.inner = true ∧ IsReplacementOf l r := by
  obtain ⟨l, hl, owns⟩ := exists_of_forall₂ (forall₂_collect h) hr
  obtain ⟨mem, accepted⟩ := List.mem_filter.1 hl
  exact ⟨l, mem, accepted, owns.isReplacementOf⟩

/-! ## Arguments -/

/-- A call that a buffer gets passes the variables of the literal whose place it takes. -/
theorem Feed.arguments_of_mem_calls {b : Feed} {s : Session} {l : Localizations}
    (target : b.target = some l) {call : Replacement × Edit} (mem : call ∈ b.calls s) :
    ∃ x : Literal, call.1.literal = x.text ∧ call.1.arguments = (Template.of x.inner).names ∧
      Fits l b.content call.1 call.2 := by
  unfold Feed.calls at mem
  rw [target] at mem
  split at mem
  next l' rs eq hrs =>
    obtain rfl := Option.some.inj eq
    have given : call.1 ∈ rs := (granted_subperm _ _ rs).subset (List.mem_map_of_mem mem)
    have filled : ∀ r ∈ rs, r.literal ≠ [] := by
      intro r hr
      obtain ⟨x, -, -, key, rfl⟩ := exists_literal_of_mem_collect hrs hr
      exact List.cons_ne_nil _ _
    obtain ⟨x, -, -, key, replaces⟩ := exists_literal_of_mem_collect hrs given
    have fits := fits_of_mem_grantedIn filled mem
    rw [replaces] at fits ⊢
    exact ⟨x, rfl, rfl, fits⟩
  next => simp at mem

/-- **No interpolation that stands clear is lost.** Where the template of a text is simple, each of
them is one of its names; and whenever a literal with this text gives way to a call, the call passes
its value. -/
theorem calls_pass_interpolated {content before after name : Text}
    (simple : (Template.of content).isSimple = true)
    (h : Interpolates content before after name) (clear : Clear before after name) :
    name ∈ (Template.of content).names ∧
      ∀ (b : Feed) (s : Session) (l : Localizations), b.target = some l →
        ∀ call ∈ b.calls s, ∀ q, call.1.literal = q :: (content ++ [q]) →
          name ∈ call.1.arguments ∧
            l.accessor call.1.key call.1.arguments <:+ call.2.text := by
  have named := mem_names_of_interpolates simple h clear
  refine ⟨named, ?_⟩
  intro b s l target call mem q literal
  obtain ⟨x, text, arguments, fits⟩ := Feed.arguments_of_mem_calls target mem
  have inner : x.inner = content := by
    rw [text, Literal.text] at literal
    exact (List.append_inj' (List.cons.inj literal).2 rfl).1
  refine ⟨?_, ?_⟩
  · rw [arguments, inner]
    exact named
  · rcases fits.start with ⟨-, accessor⟩ | ⟨-, accessor⟩
    · exact accessor ▸ List.suffix_rfl
    · exact accessor ▸ List.suffix_append _ _

/-- A group with blanks, a name right behind it, and a sign that is escaped. -/
def greeting : Text := "Hi $\x7b you \x7d$me, \\$5".toList

theorem calls_pass_interpolated_greeting :
    (Template.of greeting).isSimple = true ∧
      Interpolates greeting "Hi $\x7b you \x7d".toList "me, \\$5".toList "me".toList ∧
      Clear "Hi $\x7b you \x7d".toList "me, \\$5".toList "me".toList ∧
      "me".toList ∈ (Template.of greeting).names := by
  have simple : (Template.of greeting).isSimple = true := by
    decide +kernel
  have shown : Interpolates greeting "Hi $\x7b you \x7d".toList "me, \\$5".toList "me".toList := by
    have word : Shows "me".toList ("me".toList ++ ", \\$5".toList) :=
      .word (by decide) (by decide)
    exact ⟨by decide, by decide, word⟩
  have clear : Clear "Hi $\x7b you \x7d".toList "me, \\$5".toList "me".toList :=
    ⟨by decide, by decide +kernel⟩
  exact ⟨simple, shown, clear, (calls_pass_interpolated simple shown clear).1⟩

/-- A text is accepted, and it shows a value that its template does not name. -/
def Loses (content before after name : Text) : Prop :=
  accepts (.ofExtra []) content = true ∧ Interpolates content before after name ∧
    name ∉ (Template.of content).names

/-- Interpolations that do not stand clear are lost: a sign behind a letter, a sign behind a
backslash that is itself escaped, and a name that a letter beyond the basic alphabet follows. -/
theorem unclear_interpolations_lost :
    Loses "Total$name".toList "Total".toList "name".toList "name".toList ∧
      Loses "Path\\\\$\x7bname\x7d".toList "Path\\\\".toList "\x7bname\x7d".toList "name".toList ∧
      Loses "$nameé".toList [] "nameé".toList "name".toList := by
  have accepted : ∀ content ∈ ["Total$name".toList, "Path\\\\$\x7bname\x7d".toList, "$nameé".toList],
      accepts (.ofExtra []) content = true := by
    decide +kernel
  have whole : Shows "name".toList ("name".toList ++ []) :=
    .word (by decide) (by decide)
  have group : Shows (strip "name".toList) ('{' :: ("name".toList ++ '}' :: [])) :=
    .group (by decide) (by decide)
  have front : Shows "name".toList ("name".toList ++ "é".toList) :=
    .word (by decide) (by decide)
  refine ⟨⟨accepted _ (by simp), ⟨by decide, by decide, whole⟩, ?_⟩,
    ⟨accepted _ (by simp), ⟨by decide, by decide, group⟩, ?_⟩,
    ⟨accepted _ (by simp), ⟨by decide, by decide, front⟩, ?_⟩⟩
  all_goals decide +kernel

end Localizer.Extraction
