import Localizer.Proofs.Edit.Plan
import Localizer.Proofs.Edit.Wiring

/-!
# Replacing literals changes nothing else

`Localizations.replace` on replacements whose literals are not empty always gives an outcome
(`replace_eq_ok`), whatever their order and however stale or overlapping they are. Its content is
the buffer with the granted spans substituted from left to right, and what wiring adds
(`replace_substituted`).
-/

namespace Localizer.Edit

open Text Dart

/-- An edited buffer, and the same buffer with the import put in at most once and the properties of
the app root at most once. -/
def Wired (l : Localizations) (edited content : Message) : Prop :=
  ∃ withImport, (withImport = edited ∨
      ∃ statement, l.importStatement = some statement ∧
        ImportInserted statement edited withImport) ∧
    (content = withImport ∨ DelegatesInserted l.className withImport content)

theorem wired_wire (l : Localizations) (s : Message) (p : Progress) :
    Wired l s (wire l s p).content := by
  simp only [wire]
  refine ⟨_, ?_, ensureDelegates_inserts l.className _⟩
  split
  next wanted =>
    cases hl : l.importStatement with
    | none => simp [hl] at wanted
    | some statement =>
      exact (ensureImport_inserts statement s).imp id fun inserted => ⟨statement, rfl, inserted⟩
  next => exact .inl rfl

/-- The outcome of replacing: the granted edits are applied and the result is wired, unless there
are none. -/
theorem replace_eq_ok (l : Localizations) (s : Text) {rs : List Replacement}
    (ne : ∀ r ∈ rs, r.literal ≠ []) :
    ∃ p : Progress, p.edits = (grantedIn l s rs).map Prod.snd ∧
      p.skippedConst = (skipped l 0 (sites s rs)).length ∧
      l.replace s rs = .ok (if p.edits.isEmpty then .unchanged (Message.ofText s) p.skippedConst
        else wire l (applyAll (Message.ofText s) p.edits) p) := by
  obtain ⟨p, hp, edits, count⟩ := plan_eq_granted (l := l) (s := s) ne
  refine ⟨p, edits, count, ?_⟩
  simp only [Localizations.replace, hp, bind, Except.bind, pure, Except.pure]
  split
  next => rfl
  next => rfl

/-- What is counted as constant is what the walk skips. -/
theorem skippedConst_of_replace {l : Localizations} {s : Text} {rs : List Replacement}
    (ne : ∀ r ∈ rs, r.literal ≠ []) {o : Outcome} (h : l.replace s rs = .ok o) :
    o.skippedConst = (skipped l 0 (sites s rs)).length := by
  obtain ⟨p, -, count, hreplace⟩ := replace_eq_ok l s ne
  obtain rfl := Except.ok.inj (hreplace.symm.trans h)
  rw [← count]
  split
  next => rfl
  next => rfl

/-- An outcome that comes of a buffer by substituting spans. -/
structure Substituted (l : Localizations) (s : Text) (rs : List Replacement) (o : Outcome)
    (spans : List (Replacement × Edit)) : Prop where
  count : spans.length = o.replaced
  /-- Each span belongs to a given replacement of its own. -/
  given : (spans.map Prod.fst).Subperm rs
  /-- It ends with the literal, which stands there, and starts with it or with the head of the
  constant widget before it. -/
  fits : ∀ span ∈ spans, Fits l s span.1 span.2
  order : InOrder s.length (spans.map Prod.snd)
  /-- A literal that stands outside of constant expressions starts in some span. -/
  complete : ∀ r ∈ rs, r.Stands s → enclosingConst (mask s) r.offset = none →
    ∃ span ∈ spans, span.2.start ≤ r.offset ∧ r.offset < span.2.stop
  /-- All else is kept, but for what wiring puts in. -/
  content : Wired l (substitute (Message.ofText s) 0 (spans.map Prod.snd)) o.content
  /-- Without spans nothing is wired either. -/
  unchanged : o.replaced = 0 → o = .unchanged (Message.ofText s) o.skippedConst

/-- Replacing substitutes the spans of the granted edits. -/
theorem replace_substituted (l : Localizations) (s : Text) {rs : List Replacement}
    (ne : ∀ r ∈ rs, r.literal ≠ []) :
    ∃ o, l.replace s rs = .ok o ∧ Substituted l s rs o (grantedIn l s rs) := by
  obtain ⟨p, edits, -, hreplace⟩ := replace_eq_ok l s ne
  have order := inOrder_grantedIn (l := l) (s := s) ne
  have complete := fun r hr => exists_grantedIn_at (l := l) (s := s) ne (r := r) hr
  have fits := fun span (h : span ∈ grantedIn l s rs) => fits_of_mem_grantedIn ne h
  by_cases empty : p.edits = []
  · rw [if_pos (by rw [empty]; rfl)] at hreplace
    have unspanned : grantedIn l s rs = [] := List.map_eq_nil_iff.1 (edits.symm.trans empty)
    refine ⟨_, hreplace, ?_, granted_subperm l s rs, fits, order, complete, ?_, fun _ => rfl⟩
    · rw [unspanned]
      rfl
    · rw [unspanned]
      exact ⟨_, .inl rfl, .inl rfl⟩
  · rw [if_neg (by simpa using empty)] at hreplace
    have applied : applyAll (Message.ofText s) p.edits =
        substitute (Message.ofText s) 0 ((grantedIn l s rs).map Prod.snd) := by
      rw [edits]
      exact applyAll_eq_substitute (by simpa [Message.ofText] using order)
    refine ⟨_, hreplace, ?_, granted_subperm l s rs, fits, order, complete, ?_, ?_⟩
    · simp [wire, edits]
    · rw [applied]
      exact wired_wire l _ p
    · intro zero
      exact absurd (List.length_eq_zero_iff.1 zero) empty

/-- **Replacing substitutes spans.** Whatever the order of the replacements, and however stale,
doubled or overlapping they are, there is an outcome, and it comes of the buffer by substituting
spans from left to right. -/
theorem replace_substitutes (l : Localizations) (s : Text) (rs : List Replacement)
    (ne : ∀ r ∈ rs, r.literal ≠ []) :
    ∃ o spans, l.replace s rs = .ok o ∧ Substituted l s rs o spans := by
  obtain ⟨o, hreplace, substituted⟩ := replace_substituted l s ne
  exact ⟨o, grantedIn l s rs, hreplace, substituted⟩

/-- Replacements out of order, one given twice, one that overlaps it and one that is stale. -/
def tangled : List Replacement :=
  [⟨"'Yo'".toList, 19, .general, "yo".toList, []⟩,
   ⟨"'Hi'".toList, 12, .text, "hi".toList, ["name".toList]⟩,
   ⟨"'Hi'".toList, 12, .text, "hi".toList, ["name".toList]⟩,
   ⟨"i')".toList, 14, .general, "i".toList, []⟩,
   ⟨"'No'".toList, 3, .text, "no".toList, []⟩]

theorem replace_substitutes_tangled :
    (∀ r ∈ tangled, r.literal ≠ []) ∧
      ∃ o spans, Localizations.replace ⟨"L".toList, none⟩ "[const Text('Hi'), 'Yo']".toList tangled =
        .ok o ∧ Substituted ⟨"L".toList, none⟩ "[const Text('Hi'), 'Yo']".toList tangled o spans :=
  ⟨by decide, replace_substitutes _ _ tangled (by decide)⟩

end Localizer.Edit
