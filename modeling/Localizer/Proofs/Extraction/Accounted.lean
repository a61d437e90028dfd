import Localizer.Proofs.Dart.Order
import Localizer.Proofs.Edit.Kept
import Localizer.Proofs.Extraction.Accepted

/-!
# Every accepted literal is accounted for

Collecting hands on one replacement for each accepted literal, with the key of its text
(`forall₂_collect`), and nothing is asked of the session for that. The literals are apart in the buffer,
since candidates are (`Feed.apart_of_owns`). So each of the replacements is a call in the edited buffer,
or a literal that stays there and is counted as constant (`Feed.process_accounts`).

A literal that stays may be cut in two all the same when the properties of the app root are put in: the
first app root call is looked for in the text of the buffer, and may stand in that literal
(`Feed.kept_literal_is_cut`).
-/

namespace Localizer.Extraction

open Text Dart Message Resource Edit

/-! ## Places -/

/-- Replacements of literals have their texts and offsets. -/
theorem map_spans_eq {s : Session} {xs : List Literal} {rs : List Replacement}
    (h : List.Forall₂ s.Owns xs rs) :
    rs.map (fun r => (r.offset, r.literal)) = xs.map fun x => (x.offset, x.text) := by
  induction h with
  | nil => rfl
  | cons owns _ ih =>
    obtain ⟨key, -, rfl⟩ := owns
    exact congrArg (List.cons _) ih

namespace Feed

/-- The literals of a buffer that the filter keeps and whose templates are simple. -/
def accepted (b : Feed) : List Literal :=
  (scan b.windows b.content).filter fun x => accepts b.filter x.inner

/-- The replacements of a buffer are apart. -/
theorem apart_of_owns {b : Feed} {s : Session} {rs : List Replacement}
    (h : List.Forall₂ s.Owns b.accepted rs) : Apart b.content rs := by
  have literal : ∀ r ∈ rs, ∃ x ∈ scan b.windows b.content,
      r.literal = x.text ∧ r.offset = x.offset ∧ r.stop = x.stop := by
    intro r hr
    obtain ⟨x, hx, key, -, rfl⟩ := exists_of_forall₂ h hr
    exact ⟨x, (List.mem_filter.1 hx).1, rfl, rfl, rfl⟩
  refine ⟨?_, ?_, ?_⟩
  · intro r hr
    obtain ⟨x, hx, text, offset, stop⟩ := literal r hr
    rw [Replacement.Stands, text, offset, stop]
    exact (stands_of_mem_scan hx).1
  · intro r hr
    obtain ⟨x, hx, text, -⟩ := literal r hr
    obtain ⟨-, quote, line⟩ := stands_of_mem_scan hx
    exact ⟨x.quote, x.inner, quote, text ▸ line, text⟩
  · have order : (rs.map fun r => (r.offset, r.literal)).Pairwise
        fun a b => a.1 + a.2.length ≤ b.1 := by
      rw [map_spans_eq h, List.pairwise_map]
      exact (pairwise_scan b.windows b.content).filter _
    exact List.pairwise_map.1 order

/-! ## Outcomes -/

/-- What becomes of the accepted literals of a buffer: `rs` are their replacements, `spans` those that
get a call, with their edits, and `kept` those that do not. -/
structure Accounts (b : Feed) (s : Session) (l : Localizations) (o : Outcome) (rs : List Replacement)
    (spans : List (Replacement × Edit)) (kept : List Replacement) : Prop where
  /-- There is one replacement for each literal, with the key that its text has. -/
  own : List.Forall₂ (b.process s).1.Owns b.accepted rs
  /-- Each of them gets a call or is kept. -/
  parts : (spans.map Prod.fst ++ kept).Perm rs
  /-- The calls are put in the places of their literals, and nothing else is changed. -/
  substituted : Substituted l b.content rs o spans
  /-- Those that are kept are counted. -/
  count : kept.length = o.skippedConst
  /-- They are constant. -/
  constant : ∀ r ∈ kept, enclosingConst (mask b.content) r.offset ≠ none
  /-- They stay in the edited buffer. -/
  edited : ∀ r ∈ kept, Stays b.content (spans.map Prod.snd) r
    (substitute (ofText b.content) 0 (spans.map Prod.snd))
  /-- They stay when it is wired, too, unless an app root call stands in them. -/
  wired : ∀ r ∈ kept, appRoot? r.literal = none →
    Stays b.content (spans.map Prod.snd) r o.content

/-- **Every accepted literal is accounted for.** When a buffer gets an outcome in any session, the literals
that were replaced and those that are counted as constant are together as many as the accepted ones. Each
of these either gives way to the call of the key of its text, or is constant and stays in the edited
buffer, between the edited text before it and the edited text behind it. Without a target the buffer stays
as it is. -/
theorem process_accounts {b : Feed} {s : Session} {o : Outcome} (h : (b.process s).2.2 = .ok o) :
    (b.target = none → o = .unchanged (ofText b.content) 0) ∧
      ∀ l, b.target = some l → o.replaced + o.skippedConst = b.accepted.length ∧
        ∃ rs spans kept, b.Accounts s l o rs spans kept := by
  cases hrs : (collect b.filter s (scan b.windows b.content)).2.2 with
  | error e => simp [process, processSource, hrs] at h
  | ok rs =>
    refine ⟨?_, ?_⟩
    · intro target
      simpa [process, processSource, hrs, target, eq_comm] using h
    · intro l target
      have own : List.Forall₂ (b.process s).1.Owns b.accepted rs := forall₂_collect hrs
      have apart := apart_of_owns own
      have replaced : l.replace b.content rs = .ok o := by
        rw [process_of_collect target hrs] at h
        cases hreplace : l.replace b.content rs with
        | error e => simp [hreplace, Except.mapError] at h
        | ok o' => simpa [hreplace, Except.mapError] using h
      obtain ⟨o', hreplace, substituted⟩ := replace_substituted l b.content apart.ne_nil
      obtain rfl : o' = o := Except.ok.inj (hreplace.symm.trans replaced)
      have parts := perm_granted_skipped (l := l) apart
      have count := skippedConst_of_replace apart.ne_nil replaced
      refine ⟨?_, rs, grantedIn l b.content rs, skipped l 0 (sites b.content rs), own, parts,
        substituted, count.symm, ?_, ?_, ?_⟩
      · have total := parts.length_eq
        rw [List.length_append, List.length_map, substituted.count, ← count, ← own.length_eq] at total
        exact total
      · exact fun r hr => enclosingConst_of_mem_skipped (fun _ h => (mem_sites h).1) hr
      · exact fun r hr => stays_of_mem_skipped apart hr
      · exact fun r hr => stays_of_replace apart replaced hr

/-- A source with a constant literal and one that is not. -/
def tipSource : Feed where
  target := some ⟨ofText "L".toList, none⟩
  content := "[const Tip('Hi'), 'Yo']".toList

/-- What becomes of it. -/
def tipOutcome : Outcome where
  content := ofText "[const Tip('Hi'), L.of(context).yo]".toList
  replaced := 1
  skippedConst := 1

/-- A constant literal that holds the head of an app root call, and one that is not constant. -/
def cutText : Text := "[const Tip('Use CupertinoApp()'), Text('Hi')]".toList

/-- The replacements for the literals of both. They are computed together, since most of it is to
read the marks of code. -/
theorem collected_tips :
    (collect tipSource.filter {} (scan tipSource.windows tipSource.content)).2.2 =
      .ok [⟨"'Hi'".toList, 11, .general, "hi".toList, []⟩,
        ⟨"'Yo'".toList, 18, .general, "yo".toList, []⟩] ∧
    (collect (.ofExtra []) {} (scan {} cutText)).2.2 =
      .ok [⟨"'Use CupertinoApp()'".toList, 11, .general, "useCupertinoapp".toList, []⟩,
        ⟨"'Hi'".toList, 39, .text, "hi".toList, []⟩] := by
  decide +kernel

theorem process_accounts_tipSource :
    (tipSource.process {}).2.2 = .ok tipOutcome ∧ tipSource.accepted.length = 2 ∧
      ∃ rs spans kept, tipSource.Accounts {} ⟨ofText "L".toList, none⟩ tipOutcome rs spans kept := by
  have outcome : (tipSource.process {}).2.2 = .ok tipOutcome := by
    rw [process_of_collect rfl collected_tips.1, Localizations.replace, plan,
      sites_of_ordered _ (by decide)]
    decide +kernel
  obtain ⟨total, accounts⟩ := (process_accounts outcome).2 _ rfl
  exact ⟨outcome, total.symm, accounts⟩

/-- A constant literal that holds the head of an app root call is cut in two, although the counts are
right. -/
theorem kept_literal_is_cut :
    ∃ o, (Feed.process { target := some ⟨ofText "L".toList, none⟩, content :=
        "[const Tip('Use CupertinoApp()'), Text('Hi')]".toList } {}).2.2 = .ok o ∧
      o.replaced = 1 ∧ o.skippedConst = 1 ∧ ¬ ofText "'Use CupertinoApp()'".toList <:+: o.content := by
  refine ⟨⟨ofText ("[const Tip('Use CupertinoApp(\n  localizationsDelegates: ".toList ++
      "L.localizationsDelegates,\n  supportedLocales: L.supportedLocales,)'), ".toList ++
      "Text(L.of(context).hi)]".toList), 1, false, true, false, 1⟩, ?_, rfl, rfl, ?_⟩
  · rw [process_of_collect rfl collected_tips.2, Localizations.replace, plan,
      sites_of_ordered _ (by decide)]
    decide +kernel
  · rw [← occursIn_iff]
    decide +kernel

end Feed

end Localizer.Extraction
