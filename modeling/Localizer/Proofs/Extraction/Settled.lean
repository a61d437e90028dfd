import Localizer.Proofs.Edit.Rescan
import Localizer.Proofs.Edit.WiredScan
import Localizer.Proofs.Extraction.Accepted

/-!
# What a second pass replaces

A pass over a buffer replaces the candidates that are accepted. A second pass over the result finds a
candidate that is visible there; it was visible before the buffer was wired, and before it was edited
(`nothingNew_wire`, `Relexed.visible`), and it was accepted then, too. So there are two reasons only
for the first pass to have left it (`Feed.Keeps`): it was the title of an app root, or it stood in
a constant expression.

Neither reason has to last. An edit may take a `const` away, and what is put in may push an app root
out of the window in which its title is looked for (`Feed.second_pass_replaces`).
-/

namespace Localizer.Extraction

open Text Dart Message Resource Edit

/-! ## Calls of a session are calm -/

theorem calm_of_isKeyChar {c : Char} (h : Keys.IsKeyChar c) : Calm c :=
  calm_of_class (p := fun c => c.isAlphanum || c == '_') (by decide +kernel) <| by
    rcases h with h | rfl
    · simp [h]
    · decide

theorem calm_of_isIdentifier {name : Text} (h : isIdentifier name = true) : ∀ c ∈ name, Calm c := by
  cases name with
  | nil => simp
  | cons c r =>
    simp only [isIdentifier, Bool.and_eq_true, List.all_eq_true] at h
    intro d hd
    rcases List.mem_cons.1 hd with rfl | hd
    · exact calm_of_class (p := fun c => c.isAlpha || c == '_') (by decide +kernel) h.1
    · exact calm_of_class (by decide +kernel) (h.2 d hd)

/-- The replacements that a session hands on put calm calls in the place of literals. -/
theorem putsCall_of_collect {f : Filter} {s : Session} (hs : s.Consistent) {ls : List Literal}
    {rs : List Replacement} (h : (collect f s ls).2.2 = .ok rs) {l : Localizations} {name : Text}
    (hl : l.className = ofText name) (calm : ∀ c ∈ name, Calm c) : ∀ r ∈ rs, PutsCall l ls r := by
  intro r hr
  obtain ⟨consistent, -, agree⟩ := collect_spec f hs ls
  obtain ⟨x, hx, agrees⟩ := agree rs h r hr
  have key : ∀ c ∈ r.key, Calm c := by
    have issued := agrees.key
    rw [consistent.keys.lookup?_eq_some_iff] at issued
    intro c hc
    exact calm_of_isKeyChar (consistent.keys.chars _ (List.mem_map_of_mem issued) c hc)
  have arguments : ∀ a ∈ r.arguments, ∀ c ∈ a, Calm c := by
    obtain ⟨y, -, accepted, -, rfl⟩ := exists_literal_of_mem_collect h hr
    simp only [accepts, Template.isSimple, Bool.and_eq_true, List.all_eq_true] at accepted
    exact fun a ha => calm_of_isIdentifier (accepted.2 a ha)
  exact ⟨⟨x, hx, agrees.literal, agrees.offset⟩, accessor_calm hl calm key arguments⟩

/-- Every literal whose text is accepted is handed on. -/
theorem exists_replacement_of_accepts {f : Filter} {s : Session} {ls : List Literal}
    {rs : List Replacement} (h : (collect f s ls).2.2 = .ok rs) {x : Literal} (hx : x ∈ ls)
    (accepted : accepts f x.inner = true) : ∃ r ∈ rs, IsReplacementOf x r := by
  obtain ⟨r, hr, owns⟩ :=
    exists_of_forall₂ (forall₂_collect h).flip (List.mem_filter.2 ⟨hx, accepted⟩)
  exact ⟨r, hr, Session.Owns.isReplacementOf owns⟩

/-- Where no text is accepted, nothing is handed on. -/
theorem collect_of_not_accepts {f : Filter} {s : Session} {ls : List Literal}
    (h : ∀ x ∈ ls, accepts f x.inner = false) : (collect f s ls).2.2 = .ok [] := by
  induction ls with
  | nil => rfl
  | cons x ls ih =>
    have rest := ih fun y hy => h y (by simp [hy])
    have refused := h x (by simp)
    simp only [accepts, Bool.and_eq_false_iff, Bool.not_eq_false'] at refused
    simp only [collect]
    split
    next => exact rest
    next kept =>
      rw [if_neg (by simpa [kept] using refused)]
      exact rest

/-! ## Literals that stay -/

namespace Feed

/-- A literal that could be replaced, and that the calls of a buffer leave where it is: as the title of
an app root, or in a constant expression. -/
structure Keeps (b : Feed) (n : Nat) (q : Char) (inner : Text) : Prop where
  literal : (n, .literal q inner) ∈ located 0 (lex b.content)
  accepted : accepts b.filter inner = true
  untouched : ∀ call ∈ b.calls {}, call.2.stop ≤ n ∨
    n + (q :: (inner ++ [q])).length ≤ call.2.start
  reason : isAppTitle b.content n b.windows.title = true ∨ enclosingConst (mask b.content) n ≠ none

/-- A buffer in which calls and what they need are read as code. -/
structure Tidy (b : Feed) (l : Localizations) : Prop where
  standing : Standing (lex b.content)
  /-- No word character stands directly behind a candidate. -/
  apart : ∀ x ∈ scan b.windows b.content, ∀ c ∈ (b.content.drop x.stop).head?, isWord c = false
  /-- The buffer with its calls can be wired. -/
  wirable : ∀ edited, applyAll (ofText b.content) ((b.calls {}).map Prod.snd) = ofText edited →
    Wirable l edited

/-- An accepted literal that could be shown, and that no call replaces, is kept. -/
theorem keeps_of_visible {b : Feed} {l : Localizations} {rs : List Replacement}
    (target : b.target = some l)
    (hrs : (collect b.filter {} (scan b.windows b.content)).2.2 = .ok rs)
    (ne : ∀ r ∈ rs, r.literal ≠ []) {as bs : List Lexeme} {q : Char} {inner : Text}
    (split : lex b.content = as ++ .literal q inner :: bs) (visible : Visible as q inner bs)
    (accepted : accepts b.filter inner = true)
    (untouched : ∀ call ∈ b.calls {}, call.2.stop ≤ (as.flatMap Lexeme.text).length ∨
      (as.flatMap Lexeme.text).length + (q :: (inner ++ [q])).length ≤ call.2.start) :
    ∃ n, b.Keeps n q inner := by
  refine ⟨(as.flatMap Lexeme.text).length,
    mem_located_iff.2 ⟨as, bs, split, (Nat.zero_add _).symm⟩, accepted, untouched, ?_⟩
  cases title : isAppTitle b.content (as.flatMap Lexeme.text).length b.windows.title with
  | true => exact .inl rfl
  | false =>
    obtain ⟨x, hx, rfl, rfl, offset⟩ := mem_scan_of_visible split visible title
    obtain ⟨r, hr, key, rfl⟩ := exists_replacement_of_accepts hrs hx accepted
    have stands : (replacementOf x key (Template.of x.inner)).Stands b.content := by
      obtain ⟨-, -, slice, -⟩ := split_at_literal split
      rw [← offset] at slice
      exact slice
    rcases exists_grantedIn_or_mem_skipped (l := l) ne hr stands with
      ⟨span, granted, before, behind⟩ | skipped
    · -- the call of the literal would be in its place
      have away := untouched span (by rwa [calls_of_ok target hrs])
      simp only [replacementOf, offset] at before behind
      simp only [List.length_cons] at away
      omega
    · exact .inr (offset ▸ enclosingConst_of_mem_skipped (fun _ h => (mem_sites h).1) skipped)

section

variable {b : Feed} {l : Localizations} {name : Text} {o : Outcome}
  (target : b.target = some l) (hl : l.className = ofText name) (calm : ∀ c ∈ name, Calm c)
  (tidy : b.Tidy l) (first : (b.process {}).2.2 = .ok o)
include target hl calm tidy first

/-- A literal that a second pass takes up is one that the first pass left. -/
theorem exists_keeps : ∃ t, o.content = ofText t ∧
    ∀ y ∈ scan b.windows t, accepts b.filter y.inner = true → ∃ n, b.Keeps n y.quote y.inner := by
  cases hrs : (collect b.filter {} (scan b.windows b.content)).2.2 with
  | error e => simp [process, processSource, hrs] at first
  | ok rs =>
    have calls := calls_of_ok target hrs
    have puts := putsCall_of_collect Session.consistent_empty hrs hl calm
    have ne := ne_nil_of_putsCall puts
    obtain ⟨p, ys, hplan, edits, relexed, stands, applied⟩ := exists_relexed_plan puts tidy.standing
    have read := lex_of_standing stands
    have wirable : Wirable l (ys.flatMap Lexeme.text) := by
      refine tidy.wirable _ ?_
      rw [calls, ← edits, applied]
    obtain ⟨t, content, new⟩ : ∃ t, o.content = ofText t ∧ NothingNew (ys.flatMap Lexeme.text) t := by
      rw [process_of_collect target hrs] at first
      simp only [Localizations.replace, hplan, bind, Except.bind, pure, Except.pure] at first
      split at first
      next empty =>
        obtain rfl := Except.ok.inj first
        rw [List.isEmpty_iff.1 empty, applyAll_eq_substitute .nil] at applied
        exact ⟨_, applied, .refl (by rwa [read])⟩
      next =>
        obtain rfl := Except.ok.inj first
        rw [applied]
        exact nothingNew_wire hl (fun c hc => ⟨(calm c hc).1, (calm c hc).2.1⟩) (by rwa [read])
          wirable p
    refine ⟨t, content, ?_⟩
    intro y hy accepted
    -- back to the edited buffer, and to the buffer itself
    obtain ⟨as, bs, split, -, visible⟩ := visible_of_mem_scan hy
    obtain ⟨as, bs, split, visible⟩ := new.visible split visible
    rw [read] at split
    rw [split] at relexed
    obtain ⟨as, bs, split, visible, untouched⟩ :=
      relexed.visible tidy.apart visible
    refine keeps_of_visible target hrs ne split visible accepted ?_
    intro call hcall
    rw [calls] at hcall
    exact untouched _ (edits ▸ List.mem_map_of_mem hcall)

end

/-- **A second pass replaces what the first one left.** When a tidy buffer has gone through a fresh
session, its content is a text, and whatever a fresh session replaces in this text was left before as
the title of an app root or in a constant expression. If nothing was left for these reasons, a second
pass replaces nothing and leaves the text as it is. -/
theorem process_again {b : Feed} {l : Localizations} {name : Text} {o : Outcome}
    (target : b.target = some l) (hl : l.className = ofText name) (calm : ∀ c ∈ name, Calm c)
    (tidy : b.Tidy l) (first : (b.process {}).2.2 = .ok o) :
    ∃ t, o.content = ofText t ∧
      (∀ call ∈ ({ b with content := t } : Feed).calls {}, ∃ n q inner, b.Keeps n q inner ∧
        call.1.literal = q :: (inner ++ [q])) ∧
      ((∀ n q inner, ¬ b.Keeps n q inner) →
        (({ b with content := t } : Feed).process {}).2.2 = .ok (.unchanged o.content 0)) := by
  obtain ⟨t, content, left⟩ := exists_keeps target hl calm tidy first
  refine ⟨t, content, ?_, ?_⟩
  · intro call mem
    unfold calls at mem
    split at mem
    next l' rs _ hrs =>
      have given := (granted_subperm l' t rs).subset (List.mem_map_of_mem mem)
      obtain ⟨y, hy, accepted, key, replaces⟩ := exists_literal_of_mem_collect hrs given
      obtain ⟨n, keeps⟩ := left y hy accepted
      exact ⟨n, y.quote, y.inner, keeps, by rw [replaces]; rfl⟩
    next => simp at mem
  · intro none
    have refused : ∀ y ∈ scan b.windows t, accepts b.filter y.inner = false := by
      intro y hy
      rw [← Bool.not_eq_true]
      intro accepted
      obtain ⟨n, keeps⟩ := left y hy accepted
      exact none _ _ _ keeps
    have collected := collect_of_not_accepts (s := {}) refused
    rw [content]
    simp [process, processSource, collected, target]

/-! ## A buffer that is wired, and two that do not settle -/

/-- A source with an import and an app root. -/
def appSource : Feed where
  target := some ⟨ofText "L".toList, some (ofText "import 'l.dart';".toList)⟩
  content := bufferOf [.code "import ".toList, .literal '\'' "a.dart".toList,
    .code ";\nf() => MaterialApp(home: Text(".toList, .literal '\'' "Hi".toList, .code "));\n".toList]

/-- The same source with its call. -/
def appEdited : Text :=
  "import 'a.dart';\nf() => MaterialApp(home: Text(L.of(context).hi));\n".toList

/-- The same source with the import, too. -/
def appImported : Text :=
  "import 'a.dart';\nimport 'l.dart';\nf() => MaterialApp(home: Text(L.of(context).hi));\n".toList

/-- What becomes of it. -/
def appOutcome : Outcome where
  content := ofText ("import 'a.dart';\nimport 'l.dart';\nf() => MaterialApp(\n".toList ++
    "  localizationsDelegates: L.localizationsDelegates,\n".toList ++
    "  supportedLocales: L.supportedLocales,home: Text(L.of(context).hi));\n".toList)
  replaced := 1
  importAdded := true
  delegatesAdded := true

/-- A literal, and another one that is constant for the sake of the same `const`. -/
def constText : Text := "f() => const Text('Hello', semanticsLabel: 'World');".toList

/-- The same text without the `const`, and with the call. -/
def constFreed : Text := "f() => Text(L.of(context).hello, semanticsLabel: 'World');".toList

/-- A literal, and the title of the app root behind it. -/
def titleText : Text := "f() => MaterialApp(home: Page(body: Text('Hello')), title: 'Demo');".toList

/-- What stands before the title once the app root is wired. -/
def titleFront : Text :=
  "f() => MaterialApp(\n  localizationsDelegates: ".toList ++
    "AppLocalizations.localizationsDelegates,\n  supportedLocales: ".toList ++
    "AppLocalizations.supportedLocales,home: Page(body: Text(".toList ++
    "AppLocalizations.of(context).hello)), title: ".toList

/-- What the passes over the three sources come to. They are computed together, since most of it is
to read the marks of code. -/
theorem passes :
    (collect appSource.filter {} (scan appSource.windows appSource.content)).2.2 =
      .ok [⟨"'Hi'".toList, 47, .text, "hi".toList, []⟩] ∧
    (collect (.ofExtra []) {} (scan {} constText)).2.2 =
      .ok [⟨"'Hello'".toList, 18, .text, "hello".toList, []⟩,
        ⟨"'World'".toList, 43, .text, "world".toList, []⟩] ∧
    (Feed.process { target := some ⟨ofText "L".toList, none⟩, content := constFreed } {}).2.2 =
      .ok ⟨ofText "f() => Text(L.of(context).hello, semanticsLabel: L.of(context).world);".toList,
        1, false, false, false, 0⟩ ∧
    (Feed.process {
        target := some ⟨ofText "AppLocalizations".toList, none⟩
        content := titleText } {}).2.2 =
      .ok ⟨ofText (titleFront ++ "'Demo');".toList), 1, false, true, false, 0⟩ ∧
    (Feed.process {
        target := some ⟨ofText "AppLocalizations".toList, none⟩
        content := titleFront ++ "'Demo');".toList } {}).2.2 =
      .ok ⟨ofText (titleFront ++ "AppLocalizations.of(context).demo);".toList), 1, false, false,
        false, 0⟩ := by
  decide +kernel

theorem tidy_appSource :
    appSource.Tidy ⟨ofText "L".toList, some (ofText "import 'l.dart';".toList)⟩ := by
  have plain {q : Char} (v : Text)
      (h : ∀ c ∈ v, c ≠ q ∧ c ≠ '\\' ∧ c ≠ '\n' ∧ c ≠ '$') : Inner q v := by
    induction v with
    | nil => exact .nil
    | cons c v ih =>
      obtain ⟨quote, escape, line, sign⟩ := h c (by simp)
      exact .plain quote escape line sign (ih fun d hd => h d (by simp [hd]))
  refine ⟨standing_lex ?_, by decide +kernel, ?_⟩
  · exact .code (by decide) (by decide) (by decide) <|
      .literal (by decide) (plain _ (by decide)) (by decide) <|
      .code (by decide) (by decide) (by decide) <|
      .literal (by decide) (plain _ (by decide)) (by decide) <|
      .code (by decide) (by decide) (by decide) .nil
  · intro edited applied
    have calls : applyAll (ofText appSource.content) ((appSource.calls {}).map Prod.snd) =
        ofText appEdited := by
      rw [calls_of_ok rfl passes.1, grantedIn, sites_of_ordered _ (by decide)]
      decide +kernel
    obtain rfl := ofText_injective (applied.symm.trans calls)
    refine ⟨fun _ => ⟨"import 'l.dart';".toList, rfl, ⟨by decide, by decide +kernel, ?_⟩, ?_⟩, ?_⟩
    · have directive : "import 'l.dart';".toList = bufferOf [.code "import ".toList,
          .literal '\'' "l.dart".toList, .code ";".toList] := rfl
      rw [directive]
      exact standing_lex <| .code (by decide) (by decide) (by decide) <|
        .literal (by decide) (plain _ (by decide)) (by decide) <|
        .code (by decide) (by decide) (by decide) .nil
    · have place : importPlace? appEdited = some 16 := by
        decide +kernel
      intro n hn
      obtain rfl := Option.some.inj (place.symm.trans hn)
      decide +kernel
    · have wired : imported ⟨ofText "L".toList, some (ofText "import 'l.dart';".toList)⟩
          (ofText appEdited) = ofText appImported := by
        decide +kernel
      rintro t ht - before head rest root
      obtain rfl := ofText_injective (wired.symm.trans ht)
      have found : appRoot? appImported = some
          ("import 'a.dart';\nimport 'l.dart';\nf() => ".toList, "MaterialApp(".toList,
            "home: Text(L.of(context).hi));\n".toList) := by
        decide +kernel
      obtain ⟨rfl, rfl, rfl⟩ : _ = before ∧ _ = head ∧ _ = rest := by
        simpa using found.symm.trans root
      refine ⟨(lex appImported).take 38, (lex appImported).drop 39, ?_⟩
      decide +kernel

theorem process_again_appSource :
    (appSource.process {}).2.2 = .ok appOutcome ∧ ∃ t, appOutcome.content = ofText t ∧
      (({ appSource with content := t } : Feed).process {}).2.2 =
        .ok (.unchanged appOutcome.content 0) := by
  have first : (appSource.process {}).2.2 = .ok appOutcome := by
    rw [process_of_collect rfl passes.1, Localizations.replace, plan,
      sites_of_ordered _ (by decide)]
    decide +kernel
  obtain ⟨t, content, -, settled⟩ := process_again (b := appSource) rfl rfl
    (by decide) tidy_appSource first
  refine ⟨first, t, content, settled ?_⟩
  intro n q inner keeps
  have free : ∀ x ∈ located 0 (lex appSource.content), x.2.isCode = true ∨
      ¬ (isAppTitle appSource.content x.1 appSource.windows.title = true ∨
        enclosingConst (mask appSource.content) x.1 ≠ none) := by
    decide +kernel
  exact (free _ keeps.literal).resolve_left (by simp [Lexeme.isCode]) keeps.reason

/-- A second pass replaces a literal of what the first pass made of a buffer. -/
def Unsettled (className content : Text) : Prop :=
  ∃ o t o', (Feed.process { target := some ⟨ofText className, none⟩, content } {}).2.2 = .ok o ∧
    o.content = ofText t ∧
      (Feed.process { target := some ⟨ofText className, none⟩, content := t } {}).2.2 = .ok o' ∧
        o'.replaced = 1 ∧ o'.content ≠ o.content

/-- Two buffers do not settle at once. The first pass takes the `const` away that kept a second literal
of the widget from being replaced; and what it puts in parts an app root from its title. -/
theorem second_pass_replaces :
    Unsettled "L".toList "f() => const Text('Hello', semanticsLabel: 'World');".toList ∧
      Unsettled "AppLocalizations".toList
        "f() => MaterialApp(home: Page(body: Text('Hello')), title: 'Demo');".toList := by
  obtain ⟨-, collected, freed, first, second⟩ := passes
  refine ⟨⟨⟨ofText constFreed, 1, false, false, false, 1⟩, constFreed, _, ?_, rfl, freed, rfl, ?_⟩,
    ⟨_, titleFront ++ "'Demo');".toList, _, first, rfl, second, rfl, ?_⟩⟩
  · rw [process_of_collect rfl collected, Localizations.replace, plan, sites_of_ordered _ (by decide)]
    decide +kernel
  · decide +kernel
  · decide +kernel

end Feed

end Localizer.Extraction
