import Localizer.Proofs.Diff.Usable
import Localizer.Proofs.Extraction.Run

/-!
# The diffs of a dry run

A dry run keeps the diff of each file whose text would be another one. The diff is a patch for the
file just if it can be read (`processFile_keeps_patch`): if the label of the file has no newline,
and every line of the hunks but the last ends in one. A source without a newline at its end whose
last line is replaced has a diff that cannot be read (`kept_diff_is_no_patch`).
-/

namespace Localizer.Extraction

open Text Message Resource Edit Log Workspace Diff

/-- A buffer whose text is another one afterwards had literals replaced. -/
theorem changed_of_replace {l : Localizations} {content : Text} {rs : List Replacement}
    {r : Outcome} (h : l.replace content rs = .ok r) (differ : ofText content ≠ r.content) :
    r.changed = true := by
  simp only [Localizations.replace, bind, Except.bind] at h
  split at h
  next => simp at h
  next p _ =>
    split at h
    next =>
      obtain rfl := Except.ok.inj h
      exact absurd rfl differ
    next some_ =>
      obtain rfl := Except.ok.inj h
      rw [Outcome.changed, decide_eq_true_eq]
      exact List.length_pos_iff.2 (by simpa using some_)

theorem changed_of_process {b : Feed} {s : Session} {r : Outcome}
    (h : (b.process s).2.2 = .ok r) (differ : ofText b.content ≠ r.content) : r.changed = true := by
  simp only [Feed.process, processSource] at h
  split at h
  next => simp at h
  next =>
    obtain rfl := Except.ok.inj h
    exact absurd rfl differ
  next =>
    obtain rfl := Except.ok.inj h
    exact absurd rfl differ
  next rs l _ _ _ =>
    cases replaced : l.replace b.content rs with
    | error e => simp [replaced, Except.mapError] at h
    | ok o =>
      obtain rfl : o = r := by simpa [replaced, Except.mapError] using h
      exact changed_of_replace replaced differ

/-- How far a diff that is kept under a label is a patch of a file. -/
structure PatchAsFarAsLegible (label : Text) (diff old new : Message) : Prop where
  /-- It makes the new lines of the old ones just if it can be read. -/
  isPatch_iff : IsPatch brokenLines ("a/".toList ++ label) ("b/".toList ++ label) diff old new ↔
    '\n' ∉ label ∧ Legible old new
  /-- So it does for lines that end at newlines, if nothing else ends a line. -/
  isPatch_iff_of_plain (oldPlain : old.Plain) (newPlain : new.Plain) :
    IsPatch newlineLines ("a/".toList ++ label) ("b/".toList ++ label) diff old new ↔
      '\n' ∉ label ∧ Legible old new
  /-- It can be read if every line ends in a newline. -/
  legible (ended : ∀ l ∈ old.brokenLines ++ new.brokenLines, Ended l) : Legible old new
  /-- It cannot be read if neither text ends in a newline and their last lines differ. -/
  not_legible (oldPlain : old.Plain) (newPlain : new.Plain) {l l' : Message}
    (oldLast : old.brokenLines.getLast? = some l) (newLast : new.brokenLines.getLast? = some l')
    (oldOpen : ¬Ended l) (newOpen : ¬Ended l') (differ : l ≠ l') : ¬Legible old new

theorem patchAsFarAsLegible_unified {label : Text} {old new : Message} (differ : old ≠ new) :
    PatchAsFarAsLegible label (unified ("a/".toList ++ label) ("b/".toList ++ label) old new) old
      new := by
  have isPatch : IsPatch brokenLines ("a/".toList ++ label) ("b/".toList ++ label)
      (unified ("a/".toList ++ label) ("b/".toList ++ label) old new) old new ↔
        '\n' ∉ label ∧ Legible old new := by
    rw [isPatch_unified_iff differ]
    simp
  exact {
    isPatch_iff := isPatch
    isPatch_iff_of_plain := fun oldPlain newPlain => by
      rw [← isPatch, IsPatch, IsPatch, oldPlain.newlineLines_eq, newPlain.newlineLines_eq]
    legible := legible_of_ended
    not_legible := not_legible_of_last }

variable {o : FileOptions} {g : Ledger} {path : Path} {content : Text} {r : Outcome}

/-- A dry run keeps the diff of a buffer, whatever was kept under the name before. -/
theorem store_keeps_diff (dry : o.dryRun = true) (g : Ledger) (path : Path) (label content : Text)
    (r : Outcome) :
    ∃ g', store o g path label content r = (g', .ok true) ∧
      g'.diffs.get? label =
        some (unified ("a/".toList ++ label) ("b/".toList ++ label) content r.content) := by
  refine ⟨_, by rw [store, if_pos dry], ?_⟩
  unfold Ledger.markModified
  split <;> simp [Dictionary.get?_set]

/-- A file whose literals are replaced is stored. -/
theorem exists_processFile_eq_store (target : o.target.isSome = true)
    (read : g.tree.readText path = .ok content)
    (result : ((o.feed content).process g.session).2.2 = .ok r) (changed : r.changed = true)
    (display : Text) :
    ∃ g₁, processFile o g path display = store o g₁ path (labelOf path display) content r := by
  have outcome : (processSource o.windows o.filter o.target g.session content).2.2 = .ok r := result
  have goesOn : (o.target.isNone || !r.changed) = false := by
    simp [Option.isNone_eq_false_iff, target, changed]
  simp only [processFile, read, outcome, goesOn, Bool.false_eq_true, if_false]
  exact ⟨_, rfl⟩

/-- **The diff that a dry run keeps.** A file whose literals are replaced is noted, and its diff is
kept; that is a patch as far as it can be read. -/
theorem processFile_keeps_patch (dry : o.dryRun = true) (target : o.target.isSome = true)
    (read : g.tree.readText path = .ok content)
    (result : ((o.feed content).process g.session).2.2 = .ok r)
    (differ : ofText content ≠ r.content) (display : Text) :
    ∃ g' diff, processFile o g path display = (g', .ok true) ∧
      g'.diffs.get? (labelOf path display) = some diff ∧
      PatchAsFarAsLegible (labelOf path display) diff content r.content := by
  have changed : r.changed = true := changed_of_process result differ
  obtain ⟨g₁, stored⟩ := exists_processFile_eq_store target read result changed display
  obtain ⟨g', kept, diff⟩ := store_keeps_diff dry g₁ path (labelOf path display) content r
  exact ⟨g', _, stored.trans kept, diff, patchAsFarAsLegible_unified differ⟩

/-- Replace literals, with no texts that mark those to be left alone, and keep diffs. -/
def showing : FileOptions where
  filter := { patterns := [] }
  target := some { className := "L".toList }
  dryRun := true

/-- A project with one source. -/
def opened (content : Text) : Ledger where
  tree := oneSource content []

theorem readText_opened (content : Text) :
    (opened content).tree.readText (.ofText "/lib/a.dart".toList) = .ok content := by
  have place : (opened content).tree.namesOf (.ofText "/lib/a.dart".toList) =
      .ok ["lib".toList, "a.dart".toList] := rfl
  have found : (opened content).tree.root.get? ["lib".toList, "a.dart".toList] =
      some (.file (Tree.encode content)) := rfl
  simp only [Tree.readText, Tree.read, place, bind, Except.bind]
  rw [found]
  exact Tree.decode_encode content

set_option maxRecDepth 100000 in
theorem processFile_keeps_patch_greeting :
    ∃ g' diff, processFile showing (opened "f() => Text('Hello');\n".toList)
        (.ofText "/lib/a.dart".toList) "lib/a.dart".toList = (g', .ok true) ∧
      g'.diffs.get? "lib/a.dart".toList = some diff ∧
      IsPatch newlineLines "a/lib/a.dart".toList "b/lib/a.dart".toList diff
        "f() => Text('Hello');\n".toList "f() => Text(L.of(context).hello);\n".toList := by
  let r : Outcome := { content := "f() => Text(L.of(context).hello);\n".toList, replaced := 1 }
  have read := readText_opened "f() => Text('Hello');\n".toList
  have result : ((showing.feed "f() => Text('Hello');\n".toList).process {}).2.2 = .ok r := by
    decide +kernel
  have differ : ofText "f() => Text('Hello');\n".toList ≠ r.content := by decide +kernel
  obtain ⟨g', diff, kept, found, reads⟩ :=
    processFile_keeps_patch rfl rfl read result differ "lib/a.dart".toList
  refine ⟨g', diff, kept, found, (reads.isPatch_iff_of_plain ?_ ?_).2 ⟨?_, reads.legible ?_⟩⟩
  all_goals decide +kernel

/-- The last line of the source and its new text, neither with a newline, have become one line. -/
def joinedDiff : Message :=
  ("--- a/lib/a.dart\n+++ b/lib/a.dart\n@@ -1 +1 @@\n".toList ++
    "-f() => Text('Hello');+f() => Text(L.of(context).hello);".toList : Text)

set_option maxRecDepth 100000 in
/-- The diff that is kept of a source without a newline at its end is no patch. -/
theorem kept_diff_is_no_patch :
    ∃ g', processFile showing (opened "f() => Text('Hello');".toList)
        (.ofText "/lib/a.dart".toList) "lib/a.dart".toList = (g', .ok true) ∧
      g'.diffs.get? "lib/a.dart".toList = some joinedDiff ∧
      patched? "a/lib/a.dart".toList "b/lib/a.dart".toList (newlineLines joinedDiff)
        (newlineLines (ofText "f() => Text('Hello');".toList)) = none := by
  let r : Outcome := { content := "f() => Text(L.of(context).hello);".toList, replaced := 1 }
  have read := readText_opened "f() => Text('Hello');".toList
  have result : ((showing.feed "f() => Text('Hello');".toList).process {}).2.2 = .ok r := by
    decide +kernel
  obtain ⟨g₁, stored⟩ := exists_processFile_eq_store rfl read result rfl "lib/a.dart".toList
  obtain ⟨g', kept, found⟩ := store_keeps_diff (o := showing) rfl g₁ (.ofText "/lib/a.dart".toList)
    "lib/a.dart".toList "f() => Text('Hello');".toList r
  have diff : unified "a/lib/a.dart".toList "b/lib/a.dart".toList
      (ofText "f() => Text('Hello');".toList) r.content = joinedDiff := by
    decide +kernel
  exact ⟨g', stored.trans kept, found.trans (congrArg some diff), by decide +kernel⟩

end Localizer.Extraction
