import Localizer.Proofs.Extraction.Tally

/-!
# Dry runs

A dry run has the same plan as the run without it (`prepare_dryRun`). If no file is closed to
writing, the same becomes of every source in both, although one run reads files next to which others
were rewritten already (`visits_dryRun`). So the dry run predicts the other one
(`dryRun_predicts`): the same counts and lists, and for every file that is to be modified the diff
between its text and the text that the other run leaves in it.
-/

namespace Localizer.Extraction

open Text Message Resource Edit Log Workspace Project

/-! ## The plan -/

section

variable (s : Settings) (dry : Bool) (t : Tree)

theorem prepareFrom_dryRun (input : Path) :
    (prepareFrom { s with dryRun := dry } input t).2 = (prepareFrom s input t).2 := by
  have manifest : checkManifest { s with dryRun := dry } t = checkManifest s t := rfl
  have target (m : Option Manifest) :
      resolveTarget { s with dryRun := dry } t m = resolveTarget s t m := rfl
  have list : listSources { s with dryRun := dry } input t = listSources s input t := rfl
  simp only [prepareFrom, manifest, target, list]
  cases checkManifest s t with
  | error e => dsimp only
  | ok checked =>
    dsimp only
    cases (resolveTarget s t checked.1).2 <;> dsimp only

/-- Whether a run is dry does not matter to its plan. -/
theorem prepare_dryRun : (prepare { s with dryRun := dry } t).2 = (prepare s t).2 := by
  have input : { s with dryRun := dry }.inputPath = s.inputPath := rfl
  simp only [prepare, input]
  cases s.inputPath with
  | none => dsimp only
  | some path =>
    dsimp only
    split
    next => dsimp only
    next => dsimp only
    next => exact prepareFrom_dryRun s dry t path

end

/-! ## What becomes of the sources -/

theorem fates_dryRun {t : Tree} (free : t.unwritable = []) (o : FileOptions) (dry : Bool)
    (root : Path) (s : Session) (sources : List Source) :
    fates { o with dryRun := dry } root t s sources = fates o root t s sources := by
  have one (s : Session) (path : Path) :
      fate { o with dryRun := dry } t s path = fate o t s path := by
    simp [fate, free, FileOptions.feed]
  induction sources generalizing s with
  | nil => rfl
  | cons source sources ih =>
    rw [fates, fates, one, ih]
    rfl

/-- If no file is closed to writing, the same becomes of every source in a dry run. -/
theorem visits_dryRun {t : Tree} (free : t.unwritable = []) (plan : Plan) (s : Settings)
    (dry : Bool) : plan.visits { s with dryRun := dry } t = plan.visits s t :=
  fates_dryRun free (fileOptions s plan.target) dry s.root {} plan.sources

/-- A source that is modified had a text. -/
theorem readText_of_modified {o : FileOptions} {root : Path} {t : Tree} {s : Session}
    {sources : List Source} {source : Source} {old : Text} {new : Message}
    (mem : (source, Fate.modified old new) ∈ fates o root t s sources) :
    t.readText (root.child source.path) = .ok old := by
  induction sources generalizing s with
  | nil => simp [fates] at mem
  | cons first sources ih =>
    rcases List.mem_cons.1 mem with here | later
    · obtain ⟨rfl, here⟩ := Prod.mk.inj here
      exact (fate_eq_modified here.symm).1
    · exact ih later

/-! ## Diffs -/

section

variable {o : FileOptions} {root : Path} {visits : List (Source × Fate)}

/-- In a dry run there is one diff for each source that is modified. -/
theorem names_diffs (dry : o.dryRun = true) :
    Dictionary.names (visits.flatMap fun v => v.2.diffs o (v.1.label root)) =
      (visits.filter fun v => v.2.isModified).map fun v => v.1.label root := by
  induction visits with
  | nil => rfl
  | cons v visits ih =>
    rw [List.flatMap_cons, Dictionary.names, List.map_append, ← Dictionary.names,
      ← Dictionary.names, ih, List.filter_cons]
    obtain ⟨source, fate⟩ := v
    cases fate <;> simp [Fate.diffs, Fate.isModified, Dictionary.names, dry]

end

/-! ## The prediction -/

/-- What a dry run with the result `r` says of the run with the result `r'`, which leaves the files
as in `t'`. -/
structure Predicts (root : Path) (t t' : Tree) (r r' : Result) : Prop where
  scanned : r.scanned = r'.scanned
  modified : r.modified = r'.modified
  failed : r.failed = r'.failed
  resources : r.resources = r'.resources
  /-- There is a diff for each file that is modified, and no other. -/
  names : r.diffs.names.Perm r'.modified
  /-- The diff is that between the text before the run and the text after it. -/
  diffs : ∀ label ∈ r'.modified, ∃ bytes old new,
    t.content? (address (root.child (ofText label))) = some bytes ∧ Tree.decode bytes = .ok old ∧
    t'.content? (address (root.child (ofText label))) = some (Tree.encode new) ∧
    Dictionary.get? label r.diffs =
      some (Diff.unified ("a/".toList ++ label) ("b/".toList ++ label) old new)

/-- **A dry run changes nothing and predicts the run that is not dry.** -/
theorem dryRun_predicts {launch launch' : Launcher} {s : Settings} {t : Tree} {g g' : Ledger}
    {r r' : Result} (proper : t.root.Proper) (free : t.unwritable = [])
    (apart : SourcesApart (rooted s) t)
    (dry : run launch { s with dryRun := true } t none = (g, .ok r))
    (wet : run launch' { s with dryRun := false } t none = (g', .ok r')) :
    g.tree = t ∧ Predicts (rooted s).root t g'.tree r r' := by
  obtain ⟨plan, g₁, shown⟩ := exists_returned proper dry
  obtain ⟨plan', g₁', done⟩ := exists_returned proper wet
  -- both runs have the plan of the settings, and the same visits
  have prepared : (prepare (rooted s) t).2 = .ok plan :=
    (prepare_dryRun (rooted s) true t).symm.trans shown.prepared
  have prepared' : (prepare (rooted s) t).2 = .ok plan' :=
    (prepare_dryRun (rooted s) false t).symm.trans done.prepared
  obtain rfl : plan = plan' := Except.ok.inj (prepared.symm.trans prepared')
  have visits : plan.visits (rooted { s with dryRun := true }) t = plan.visits (rooted s) t :=
    visits_dryRun free plan (rooted s) true
  have visits' : plan.visits (rooted { s with dryRun := false }) t = plan.visits (rooted s) t :=
    visits_dryRun free plan (rooted s) false
  have apart' : SourcesApart (rooted { s with dryRun := false }) t := fun plan h =>
    apart plan ((prepare_dryRun (rooted s) false t).symm.trans h)
  have placed : WellPlaced (rooted s).root plan.sources := done.placed
  have names : r.diffs.names = ((plan.visits (rooted s) t).filter fun v => v.2.isModified).map
      fun v => v.1.label (rooted s).root := by
    rw [shown.diffs, visits]
    exact names_diffs rfl
  have modified : r'.modified = sort (((plan.visits (rooted s) t).filter
      fun v => v.2.isModified).map fun v => v.1.label (rooted s).root) := by
    rw [done.modified, visits']
    rfl
  refine ⟨shown.tree_of_dry rfl, ?_, ?_, ?_, shown.resources.trans done.resources.symm, ?_, ?_⟩
  · rw [shown.scanned, done.scanned, visits, visits']
  · rw [modified, shown.modified, visits]
    rfl
  · rw [shown.failed, done.failed, visits, visits']
    rfl
  · rw [names, modified]
    exact (List.mergeSort_perm _ _).symm
  · intro label mem
    rw [modified, sort, List.mem_mergeSort] at mem
    obtain ⟨⟨source, fate⟩, kept, rfl⟩ := List.mem_map.1 mem
    obtain ⟨visit, isModified⟩ := List.mem_filter.1 kept
    cases fate with
    | modified old new =>
      obtain ⟨bytes, found, decoded⟩ := Tree.readText_eq_ok (readText_of_modified visit)
      obtain ⟨text, encoded, content⟩ := done.stored apart' rfl (visits' ▸ visit)
      have known := List.mem_map_of_mem (f := Prod.fst) visit
      rw [Plan.visits, map_fst_fates] at known
      have place := placed.labels source known
      refine ⟨bytes, old, text, (congrArg t.content? place).trans found, decoded,
        (congrArg g'.tree.content? place).trans content, ?_⟩
      have distinct : r.diffs.names.Nodup := by
        have labels := placed.nodup_labels
        rw [← map_fst_fates (fileOptions (rooted s) plan.target) (rooted s).root t {} plan.sources,
          List.map_map] at labels
        rw [names]
        exact labels.sublist (List.filter_sublist.map _)
      refine Dictionary.get?_of_mem_of_nodup distinct ?_
      rw [shown.diffs, visits, ofText_of_toText? encoded]
      exact List.mem_flatMap.2 ⟨_, visit, List.mem_singleton.2 rfl⟩
    | _ => simp [Fate.isModified] at isModified

set_option maxRecDepth 100000 in
theorem dryRun_openProject :
    (run (fun _ => .noAnswer) { replacing with dryRun := true } openProject none).2 = .ok {
      scanned := 1
      modified := ["lib/a.dart".toList]
      failed := []
      resources := 1
      missing := []
      diffs := [("lib/a.dart".toList, ofText (["--- a/lib/a.dart", "+++ b/lib/a.dart",
        "@@ -1 +1 @@", "-f() => Text('Hello');+f() => Text(AppLocalizations.of(context).hello);"].map
          String.toList |> unlines))]
      dryRun := true
      published := {} } := by
  decide +kernel

theorem dryRun_predicts_openProject :
    openProject.root.Proper ∧ openProject.unwritable = [] ∧
      SourcesApart (rooted replacing) openProject ∧ ∃ g g' r r',
        run (fun _ => .noAnswer) { replacing with dryRun := true } openProject none = (g, .ok r) ∧
        run (fun _ => .noAnswer) { replacing with dryRun := false } openProject none =
          (g', .ok r') ∧
        r.modified = ["lib/a.dart".toList] ∧
        g.tree = openProject ∧ Predicts (rooted replacing).root openProject g'.tree r r' := by
  have proper : openProject.root.Proper := by decide
  have apart : SourcesApart (rooted replacing) openProject := by decide +kernel
  have dry : run (fun _ => .noAnswer) { replacing with dryRun := true } openProject none =
      (_, .ok _) := Prod.ext rfl dryRun_openProject
  have wet : run (fun _ => .noAnswer) { replacing with dryRun := false } openProject none =
      (_, .ok _) := Prod.ext rfl run_openProject
  obtain ⟨tree, predicts⟩ := dryRun_predicts proper rfl apart dry wet
  exact ⟨proper, rfl, apart, _, _, _, _, dry, wet, rfl, tree, predicts⟩

end Localizer.Extraction
