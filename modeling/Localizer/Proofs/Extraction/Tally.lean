import Localizer.Proofs.Extraction.Rounds
import Localizer.Proofs.Extraction.Visits

/-!
# The tally of a run

A run that returns has visited each of its sources once, and what became of them is known from the
tree before the run (`exists_returned`). So its result can be computed from that (`run_tallies`): how
many files were read, which failed and which were modified. Apart from the modified sources only the
files of the results differ afterwards, and if a source was modified, the resource file holds the key
of every call that was put in.
-/

namespace Localizer.Extraction

open Text Message Resource Edit Log Workspace Project

/-! ## Runs that return -/

/-- The sources of a plan were discovered below its input. -/
theorem discover_of_prepare {s : Settings} {t : Tree} {plan : Plan}
    (h : (prepare s t).2 = .ok plan) : ∃ input dir, s.inputPath = some input ∧
      s.outputDir = .text dir ∧
      t.discover s.root (some input) (excludes s dir) = .ok plan.sources := by
  unfold prepare at h
  split at h
  next => simp at h
  next input given =>
    split at h
    next => simp at h
    next => simp at h
    next =>
      unfold prepareFrom at h
      dsimp only at h
      split at h
      next => simp at h
      next manifest missing _ =>
        split at h
        next => simp at h
        next target _ =>
          unfold listSources at h
          split at h
          next => simp [Except.map] at h
          next dir output =>
            dsimp only at h
            split at h
            next => simp [Except.map] at h
            next sources found =>
              obtain rfl := Except.ok.inj h
              exact ⟨input, dir, given, output, found⟩

theorem wellPlaced_of_prepare {s : Settings} {t : Tree} {plan : Plan} (proper : t.root.Proper)
    (h : (prepare (rooted s) t).2 = .ok plan) : WellPlaced (rooted s).root plan.sources := by
  obtain ⟨_, _, -, -, found⟩ := discover_of_prepare h
  obtain ⟨r, -, -, -, hroot, -⟩ := Tree.discover_eq_ok_iff.1 found
  have same : r = (rooted s).root := (resolved_eq_ok hroot).trans (resolve_resolve s.root)
  exact wellPlaced_of_discover proper (same ▸ isResolved_of_resolved hroot) found

/-- What becomes of the sources of a plan. -/
def Plan.visits (plan : Plan) (s : Settings) (t : Tree) : List (Source × Fate) :=
  fates (fileOptions s plan.target) s.root t {} plan.sources

/-- The session after the sources of a plan. -/
def Plan.session (plan : Plan) (s : Settings) (t : Tree) : Session :=
  Session.visits {} (fileOptions s plan.target) s.root t plan.sources

/-- What a run that returns has done: the ledger `g₁` has its sources, and `g` its results too. -/
structure Returned (launch : Launcher) (s : Settings) (t : Tree) (plan : Plan) (g₁ g : Ledger)
    (r : Result) : Prop where
  prepared : (prepare s t).2 = .ok plan
  placed : WellPlaced s.root plan.sources
  session : g₁.session = plan.session s t
  visited : Visited (fileOptions s plan.target) s.root
    (plan.visits s t) (.before s t) g₁
  logFile : g₁.logFile = none
  published : ∃ published, publish launch s g₁ = (g, .ok published) ∧
    r = g.result s plan.missing published

section

variable {launch : Launcher} {s : Settings} {t : Tree} {plan : Plan} {g₁ g : Ledger} {r : Result}

theorem exists_returned (proper : t.root.Proper) (h : run launch s t none = (g, .ok r)) :
    ∃ plan g₁, Returned launch (rooted s) t plan g₁ g r := by
  have step := runStep_run launch s t
  rw [h] at step
  cases step with
  | @returned plan g₁ _ published prepared sources results =>
    have placed := wellPlaced_of_prepare proper prepared
    have logFile := logFile_processed (rooted s) t plan
    rw [sources] at logFile
    obtain ⟨session, visited⟩ := visited_processSources (t := t) (g := .before (rooted s) t) rfl
      (.refl t) (fun _ _ => rfl) placed.places placed.nodup_labels
      (fun _ _ => ⟨List.not_mem_nil, List.not_mem_nil⟩) sources
    exact ⟨plan, g₁, prepared, placed, session, visited, logFile, published, results, rfl⟩

namespace Returned

theorem work (h : Returned launch s t plan g₁ g r) : SameWork g₁ g := by
  obtain ⟨published, results, -⟩ := h.published
  have work := (publish_spec launch s h.logFile).1
  rwa [results] at work

theorem content? (h : Returned launch s t plan g₁ g r) {names : List Text}
    (apart : names ∉ resultAddresses s) : g.tree.content? names = g₁.tree.content? names := by
  obtain ⟨published, results, -⟩ := h.published
  have others := (publish_spec launch s h.logFile).2 names apart
  rwa [results] at others

theorem scanned (h : Returned launch s t plan g₁ g r) : r.scanned =
    (plan.visits s t).countP fun v => v.2.isRead := by
  obtain ⟨published, -, rfl⟩ := h.published
  exact (h.work.scanned.trans h.visited.scanned).trans (Nat.zero_add _)

theorem failed (h : Returned launch s t plan g₁ g r) : r.failed =
    ((plan.visits s t).filter fun v => v.2.isFailed).map
      fun v => v.1.label s.root := by
  obtain ⟨published, -, rfl⟩ := h.published
  exact h.work.failed.trans h.visited.failed

theorem modified (h : Returned launch s t plan g₁ g r) : r.modified =
    sort (((plan.visits s t).filter
      fun v => v.2.isModified).map fun v => v.1.label s.root) := by
  obtain ⟨published, -, rfl⟩ := h.published
  exact congrArg sort (h.work.modified.trans h.visited.modified)

theorem resources (h : Returned launch s t plan g₁ g r) : r.resources =
    (plan.session s t).table.size := by
  obtain ⟨published, -, rfl⟩ := h.published
  exact congrArg (fun session : Session => session.table.size) (h.work.session.trans h.session)

theorem diffs (h : Returned launch s t plan g₁ g r) : r.diffs =
    (plan.visits s t).flatMap fun v =>
      v.2.diffs (fileOptions s plan.target) (v.1.label s.root) := by
  obtain ⟨published, -, rfl⟩ := h.published
  exact h.work.diffs.trans h.visited.diffs

end Returned

end

/-! ## What is recorded -/

theorem consistent_visit {s : Session} (h : s.Consistent) (o : FileOptions) (t : Tree)
    (path : Path) : (s.visit o t path).Consistent ∧ s.Extends (s.visit o t path) := by
  unfold Session.visit
  split
  next => exact ⟨h, .refl s⟩
  next => exact h.feed _

theorem consistent_visits {s : Session} (h : s.Consistent) (o : FileOptions) (root : Path)
    (t : Tree) (sources : List Source) :
    (s.visits o root t sources).Consistent ∧ s.Extends (s.visits o root t sources) := by
  induction sources generalizing s with
  | nil => exact ⟨h, .refl s⟩
  | cons source sources ih =>
    obtain ⟨first, ext⟩ := consistent_visit h o t (root.child source.path)
    obtain ⟨later, ext'⟩ := ih first
    exact ⟨later, ext.trans ext'⟩

/-- If a source was modified, something was recorded. -/
theorem recorded_of_modified {o : FileOptions} {root : Path} {t : Tree} {s : Session}
    {sources : List Source} {source : Source} {old : Text} {new : Message} (h : s.Consistent)
    (mem : (source, Fate.modified old new) ∈ fates o root t s sources) :
    (s.visits o root t sources).table.recorded ≠ [] := by
  induction sources generalizing s with
  | nil => simp [fates] at mem
  | cons first sources ih =>
    obtain ⟨consistent, -⟩ := consistent_visit h o t (root.child first.path)
    rcases List.mem_cons.1 mem with here | later
    · obtain ⟨rfl, here⟩ := Prod.mk.inj here
      obtain ⟨read, target, r, result, changed, -⟩ := fate_eq_modified here.symm
      have recorded := recorded_of_changed h target result changed
      have ext := (consistent_visits consistent o root t sources).2.table
      rw [Session.visits_cons]
      intro empty
      rw [empty, List.prefix_nil, Session.visit, read] at ext
      exact recorded ext
    · exact ih consistent later

/-! ## The tally -/

/-- The resource file is none of the sources. -/
def SourcesApart (s : Settings) (t : Tree) : Prop :=
  ∀ plan, (prepare s t).2 = .ok plan → ∀ arb, s.arbPath = some arb →
    ∀ source ∈ plan.sources, source.place s.root ≠ address arb

instance (s : Settings) (t : Tree) : Decidable (SourcesApart s t) :=
  decidable_of_iff (∀ plan ∈ (prepare s t).2.toOption, ∀ arb ∈ s.arbPath,
      ∀ source ∈ plan.sources, source.place s.root ≠ address arb) <| by
    unfold SourcesApart
    cases (prepare s t).2 <;> simp [Except.toOption]

/-- No source is a file of the results. -/
theorem place_not_mem_resultAddresses {s : Settings} {t : Tree} {plan : Plan}
    (apart : SourcesApart s t) (prepared : (prepare s t).2 = .ok plan)
    (placed : WellPlaced s.root plan.sources) {source : Source} (mem : source ∈ plan.sources) :
    source.place s.root ∉ resultAddresses s := by
  have config : address (generatorConfigPath s) = s.root.names ++ ["l10n.yaml".toList] := by
    have names : ∀ name ∈ ["l10n.yaml".toList], ProperName name := by decide
    rw [← address_child_join placed.resolved names]
    rfl
  intro result
  simp only [resultAddresses, List.mem_append, Option.mem_toList, Option.map_eq_some_iff,
    List.mem_singleton] at result
  rcases result with ⟨arb, harb, eq⟩ | eq
  · exact apart plan prepared arb harb source mem eq.symm
  · obtain ⟨around, name, place, named⟩ := placed.named source mem
    rw [place, config] at eq
    obtain ⟨-, last⟩ := List.append_inj' eq rfl
    rw [List.singleton_inj.1 last] at named
    exact absurd named (by decide)

/-- The tally of a run: everything in its result is known from the tree before it. -/
structure Tallied (s : Settings) (t : Tree) (plan : Plan) (g : Ledger) (r : Result) : Prop where
  /-- One thing becomes of each source. -/
  once : ∀ source ∈ plan.sources, ∃! fate, (source, fate) ∈ plan.visits s t
  /-- The visits are those of the sources, in order. -/
  order : (plan.visits s t).map Prod.fst = plan.sources
  /-- Sources are noted under different names. -/
  distinct : (plan.sources.map (Source.label s.root)).Nodup
  scanned : r.scanned = (plan.visits s t).countP fun v => v.2.isRead
  failed : r.failed = ((plan.visits s t).filter fun v => v.2.isFailed).map
    fun v => v.1.label s.root
  modified : r.modified = sort (((plan.visits s t).filter fun v => v.2.isModified).map
    fun v => v.1.label s.root)
  /-- A file that changes is one of the results or that of a source that was modified. -/
  changed : ∀ names, g.tree.content? names ≠ t.content? names → s.dryRun = false ∧
    (names ∈ resultAddresses s ∨
      ∃ v ∈ plan.visits s t, v.2.isModified = true ∧ v.1.place s.root = names)
  /-- A source that was modified holds its new text. -/
  stored : s.dryRun = false → ∀ source old new, (source, Fate.modified old new) ∈ plan.visits s t →
    ∃ text, new.toText? = some text ∧
      g.tree.content? (source.place s.root) = some (Tree.encode text)
  /-- If a source was modified, the resource file is written and has the keys of all calls. -/
  published : r.modified ≠ [] → s.dryRun = false → ∃ arb text, s.arbPath = some arb ∧
    (Arb.render (Arb.document g.session.table (memberOf s.locale))).toText? = some text ∧
    g.tree.content? (address arb) = some (Tree.encode text) ∧
    ∀ key ∈ runCalls s t, ofText key ∈ arbNames s g.tree

/-- Publishing changes no file in a dry run. -/
theorem tree_publish_of_dry (launch : Launcher) {s : Settings} {g : Ledger}
    (h : g.logFile = none) (dry : s.dryRun = true) : (publish launch s g).1.tree = g.tree := by
  unfold publish
  dsimp only
  split
  next => exact Ledger.tree_log h _
  next =>
    split
    next => exact Ledger.tree_log h _
    next => exact (Ledger.tree_log (by exact h) _).trans (Ledger.tree_log h _)

namespace Returned

variable {launch : Launcher} {s : Settings} {t : Tree} {plan : Plan} {g₁ g : Ledger} {r : Result}

theorem tree_of_dry (h : Returned launch s t plan g₁ g r) (dry : s.dryRun = true) : g.tree = t := by
  obtain ⟨published, results, -⟩ := h.published
  have tree := tree_publish_of_dry launch h.logFile dry
  rw [results] at tree
  exact tree.trans (h.visited.dry dry)

theorem exists_modified (h : Returned launch s t plan g₁ g r) (nonempty : r.modified ≠ []) :
    ∃ source old new, (source, Fate.modified old new) ∈ plan.visits s t := by
  by_contra none
  have unmodified : ∀ v ∈ plan.visits s t, ¬v.2.isModified = true := by
    rintro ⟨source, fate⟩ mem modified
    cases fate with
    | modified old new => exact none ⟨source, old, new, mem⟩
    | _ => simp [Fate.isModified] at modified
  exact nonempty (by rw [h.modified, List.filter_eq_nil_iff.2 unmodified, List.map_nil, sort,
    List.mergeSort_nil])

/-- The text that the run leaves in a source that was modified. -/
theorem stored (h : Returned launch s t plan g₁ g r) (apart : SourcesApart s t)
    (wet : s.dryRun = false) {source : Source} {old : Text} {new : Message}
    (mem : (source, Fate.modified old new) ∈ plan.visits s t) : ∃ text,
      new.toText? = some text ∧ g.tree.content? (source.place s.root) = some (Tree.encode text) := by
  obtain ⟨text, encoded, content⟩ := h.visited.stored wet source old new mem
  have known := List.mem_map_of_mem (f := Prod.fst) mem
  rw [Plan.visits, map_fst_fates] at known
  refine ⟨text, encoded, ?_⟩
  rw [h.content? (place_not_mem_resultAddresses apart h.prepared h.placed known), content]

theorem existsUnique_fate (h : Returned launch s t plan g₁ g r) {source : Source}
    (mem : source ∈ plan.sources) : ∃! fate, (source, fate) ∈ plan.visits s t := by
  have order : (plan.visits s t).map Prod.fst = plan.sources := map_fst_fates ..
  have distinct : ((plan.visits s t).map Prod.fst).Nodup := by
    rw [order]
    exact .of_map _ h.placed.places
  rw [← order] at mem
  obtain ⟨⟨_, fate⟩, visit, rfl⟩ := List.mem_map.1 mem
  refine ⟨fate, visit, fun other mem' => ?_⟩
  exact (Prod.mk.inj (List.inj_on_of_nodup_map distinct mem' visit rfl)).2

theorem changed (h : Returned launch s t plan g₁ g r) {names : List Text}
    (differs : g.tree.content? names ≠ t.content? names) : s.dryRun = false ∧
      (names ∈ resultAddresses s ∨
        ∃ v ∈ plan.visits s t, v.2.isModified = true ∧ v.1.place s.root = names) := by
  have wet : s.dryRun = false := by
    by_contra dry
    exact differs (by rw [h.tree_of_dry (by simpa using dry)])
  refine ⟨wet, ?_⟩
  by_contra other
  obtain ⟨outside, unmodified⟩ := not_or.1 other
  refine differs ((h.content? outside).trans (h.visited.others names ?_))
  exact fun v mem modified place => unmodified ⟨v, mem, modified, place⟩

/-- If a source was modified, the resource file holds the document of the table. -/
theorem written (h : Returned launch s t plan g₁ g r) (apart : ResultsApart s)
    (nonempty : r.modified ≠ []) (wet : s.dryRun = false) :
    g.session.table.recorded ≠ [] ∧ ∃ arb text, s.arbPath = some arb ∧
      (Arb.render (Arb.document g.session.table (memberOf s.locale))).toText? = some text ∧
      g.tree.content? (address arb) = some (Tree.encode text) := by
  obtain ⟨source, old, new, mem⟩ := h.exists_modified nonempty
  have recorded : g₁.session.table.recorded ≠ [] := by
    rw [h.session]
    exact recorded_of_modified Session.consistent_empty mem
  obtain ⟨published, results, -⟩ := h.published
  have done := publish_eq_ok h.logFile wet (congrArg Prod.snd results)
  rw [results] at done
  obtain ⟨-, arb, harb, holds⟩ := done.resolve_left fun none => recorded none.1
  obtain ⟨text, encoded, content⟩ := holds (apart arb harb)
  rw [← h.work.session] at recorded encoded
  exact ⟨recorded, arb, text, harb, encoded, content⟩

end Returned

/-- **The tally of a run that returns.** -/
theorem run_tallies {launch : Launcher} {s : Settings} {t : Tree} {g : Ledger} {r : Result}
    (proper : t.root.Proper) (apart : ResultsApart (rooted s))
    (sourcesApart : SourcesApart (rooted s) t) (h : run launch s t none = (g, .ok r)) :
    ∃ plan, (prepare (rooted s) t).2 = .ok plan ∧ Tallied (rooted s) t plan g r := by
  obtain ⟨plan, g₁, returned⟩ := exists_returned proper h
  refine ⟨plan, returned.prepared, fun _ mem => returned.existsUnique_fate mem, map_fst_fates ..,
    returned.placed.nodup_labels, returned.scanned, returned.failed, returned.modified,
    fun _ differs => returned.changed differs,
    fun wet source old new mem => returned.stored sourcesApart wet mem, ?_⟩
  intro nonempty wet
  obtain ⟨recorded, arb, text, harb, encoded, content⟩ := returned.written apart nonempty wet
  have returns := runReturns_run (s := s) wet apart h
  refine ⟨arb, text, harb, encoded, content, fun key mem => ?_⟩
  have known := returns.calls key mem
  exact (returns.something recorded key (returns.consistent.sign_not_mem_key known)).2 known

/-- One source, and no file that is closed. -/
def openProject : Tree := oneSource "f() => Text('Hello');".toList []

set_option maxRecDepth 100000 in
theorem run_openProject :
    (run (fun _ => .noAnswer) replacing openProject none).2 = .ok {
      scanned := 1
      modified := ["lib/a.dart".toList]
      failed := []
      resources := 1
      missing := []
      diffs := []
      dryRun := false
      published := {
        arbPath := replacing.arbPath
        configPath := some (generatorConfigPath replacing) } } := by
  decide +kernel

theorem run_tallies_openProject :
    openProject.root.Proper ∧ ResultsApart (rooted replacing) ∧
      SourcesApart (rooted replacing) openProject ∧ ∃ g r plan,
        run (fun _ => .noAnswer) replacing openProject none = (g, .ok r) ∧
        r.modified = ["lib/a.dart".toList] ∧
        (prepare (rooted replacing) openProject).2 = .ok plan ∧
        Tallied (rooted replacing) openProject plan g r := by
  have proper : openProject.root.Proper := by decide
  have apart : SourcesApart (rooted replacing) openProject := by decide +kernel
  have returned : run (fun _ => .noAnswer) replacing openProject none = (_, .ok _) :=
    Prod.ext rfl run_openProject
  obtain ⟨plan, prepared, tallied⟩ := run_tallies proper resultsApart_replacing apart returned
  exact ⟨proper, resultsApart_replacing, apart, _, _, plan, returned, rfl, prepared, tallied⟩

end Localizer.Extraction
