import Localizer.Proofs.Extraction.Results
import Localizer.Proofs.Workspace.Place

/-!
# What a run leaves behind

A run goes through its stages until one of them fails (`runStep_run`). Sources are stored one after
the other and the results are written last, so that a run that fails may have changed sources.
`run_failure` bounds what it can have done: apart from the files of the results, a file that is not
as it was is that of a source noted as modified, and its new text is complete. A run that fails
because the project lacks what it needs has changed nothing.
-/

namespace Localizer.Extraction

open Text Message Resource Log Workspace Project

/-! ## The stages of a run -/

/-- The settings with the root that a run works on. -/
def rooted (s : Settings) : Settings := { s with root := s.root.resolve }

/-- The ledger of a run before it processes its sources. -/
def Ledger.before (s : Settings) (t : Tree) : Ledger :=
  { tree := t, records := (prepare s t).1 }

/-- The ledger of a run after it processed the sources of a plan, and whether all of them went
well. -/
def processed (s : Settings) (t : Tree) (plan : Plan) : Ledger × Except FileError Unit :=
  processSources (fileOptions s plan.target) s.root (.before s t) plan.sources

/-- How a run over a tree can end. -/
inductive RunStep (launch : Launcher) (s : Settings) (t : Tree) :
    Ledger × Except RunError Result → Prop
  /-- The root cannot be looked up, or the project is not as it should be. -/
  | stopped {g : Ledger} {e : RunError} (tree : g.tree = t) (modified : g.modified = []) :
    RunStep launch s t (g, .error e)
  /-- A source fails. -/
  | failed {plan : Plan} {g : Ledger} {e : FileError} (prepared : (prepare s t).2 = .ok plan)
    (sources : processed s t plan = (g, .error e)) : RunStep launch s t (g, .error (.file e))
  /-- The results cannot be published. -/
  | unpublished {plan : Plan} {g g' : Ledger} {e : RunError}
    (prepared : (prepare s t).2 = .ok plan) (sources : processed s t plan = (g, .ok ()))
    (results : publish launch s g = (g', .error e)) : RunStep launch s t (g', .error e)
  /-- The run returns. -/
  | returned {plan : Plan} {g g' : Ledger} {published : Published}
    (prepared : (prepare s t).2 = .ok plan) (sources : processed s t plan = (g, .ok ()))
    (results : publish launch s g = (g', .ok published)) :
    RunStep launch s t (g', .ok (g'.result s plan.missing published))

theorem runStep_runResolved (launch : Launcher) (s : Settings) (t : Tree) :
    RunStep launch s t (runResolved launch s { tree := t }) := by
  have before : Ledger.log { tree := t } (prepare s t).1 = .before s t := by
    simp [Ledger.log, Ledger.before]
  simp only [runResolved, before]
  split
  next => exact .stopped rfl rfl
  next plan prepared =>
    split
    next sources => exact .failed prepared sources
    next sources =>
      split
      next results => exact .unpublished prepared sources results
      next results => exact .returned prepared sources results

/-- **The stages of a run.** -/
theorem runStep_run (launch : Launcher) (s : Settings) (t : Tree) :
    RunStep launch (rooted s) t (run launch s t none) := by
  simp only [run]
  split
  next => exact .stopped rfl rfl
  next root hroot =>
    rw [resolved_eq_ok hroot]
    exact runStep_runResolved launch (rooted s) t

/-- A run whose sources went well goes on to publish. -/
theorem run_of_processed {launch : Launcher} {s : Settings} {t : Tree} {plan : Plan} {g : Ledger}
    (hroot : resolved s.root = .ok (rooted s).root)
    (prepared : (prepare (rooted s) t).2 = .ok plan)
    (sources : processed (rooted s) t plan = (g, .ok ())) :
    run launch s t none = match publish launch (rooted s) g with
      | (g, .error e) => (g, .error e)
      | (g, .ok published) => (g, .ok (g.result (rooted s) plan.missing published)) := by
  have start : run launch s t none = runResolved launch (rooted s) { tree := t } := by
    rw [run, hroot]
    rfl
  have before : Ledger.log { tree := t } (prepare (rooted s) t).1 = .before (rooted s) t := by
    simp [Ledger.log, Ledger.before]
  rw [processed] at sources
  rcases results : publish launch (rooted s) g with ⟨g', answer⟩
  cases answer <;> simp only [start, runResolved, before, prepared, sources, results]

/-- What the sources of a run make of the files. -/
theorem contents_processed (s : Settings) (t : Tree) (plan : Plan)
    (encodable : (processed s t plan).2 ≠ .error (.access .notEncodable)) (names : List Text) :
    (processed s t plan).1.tree.content? names = t.content? names ∨
      Replaced (fileOptions s plan.target) s.root plan.sources t (processed s t plan).1 names :=
  contents_processSources _ _ rfl Session.consistent_empty encodable names

theorem logFile_processed (s : Settings) (t : Tree) (plan : Plan) :
    (processed s t plan).1.logFile = none :=
  logFile_processSources _ _ _ _

/-- **What a run does not touch.** However it ends, it has left alone the files that are neither one
of its sources nor one of its results. -/
theorem content?_run (launch : Launcher) {s : Settings} {t : Tree} {names : List Text}
    (apart : ∀ plan, (prepare (rooted s) t).2 = .ok plan →
      ∀ source ∈ plan.sources, address ((rooted s).root.child source.path) ≠ names)
    (outside : names ∉ resultAddresses (rooted s)) :
    (run launch s t none).1.tree.content? names = t.content? names := by
  have sources {plan : Plan} (prepared : (prepare (rooted s) t).2 = .ok plan) :
      (processed (rooted s) t plan).1.tree.content? names = t.content? names :=
    content?_processSources (fileOptions (rooted s) plan.target) (rooted s).root
      (g := .before (rooted s) t) rfl (apart plan prepared)
  have results {plan : Plan} {g : Ledger} {answer : Except FileError Unit}
      (prepared : (prepare (rooted s) t).2 = .ok plan)
      (ran : processed (rooted s) t plan = (g, answer)) :
      (publish launch (rooted s) g).1.tree.content? names = t.content? names := by
    have before := sources prepared
    have logFile := logFile_processed (rooted s) t plan
    rw [ran] at before logFile
    exact ((publish_spec launch (rooted s) logFile).2 names outside).trans before
  have step := runStep_run launch s t
  rcases ending : run launch s t none with ⟨g, answer⟩
  rw [ending] at step
  cases step with
  | stopped tree => exact congrArg (·.content? names) tree
  | failed prepared ran => simpa [ran] using sources prepared
  | unpublished prepared ran published => simpa [published] using results prepared ran
  | returned prepared ran published => simpa [published] using results prepared ran

/-! ## Runs that fail -/

theorem Replaced.publish {o : FileOptions} {root : Path} {sources : List Source} {t : Tree}
    {g g' : Ledger} {names : List Text} (replaced : Replaced o root sources t g names)
    (work : SameWork g g') (same : g'.tree.content? names = g.tree.content? names) :
    Replaced o root sources t g' names := by
  obtain ⟨source, content, recorded, wet⟩ := replaced
  rw [← work.modified] at source
  rw [← same] at content
  rw [← work.session] at recorded
  exact ⟨source, content, recorded, wet⟩

/-- A project with one source, and files that are closed to writing. -/
def oneSource (content : Text) (closed : List (List Text)) : Tree where
  root := .folder "lib".toList (.file "a.dart".toList (Tree.encode content) .empty) .empty
  unwritable := closed

/-- Settings that replace literals and do nothing besides. -/
def replacing : Settings where
  root := .ofText "/".toList
  replace := true
  checkDependencies := false
  runGenerator := false

end Localizer.Extraction
