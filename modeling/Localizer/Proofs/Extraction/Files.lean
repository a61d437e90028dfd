import Localizer.Extraction.Run
import Localizer.Proofs.Extraction.Session
import Localizer.Proofs.Workspace.Contents

/-!
# What processing does to files

`fileStep_processFile` says once what becomes of a file: it stays as it is, its diff is kept, its
rewritten text is stored, or, if that text holds a surrogate, it is emptied and the run stops. All
else is derived from that. The session of the ledger goes on as in a sequence of buffers
(`session_processFile`), and a file is stored only after a text of it was recorded
(`recorded_of_changed`).

Ledgers here keep no log file: what a log file gets is written outside of the project.
-/

namespace Localizer.Extraction

open Text Dart Message Resource Edit Log Workspace

/-! ## Ledgers -/

namespace Ledger

variable (g : Ledger) (rs : List Record) (label action : Text) (e : AccessError)

@[simp] theorem session_log : (g.log rs).session = g.session := rfl

@[simp] theorem modified_log : (g.log rs).modified = g.modified := rfl

@[simp] theorem logFile_log : (g.log rs).logFile = g.logFile := rfl

theorem tree_log {g : Ledger} (h : g.logFile = none) (rs : List Record) :
    (g.log rs).tree = g.tree := by
  simp [log, h]

@[simp] theorem session_markModified : (g.markModified label).session = g.session := by
  unfold markModified
  split <;> rfl

@[simp] theorem tree_markModified : (g.markModified label).tree = g.tree := by
  unfold markModified
  split <;> rfl

@[simp] theorem logFile_markModified : (g.markModified label).logFile = g.logFile := by
  unfold markModified
  split <;> rfl

/-- Which files are noted as modified depends on those noted before only. -/
theorem modified_markModified {g g' : Ledger} (h : g'.modified = g.modified) (label : Text) :
    (g'.markModified label).modified = (g.markModified label).modified := by
  simp only [markModified, h]
  split
  next => exact h
  next => rfl

@[simp] theorem session_markFailed : (g.markFailed label action e).session = g.session := rfl

@[simp] theorem modified_markFailed : (g.markFailed label action e).modified = g.modified := rfl

@[simp] theorem logFile_markFailed : (g.markFailed label action e).logFile = g.logFile := rfl

theorem tree_markFailed {g : Ledger} (h : g.logFile = none) (label action : Text)
    (e : AccessError) : (g.markFailed label action e).tree = g.tree :=
  tree_log h _

end Ledger

/-- The name under which a file is noted. -/
def labelOf (path : Path) (display : Text) : Text :=
  if display.isEmpty then path.toText else display

/-- The buffer that a file is, and how it is treated. -/
def FileOptions.feed (o : FileOptions) (content : Text) : Feed :=
  ⟨o.windows, o.filter, o.target, content⟩

/-- What becomes of a file. -/
inductive FileStep (o : FileOptions) (path : Path) (label : Text) (g g' : Ledger) :
    Except FileError Bool → Prop
  /-- The file cannot be used, it stops the run, or none of its literals is replaced. -/
  | kept {answer : Except FileError Bool} (tree : g'.tree = g.tree)
    (modified : g'.modified = g.modified) (notTrue : answer ≠ .ok true) :
    FileStep o path label g g' answer
  /-- A dry run keeps the diff. -/
  | shown (dry : o.dryRun = true) (tree : g'.tree = g.tree)
    (modified : g'.modified = (g.markModified label).modified) :
    FileStep o path label g g' (.ok true)
  /-- The file holds its rewritten text. -/
  | stored {content text : Text} {r : Outcome} (wet : o.dryRun = false)
    (read : g.tree.readText path = .ok content)
    (target : o.target.isSome = true)
    (result : ((o.feed content).process g.session).2.2 = .ok r) (changed : r.changed = true)
    (encoded : r.content.toText? = some text)
    (tree : ∀ names, g'.tree.content? names =
      if names = address path then some (Tree.encode text) else g.tree.content? names)
    (modified : g'.modified = (g.markModified label).modified) :
    FileStep o path label g g' (.ok true)
  /-- The rewritten text holds a surrogate. -/
  | emptied (tree : ∀ names, names ≠ address path → g'.tree.content? names = g.tree.content? names)
    (modified : g'.modified = g.modified) :
    FileStep o path label g g' (.error (.access .notEncodable))

section

variable {o : FileOptions} {g : Ledger} {path : Path} {label : Text}

/-- The ledger when a file was read and its buffer came to an outcome. -/
def Ledger.opened (g : Ledger) (o : FileOptions) (label content : Text) (r : Outcome) : Ledger :=
  (({ g with session := g.session.feed (o.feed content), scanned := g.scanned + 1 }.log
    ((o.feed content).process g.session).2.1).log (constReport label r.skippedConst)).log
      (partReport label r.importSkipped)

@[simp] theorem Ledger.session_opened (g : Ledger) (o : FileOptions) (label content : Text)
    (r : Outcome) : (g.opened o label content r).session = g.session.feed (o.feed content) := rfl

/-- A file some of whose literals were replaced is stored. -/
theorem processFile_of_changed {display content : Text} {r : Outcome}
    (read : g.tree.readText path = .ok content) (target : o.target.isSome = true)
    (result : ((o.feed content).process g.session).2.2 = .ok r) (changed : r.changed = true) :
    processFile o g path display =
      store o (g.opened o (labelOf path display) content r) path (labelOf path display) content r := by
  have given : o.target.isNone = false := by simpa using target
  simp only [FileOptions.feed, Feed.process] at result
  simp [processFile, Ledger.opened, read, result, given, changed, Session.feed, Feed.process,
    FileOptions.feed, labelOf]

/-- A file that cannot be used is noted, or stops the run; `g₀` is the ledger before it. -/
theorem fileStep_refuse {g₀ : Ledger} (h : g.logFile = none) (tree : g.tree = g₀.tree)
    (modified : g.modified = g₀.modified) (action : Text) (e : AccessError) :
    FileStep o path label g₀ (refuse g label action e).1 (refuse g label action e).2 := by
  unfold refuse
  split
  next => exact .kept tree modified (by simp)
  next => exact .kept ((Ledger.tree_markFailed h _ _ _).trans tree) modified (by simp)

@[simp] theorem session_refuse (g : Ledger) (label action : Text) (e : AccessError) :
    (refuse g label action e).1.session = g.session := by
  unfold refuse
  split <;> rfl

@[simp] theorem logFile_refuse (g : Ledger) (label action : Text) (e : AccessError) :
    (refuse g label action e).1.logFile = g.logFile := by
  unfold refuse
  split <;> rfl

@[simp] theorem session_store (o : FileOptions) (g : Ledger) (path : Path) (label content : Text)
    (r : Outcome) : (store o g path label content r).1.session = g.session := by
  unfold store
  split
  next => simp
  next => split <;> simp

@[simp] theorem logFile_store (o : FileOptions) (g : Ledger) (path : Path) (label content : Text)
    (r : Outcome) : (store o g path label content r).1.logFile = g.logFile := by
  unfold store
  split
  next => simp
  next => split <;> simp

/-- What becomes of a file whose literals were replaced; `g₀` is the ledger before it. -/
theorem fileStep_store {g₀ : Ledger} {content : Text} {r : Outcome} (h : g.logFile = none)
    (tree : g.tree = g₀.tree) (modified : g.modified = g₀.modified)
    (read : g₀.tree.readText path = .ok content) (target : o.target.isSome = true)
    (result : ((o.feed content).process g₀.session).2.2 = .ok r) (changed : r.changed = true) :
    FileStep o path label g₀ (store o g path label content r).1
      (store o g path label content r).2 := by
  unfold store
  split
  next dry =>
    refine .shown dry ?_ ?_
    · rw [Ledger.tree_markModified]
      exact tree
    · apply Ledger.modified_markModified
      exact modified
  next wet =>
    rcases g.tree.writeMessage_cases path r.content with
      ⟨text, t', encoded, written, contents⟩ | ⟨e, written⟩ | ⟨t', written, contents⟩
    · rw [written]
      refine .stored (by simpa using wet) read target result changed encoded ?_ ?_
      · intro names
        rw [Ledger.tree_markModified, Ledger.tree_log (by exact h), contents, tree]
      · apply Ledger.modified_markModified
        exact modified
    · rw [written]
      exact fileStep_refuse h tree modified _ e
    · rw [written]
      refine .emptied ?_ modified
      intro names apart
      rw [← tree]
      exact contents names apart

/-- **What becomes of a file.** -/
theorem fileStep_processFile (o : FileOptions) (h : g.logFile = none) (path : Path)
    (display : Text) :
    FileStep o path (labelOf path display) g (processFile o g path display).1
      (processFile o g path display).2 := by
  simp only [processFile]
  split
  next e _ => exact fileStep_refuse h rfl rfl _ e
  next content read =>
    split
    next => exact .kept (Ledger.tree_log (by exact h) _) rfl (by simp)
    next r result =>
      split
      next =>
        refine .kept ?_ rfl (by simp)
        rw [Ledger.tree_log (by exact h), Ledger.tree_log (by exact h)]
      next changed =>
        simp only [Bool.or_eq_true, Bool.not_eq_true', not_or, Bool.not_eq_true,
          Bool.not_eq_false, Option.isNone_eq_false_iff] at changed
        refine fileStep_store (by exact h) ?_ rfl read changed.1 result changed.2
        rw [Ledger.tree_log (by exact h), Ledger.tree_log (by exact h), Ledger.tree_log (by exact h)]

/-- The session goes on with the buffer that a file is. -/
theorem session_processFile {content : Text} (read : g.tree.readText path = .ok content)
    (display : Text) :
    (processFile o g path display).1.session = g.session.feed (o.feed content) := by
  simp only [processFile, read]
  split
  next => rfl
  next => split <;> simp [Session.feed, Feed.process, FileOptions.feed]

theorem session_processFile_of_error {e : AccessError} (read : g.tree.readText path = .error e)
    (display : Text) : (processFile o g path display).1.session = g.session := by
  simp [processFile, read]

/-- A session stays consistent over a file, and is only added to. -/
theorem consistent_processFile (o : FileOptions) (h : g.session.Consistent) (path : Path)
    (display : Text) :
    (processFile o g path display).1.session.Consistent ∧
      g.session.Extends (processFile o g path display).1.session := by
  cases read : g.tree.readText path with
  | error e =>
    rw [session_processFile_of_error read]
    exact ⟨h, .refl _⟩
  | ok content =>
    rw [session_processFile read]
    exact h.feed _

theorem logFile_processFile (o : FileOptions) (g : Ledger) (path : Path) (display : Text) :
    (processFile o g path display).1.logFile = g.logFile := by
  simp only [processFile]
  split
  next => simp
  next =>
    split
    next => rfl
    next => split <;> simp

theorem FileStep.modified_subset {g' : Ledger} {answer : Except FileError Bool}
    (step : FileStep o path label g g' answer) : g.modified ⊆ g'.modified := by
  have marked : g.modified ⊆ (g.markModified label).modified := by
    unfold Ledger.markModified
    split <;> simp
  cases step with
  | kept _ modified => simp [modified]
  | shown _ _ modified => simpa [modified] using marked
  | stored _ _ _ _ _ _ _ modified => simpa [modified] using marked
  | emptied _ modified => simp [modified]

theorem FileStep.content? {g' : Ledger} {answer : Except FileError Bool}
    (step : FileStep o path label g g' answer) {names : List Text} (apart : address path ≠ names) :
    g'.tree.content? names = g.tree.content? names := by
  cases step with
  | kept tree => rw [tree]
  | shown _ tree => rw [tree]
  | stored _ _ _ _ _ _ tree => rw [tree, if_neg (Ne.symm apart)]
  | emptied tree => exact tree names (Ne.symm apart)

theorem Ledger.mem_modified_markModified (g : Ledger) (label : Text) :
    label ∈ (g.markModified label).modified := by
  unfold Ledger.markModified
  split
  next known => simpa using known
  next => simp

/-- A buffer that is changed has a text that is recorded. -/
theorem recorded_of_changed {s : Session} (h : s.Consistent) {b : Feed} {r : Outcome}
    (target : b.target.isSome = true) (result : (b.process s).2.2 = .ok r)
    (changed : r.changed = true) : (s.feed b).table.recorded ≠ [] := by
  obtain ⟨l, hl⟩ := Option.isSome_iff_exists.1 target
  rcases Feed.process_substituted h hl with ⟨e, failed⟩ | ⟨rs, r', hr', substituted⟩
  · rw [failed] at result
    simp at result
  · obtain rfl : r' = r := Except.ok.inj (hr'.symm.trans result)
    have count : 0 < (b.calls s).length := by
      rw [substituted.count]
      simpa [Outcome.changed] using changed
    obtain ⟨call, mem⟩ := List.exists_mem_of_length_pos count
    obtain ⟨_, -, agrees⟩ := Feed.agrees_of_mem_calls h mem
    obtain ⟨e, found, -⟩ := agrees.entry
    exact List.ne_nil_of_mem (List.mem_of_find?_eq_some found)

end

/-! ## All sources -/

theorem processSources_singleton {o : FileOptions} {root : Path} {g g' : Ledger} {source : Source}
    {b : Bool} (h : processFile o g (root.child source.path) source.path = (g', .ok b)) :
    processSources o root g [source] = (g', .ok ()) := by
  simp only [processSources, h]

theorem logFile_processSources (o : FileOptions) (root : Path) (g : Ledger)
    (sources : List Source) : (processSources o root g sources).1.logFile = g.logFile := by
  induction sources generalizing g with
  | nil => rfl
  | cons source sources ih =>
    have first := logFile_processFile o g (root.child source.path) source.path
    simp only [processSources]
    split
    next g' e step => rwa [step] at first
    next g' b step =>
      rw [step] at first
      exact (ih g').trans first

/-- A session stays consistent over all sources, and is only added to. -/
theorem consistent_processSources (o : FileOptions) (root : Path) {g : Ledger}
    (h : g.session.Consistent) (sources : List Source) :
    (processSources o root g sources).1.session.Consistent ∧
      g.session.Extends (processSources o root g sources).1.session := by
  induction sources generalizing g with
  | nil => exact ⟨h, .refl _⟩
  | cons source sources ih =>
    have first := consistent_processFile o h (root.child source.path) source.path
    simp only [processSources]
    split
    next g' e step => rwa [step] at first
    next g' b step =>
      rw [step] at first
      obtain ⟨consistent, ext⟩ := ih first.1
      exact ⟨consistent, first.2.trans ext⟩

theorem modified_processSources (o : FileOptions) (root : Path) {g : Ledger}
    (h : g.logFile = none) (sources : List Source) :
    g.modified ⊆ (processSources o root g sources).1.modified := by
  induction sources generalizing g with
  | nil => exact List.Subset.refl _
  | cons source sources ih =>
    have first := (fileStep_processFile o h (root.child source.path)
      source.path).modified_subset
    have logFile := logFile_processFile o g (root.child source.path) source.path
    simp only [processSources]
    split
    next g' e step => rwa [step] at first
    next g' b step =>
      rw [step] at first logFile
      exact List.Subset.trans first (ih (logFile.trans h))

/-- However the processing of sources ends, it has left alone the files that are none of them. -/
theorem content?_processSources (o : FileOptions) (root : Path) {g : Ledger}
    (h : g.logFile = none) {sources : List Source} {names : List Text}
    (apart : ∀ source ∈ sources, address (root.child source.path) ≠ names) :
    (processSources o root g sources).1.tree.content? names = g.tree.content? names := by
  induction sources generalizing g with
  | nil => rfl
  | cons source sources ih =>
    obtain ⟨first, rest⟩ := List.forall_mem_cons.1 apart
    have step := (fileStep_processFile o h (root.child source.path) source.path).content? first
    have logFile := logFile_processFile o g (root.child source.path) source.path
    simp only [processSources]
    split
    next g' e file => rwa [file] at step
    next g' b file =>
      rw [file] at step logFile
      exact (ih (logFile.trans h) rest).trans step

/-- The bytes of a file before and after its literals were replaced, in a session that buffers may
have led to. -/
def Rewrites (o : FileOptions) (old new : ByteArray) : Prop :=
  ∃ (s : Session) (content text : Text) (r : Outcome), s.Consistent ∧
    Tree.decode old = .ok content ∧ ((o.feed content).process s).2.2 = .ok r ∧
    r.changed = true ∧ r.content.toText? = some text ∧ new = Tree.encode text

/-- The file at these names is that of a source which is noted as modified: it holds its old text
with literals replaced, once or more often, and some text was recorded. -/
structure Replaced (o : FileOptions) (root : Path) (sources : List Source) (t : Tree) (g : Ledger)
    (names : List Text) : Prop where
  source : ∃ source ∈ sources, address (root.child source.path) = names ∧
    labelOf (root.child source.path) source.path ∈ g.modified
  content : ∃ old new, t.content? names = some old ∧ g.tree.content? names = some new ∧
    Relation.TransGen (Rewrites o) old new
  recorded : g.session.table.recorded ≠ []
  wet : o.dryRun = false

/-- What later sources did to a file that the first left as it was. -/
theorem Replaced.cons {o : FileOptions} {root : Path} {sources : List Source} {t₀ t : Tree}
    {g : Ledger} {names : List Text} (replaced : Replaced o root sources t g names)
    (same : t.content? names = t₀.content? names) (source : Source) :
    Replaced o root (source :: sources) t₀ g names := by
  obtain ⟨⟨later, mem, place⟩, content, recorded, wet⟩ := replaced
  rw [same] at content
  exact ⟨⟨later, List.mem_cons_of_mem _ mem, place⟩, content, recorded, wet⟩

/-- What has been recorded stays recorded. -/
theorem recorded_processSources (o : FileOptions) (root : Path) {g : Ledger}
    (h : g.session.Consistent) (recorded : g.session.table.recorded ≠ []) (sources : List Source) :
    (processSources o root g sources).1.session.table.recorded ≠ [] := by
  intro empty
  have grown := (consistent_processSources o root h sources).2.table
  rw [empty, List.prefix_nil] at grown
  exact recorded grown

/-- What later sources did to a file whose rewritten text the first stored. -/
theorem Replaced.of_rewrites {o : FileOptions} {root : Path} {source : Source}
    {sources : List Source} {t t' : Tree} {g : Ledger} {old new : ByteArray} {names : List Text}
    (here : names = address (root.child source.path))
    (noted : labelOf (root.child source.path) source.path ∈ g.modified)
    (recorded : g.session.table.recorded ≠ []) (wet : o.dryRun = false)
    (found : t.content? names = some old) (rewrites : Rewrites o old new)
    (stored : t'.content? names = some new)
    (later : g.tree.content? names = t'.content? names ∨ Replaced o root sources t' g names) :
    Replaced o root (source :: sources) t g names := by
  refine ⟨⟨source, List.mem_cons_self, here.symm, noted⟩, ?_, recorded, wet⟩
  rcases later with same | ⟨-, ⟨new', last, hnew, hlast, chain⟩, -, -⟩
  · exact ⟨old, new, found, same.trans stored, .single rewrites⟩
  · obtain rfl : new' = new := Option.some.inj (hnew.symm.trans stored)
    exact ⟨old, last, found, hlast, .head rewrites chain⟩

/-- **What becomes of the files of a project.** Unless a rewritten text holds a surrogate, every
file is as it was, or that of a source of which all that was replaced is stored. -/
theorem contents_processSources (o : FileOptions) (root : Path) {g : Ledger}
    (h : g.logFile = none) (consistent : g.session.Consistent) {sources : List Source}
    (encodable : (processSources o root g sources).2 ≠ .error (.access .notEncodable))
    (names : List Text) :
    (processSources o root g sources).1.tree.content? names = g.tree.content? names ∨
      Replaced o root sources g.tree (processSources o root g sources).1 names := by
  induction sources generalizing g with
  | nil => exact .inl rfl
  | cons source sources ih =>
    have step := fileStep_processFile o h (root.child source.path) source.path
    have logFile := logFile_processFile o g (root.child source.path) source.path
    have session := consistent_processFile o consistent (root.child source.path) source.path
    have fed := @session_processFile o g (root.child source.path)
    rcases hfile : processFile o g (root.child source.path) source.path with ⟨g', answer⟩
    rw [hfile] at step logFile session
    cases answer with
    | error e =>
      have run : processSources o root g (source :: sources) = (g', .error e) := by
        simp only [processSources, hfile]
      rw [run] at encodable ⊢
      cases step with
      | kept tree => exact .inl (by rw [tree])
      | emptied => exact absurd rfl encodable
    | ok b =>
      have run : processSources o root g (source :: sources) = processSources o root g' sources := by
        simp only [processSources, hfile]
      rw [run] at encodable ⊢
      have later := ih (logFile.trans h) session.1 encodable
      -- a file that this step leaves alone is what the later sources make of it
      have keep (same : g'.tree.content? names = g.tree.content? names) :
          (processSources o root g' sources).1.tree.content? names = g.tree.content? names ∨
            Replaced o root (source :: sources) g.tree (processSources o root g' sources).1 names :=
        later.imp (·.trans same) (·.cons same source)
      cases step with
      | kept tree => exact keep (by rw [tree])
      | shown _ tree => exact keep (by rw [tree])
      | stored wet read target result changed encoded contents modified =>
        by_cases here : names = address (root.child source.path)
        · obtain ⟨bytes, found, decoded⟩ := Tree.readText_eq_ok read
          rw [← here] at found
          have rewrites : Rewrites o bytes (Tree.encode _) :=
            ⟨g.session, _, _, _, consistent, decoded, result, changed, encoded, rfl⟩
          have noted := modified_processSources o root (logFile.trans h) sources
            (modified ▸ Ledger.mem_modified_markModified g _)
          have first := recorded_of_changed consistent target result changed
          rw [← fed read source.path, hfile] at first
          have recorded := recorded_processSources o root session.1 first sources
          exact .inr (.of_rewrites here noted recorded wet found rewrites
            (by rw [contents, if_pos here]) later)
        · exact keep (by rw [contents, if_neg here])

end Localizer.Extraction
