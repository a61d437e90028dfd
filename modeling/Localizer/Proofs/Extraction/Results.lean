import Localizer.Proofs.Extraction.Files

/-!
# What publishing does to files

Publishing writes two files, the resource file and the generator's configuration, and leaves every
other file alone (`publish_spec`). If it succeeds after texts were recorded, the resource file
holds the document of the table (`publish_eq_ok`).
-/

namespace Localizer.Extraction

open Text Message Resource Log Workspace Project

/-- The addresses of the files that publishing writes. -/
def resultAddresses (s : Settings) : List (List Text) :=
  (s.arbPath.map address).toList ++ [address (generatorConfigPath s)]

/-- One ledger goes on from another: only its files and reports differ. -/
structure SameWork (g g' : Ledger) : Prop where
  session : g'.session = g.session
  scanned : g'.scanned = g.scanned
  modified : g'.modified = g.modified
  failed : g'.failed = g.failed
  diffs : g'.diffs = g.diffs
  logFile : g'.logFile = g.logFile

namespace SameWork

theorem refl (g : Ledger) : SameWork g g := ⟨rfl, rfl, rfl, rfl, rfl, rfl⟩

theorem trans {a b c : Ledger} (hab : SameWork a b) (hbc : SameWork b c) : SameWork a c :=
  ⟨hbc.session.trans hab.session, hbc.scanned.trans hab.scanned, hbc.modified.trans hab.modified,
    hbc.failed.trans hab.failed, hbc.diffs.trans hab.diffs, hbc.logFile.trans hab.logFile⟩

theorem log (g : Ledger) (rs : List Record) : SameWork g (g.log rs) :=
  ⟨rfl, rfl, rfl, rfl, rfl, rfl⟩

end SameWork

/-! ## One file -/

section

variable {g : Ledger}

/-- A published file is written or not, and no other file changes. -/
theorem publishFile_spec (h : g.logFile = none) (p : Path) (m : Message) :
    SameWork g (publishFile g p m).1 ∧
      (∀ names, names ≠ address p →
        (publishFile g p m).1.tree.content? names = g.tree.content? names) ∧
      ((publishFile g p m).2 = .ok () → ∃ text, m.toText? = some text ∧
        (publishFile g p m).1.tree.content? (address p) = some (Tree.encode text)) := by
  have folders := g.tree.content?_makeFolders p.parent
  rcases made : g.tree.makeFolders p.parent with ⟨tree, answer⟩
  rw [made] at folders
  cases answer with
  | error e =>
    simp only [publishFile, made]
    exact ⟨⟨rfl, rfl, rfl, rfl, rfl, rfl⟩, fun names _ => folders names, by simp⟩
  | ok =>
    rcases tree.writeMessage_cases p m with
      ⟨text, t', encoded, written, contents⟩ | ⟨e, written⟩ | ⟨t', written, contents⟩
    · simp only [publishFile, made, written]
      have logged := Ledger.tree_log (g := { g with tree := t' }) h [generated p]
      refine ⟨⟨rfl, rfl, rfl, rfl, rfl, rfl⟩, ?_, ?_⟩
      · intro names apart
        rw [logged, contents, if_neg apart, folders]
      · intro _
        exact ⟨text, encoded, by rw [logged, contents, if_pos rfl]⟩
    · simp only [publishFile, made, written]
      exact ⟨⟨rfl, rfl, rfl, rfl, rfl, rfl⟩, fun names _ => folders names, by simp⟩
    · simp only [publishFile, made, written]
      refine ⟨⟨rfl, rfl, rfl, rfl, rfl, rfl⟩, ?_, by simp⟩
      intro names apart
      rw [contents names apart, folders]

theorem generate_spec (launch : Launcher) (s : Settings) (h : g.logFile = none) :
    SameWork g (generate launch s g).1 ∧ (generate launch s g).1.tree = g.tree := by
  unfold generate
  split
  next =>
    have started := Ledger.tree_log h
    split
    next => exact ⟨⟨rfl, rfl, rfl, rfl, rfl, rfl⟩, (Ledger.tree_log (by exact h) _).trans (started _)⟩
    next => exact ⟨.log _ _, started _⟩
  next => exact ⟨.refl g, rfl⟩

/-! ## All results -/

/-- Writing the results changes the files of the results only; if it succeeds, the resource file
holds the document, unless the configuration was written over it. -/
theorem writeResults_spec (launch : Launcher) (s : Settings) (arb : Path)
    (h : g.logFile = none) :
    SameWork g (writeResults launch s arb g).1 ∧
      (∀ names, names ≠ address arb → names ≠ address (generatorConfigPath s) →
        (writeResults launch s arb g).1.tree.content? names = g.tree.content? names) ∧
      (∀ published, (writeResults launch s arb g).2 = .ok published →
        address arb ≠ address (generatorConfigPath s) →
        ∃ text, (Arb.render (Arb.document g.session.table (memberOf s.locale))).toText? = some text ∧
          (writeResults launch s arb g).1.tree.content? (address arb) =
            some (Tree.encode text)) := by
  generalize hm : Arb.render (Arb.document g.session.table (memberOf s.locale)) = m
  obtain ⟨work, others, holds⟩ := publishFile_spec h arb m
  rcases first : publishFile g arb m with ⟨g₁, answer₁⟩
  rw [first] at work others holds
  cases answer₁ with
  | error e =>
    simp only [writeResults, hm, first]
    exact ⟨work, fun names apart _ => others names apart, by simp⟩
  | ok =>
    generalize hc : Message.ofText (generatorConfig s).render = c
    obtain ⟨work', others', -⟩ := publishFile_spec (work.logFile.trans h) (generatorConfigPath s) c
    rcases second : publishFile g₁ (generatorConfigPath s) c with ⟨g₂, answer₂⟩
    rw [second] at work' others'
    have two : ∀ names, names ≠ address arb → names ≠ address (generatorConfigPath s) →
        g₂.tree.content? names = g.tree.content? names := by
      intro names apart apart'
      rw [others' names apart', others names apart]
    cases answer₂ with
    | error e =>
      simp only [writeResults, hm, first, hc, second]
      exact ⟨work.trans work', two, by simp⟩
    | ok =>
      simp only [writeResults, hm, first, hc, second]
      obtain ⟨work'', tree⟩ := generate_spec launch s (g := g₂)
        (work'.logFile.trans (work.logFile.trans h))
      refine ⟨(work.trans work').trans work'', ?_, ?_⟩
      · intro names apart apart'
        rw [tree, two names apart apart']
      · intro _ _ apart
        obtain ⟨text, encoded, content⟩ := holds rfl
        exact ⟨text, encoded, by rw [tree, others' _ apart, content]⟩

/-- A run that recorded some text writes the results, unless it is dry. -/
theorem publish_of_recorded {launch : Launcher} {s : Settings} {arb : Path}
    (recorded : g.session.table.recorded ≠ []) (harb : s.arbPath = some arb)
    (wet : s.dryRun = false) :
    publish launch s g = writeResults launch s arb (g.log [report .info (ofText
      ("Found ".toList ++ ofNat g.session.table.size ++ " unique localizable strings".toList))]) := by
  have counted : ¬ g.session.table.size = 0 := by simpa [Table.size] using recorded
  simp [publish, counted, harb, wet]

/-- **Publishing changes the files of the results only.** -/
theorem publish_spec (launch : Launcher) (s : Settings) (h : g.logFile = none) :
    SameWork g (publish launch s g).1 ∧ ∀ names, names ∉ resultAddresses s →
      (publish launch s g).1.tree.content? names = g.tree.content? names := by
  unfold publish
  dsimp only
  split
  next => exact ⟨.log _ _, fun names _ => by rw [Ledger.tree_log h]⟩
  next =>
    split
    next => exact ⟨.log _ _, fun names _ => by rw [Ledger.tree_log h]⟩
    next arb harb =>
      split
      next =>
        refine ⟨(SameWork.log _ _).trans (.log _ _), ?_⟩
        intro names _
        rw [Ledger.tree_log (by exact h), Ledger.tree_log h]
      next =>
        generalize hg : g.log _ = g₁
        have logFile : g₁.logFile = none := by rw [← hg]; exact h
        have tree : g₁.tree = g.tree := by rw [← hg]; exact Ledger.tree_log h _
        have work : SameWork g g₁ := by rw [← hg]; exact .log _ _
        obtain ⟨work', others, -⟩ := writeResults_spec launch s arb logFile
        refine ⟨work.trans work', ?_⟩
        intro names apart
        simp only [resultAddresses, harb, Option.map_some, Option.toList_some,
          List.singleton_append, List.mem_cons, List.not_mem_nil, or_false, not_or] at apart
        rw [others names apart.1 apart.2, tree]

/-- If publishing succeeds and the run is not dry, then nothing was recorded and no file changes,
or the resource file holds the document of the table. -/
theorem publish_eq_ok {launch : Launcher} {s : Settings} {published : Published}
    (h : g.logFile = none) (wet : s.dryRun = false)
    (ok : (publish launch s g).2 = .ok published) :
    (g.session.table.recorded = [] ∧ (publish launch s g).1.tree = g.tree) ∨
      g.session.table.recorded ≠ [] ∧ ∃ arb, s.arbPath = some arb ∧
        (address arb ≠ address (generatorConfigPath s) → ∃ text,
          (Arb.render (Arb.document g.session.table (memberOf s.locale))).toText? = some text ∧
          (publish launch s g).1.tree.content? (address arb) = some (Tree.encode text)) := by
  unfold publish at ok ⊢
  dsimp only at ok ⊢
  split at ok
  next none =>
    rw [if_pos none]
    exact .inl ⟨List.length_eq_zero_iff.1 none, Ledger.tree_log h _⟩
  next some =>
    rw [if_neg some]
    refine .inr ⟨fun none => some (by rw [Table.size, none]; rfl), ?_⟩
    split at ok
    next => simp at ok
    next arb harb =>
      rw [wet] at ok ⊢
      simp only [Bool.false_eq_true, ↓reduceIte] at ok ⊢
      obtain ⟨-, -, holds⟩ := writeResults_spec launch s arb (g := g.log _) (by exact h)
      exact ⟨arb, harb, holds published ok⟩

end

end Localizer.Extraction
