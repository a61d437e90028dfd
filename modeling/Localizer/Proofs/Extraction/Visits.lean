import Localizer.Proofs.Extraction.Run
import Localizer.Proofs.Workspace.Discovery

/-!
# What becomes of each source

Sources that were found lie in different places and are noted under different names
(`WellPlaced`). What becomes of one of them is known from the files before the run and from the
session so far (`fate`), because the sources before it leave it as it is and keep the shape of the
tree. `visited_processSources` reads off a ledger what it has noted: each source once, under what
became of it.
-/

namespace Localizer.Workspace

open Extraction

/-- The name under which a source is noted. -/
def Source.label (root : Path) (source : Source) : Text :=
  labelOf (root.child source.path) source.path

end Localizer.Workspace

namespace Localizer.Extraction

open Text Message Resource Edit Log Workspace

/-! ## Where sources lie -/

/-- Sources in different places, below the name of a source each; their labels lead to them. -/
structure WellPlaced (root : Path) (sources : List Source) : Prop where
  resolved : IsResolved root
  places : (sources.map (Source.place root)).Nodup
  labels : ∀ source ∈ sources,
    address (root.child (ofText (source.label root))) = source.place root
  named : ∀ source ∈ sources, ∃ around name,
    source.place root = around ++ [name] ∧ isSourceName name = true

/-- The label of a source leads to its place, also if the root itself is the source. -/
theorem address_child_label {root : Path} {source : Source} {place : List Text}
    (h : IsResolved root) (proper : ∀ name ∈ place, ProperName name)
    (path : source.path = placeText root.names place) :
    address (root.child (ofText (source.label root))) = place := by
  have back := address_child_placeText h proper
  rw [← path] at back
  unfold Source.label labelOf
  split
  next empty =>
    rw [List.isEmpty_iff.1 empty, child_nil, address_of_isResolved h] at back
    rw [List.isEmpty_iff.1 empty, child_nil, toText_of_isResolved h, back]
    exact address_child_slash root proper
  next => exact back

/-- **Sources that are found are well placed.** -/
theorem wellPlaced_of_discover {t : Tree} {root : Path} {input : Option Path}
    {exclude : List Message} {sources : List Source} (proper : t.root.Proper)
    (resolved : IsResolved root) (h : t.discover root input exclude = .ok sources) :
    WellPlaced root sources := by
  -- each source is a file that the walk has taken
  have found : ∀ source ∈ sources, ∃ around name, isSourceName name = true ∧
      (∀ part ∈ around ++ [name], ProperName part) ∧
      source.path = placeText root.names (around ++ [name]) := by
    intro source mem
    obtain ⟨folder, own, below, -, taken, properPlace, path⟩ :=
      Tree.exists_of_mem_discover proper resolved h mem
    obtain ⟨around, name, rfl, named⟩ := isSourceName_of_listed taken
    rw [← List.append_assoc] at properPlace path
    exact ⟨folder.names ++ around, name, named, properPlace, path⟩
  refine ⟨resolved, ?_, ?_, ?_⟩
  · obtain ⟨r, folder, inside, rules, hroot, hfolder, node, -, sorted⟩ :=
      Tree.discover_eq_ok_iff.1 h
    obtain rfl : root = r := by rw [resolved_eq_ok hroot, resolve_of_isResolved resolved]
    obtain ⟨-, there⟩ := Tree.exists_of_node?_eq_folder node
    rw [address_of_isResolved (isResolved_of_resolved hfolder)] at there
    rw [sorted, ((List.mergeSort_perm _ _).map _).nodup_iff]
    exact nodup_places proper resolved there
  · intro source mem
    obtain ⟨around, name, -, properPlace, path⟩ := found source mem
    rw [address_child_label resolved properPlace path, Source.place, path,
      address_child_placeText resolved properPlace]
  · intro source mem
    obtain ⟨around, name, named, properPlace, path⟩ := found source mem
    refine ⟨around, name, ?_, named⟩
    rw [Source.place, path, address_child_placeText resolved properPlace]

theorem WellPlaced.nodup_labels {root : Path} {sources : List Source}
    (h : WellPlaced root sources) : (sources.map (Source.label root)).Nodup := by
  have places := h.places
  rw [← List.map_congr_left h.labels] at places
  refine List.Nodup.of_map (fun label => address (root.child (ofText label))) ?_
  rwa [List.map_map]

/-! ## What becomes of a source -/

/-- What becomes of a source. -/
inductive Fate where
  /-- It cannot be read. -/
  | unread
  /-- It was read, and none of its literals is replaced. -/
  | untouched
  /-- Its literals are replaced, and it cannot be written. -/
  | unwritten
  /-- Its text is replaced by a new one; in a dry run that is only shown. -/
  | modified (old : Text) (new : Message)
  deriving DecidableEq

namespace Fate

/-- Whether the source was read. -/
def isRead : Fate → Bool
  | unread => false
  | _ => true

/-- Whether the source could not be read or not be written. -/
def isFailed : Fate → Bool
  | unread => true
  | unwritten => true
  | _ => false

/-- Whether the source was modified. -/
def isModified : Fate → Bool
  | modified _ _ => true
  | _ => false

/-- The diff that is kept in a dry run. -/
def diffs (o : FileOptions) (label : Text) : Fate → Dictionary Text Message
  | modified old new =>
    if o.dryRun then [(label, Diff.unified ("a/".toList ++ label) ("b/".toList ++ label) old new)]
    else []
  | _ => []

end Fate

/-- What becomes of the file at a path, in a tree and a session. A buffer that stops the run leaves
its file as it is. -/
def fate (o : FileOptions) (t : Tree) (s : Session) (path : Path) : Fate :=
  match t.readText path with
  | .error _ => .unread
  | .ok content =>
    match ((o.feed content).process s).2.2 with
    | .error _ => .untouched
    | .ok r =>
      if o.target.isNone || !r.changed then .untouched
      else if !o.dryRun && t.unwritable.contains (address path) then .unwritten
      else .modified content r.content

theorem fate_eq_modified {o : FileOptions} {t : Tree} {s : Session} {path : Path} {old : Text}
    {new : Message} (h : fate o t s path = .modified old new) :
    t.readText path = .ok old ∧ o.target.isSome = true ∧ ∃ r,
      ((o.feed old).process s).2.2 = .ok r ∧ r.changed = true ∧ r.content = new := by
  unfold fate at h
  split at h
  next => simp at h
  next content read =>
    split at h
    next => simp at h
    next r result =>
      split at h
      next => simp at h
      next changed =>
        split at h
        next => simp at h
        next =>
          obtain ⟨rfl, rfl⟩ := Fate.modified.inj h
          simp only [Bool.or_eq_true, Bool.not_eq_true', not_or, Bool.not_eq_true,
            Bool.not_eq_false, Option.isNone_eq_false_iff] at changed
          exact ⟨read, changed.1, r, result, changed.2, rfl⟩

/-- The session after the file at a path. -/
def Session.visit (s : Session) (o : FileOptions) (t : Tree) (path : Path) : Session :=
  match t.readText path with
  | .error _ => s
  | .ok content => s.feed (o.feed content)

/-- The session after sources, one after the other. -/
def Session.visits (s : Session) (o : FileOptions) (root : Path) (t : Tree)
    (sources : List Source) : Session :=
  sources.foldl (fun s source => s.visit o t (root.child source.path)) s

theorem Session.visits_cons (s : Session) (o : FileOptions) (root : Path) (t : Tree)
    (source : Source) (sources : List Source) : s.visits o root t (source :: sources) =
      (s.visit o t (root.child source.path)).visits o root t sources := rfl

/-- What becomes of sources, one after the other. -/
def fates (o : FileOptions) (root : Path) (t : Tree) :
    Session → List Source → List (Source × Fate)
  | _, [] => []
  | s, source :: rest =>
    (source, fate o t s (root.child source.path)) ::
      fates o root t (s.visit o t (root.child source.path)) rest

theorem map_fst_fates (o : FileOptions) (root : Path) (t : Tree) (s : Session)
    (sources : List Source) : (fates o root t s sources).map Prod.fst = sources := by
  induction sources generalizing s with
  | nil => rfl
  | cons source sources ih => rw [fates, List.map_cons, ih]

/-! ## One file -/

namespace Ledger

variable (g : Ledger) (rs : List Record) (label action : Text) (e : AccessError)

@[simp] theorem scanned_log : (g.log rs).scanned = g.scanned := rfl

@[simp] theorem failed_log : (g.log rs).failed = g.failed := rfl

@[simp] theorem diffs_log : (g.log rs).diffs = g.diffs := rfl

@[simp] theorem scanned_markModified : (g.markModified label).scanned = g.scanned := by
  unfold markModified
  split <;> rfl

@[simp] theorem failed_markModified : (g.markModified label).failed = g.failed := by
  unfold markModified
  split <;> rfl

@[simp] theorem diffs_markModified : (g.markModified label).diffs = g.diffs := by
  unfold markModified
  split <;> rfl

theorem modified_markModified_of_new {g : Ledger} {label : Text} (new : label ∉ g.modified) :
    (g.markModified label).modified = g.modified ++ [label] := by
  simp [markModified, new]

end Ledger

/-- What a ledger notes of a file when this became of it. -/
structure Noted (o : FileOptions) (path : Path) (label : Text) (fate : Fate) (g g' : Ledger) :
    Prop where
  session : g'.session = g.session.visit o g.tree path
  scanned : g'.scanned = g.scanned + if fate.isRead then 1 else 0
  failed : g'.failed = g.failed ++ if fate.isFailed then [label] else []
  modified : label ∉ g.modified →
    g'.modified = g.modified ++ if fate.isModified then [label] else []
  diffs : label ∉ g.diffs.names → g'.diffs = g.diffs ++ fate.diffs o label
  shape : g.tree.SameShape g'.tree
  /-- Only a file that was modified changes, and not in a dry run. -/
  kept : (fate.isModified = true → o.dryRun = true) → g'.tree = g.tree
  stored : ∀ old new, fate = .modified old new → o.dryRun = false → ∃ text,
    new.toText? = some text ∧ ∀ names, g'.tree.content? names =
      if names = address path then some (Tree.encode text) else g.tree.content? names

/-- A ledger after a file was read, and before anything was made of it. -/
structure Opened (o : FileOptions) (path : Path) (content : Text) (g g' : Ledger) : Prop where
  read : g.tree.readText path = .ok content
  session : g'.session = g.session.feed (o.feed content)
  scanned : g'.scanned = g.scanned + 1
  modified : g'.modified = g.modified
  failed : g'.failed = g.failed
  diffs : g'.diffs = g.diffs
  tree : g'.tree = g.tree
  logFile : g'.logFile = none

namespace Opened

variable {o : FileOptions} {g g₁ g' : Ledger} {path : Path} {label content : Text} {b : Bool}

theorem log (h : Opened o path content g g₁) (rs : List Record) :
    Opened o path content g (g₁.log rs) :=
  ⟨h.read, h.session, h.scanned, h.modified, h.failed, h.diffs,
    (Ledger.tree_log h.logFile rs).trans h.tree, h.logFile⟩

theorem session_eq (h : Opened o path content g g₁) :
    g₁.session = g.session.visit o g.tree path := by
  rw [h.session, Session.visit, h.read]

theorem noted_untouched (h : Opened o path content g g₁) : Noted o path label .untouched g g₁ where
  session := h.session_eq
  scanned := h.scanned
  failed := by simp [h.failed, Fate.isFailed]
  modified := by simp [h.modified, Fate.isModified]
  diffs := by simp [h.diffs, Fate.diffs]
  shape := h.tree ▸ .refl _
  kept := fun _ => h.tree
  stored := by simp

/-- A dry run keeps the diff. -/
theorem noted_shown (h : Opened o path content g g₁) (dry : o.dryRun = true) (new : Message) :
    Noted o path label (.modified content new) g
      ({ g₁ with diffs := Dictionary.set label (Diff.unified ("a/".toList ++ label)
        ("b/".toList ++ label) content new) g₁.diffs }.markModified label) where
  session := by simpa using h.session_eq
  scanned := by simpa [Fate.isRead] using h.scanned
  failed := by simpa [Fate.isFailed] using h.failed
  modified := by
    intro fresh
    rw [Ledger.modified_markModified_of_new (by simpa [h.modified] using fresh)]
    simp [h.modified, Fate.isModified]
  diffs := by
    intro fresh
    simp [h.diffs, Dictionary.set_of_not_mem fresh, Fate.diffs, dry]
  shape := by
    rw [Ledger.tree_markModified]
    exact h.tree ▸ .refl _
  kept := by
    intro _
    rw [Ledger.tree_markModified]
    exact h.tree
  stored := by simp [dry]

/-- A file that is closed to writing is noted as failed. -/
theorem noted_unwritten (h : Opened o path content g g₁) (action : Text) (e : AccessError) :
    Noted o path label .unwritten g (g₁.markFailed label action e) where
  session := h.session_eq
  scanned := h.scanned
  failed := congrArg (· ++ [label]) h.failed
  modified := by simp [h.modified, Fate.isModified]
  diffs := by
    intro _
    exact h.diffs.trans (List.append_nil _).symm
  shape := by
    rw [Ledger.tree_markFailed h.logFile, h.tree]
    exact .refl _
  kept := fun _ => (Ledger.tree_markFailed h.logFile _ _ _).trans h.tree
  stored := by simp

/-- The file holds its new text. -/
theorem noted_stored (h : Opened o path content g g₁) (wet : o.dryRun = false) {new : Message}
    {text : Text} {t' : Tree} (encoded : new.toText? = some text) (shape : g.tree.SameShape t')
    (contents : ∀ names, t'.content? names =
      if names = address path then some (Tree.encode text) else g.tree.content? names)
    (rs : List Record) :
    Noted o path label (.modified content new) g
      (({ g₁ with tree := t' }.log rs).markModified label) where
  session := by simpa using h.session_eq
  scanned := by simpa [Fate.isRead] using h.scanned
  failed := by simpa [Fate.isFailed] using h.failed
  modified := by
    intro fresh
    rw [Ledger.modified_markModified_of_new (by simpa [h.modified] using fresh)]
    simp [h.modified, Fate.isModified]
  diffs := by simp [h.diffs, Fate.diffs, wet]
  shape := by
    rw [Ledger.tree_markModified, Ledger.tree_log (by exact h.logFile)]
    exact shape
  kept := by simp [Fate.isModified, wet]
  stored := by
    rintro old new' same -
    obtain ⟨rfl, rfl⟩ := Fate.modified.inj same
    refine ⟨text, encoded, fun names => ?_⟩
    rw [Ledger.tree_markModified, Ledger.tree_log (by exact h.logFile)]
    exact contents names

/-- What is noted when literals were replaced. -/
theorem noted_store (h : Opened o path content g g₁) {r : Outcome}
    (ok : store o g₁ path label content r = (g', .ok b)) :
    Noted o path label (if !o.dryRun && g.tree.unwritable.contains (address path) then .unwritten
      else .modified content r.content) g g' := by
  unfold store at ok
  split at ok
  next dry =>
    obtain ⟨rfl, -⟩ := Prod.mk.inj ok
    simp only [dry, Bool.not_true, Bool.false_and, Bool.false_eq_true, ↓reduceIte]
    exact h.noted_shown dry r.content
  next wet =>
    have wet : o.dryRun = false := by simpa using wet
    simp only [wet, Bool.not_false, Bool.true_and, List.contains_iff_mem]
    rw [h.tree] at ok
    rcases Tree.writeMessage_of_readText h.read r.content with
      ⟨closed, written⟩ | ⟨-, t', written⟩ | ⟨free, text, t', encoded, written, shape, contents⟩
    · rw [written, ← h.tree] at ok
      obtain ⟨rfl, -⟩ := Prod.mk.inj ok
      rw [if_pos closed]
      exact h.noted_unwritten _ _
    · rw [written] at ok
      simp [refuse, AccessError.isMisuse] at ok
    · rw [written] at ok
      obtain ⟨rfl, -⟩ := Prod.mk.inj ok
      rw [if_neg free]
      exact h.noted_stored wet encoded shape contents _

end Opened

section

variable {o : FileOptions} {g g' : Ledger} {path : Path} {display : Text} {b : Bool}

/-- A file that cannot be read is noted as failed. -/
theorem noted_unread (h : g.logFile = none) {e : AccessError}
    (read : g.tree.readText path = .error e) (label action : Text) :
    Noted o path label .unread g (g.markFailed label action e) where
  session := by rw [Ledger.session_markFailed, Session.visit, read]
  scanned := rfl
  failed := rfl
  modified := by simp [Fate.isModified]
  diffs := by
    intro _
    exact (List.append_nil _).symm
  shape := by
    rw [Ledger.tree_markFailed h]
    exact .refl _
  kept := fun _ => Ledger.tree_markFailed h _ _ _
  stored := by simp

/-- **What a ledger notes of a file that does not stop the run.** -/
theorem noted_processFile (h : g.logFile = none) (ok : processFile o g path display = (g', .ok b)) :
    Noted o path (labelOf path display) (fate o g.tree g.session path) g g' := by
  simp only [processFile] at ok
  split at ok
  next e read =>
    unfold refuse at ok
    split at ok
    next => simp at ok
    next =>
      obtain ⟨rfl, -⟩ := Prod.mk.inj ok
      rw [fate, read]
      exact noted_unread h read _ _
  next content read =>
    have opened (rs : List Record) : Opened o path content g (Ledger.log { g with
        session := (processSource o.windows o.filter o.target g.session content).1
        scanned := g.scanned + 1 } rs) :=
      ⟨read, rfl, rfl, rfl, rfl, rfl, Ledger.tree_log (by exact h) _, h⟩
    split at ok
    next => simp at ok
    next r result =>
      have outcome : ((o.feed content).process g.session).2.2 = .ok r := result
      simp only [fate, read, outcome]
      split at ok
      next same =>
        obtain ⟨rfl, -⟩ := Prod.mk.inj ok
        rw [if_pos same]
        exact ((opened _).log _).noted_untouched
      next changed =>
        rw [if_neg changed]
        exact (((opened _).log _).log _).noted_store ok

end

/-! ## All sources -/

/-- What a ledger has noted of sources: each of them once, as what became of it wants. -/
structure Visited (o : FileOptions) (root : Path) (visits : List (Source × Fate))
    (g g' : Ledger) : Prop where
  scanned : g'.scanned = g.scanned + visits.countP fun v => v.2.isRead
  failed : g'.failed = g.failed ++ (visits.filter fun v => v.2.isFailed).map fun v => v.1.label root
  modified : g'.modified =
    g.modified ++ (visits.filter fun v => v.2.isModified).map fun v => v.1.label root
  diffs : g'.diffs = g.diffs ++ visits.flatMap fun v => v.2.diffs o (v.1.label root)
  dry : o.dryRun = true → g'.tree = g.tree
  /-- Only files of sources that were modified change. -/
  others : ∀ names, (∀ v ∈ visits, v.2.isModified = true → v.1.place root ≠ names) →
    g'.tree.content? names = g.tree.content? names
  stored : o.dryRun = false → ∀ source old new, (source, Fate.modified old new) ∈ visits →
    ∃ text, new.toText? = some text ∧
      g'.tree.content? (source.place root) = some (Tree.encode text)

section

variable {o : FileOptions} {root : Path} {t : Tree} {g g₁ g' : Ledger}

/-- What becomes of a file is the same in a tree of the same shape with the same file. -/
theorem fate_congr {t' : Tree} (shape : t.SameShape t') {path : Path}
    (same : t'.content? (address path) = t.content? (address path)) (s : Session) :
    fate o t' s path = fate o t s path ∧ s.visit o t' path = s.visit o t path := by
  have read := shape.readText same
  exact ⟨by simp only [fate, read, shape.unwritable], by simp only [Session.visit, read]⟩

/-- Every other file stays as it is. -/
theorem Noted.content? {path : Path} {label : Text} {fate : Fate}
    (noted : Noted o path label fate g g') {names : List Text} (apart : names ≠ address path) :
    g'.tree.content? names = g.tree.content? names := by
  by_cases stored : fate.isModified = true ∧ o.dryRun = false
  · obtain ⟨modified, wet⟩ := stored
    cases fate with
    | modified old new =>
      obtain ⟨text, -, contents⟩ := noted.stored old new rfl wet
      rw [contents, if_neg apart]
    | _ => simp [Fate.isModified] at modified
  · rw [noted.kept fun modified => by simpa [modified] using stored]

/-- A label that was not noted before and is not that of the file is not noted after it. -/
theorem Noted.fresh {path : Path} {label : Text} {fate : Fate}
    (noted : Noted o path label fate g g') (new : label ∉ g.modified ∧ label ∉ g.diffs.names)
    {other : Text} (ne : other ≠ label) (h : other ∉ g.modified ∧ other ∉ g.diffs.names) :
    other ∉ g'.modified ∧ other ∉ g'.diffs.names := by
  rw [noted.modified new.1, noted.diffs new.2, Dictionary.names, List.map_append, List.mem_append,
    List.mem_append, not_or, not_or]
  refine ⟨⟨h.1, ?_⟩, h.2, ?_⟩
  · split <;> simp [ne]
  · unfold Fate.diffs
    split
    next => split <;> simp [ne]
    next => simp

/-- One source, and then the others. -/
theorem Noted.visited_cons {source : Source} {fate : Fate} {visits : List (Source × Fate)}
    (noted : Noted o (root.child source.path) (source.label root) fate g g₁)
    (new : source.label root ∉ g.modified ∧ source.label root ∉ g.diffs.names)
    (apart : ∀ v ∈ visits, v.1.place root ≠ source.place root)
    (visited : Visited o root visits g₁ g') : Visited o root ((source, fate) :: visits) g g' where
  scanned := by
    rw [visited.scanned, noted.scanned, List.countP_cons, Nat.add_assoc,
      Nat.add_comm (List.countP ..)]
  failed := by
    rw [visited.failed, noted.failed, List.filter_cons]
    split <;> simp
  modified := by
    rw [visited.modified, noted.modified new.1, List.filter_cons]
    split <;> simp
  diffs := by rw [visited.diffs, noted.diffs new.2, List.flatMap_cons, List.append_assoc]
  dry := by
    intro dry
    rw [visited.dry dry, noted.kept fun _ => dry]
  others := by
    intro names free
    obtain ⟨here, later⟩ := List.forall_mem_cons.1 free
    rw [visited.others names later]
    by_cases same : names = source.place root
    · rw [noted.kept fun modified => absurd same.symm (here modified)]
    · exact noted.content? same
  stored := by
    intro wet source' old new' mem
    rcases List.mem_cons.1 mem with here | later
    · obtain ⟨rfl, rfl⟩ := Prod.mk.inj here
      obtain ⟨text, encoded, contents⟩ := noted.stored old new' rfl wet
      refine ⟨text, encoded, ?_⟩
      rw [visited.others _ fun v mem _ => apart v mem]
      exact (contents _).trans (if_pos rfl)
    · exact visited.stored wet source' old new' later

/-- **What sources leave in a ledger.** -/
theorem visited_processSources {sources : List Source} (h : g.logFile = none)
    (shape : t.SameShape g.tree)
    (same : ∀ source ∈ sources,
      g.tree.content? (source.place root) = t.content? (source.place root))
    (places : (sources.map (Source.place root)).Nodup)
    (labels : (sources.map (Source.label root)).Nodup)
    (new : ∀ source ∈ sources,
      source.label root ∉ g.modified ∧ source.label root ∉ g.diffs.names)
    (ok : processSources o root g sources = (g', .ok ())) :
    g'.session = g.session.visits o root t sources ∧
      Visited o root (fates o root t g.session sources) g g' := by
  induction sources generalizing g with
  | nil =>
    obtain ⟨rfl, -⟩ := Prod.mk.inj ok
    exact ⟨rfl, ⟨rfl, by simp [fates], by simp [fates], by simp [fates], fun _ => rfl,
      fun _ _ => rfl, by simp [fates]⟩⟩
  | cons source sources ih =>
    obtain ⟨sameHere, same⟩ := List.forall_mem_cons.1 same
    obtain ⟨newHere, new⟩ := List.forall_mem_cons.1 new
    obtain ⟨placeApart, places⟩ := List.nodup_cons.1 places
    obtain ⟨labelApart, labels⟩ := List.nodup_cons.1 labels
    simp only [processSources] at ok
    split at ok
    next => simp at ok
    next g₁ b step =>
      have logFile := logFile_processFile o g (root.child source.path) source.path
      rw [step] at logFile
      have noted : Noted o (root.child source.path) (source.label root) _ g g₁ :=
        noted_processFile h step
      obtain ⟨fate_eq, visit_eq⟩ := fate_congr (o := o) shape sameHere g.session
      rw [fate_eq] at noted
      have session := noted.session.trans visit_eq
      have apart {later : Source} (mem : later ∈ sources) :
          later.place root ≠ source.place root := by
        intro eq
        exact placeApart (eq ▸ List.mem_map_of_mem mem)
      obtain ⟨later, visited⟩ := ih (logFile.trans h) (shape.trans noted.shape)
        (fun later mem => (noted.content? (apart mem)).trans (same later mem)) places labels
        (fun later mem => noted.fresh newHere
          (fun eq => labelApart (eq ▸ List.mem_map_of_mem mem)) (new later mem)) ok
      rw [session] at later visited
      refine ⟨later, noted.visited_cons newHere ?_ visited⟩
      intro v mem
      have mem := List.mem_map_of_mem (f := Prod.fst) mem
      rw [map_fst_fates] at mem
      exact apart mem

end

end Localizer.Extraction
