import Localizer.Proofs.Extraction.Run
import Localizer.Proofs.Resource.Json

/-!
# The resource file over several runs

A run records the texts that are still literals, and writes the resource file over; it keeps nothing
of what earlier runs recorded. So the keys of the resource file after a sequence of runs are those of
the latest run that recorded any text (`mem_arbNames_rounds`). The calls that a run puts into sources
are for keys that it recorded (`recorded_of_mem_sourceCalls`), hence their keys are in the file after
that run, and stay there just as long as later runs record them again or record nothing
(`calls_after_rounds`).
-/

namespace Localizer.Extraction

open Text Dart Message Resource Edit Workspace Project

/-! ## The calls of a run -/

/-- The keys of the calls that a file gets: those of its buffer, if it was modified. -/
def fileCalls (o : FileOptions) (g : Ledger) (path : Path) (display : Text) : List Text :=
  match g.tree.readText path, (processFile o g path display).2 with
  | .ok content, .ok true => ((o.feed content).calls g.session).map fun call => call.1.key
  | _, _ => []

/-- The keys of the calls that sources get, one after the other. -/
def sourceCalls (o : FileOptions) (root : Path) (g : Ledger) : List Source → List Text
  | [] => []
  | source :: rest =>
    fileCalls o g (root.child source.path) source.path ++
      match processFile o g (root.child source.path) source.path with
      | (g', .ok _) => sourceCalls o root g' rest
      | (_, .error _) => []

theorem sourceCalls_singleton {o : FileOptions} {root : Path} {g g' : Ledger} {source : Source}
    {content : Text} (read : g.tree.readText (root.child source.path) = .ok content)
    (h : processFile o g (root.child source.path) source.path = (g', .ok true)) :
    sourceCalls o root g [source] = ((o.feed content).calls g.session).map fun call => call.1.key := by
  simp only [sourceCalls, fileCalls, read, h, List.append_nil]

/-- The keys of the calls that the sources of a project get in a run. -/
def runCalls (s : Settings) (t : Tree) : List Text :=
  match (prepare s t).2 with
  | .ok plan => sourceCalls (fileOptions s plan.target) s.root (.before s t) plan.sources
  | .error _ => []

/-- The key of a call is recorded. -/
theorem recorded_of_mem_fileCalls {o : FileOptions} {g : Ledger} {path : Path} {display key : Text}
    (h : g.session.Consistent) (mem : key ∈ fileCalls o g path display) :
    ∃ e ∈ (processFile o g path display).1.session.table.recorded, e.key = key := by
  unfold fileCalls at mem
  split at mem
  next content read _ =>
    obtain ⟨call, hcall, rfl⟩ := List.mem_map.1 mem
    obtain ⟨_, -, agrees⟩ := Feed.agrees_of_mem_calls h hcall
    obtain ⟨e, found, -⟩ := agrees.entry
    rw [session_processFile read]
    exact ⟨e, List.mem_of_find?_eq_some found, by simpa using List.find?_some found⟩
  next => simp at mem

theorem recorded_of_mem_sourceCalls {o : FileOptions} {root : Path} {g : Ledger}
    {sources : List Source} {key : Text} (h : g.session.Consistent)
    (mem : key ∈ sourceCalls o root g sources) :
    ∃ e ∈ (processSources o root g sources).1.session.table.recorded, e.key = key := by
  induction sources generalizing g with
  | nil => simp [sourceCalls] at mem
  | cons source sources ih =>
    have first (mem : key ∈ fileCalls o g (root.child source.path) source.path) :=
      recorded_of_mem_fileCalls h mem
    have session := consistent_processFile o h (root.child source.path) source.path
    simp only [sourceCalls] at mem
    simp only [processSources]
    rcases hfile : processFile o g (root.child source.path) source.path with ⟨g', answer⟩
    rw [hfile] at first session mem
    cases answer with
    | error e => exact first (by simpa using mem)
    | ok b =>
      rcases List.mem_append.1 mem with mem | mem
      · obtain ⟨e, he, key⟩ := first mem
        exact ⟨e, (consistent_processSources o root session.1 sources).2.table.subset he, key⟩
      · exact ih session.1 mem

/-! ## The keys of the resource file -/

/-- The names of the members of the object that a file holds. -/
def memberNames (bytes : ByteArray) : List Message :=
  match Tree.decode bytes with
  | .error _ => []
  | .ok text =>
    match Json.read (ofText text) with
    | some (.object members) => members.map Prod.fst
    | _ => []

/-- The names of the members of the resource file. -/
def arbNames (s : Settings) (t : Tree) : List Message :=
  match s.arbPath with
  | none => []
  | some arb => (t.content? (address arb)).elim [] memberNames

/-- A name under which something was written is a name of the dictionary. -/
theorem mem_names_ofPairs {pairs : List (Text × Arb.Member)} {name : Text} :
    name ∈ (Dictionary.ofPairs pairs).names ↔ name ∈ pairs.map Prod.fst := by
  have set (d : Dictionary Text Arb.Member) (p : Text × Arb.Member) :
      name ∈ (Dictionary.set p.1 p.2 d).names ↔ name ∈ d.names ∨ name = p.1 := by
    induction d with
    | nil => simp [Dictionary.set, Dictionary.names]
    | cons q d ih =>
      simp only [Dictionary.names, List.map_cons, List.mem_cons, Dictionary.set] at ih ⊢
      split
      next same =>
        have same : q.1 = p.1 := by simpa using same
        simp only [List.map_cons, List.mem_cons, same]
        tauto
      next =>
        simp only [List.map_cons, List.mem_cons, ih]
        tauto
  have run (d : Dictionary Text Arb.Member) :
      name ∈ (pairs.foldl (fun d p => Dictionary.set p.1 p.2 d) d).names ↔
        name ∈ d.names ∨ name ∈ pairs.map Prod.fst := by
    induction pairs generalizing d with
    | nil => simp
    | cons p pairs ih =>
      rw [List.foldl_cons, ih, set, List.map_cons, List.mem_cons]
      tauto
  rw [Dictionary.ofPairs, run]
  simp [Dictionary.names]

/-- A name without an at sign is a name of the document exactly if it is the key of an entry. -/
theorem mem_names_document {t : Table} {locale : Arb.Member} {key : Text} (plain : '@' ∉ key) :
    key ∈ (Arb.document t locale).names ↔ t.contains key = true := by
  rw [Arb.document, mem_names_ofPairs, Table.contains_iff]
  simp only [List.map_cons, List.mem_cons, List.map_flatMap, List.mem_flatMap, Arb.members,
    List.map_nil, List.not_mem_nil, or_false, Table.mem_entries_iff]
  constructor
  · rintro (rfl | ⟨e, he, rfl | rfl⟩)
    · exact absurd (by decide) plain
    · exact ⟨e, he, rfl⟩
    · exact absurd List.mem_cons_self plain
  · rintro ⟨e, he, rfl⟩
    exact .inr ⟨e, he, .inl rfl⟩

/-- The names of a resource file are those of its document. -/
theorem memberNames_render {d : Arb.Document} {text : Text}
    (encoded : (Arb.render d).toText? = some text) :
    memberNames (Tree.encode text) = d.names.map ofText := by
  simp only [memberNames, Tree.decode_encode, ofText_of_toText? encoded, Json.read_render]
  rw [Dictionary.names, List.map_map, List.map_map]
  rfl

theorem mem_map_ofText {key : Text} {names : List Text} :
    ofText key ∈ names.map ofText ↔ key ∈ names := by
  refine ⟨?_, List.mem_map_of_mem⟩
  intro mem
  obtain ⟨name, hname, same⟩ := List.mem_map.1 mem
  have eq : some name = some key := by rw [← toText?_ofText name, same, toText?_ofText]
  exact Option.some.inj eq ▸ hname

/-- No key has an at sign, so that the members for keys and the others keep apart. -/
theorem Session.Consistent.sign_not_mem_key {s : Session} (h : s.Consistent) {key : Text}
    (recorded : s.table.contains key = true) : '@' ∉ key := by
  obtain ⟨e, he, rfl⟩ := Table.contains_iff.1 recorded
  obtain ⟨content, found, -⟩ := h.entries e he
  have issued := List.mem_map_of_mem (f := Prod.snd) (h.keys.lookup?_eq_some_iff.1 found)
  intro sign
  rcases h.keys.chars _ issued _ sign with letter | same
  · revert letter
    decide
  · revert same
    decide

/-! ## One run -/

/-- The resource file and the generator's configuration are two files. -/
def ResultsApart (s : Settings) : Prop :=
  ∀ arb, s.arbPath = some arb → address arb ≠ address (generatorConfigPath s)

/-- What a run that returns has done. -/
structure RunReturns (s : Settings) (t : Tree) (g : Ledger) : Prop where
  consistent : g.session.Consistent
  calls : ∀ key ∈ runCalls s t, g.session.table.contains key = true
  /-- Nothing was recorded, and no file has changed. -/
  nothing : g.session.table.recorded = [] → ∀ names, g.tree.content? names = t.content? names
  /-- Something was recorded, and the resource file has its keys. -/
  something : g.session.table.recorded ≠ [] → ∀ key, '@' ∉ key →
    (ofText key ∈ arbNames s g.tree ↔ g.session.table.contains key = true)

theorem runReturns_run {launch : Launcher} {s : Settings} {t : Tree} {g : Ledger} {r : Result}
    (wet : s.dryRun = false) (apart : ResultsApart (rooted s))
    (h : run launch s t none = (g, .ok r)) : RunReturns (rooted s) t g := by
  have step := runStep_run launch s t
  rw [h] at step
  cases step with
  | @returned plan g₁ _ published prepared sources results =>
    have logFile := logFile_processed (rooted s) t plan
    have contents := contents_processed (rooted s) t plan (by rw [sources]; simp)
    have consistent : (processed (rooted s) t plan).1.session.Consistent :=
      (consistent_processSources _ _ Session.consistent_empty _).1
    have calls : ∀ key ∈ runCalls (rooted s) t,
        ∃ e ∈ (processed (rooted s) t plan).1.session.table.recorded, e.key = key := by
      intro key mem
      simp only [runCalls, prepared] at mem
      exact recorded_of_mem_sourceCalls Session.consistent_empty mem
    rw [sources] at logFile contents consistent calls
    obtain ⟨work, -⟩ := publish_spec launch (rooted s) logFile
    have published := publish_eq_ok (s := rooted s) logFile wet (congrArg Prod.snd results)
    rw [results] at work published
    simp only at contents consistent calls published
    rw [← work.session] at consistent calls published
    refine ⟨consistent, fun key mem => Table.contains_iff.2 (calls key mem), ?_, ?_⟩
    · intro empty names
      rcases published with ⟨-, tree⟩ | ⟨recorded, -⟩
      · rw [tree]
        rcases contents names with same | replaced
        · exact same
        · exact absurd (work.session ▸ empty) replaced.recorded
      · exact absurd empty recorded
    · intro recorded key plain
      rcases published with ⟨empty, -⟩ | ⟨-, arb, harb, holds⟩
      · exact absurd empty recorded
      · obtain ⟨text, encoded, content⟩ := holds (apart arb harb)
        simp only [arbNames, harb, content, Option.elim_some, memberNames_render encoded,
          mem_map_ofText, mem_names_document plain]

/-! ## Several runs -/

/-- What a run did. -/
structure Round where
  /-- The keys of the calls that sources got. -/
  calls : List Text
  /-- What was recorded. -/
  table : Table

/-- Runs over a project one after the other, each over the files that the one before left; none if
some run fails. -/
def rounds (s : Settings) : List Launcher → Tree → Option (List Round × Tree)
  | [], t => some ([], t)
  | launch :: rest, t =>
    match run launch s t none with
    | (g, .ok _) =>
      (rounds s rest g.tree).map fun x => (⟨runCalls (rooted s) t, g.session.table⟩ :: x.1, x.2)
    | (_, .error _) => none

/-- The latest run that recorded any text. -/
def latest : List Round → Option Round
  | [] => none
  | r :: rs => (latest rs).or (if r.table.recorded.isEmpty then none else some r)

theorem latest_isSome_of_mem {rs : List Round} {r : Round} (mem : r ∈ rs)
    (recorded : r.table.recorded ≠ []) : ∃ last, latest rs = some last := by
  induction rs with
  | nil => simp at mem
  | cons x rs ih =>
    cases hlast : latest rs with
    | some last => exact ⟨last, by simp [latest, hlast]⟩
    | none =>
      rcases List.mem_cons.1 mem with rfl | mem
      · exact ⟨r, by simp [latest, hlast, recorded]⟩
      · obtain ⟨last, found⟩ := ih mem
        simp [hlast] at found

theorem latest_of_getLast? {rs : List Round} {r : Round} (last : rs.getLast? = some r)
    (recorded : r.table.recorded ≠ []) : latest rs = some r := by
  induction rs with
  | nil => simp at last
  | cons x rs ih =>
    cases rs with
    | nil =>
      obtain rfl : x = r := by simpa using last
      simp [latest, recorded]
    | cons y rs =>
      rw [List.getLast?_cons_cons] at last
      rw [latest, ih last, Option.some_or]

section

variable {s : Settings} {launches : List Launcher} {t t' : Tree} {rs : List Round}
  (wet : s.dryRun = false) (apart : ResultsApart (rooted s))
include wet apart

/-- A run puts in calls of keys that it records, and these have no at sign. -/
theorem calls_of_mem_rounds (h : rounds s launches t = some (rs, t')) {r : Round} (mem : r ∈ rs)
    {key : Text} (hkey : key ∈ r.calls) : r.table.contains key = true ∧ '@' ∉ key := by
  induction launches generalizing t rs with
  | nil =>
    simp only [rounds, Option.some.injEq, Prod.mk.injEq] at h
    simp [← h.1] at mem
  | cons launch launches ih =>
    simp only [rounds] at h
    split at h
    next g _ hrun =>
      obtain ⟨⟨rs', t''⟩, later, eq⟩ := Option.map_eq_some_iff.1 h
      obtain ⟨rfl, rfl⟩ := Prod.mk.inj eq
      rcases List.mem_cons.1 mem with rfl | mem
      · have returns := runReturns_run wet apart hrun
        have recorded := returns.calls key hkey
        exact ⟨recorded, returns.consistent.sign_not_mem_key recorded⟩
      · exact ih later mem
    next => simp at h

/-- **The keys of the resource file are those of the latest run that recorded any text.** -/
theorem mem_arbNames_rounds (h : rounds s launches t = some (rs, t')) {key : Text}
    (plain : '@' ∉ key) :
    ofText key ∈ arbNames (rooted s) t' ↔ match latest rs with
      | some last => last.table.contains key = true
      | none => ofText key ∈ arbNames (rooted s) t := by
  induction launches generalizing t rs with
  | nil =>
    simp only [rounds, Option.some.injEq, Prod.mk.injEq] at h
    obtain ⟨rfl, rfl⟩ := h
    rfl
  | cons launch launches ih =>
    simp only [rounds] at h
    split at h
    next g _ hrun =>
      obtain ⟨⟨rs', t''⟩, later, eq⟩ := Option.map_eq_some_iff.1 h
      obtain ⟨rfl, rfl⟩ := Prod.mk.inj eq
      have returns := runReturns_run wet apart hrun
      rw [ih later]
      cases hlast : latest rs' with
      | some last => simp [latest, hlast]
      | none =>
        by_cases empty : g.session.table.recorded = []
        · have same : arbNames (rooted s) g.tree = arbNames (rooted s) t := by
            simp only [arbNames, returns.nothing empty]
          simp [latest, hlast, empty, same]
        · simpa [latest, hlast, empty] using returns.something empty key plain
    next => simp at h

/-- **Calls and the resource file.** After a sequence of runs that return, every key whose call the
last run put into a source is a key of the resource file; the key of a call of any of the runs is a
key of it exactly if the latest run that recorded any text recorded that key. -/
theorem calls_after_rounds (h : rounds s launches t = some (rs, t')) :
    (∀ r, rs.getLast? = some r → ∀ key ∈ r.calls, ofText key ∈ arbNames (rooted s) t') ∧
      ∀ r ∈ rs, ∀ key ∈ r.calls, ∃ last, latest rs = some last ∧
        (ofText key ∈ arbNames (rooted s) t' ↔ last.table.contains key = true) := by
  have nonempty {r : Round} {key : Text} (h : r.table.contains key = true) :
      r.table.recorded ≠ [] := by
    obtain ⟨e, he, -⟩ := Table.contains_iff.1 h
    exact List.ne_nil_of_mem he
  refine ⟨?_, ?_⟩
  · intro r hr key hkey
    obtain ⟨recorded, plain⟩ :=
      calls_of_mem_rounds wet apart h (List.mem_of_getLast? hr) hkey
    rw [mem_arbNames_rounds wet apart h plain, latest_of_getLast? hr (nonempty recorded)]
    exact recorded
  · intro r mem key hkey
    obtain ⟨recorded, plain⟩ := calls_of_mem_rounds wet apart h mem hkey
    obtain ⟨last, hlast⟩ := latest_isSome_of_mem mem (nonempty recorded)
    refine ⟨last, hlast, ?_⟩
    rw [mem_arbNames_rounds wet apart h plain, hlast]

end

/-! ## A run that drops a key -/

/-- A screen with two texts, one of them in a constant expression. -/
def constScreen : Text := "f() => [Text('Hello'), const [Text('World')]];\n".toList

/-- What the first run makes of it. -/
def constOutcome : Outcome where
  content := ofText
    "f() => [Text(AppLocalizations.of(context).hello), const [Text('World')]];\n".toList
  replaced := 1
  skippedConst := 1

/-- What the first run records. -/
def constTable : Table where
  recorded := [⟨"hello".toList, ofText "Hello".toList, describe [], none⟩,
    ⟨"world".toList, ofText "World".toList, describe [], none⟩]

/-- What the first run is about to do. -/
def constPlan : Plan where
  missing := []
  target := some ⟨ofText "AppLocalizations".toList, none⟩
  sources := [⟨"lib/a.dart".toList, 47⟩]

/-- How the runs treat the screen. -/
def constOptions : FileOptions := fileOptions (rooted replacing) constPlan.target

/-- Where the screen is. -/
def constPath : Path := (rooted replacing).root.child (ofText "lib/a.dart".toList)

/-- The ledger of the first run when the screen is stored. -/
def constLedger : Ledger :=
  (store constOptions ((Ledger.before (rooted replacing) (oneSource constScreen [])).opened
    constOptions "lib/a.dart".toList constScreen constOutcome) constPath "lib/a.dart".toList
    constScreen constOutcome).1

set_option maxRecDepth 100000 in
theorem collect_constScreen :
    (collect constOptions.filter {} (scan constOptions.windows constScreen)).1.table = constTable ∧
      (collect constOptions.filter {} (scan constOptions.windows constScreen)).2.2 =
        .ok [⟨"'Hello'".toList, 13, .text, "hello".toList, []⟩,
          ⟨"'World'".toList, 35, .text, "world".toList, []⟩] := by
  decide +kernel

theorem table_constLedger : constLedger.session.table = constTable := by
  rw [← collect_constScreen.1, constLedger, session_store, Ledger.session_opened,
    Session.feed_eq_collect]
  rfl

theorem prepare_constScreen :
    (prepare (rooted replacing) (oneSource constScreen [])).2 = .ok constPlan := by
  decide +kernel

theorem readText_constScreen : (oneSource constScreen []).readText constPath = .ok constScreen := by
  decide +kernel

theorem processFile_constScreen :
    processFile constOptions (.before (rooted replacing) (oneSource constScreen [])) constPath
      "lib/a.dart".toList = (constLedger, .ok true) := by
  have result : ((constOptions.feed constScreen).process {}).2.2 = .ok constOutcome := by
    rw [Feed.process_of_collect rfl collect_constScreen.2, Localizations.replace, plan,
      sites_of_ordered _ (by decide)]
    decide +kernel
  have label : labelOf constPath "lib/a.dart".toList = "lib/a.dart".toList := rfl
  rw [processFile_of_changed readText_constScreen rfl result rfl, label]
  refine Prod.ext rfl ?_
  decide +kernel

theorem runCalls_constScreen :
    runCalls (rooted replacing) (oneSource constScreen []) = ["hello".toList] := by
  have calls : ((constOptions.feed constScreen).calls {}).map (fun call => call.1.key) =
      ["hello".toList] := by
    rw [Feed.calls_of_ok rfl collect_constScreen.2, grantedIn, sites_of_ordered _ (by decide)]
    decide +kernel
  rw [runCalls, prepare_constScreen, ← calls]
  exact sourceCalls_singleton readText_constScreen processFile_constScreen

set_option maxRecDepth 100000 in
/-- Both runs record the text in the constant expression, which stays a literal. The other text is
replaced by the first run, so that the second does not find it. -/
theorem rounds_constScreen :
    (rounds replacing [fun _ => .noAnswer, fun _ => .noAnswer] (oneSource constScreen [])).map
        (fun x => x.1.map fun r => (r.calls, r.table.recorded.map (·.key))) =
      some [(["hello".toList], ["hello".toList, "world".toList]), ([], ["world".toList])] := by
  have entries : constTable.entries = constTable.recorded := Table.entries_of_pairwise (by decide)
  have processed : processed (rooted replacing) (oneSource constScreen []) constPlan =
      (constLedger, .ok ()) := processSources_singleton processFile_constScreen
  rw [rounds, runCalls_constScreen, run_of_processed rfl prepare_constScreen processed,
    publish_of_recorded (by rw [table_constLedger]; decide) rfl rfl, writeResults,
    Ledger.session_log, table_constLedger, Arb.document, entries]
  decide +kernel

theorem resultsApart_replacing : ResultsApart (rooted replacing) := by
  intro arb h
  obtain rfl := Option.some.inj h
  decide

theorem calls_after_rounds_constScreen :
    replacing.dryRun = false ∧ ResultsApart (rooted replacing) ∧ ∃ rs t',
      rounds replacing [fun _ => .noAnswer, fun _ => .noAnswer] (oneSource constScreen []) =
        some (rs, t') ∧
      (∀ r, rs.getLast? = some r → ∀ key ∈ r.calls, ofText key ∈ arbNames (rooted replacing) t') ∧
      ∀ r ∈ rs, ∀ key ∈ r.calls, ∃ last, latest rs = some last ∧
        (ofText key ∈ arbNames (rooted replacing) t' ↔ last.table.contains key = true) := by
  obtain ⟨⟨rs, t'⟩, h, -⟩ := Option.map_eq_some_iff.1 rounds_constScreen
  exact ⟨rfl, resultsApart_replacing, rs, t', h, calls_after_rounds rfl resultsApart_replacing h⟩

/-- A source without calls, two runs that return, and a call of the first whose key is not in the
resource file after the second. -/
theorem second_run_drops_key :
    replacing.replace = true ∧ replacing.dryRun = false ∧
      occursIn ".of(context).".toList constScreen = false ∧ ∃ rs t',
        rounds replacing [fun _ => .noAnswer, fun _ => .noAnswer] (oneSource constScreen []) =
          some (rs, t') ∧
        ∃ r ∈ rs, "hello".toList ∈ r.calls ∧
          ofText "hello".toList ∉ arbNames (rooted replacing) t' := by
  obtain ⟨⟨rs, t'⟩, h, eq⟩ := Option.map_eq_some_iff.1 rounds_constScreen
  obtain ⟨first, rest, rfl, one, two⟩ := List.map_eq_cons_iff.1 eq
  obtain ⟨second, none, rfl, keys, nil⟩ := List.map_eq_cons_iff.1 two
  obtain rfl := List.map_eq_nil_iff.1 nil
  obtain ⟨calls, -⟩ := Prod.mk.inj one
  obtain ⟨-, recorded⟩ := Prod.mk.inj keys
  refine ⟨rfl, rfl, by decide +kernel, _, t', h, first, by simp, by simp [calls], ?_⟩
  have last : latest [first, second] = some second :=
    latest_of_getLast? rfl fun empty => by simp [empty] at recorded
  rw [mem_arbNames_rounds rfl resultsApart_replacing h (by decide), last]
  intro known
  obtain ⟨e, he, key⟩ := Table.contains_iff.1 known
  have found : e.key ∈ second.table.recorded.map (·.key) := List.mem_map_of_mem he
  rw [recorded, key] at found
  revert found
  decide

end Localizer.Extraction
