import Localizer.Proofs.Workspace.Place

/-!
# The sources that are found

The walk below a folder does not go into the folders that it passes over. What it takes is judged
from the names on the way to a file alone (`listed`), so that it finds just the files that pass
(`sources_eq_filter`), whatever lies next to them. Said without the walk (`Listed`), these are the
files with the name of a source that are not excluded, in folders of which none is one of a tool or
excluded; and a path is excluded if the last rule that matches it is not negated (`Excluded`).
-/

namespace Localizer.Workspace

open Text Localizer.Path

/-! ## Rules -/

/-- Some rule matches a path, and the last one that does takes nothing back in. -/
def Excluded (rules : List Rule) (path : Message) (isDirectory : Bool) : Prop :=
  ∃ before rule after, rules = before ++ rule :: after ∧ rule.applies path isDirectory = true ∧
    rule.negate = false ∧ ∀ later ∈ after, later.applies path isDirectory = false

section

variable {rules : List Rule} {path : Message} {isDirectory : Bool}

theorem excluded_cons_iff {rule : Rule} :
    Excluded (rule :: rules) path isDirectory ↔ Excluded rules path isDirectory ∨
      rule.applies path isDirectory = true ∧ rule.negate = false ∧
        ∀ later ∈ rules, later.applies path isDirectory = false := by
  constructor
  · rintro ⟨before, rule', after, eq, last⟩
    cases before with
    | nil =>
      obtain ⟨rfl, rfl⟩ := List.cons.inj eq
      exact .inr last
    | cons first before =>
      obtain ⟨rfl, rfl⟩ := List.cons.inj eq
      exact .inl ⟨before, rule', after, rfl, last⟩
  · rintro (⟨before, rule', after, rfl, last⟩ | last)
    · exact ⟨rule :: before, rule', after, rfl, last⟩
    · exact ⟨[], rule, rules, rfl, last⟩

/-- **The last rule that matches decides.** -/
theorem isIgnored_iff :
    isIgnored rules path isDirectory = true ↔ Excluded rules path isDirectory := by
  -- what was decided before stands if no rule matches
  have run (ignored : Bool) :
      rules.foldl (fun ignored r => if r.applies path isDirectory then !r.negate else ignored)
        ignored = true ↔ Excluded rules path isDirectory ∨
          ignored = true ∧ ∀ rule ∈ rules, rule.applies path isDirectory = false := by
    induction rules generalizing ignored with
    | nil => simp [Excluded]
    | cons rule rules ih =>
      rw [List.foldl_cons, ih, excluded_cons_iff, List.forall_mem_cons]
      split
      next applies => simp [applies]
      next silent => simp [silent]
  exact (run false).trans (by simp)

instance : Decidable (Excluded rules path isDirectory) := decidable_of_iff _ isIgnored_iff

end

/-! ## The walk -/

/-- Whether the walk from the folder at `here` comes to a file and takes it. -/
def listed (rules : List Rule) (root here : List Text) : List Text → Bool
  | [] => false
  | [name] => isSourceName name && !isIgnored rules (entryText root here name) false
  | name :: rest =>
    !(toolFolders.contains name || isIgnored rules (entryText root here name) true) &&
      listed rules root (here ++ [name]) rest

/-- **The walk takes the files that are listed.** -/
theorem sources_eq_filter (rules : List Rule) (root here : List Text) (d : Directory) :
    d.sources rules root here = (d.files.filter fun f => listed rules root here f.1).map
      fun f => ⟨placeText root (here ++ f.1), f.2.size⟩ := by
  induction d generalizing here with
  | empty => rfl
  | file name content rest ih =>
    have front : Directory.sources rules root here (.file name content rest) =
        (if listed rules root here [name] then
          [⟨placeText root (here ++ [name]), content.size⟩] else []) ++
            rest.sources rules root here := rfl
    rw [front, ih, Directory.files]
    cases taken : listed rules root here [name] with
    | true =>
      rw [List.filter_cons_of_pos (by exact taken)]
      rfl
    | false =>
      rw [List.filter_cons_of_neg (by simp [taken])]
      rfl
  | folder name inside rest ihInside ih =>
    -- the files of a folder are passed over together
    generalize hskip :
      (toolFolders.contains name || isIgnored rules (entryText root here name) true) = skipped
    have down : inside.files.filter (fun f => listed rules root here (name :: f.1)) =
        inside.files.filter fun f => !skipped && listed rules root (here ++ [name]) f.1 := by
      refine List.filter_congr fun f mem => ?_
      rw [listed, hskip]
      exact Directory.ne_nil_of_mem_files mem
    have front : (if skipped then [] else inside.sources rules root (here ++ [name])) =
        (inside.files.filter fun f => listed rules root here (name :: f.1)).map
          fun f => ⟨placeText root (here ++ name :: f.1), f.2.size⟩ := by
      rw [down]
      cases skipped with
      | true => simp
      | false => simp [ihInside]
    simp only [Directory.sources, Directory.files, List.filter_append, List.filter_map,
      List.map_append, List.map_map, ih, hskip, front]
    rfl

/-! ## What is found, without the walk -/

/-- The path by which the rules know a place: from the root if it is below it, else in full. -/
def rulePath (root place : List Text) : Text :=
  if root <+: place ∧ root ≠ place then join ['/'] (place.drop root.length)
  else '/' :: join ['/'] place

/-- The file at these names below a folder is one to be found. -/
structure Listed (rules : List Rule) (root folder below : List Text) : Prop where
  /-- It has the name of a source, and not that of a generated file. -/
  source : ∃ around name, below = around ++ [name] ∧ ".dart".toList <:+ name ∧
    ∀ ending ∈ generatedEndings, ¬ending <:+ name
  /-- It is not excluded itself. -/
  kept : ¬Excluded rules (rulePath root (folder ++ below)) false
  /-- No folder on the way to it is one of a tool or excluded. -/
  reached : ∀ before name after, below = before ++ name :: after → after ≠ [] →
    name ∉ toolFolders ∧ ¬Excluded rules (rulePath root (folder ++ (before ++ [name]))) true

section

variable {rules : List Rule} {root here below : List Text} {name : Text}

theorem isSourceName_iff : isSourceName name = true ↔
    ".dart".toList <:+ name ∧ ∀ ending ∈ generatedEndings, ¬ending <:+ name := by
  simp [isSourceName]

theorem join_eq_nil_iff {names : List Text} (proper : ∀ name ∈ names, ProperName name) :
    join ['/'] names = [] ↔ names = [] := by
  refine ⟨?_, fun eq => by rw [eq]; rfl⟩
  intro empty
  have parts := partsOf_join proper
  rw [empty] at parts
  have none : partsOf (Message.ofText []) = [] := rfl
  exact List.map_eq_nil_iff.1 (parts.symm.trans none)

/-- The walk names an entry as the rules know it; only an entry of the root of the tree, seen from
elsewhere, gets a second slash. -/
theorem entryText_eq (proper : ∀ name ∈ here, ProperName name) (top : here = [] → root = []) :
    entryText root here name = rulePath root (here ++ [name]) := by
  unfold entryText rulePath placeText
  by_cases below : root <+: here
  · obtain ⟨mid, rfl⟩ := below
    have properMid : ∀ name ∈ mid, ProperName name :=
      fun name mem => proper name (List.mem_append_right _ mem)
    have strictly : root <+: root ++ mid ++ [name] ∧ root ≠ root ++ mid ++ [name] := by
      simp [List.append_assoc]
    rw [if_pos (List.isPrefixOf_iff_prefix.2 (List.prefix_append _ _)), if_pos strictly,
      List.drop_left, List.append_assoc, List.drop_left]
    split
    next empty =>
      rw [(join_eq_nil_iff properMid).1 empty]
      simp [join]
    next some =>
      exact (join_concat (fun empty => some ((join_eq_nil_iff properMid).2 empty)) name).symm
  · have notBelow : ¬(root <+: here ++ [name] ∧ root ≠ here ++ [name]) := by
      rintro ⟨up, ne⟩
      rcases List.prefix_concat_iff.1 up with eq | up
      · exact ne eq
      · exact below up
    have nonempty : here ≠ [] := by
      intro empty
      rw [top empty] at below
      exact below List.nil_prefix
    rw [if_neg (by simpa using below), if_neg notBelow, join_concat nonempty]
    rfl

/-- Going into a folder on the way to a file. -/
theorem Listed.cons_iff (more : below ≠ []) : Listed rules root here (name :: below) ↔
    (name ∉ toolFolders ∧ ¬Excluded rules (rulePath root (here ++ [name])) true) ∧
      Listed rules root (here ++ [name]) below := by
  constructor
  · rintro ⟨⟨around, last, eq, source⟩, kept, folders⟩
    refine ⟨by simpa using folders [] name below rfl more, ⟨?_, by simpa using kept, ?_⟩⟩
    · cases around with
      | nil => exact absurd (List.cons.inj eq).2 more
      | cons first around => exact ⟨around, last, (List.cons.inj eq).2, source⟩
    · intro before inner after eq some
      simpa using folders (name :: before) inner after (by rw [eq]; rfl) some
  · rintro ⟨first, ⟨around, last, last_eq, source⟩, kept, folders⟩
    refine ⟨⟨name :: around, last, by rw [last_eq]; rfl, source⟩, by simpa using kept, ?_⟩
    intro before inner after eq some
    cases before with
    | nil =>
      obtain ⟨rfl, -⟩ := List.cons.inj eq
      simpa using first
    | cons outer before =>
      obtain ⟨rfl, below_eq⟩ := List.cons.inj eq
      simpa using folders before inner after below_eq some

/-- **The walk takes what is to be found.** -/
theorem listed_iff (proper : ∀ name ∈ here, ProperName name)
    (properBelow : ∀ name ∈ below, ProperName name) (top : here = [] → root = []) :
    listed rules root here below = true ↔ Listed rules root here below := by
  induction below generalizing here with
  | nil =>
    refine iff_of_false (by simp [listed]) ?_
    rintro ⟨⟨around, name, eq, -⟩, -, -⟩
    simp at eq
  | cons name below ih =>
    obtain ⟨first, rest⟩ := List.forall_mem_cons.1 properBelow
    cases below with
    | nil =>
      simp only [listed, Bool.and_eq_true, Bool.not_eq_true', ← Bool.not_eq_true, isIgnored_iff,
        entryText_eq proper top, isSourceName_iff]
      constructor
      · rintro ⟨source, kept⟩
        refine ⟨⟨[], name, rfl, source⟩, kept, ?_⟩
        intro before inner after eq some
        cases before <;> simp_all
      · rintro ⟨⟨around, last, eq, source⟩, kept, -⟩
        obtain rfl : name = last := by cases around <;> simp_all
        exact ⟨source, kept⟩
    | cons second below =>
      have properHere : ∀ part ∈ here ++ [name], ProperName part := by
        intro part mem
        rcases List.mem_append.1 mem with mem | mem
        · exact proper part mem
        · exact List.mem_singleton.1 mem ▸ first
      rw [Listed.cons_iff (by simp), ← ih properHere rest (by simp)]
      simp only [listed, Bool.and_eq_true, Bool.not_eq_true', ← Bool.not_eq_true, Bool.or_eq_true,
        not_or, entryText_eq proper top, isIgnored_iff, List.contains_iff_mem]

/-! ## What is not taken -/

/-- What the walk takes has the name of a source. -/
theorem isSourceName_of_listed (h : listed rules root here below = true) :
    ∃ around name, below = around ++ [name] ∧ isSourceName name = true := by
  induction below generalizing here with
  | nil => simp [listed] at h
  | cons first below ih =>
    cases below with
    | nil =>
      simp only [listed, Bool.and_eq_true] at h
      exact ⟨[], first, rfl, h.1⟩
    | cons second below =>
      simp only [listed, Bool.and_eq_true] at h
      obtain ⟨around, name, eq, source⟩ := ih h.2
      exact ⟨first :: around, name, by rw [eq]; rfl, source⟩

/-- No folder on the way from the start of the walk to what it takes is ignored. -/
theorem isIgnored_of_listed {before after : List Text}
    (h : listed rules root here (before ++ name :: after) = true) (some : after ≠ []) :
    isIgnored rules (entryText root (here ++ before) name) true = false := by
  induction before generalizing here with
  | nil =>
    obtain ⟨second, after, rfl⟩ := List.exists_cons_of_ne_nil some
    simp only [List.nil_append, listed, Bool.and_eq_true, Bool.not_eq_true', Bool.or_eq_false_iff]
      at h
    simpa using h.1.2
  | cons first before ih =>
    obtain ⟨second, rest, eq⟩ := List.exists_cons_of_ne_nil
      (List.append_ne_nil_of_right_ne_nil before (List.cons_ne_nil name after))
    rw [List.cons_append, eq, listed, ← eq, Bool.and_eq_true] at h
    · simpa using ih h.2
    · exact List.cons_ne_nil _ _

/-- **What lies in an ignored folder is not taken,** unless the walk starts in there. -/
theorem not_prefix_of_listed {front : List Text} (h : listed rules root here below = true)
    (proper : ∀ name ∈ root ++ front, ProperName name) (notSource : isSourceName name = false)
    (ignored : isIgnored rules (Message.ofText (join ['/'] (front ++ [name]))) true = true)
    (outside : ¬root ++ front ++ [name] <+: here) : ¬root ++ front ++ [name] <+: here ++ below := by
  rintro ⟨rest, place⟩
  rcases List.append_eq_append_iff.1 place with ⟨inner, eq, -⟩ | ⟨way, eq, rfl⟩
  · exact outside ⟨inner, eq.symm⟩
  rcases List.eq_nil_or_concat way with rfl | ⟨before, last, rfl⟩
  · exact outside ⟨[], by simpa using eq⟩
  rw [List.concat_eq_append, ← List.append_assoc] at eq
  obtain ⟨up, ends⟩ := List.append_inj' eq rfl
  obtain rfl := List.singleton_inj.1 ends
  rw [List.concat_eq_append, List.append_assoc] at h
  cases rest with
  | nil =>
    obtain ⟨around, source, eq, named⟩ := isSourceName_of_listed h
    rw [List.append_nil] at eq
    obtain rfl := List.singleton_inj.1 (List.append_inj' eq rfl).2
    rw [named] at notSource
    simp at notSource
  | cons second rest =>
    have kept := isIgnored_of_listed h (List.cons_ne_nil second rest)
    have path : rulePath root (root ++ front ++ [name]) = join ['/'] (front ++ [name]) := by
      rw [rulePath, if_pos (by simp [List.append_assoc]), List.append_assoc, List.drop_left]
    rw [← up, entryText_eq proper (by simp +contextual), path, ignored] at kept
    simp at kept

end

/-! ## The order of the list -/

theorem le_antisymm {a b : Text} (hab : le a b = true) (hba : le b a = true) : a = b := by
  induction a generalizing b with
  | nil =>
    cases b with
    | nil => rfl
    | cons y ys => simp [le] at hba
  | cons x xs ih =>
    cases b with
    | nil => simp [le] at hab
    | cons y ys =>
      simp only [le, Bool.or_eq_true, decide_eq_true_eq, Bool.and_eq_true, beq_iff_eq] at hab hba
      rcases hab with hxy | ⟨rfl, hab⟩
      · rcases hba with hyx | ⟨rfl, -⟩
        · exact absurd (Char.lt_trans hxy hyx) (Char.lt_irrefl x)
        · exact absurd hxy (Char.lt_irrefl y)
      · rcases hba with hyx | ⟨-, hba⟩
        · exact absurd hyx (Char.lt_irrefl x)
        · rw [ih hab hba]

/-- Sources in strictly increasing order of their paths. -/
def Increasing (sources : List Source) : Prop :=
  sources.Pairwise fun a b => le a.path b.path = true ∧ a.path ≠ b.path

/-- A strictly increasing list is known from its members. -/
theorem Increasing.eq {sources sources' : List Source} (h : Increasing sources)
    (h' : Increasing sources') (same : ∀ source, source ∈ sources ↔ source ∈ sources') :
    sources = sources' := by
  have nodup {sources : List Source} (h : Increasing sources) : sources.Nodup :=
    h.imp fun step eq => step.2 (congrArg Source.path eq)
  refine List.Perm.eq_of_pairwise ?_ h h' ((List.perm_ext_iff_of_nodup (nodup h) (nodup h')).2 same)
  intro a b _ _ hab hba
  exact absurd (le_antisymm hab.1 hba.1) hab.2

/-! ## Discovering -/

/-- The names to which the path of a source leads from the root. -/
def Source.place (root : Path) (source : Source) : List Text := address (root.child source.path)

section

variable {d inside : Directory} {root folder : Path} {rules : List Rule} (proper : d.Proper)
  (hroot : IsResolved root) (there : d.get? folder.names = some (.folder inside))
include proper hroot there

omit hroot in
theorem properName_of_mem_place {f : List Text × ByteArray} (mem : f ∈ inside.files) :
    ∀ name ∈ folder.names ++ f.1, ProperName name := by
  obtain ⟨insideProper, names⟩ := proper.of_get? there
  intro name mem'
  rcases List.mem_append.1 mem' with mem' | mem'
  · exact names name mem'
  · exact Directory.properName_of_mem_files insideProper mem name mem'

theorem place_of_mem_files {f : List Text × ByteArray} (mem : f ∈ inside.files) :
    Source.place root ⟨placeText root.names (folder.names ++ f.1), f.2.size⟩ =
      folder.names ++ f.1 :=
  address_child_placeText hroot (properName_of_mem_place proper there mem)

/-- The sources below a folder are in different places. -/
theorem nodup_places :
    ((inside.sources rules root.names folder.names).map (Source.place root)).Nodup := by
  obtain ⟨insideProper, -⟩ := proper.of_get? there
  have places : (inside.sources rules root.names folder.names).map (Source.place root) =
      ((inside.files.filter fun f => listed rules root.names folder.names f.1).map Prod.fst).map
        (folder.names ++ ·) := by
    rw [sources_eq_filter, List.map_map, List.map_map]
    refine List.map_congr_left fun f mem => ?_
    exact place_of_mem_files proper hroot there (List.mem_of_mem_filter mem)
  rw [places]
  refine List.Nodup.map (List.append_right_injective _) ?_
  exact (Directory.nodup_files insideProper).sublist (List.filter_sublist.map _)

theorem increasing_sources : Increasing
    ((inside.sources rules root.names folder.names).mergeSort fun a b => le a.path b.path) := by
  have transitive (a b c : Source) (hab : le a.path b.path = true)
      (hbc : le b.path c.path = true) : le a.path c.path = true := le_trans hab hbc
  have total (a b : Source) : (le a.path b.path || le b.path a.path) = true :=
    le_total a.path b.path
  have sorted := List.pairwise_mergeSort transitive total
    (inside.sources rules root.names folder.names)
  have distinct : ((inside.sources rules root.names folder.names).mergeSort
      fun a b => le a.path b.path).Pairwise fun a b => a.path ≠ b.path := by
    rw [(List.mergeSort_perm _ _).pairwise_iff Ne.symm]
    refine (List.pairwise_map.1 (nodup_places proper hroot there)).imp ?_
    intro a b apart same
    exact apart (by rw [Source.place, Source.place, same])
  exact sorted.and distinct

omit hroot in
theorem mem_sources_iff (top : folder.names = [] → root.names = []) {source : Source} :
    source ∈ inside.sources rules root.names folder.names ↔ ∃ below content,
      d.content? (folder.names ++ below) = some content ∧
        Listed rules root.names folder.names below ∧
        source = ⟨placeText root.names (folder.names ++ below), content.size⟩ := by
  obtain ⟨insideProper, names⟩ := proper.of_get? there
  rw [sources_eq_filter]
  simp only [List.mem_map, List.mem_filter, Prod.exists, Directory.mem_files_iff insideProper,
    Directory.content?_append there]
  constructor
  · rintro ⟨below, content, ⟨found, taken⟩, rfl⟩
    have mem := (Directory.mem_files_iff insideProper).2 found
    have properBelow := Directory.properName_of_mem_files insideProper mem
    exact ⟨below, content, found, (listed_iff names properBelow top).1 taken, rfl⟩
  · rintro ⟨below, content, found, taken, rfl⟩
    have mem := (Directory.mem_files_iff insideProper).2 found
    have properBelow := Directory.properName_of_mem_files insideProper mem
    exact ⟨below, content, ⟨found, (listed_iff names properBelow top).2 taken⟩, rfl⟩

end

namespace Tree

/-- The stages of a discovery that succeeds. -/
theorem discover_eq_ok_iff {t : Tree} {root : Path} {input : Option Path} {exclude : List Message}
    {sources : List Source} : t.discover root input exclude = .ok sources ↔
      ∃ r folder inside rules, resolved root = .ok r ∧ resolved (input.getD root) = .ok folder ∧
        t.node? folder = .ok (some (.folder inside)) ∧
        t.loadRules (r.child ignoreFile) = .ok rules ∧
        sources = (inside.sources (rules ++ Rule.ofLines exclude) r.names folder.names).mergeSort
          fun a b => le a.path b.path := by
  unfold discover
  dsimp only
  cases resolved root with
  | error e => simp [Except.mapError, bind, Except.bind]
  | ok r =>
    cases resolved (input.getD root) with
    | error e => simp [Except.mapError, bind, Except.bind]
    | ok folder =>
      rcases hnode : t.node? folder with e | (- | (content | inside))
      · simp [Except.mapError, bind, Except.bind, hnode]
      · simp [Except.mapError, bind, Except.bind, hnode]
      · simp [Except.mapError, bind, Except.bind, hnode]
      · cases hrules : t.loadRules (r.child ignoreFile) with
        | error e => simp [Except.mapError, bind, Except.bind, hnode, hrules]
        | ok rules =>
          simp [Except.mapError, bind, Except.bind, pure, Except.pure, hnode, hrules, eq_comm]

/-- The walk has taken each source that is discovered. -/
theorem exists_of_mem_discover {t : Tree} {root : Path} {input : Option Path}
    {exclude : List Message} {sources : List Source} (proper : t.root.Proper)
    (hroot : IsResolved root) (h : t.discover root input exclude = .ok sources) {source : Source}
    (mem : source ∈ sources) : ∃ folder own below, resolved (input.getD root) = .ok folder ∧
      listed (own ++ Rule.ofLines exclude) root.names folder.names below = true ∧
      (∀ name ∈ folder.names ++ below, ProperName name) ∧
      source.path = placeText root.names (folder.names ++ below) := by
  obtain ⟨r, folder, inside, own, hr, hfolder, node, -, sorted⟩ := discover_eq_ok_iff.1 h
  obtain rfl : root = r := by rw [resolved_eq_ok hr, resolve_of_isResolved hroot]
  obtain ⟨-, there⟩ := exists_of_node?_eq_folder node
  rw [address_of_isResolved (isResolved_of_resolved hfolder)] at there
  rw [sorted, List.mem_mergeSort, sources_eq_filter] at mem
  obtain ⟨f, taken, rfl⟩ := List.mem_map.1 mem
  obtain ⟨hf, taken⟩ := List.mem_filter.1 taken
  exact ⟨folder, own, f.1, hfolder, taken, properName_of_mem_place proper there hf, rfl⟩

/-- The same folders and files, however the entries of a folder are ordered. -/
structure Rearranged (t t' : Tree) : Prop where
  proper : t'.root.Proper
  look : ∀ names, t'.root.look names = t.root.look names
  unreadable : t'.unreadable = t.unreadable
  unwritable : t'.unwritable = t.unwritable

namespace Rearranged

variable {t t' : Tree} (same : Rearranged t t')
include same

theorem sameShape : SameShape t t' :=
  ⟨fun names => by rw [same.look], same.unreadable, same.unwritable⟩

theorem content? (names : List Text) : t'.content? names = t.content? names := by
  rw [Tree.content?, Tree.content?, Directory.content?_eq_join, Directory.content?_eq_join,
    same.look]

theorem isFolder (p : Path) : t'.isFolder p = t.isFolder p := same.sameShape.isFolder p

theorem loadRules (p : Path) : t'.loadRules p = t.loadRules p := by
  rw [Tree.loadRules, Tree.loadRules, same.sameShape.isFile, Tree.readLines, Tree.readLines,
    same.sameShape.readText (same.content? _)]

end Rearranged

theorem exists_of_isFolder {t : Tree} {p : Path} (h : t.isFolder p = .ok true) :
    ∃ inside, t.node? p = .ok (some (.folder inside)) := by
  unfold isFolder at h
  cases hnode : t.node? p with
  | error e => simp [hnode, bind, Except.bind] at h
  | ok node =>
    rcases node with - | (content | inside)
    · simp [hnode, bind, Except.bind, pure, Except.pure] at h
    · simp [hnode, bind, Except.bind, pure, Except.pure] at h
    · exact ⟨inside, rfl⟩

section

variable {t : Tree} {root r folder : Path} {input : Option Path} {exclude : List Message}
  {own : List Rule}

/-- The sources that are found below a folder that is there, with readable rules. -/
theorem discover_found (exclude : List Message) (proper : t.root.Proper)
    (hroot : resolved root = .ok r)
    (hfolder : resolved (input.getD root) = .ok folder) (there : t.isFolder folder = .ok true)
    (ignore : t.loadRules (r.child ignoreFile) = .ok own)
    (top : folder.names = [] → r.names = []) :
    ∃ sources, t.discover root input exclude = .ok sources ∧ Increasing sources ∧
      ∀ source, source ∈ sources ↔ ∃ below content,
        t.content? (folder.names ++ below) = some content ∧
        Listed (own ++ Rule.ofLines exclude) r.names folder.names below ∧
        source = ⟨placeText r.names (folder.names ++ below), content.size⟩ := by
  obtain ⟨inside, node⟩ := exists_of_isFolder there
  obtain ⟨-, found⟩ := exists_of_node?_eq_folder node
  rw [address_of_isResolved (isResolved_of_resolved hfolder)] at found
  refine ⟨_, discover_eq_ok_iff.2 ⟨r, folder, inside, own, hroot, hfolder, node, ignore, rfl⟩,
    increasing_sources proper (isResolved_of_resolved hroot) found, ?_⟩
  intro source
  rw [List.mem_mergeSort]
  exact mem_sources_iff proper found top

/-- **The sources that are found.** They are the files below the folder that are to be found, in
strictly increasing order, and the order of the entries of a folder does not matter. -/
theorem discover_lists_sources (proper : t.root.Proper) (hroot : resolved root = .ok r)
    (hfolder : resolved (input.getD root) = .ok folder) (there : t.isFolder folder = .ok true)
    (ignore : t.loadRules (r.child ignoreFile) = .ok own)
    (top : folder.names = [] → r.names = []) :
    ∃ sources, t.discover root input exclude = .ok sources ∧ Increasing sources ∧
      (∀ source, source ∈ sources ↔ ∃ below content,
        t.content? (folder.names ++ below) = some content ∧
        Listed (own ++ Rule.ofLines exclude) r.names folder.names below ∧
        source = ⟨placeText r.names (folder.names ++ below), content.size⟩) ∧
      ∀ t', t.Rearranged t' → t'.discover root input exclude = .ok sources := by
  obtain ⟨sources, found, increasing, mem⟩ :=
    discover_found exclude proper hroot hfolder there ignore top
  refine ⟨sources, found, increasing, mem, ?_⟩
  intro t' same
  obtain ⟨sources', found', increasing', mem'⟩ :=
    discover_found (t := t') exclude same.proper hroot hfolder
      (by rwa [same.isFolder]) (by rwa [same.loadRules]) top
  simp only [same.content?] at mem'
  rw [found', increasing'.eq increasing fun source => (mem' source).trans (mem source).symm]

end

/-- A package whose ignore file takes one of the old sources back in. -/
def oldSources : Tree where
  root := .folder "p".toList
    (.file ".gitignore".toList (encode "*_old.dart\n!b_old.dart\n".toList)
      (.folder "lib".toList
        (.file "b_old.dart".toList (encode "1".toList)
          (.file "a_old.dart".toList (encode "2".toList) .empty))
        (.folder "build".toList (.file "c.dart".toList .empty .empty) .empty)))
    .empty

/-- The path of a folder of the root. -/
def topFolder (name : Text) : Path := ⟨['/'], [Message.ofText name]⟩

theorem discover_lists_sources_oldSources :
    ∃ sources, oldSources.discover (topFolder "p".toList) none [] = .ok sources ∧
      Increasing sources ∧
      (∀ source, source ∈ sources ↔ ∃ below content,
        oldSources.content? ((topFolder "p".toList).names ++ below) = some content ∧
        Listed (Rule.ofLines ["*_old.dart".toList, "!b_old.dart".toList] ++ Rule.ofLines [])
          (topFolder "p".toList).names (topFolder "p".toList).names below ∧
        source = ⟨placeText (topFolder "p".toList).names
          ((topFolder "p".toList).names ++ below), content.size⟩) ∧
      ∀ t', oldSources.Rearranged t' →
        t'.discover (topFolder "p".toList) none [] = .ok sources :=
  discover_lists_sources (by decide) (by decide) (by decide) (by decide) (by decide +kernel)
    (by decide)

/-! ## Entries of the root of the tree -/

/-- A project in a folder of the root of the tree. -/
def topProject : Tree where
  root := .folder "w".toList (.file "a.dart".toList (encode "1".toList) .empty) .empty

/-- A walk from the root of the tree, of which the project's root is a folder, takes `/w` for `//w`,
so that a rule excludes it which does not match its path. -/
theorem top_entry_missed :
    topProject.root.Proper ∧
      topProject.content? ["w".toList, "a.dart".toList] = some (encode "1".toList) ∧
      Listed (Rule.ofLines ["?/*".toList]) ["w".toList] [] ["w".toList, "a.dart".toList] ∧
      topProject.discover (topFolder "w".toList) (some ⟨['/'], []⟩) ["?/*".toList] = .ok [] := by
  refine ⟨by decide, rfl, ⟨⟨["w".toList], "a.dart".toList, rfl, by decide, by decide⟩,
    by decide +kernel, ?_⟩, by decide +kernel⟩
  intro before name after eq more
  rcases before with - | ⟨first, - | ⟨second, before⟩⟩
  · obtain rfl : "w".toList = name := (List.cons.inj eq).1
    decide +kernel
  · exact absurd (List.cons.inj (List.cons.inj eq).2).2.symm more
  · simp at eq

end Tree

end Localizer.Workspace
