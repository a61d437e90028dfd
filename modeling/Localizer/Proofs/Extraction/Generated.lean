import Localizer.Proofs.Extraction.ModuleAddress
import Localizer.Proofs.Extraction.Tally

/-!
# The generated code

The code that the generator makes of the resource file lies in a folder of its own, in that of the
results. A run excludes it by a rule that has the setting for the folder of the results as it was
written. If that is spelled like the paths of the walk (`SpelledOut`), the rule comes after all
others and applies to just that folder (`isIgnored_generated`), so that a run has none of the files
in it among its sources, and changes none of them that is not one of its results
(`run_skips_generated`).

The rule is compared letter by letter. A setting with a dot or a second slash in it names the same
folder, but no path of the walk is written so, and the generated code is a source like any other
(`generated_behind_dot`).
-/

namespace Localizer.Extraction

open Text Message Resource Workspace Project
open Localizer.Path (Rule isIgnored partsOf)

/-! ## The rule for the generated code -/

/-- The name of the folder of the generated code. -/
def generatedName : Text := "generated".toList

/-- The folder of the generated code. -/
def generatedFolder (s : Settings) (dir : Message) : Path :=
  ((s.root.child dir).child generatedName).resolve

/-- A setting for the folder of the results that is written as a walk writes the path of that
folder, up to slashes at its end, and as a rule can be. -/
structure SpelledOut (dir : Message) : Prop where
  /-- There is one slash between two names, and no name is a single dot. -/
  normal : resourceFolder dir = join [Path.slash] (partsOf dir)
  /-- No name leads up. -/
  noUp : Path.up ∉ partsOf dir
  /-- It begins with no blank, and not with the mark of a comment or of a rule that takes back in. -/
  begins : Rule.Begins dir

instance (dir : Message) : Decidable (SpelledOut dir) :=
  decidable_of_iff (resourceFolder dir = join [Path.slash] (partsOf dir) ∧
      Path.up ∉ partsOf dir ∧ Rule.Begins dir)
    ⟨fun ⟨a, b, c⟩ => ⟨a, b, c⟩, fun ⟨a, b, c⟩ => ⟨a, b, c⟩⟩

/-- The folder of the generated code as the line of its rule has it. -/
def generatedText (dir : Message) : Message :=
  resourceFolder dir ++ Path.slash :: ofText generatedName

/-- The rule for the generated code. -/
def generatedRule (dir : Message) : Rule where
  pattern := (generatedText dir).dropWhile (· == Path.slash)
  directoryOnly := true
  anchored := true

section

variable {s : Settings} {dir : Message}

theorem isLiteral_generatedText (literal : Glob.IsLiteral dir) :
    Glob.IsLiteral (generatedText dir) := by
  intro p mem
  rcases List.mem_append.1 mem with mem | mem
  · exact literal p ((List.rdropWhile_prefix _ _).mem mem)
  · have name : Glob.IsLiteral (Path.slash :: ofText generatedName) := by decide
    exact name p mem

/-- The names of the folder joined make up the line only if the names of the setting make up the
setting. -/
theorem join_eq_generatedText_iff :
    join [Path.slash] (partsOf dir ++ [ofText generatedName]) = generatedText dir ↔
      partsOf dir ≠ [] ∧ resourceFolder dir = join [Path.slash] (partsOf dir) := by
  by_cases none : partsOf dir = []
  · refine iff_of_false ?_ (by simp [none])
    intro eq
    have lengths := congrArg List.length eq
    simp only [none, join, generatedText, List.nil_append, List.intercalate_singleton,
      List.length_append, List.length_cons] at lengths
    omega
  · rw [join_concat none, generatedText, List.append_left_inj, eq_comm]
    exact (and_iff_right none).symm

variable (relative : (Path.ofMessage dir).isAbsolute = false)
include relative

theorem begins_generatedText (begins : Rule.Begins dir) : Rule.Begins (generatedText dir) := by
  by_cases empty : dir = []
  · rw [empty]
    decide
  obtain ⟨p, rest, eq, head, -⟩ := exists_cons_resourceFolder relative empty
  rw [generatedText, eq]
  rintro q ⟨⟩
  exact begins p head

/-- The pattern of the rule is the line of the rule, but for the slash in front if the setting is
empty. -/
theorem pattern_generatedRule (some : dir ≠ []) :
    (generatedRule dir).pattern = generatedText dir := by
  obtain ⟨p, rest, eq, -, p_ne⟩ := exists_cons_resourceFolder relative some
  rw [generatedRule, generatedText, eq]
  simp [p_ne]

variable (literal : Glob.IsLiteral dir)
include literal

theorem ofLine?_generated (begins : Rule.Begins dir) :
    Rule.ofLine? (resourceFolder dir ++ "/generated/".toList) = some (generatedRule dir) := by
  have line : resourceFolder dir ++ ofText "/generated/".toList =
      generatedText dir ++ [Path.slash] := by
    rw [generatedText, List.append_assoc]
    rfl
  have inner : Path.slash ∈ generatedText dir := by simp [generatedText]
  have ends : (generatedText dir).getLast? = some (.ofChar 'd') := by
    have last : (Path.slash :: ofText generatedName).getLast? = some (.ofChar 'd') := by decide
    rw [generatedText, List.getLast?_append, last]
    rfl
  rw [line, Rule.ofLine?_folder (begins_generatedText relative begins)
    (isLiteral_generatedText literal) inner (by rw [ends]; decide)]
  rfl

/-- **The rule for the generated code applies to its folder only,** and to that only if the setting
is written like the path of a folder. -/
theorem applies_generatedRule_iff {names : List Text} (proper : ∀ name ∈ names, ProperName name) :
    (generatedRule dir).applies (ofText (join ['/'] names)) true = true ↔
      resourceFolder dir = join [Path.slash] (partsOf dir) ∧
        names.map ofText = partsOf dir ++ [ofText generatedName] := by
  have literal' : Glob.IsLiteral (generatedRule dir).pattern := fun p mem =>
    isLiteral_generatedText literal p ((List.dropWhile_suffix _).mem mem)
  have own : partsOf (ofText generatedName) = [ofText generatedName] := by decide
  rw [Rule.applies_iff literal' rfl]
  by_cases empty : dir = []
  · subst empty
    have pattern : (generatedRule []).pattern = ofText generatedName := by decide
    rw [pattern]
    constructor
    · intro eq
      exact ⟨rfl, by rw [← partsOf_join proper, eq, own]; rfl⟩
    · rintro ⟨-, parts⟩
      rw [ofText_join, parts]
      rfl
  · rw [pattern_generatedRule relative empty]
    constructor
    · intro eq
      have parts : names.map ofText = partsOf dir ++ [ofText generatedName] := by
        rw [← partsOf_join proper, eq, generatedText, partsOf_append_slash, own,
          partsOf_resourceFolder]
      rw [ofText_join, parts] at eq
      exact ⟨(join_eq_generatedText_iff.1 eq).2, parts⟩
    · rintro ⟨normal, parts⟩
      have some : partsOf dir ≠ [] := by
        intro none
        obtain ⟨p, rest, eq, -⟩ := exists_cons_resourceFolder relative empty
        rw [none, eq] at normal
        simp [join] at normal
      rw [ofText_join, parts]
      exact join_eq_generatedText_iff.2 ⟨some, normal⟩

/-- **The generated code is excluded,** whatever the other rules say. -/
theorem isIgnored_generated (spelled : SpelledOut dir) (own : List Rule) {names : List Text}
    (proper : ∀ name ∈ names, ProperName name)
    (parts : names.map ofText = partsOf dir ++ [ofText generatedName]) :
    isIgnored (own ++ Rule.ofLines (excludes s dir)) (ofText (join ['/'] names)) true = true := by
  have last : Rule.ofLines (excludes s dir) =
      Rule.ofLines s.excludePaths ++ [generatedRule dir] := by
    rw [Rule.ofLines, excludes, List.filterMap_append, List.filterMap_cons_some
      (ofLine?_generated relative literal spelled.begins)]
    rfl
  have applies := (applies_generatedRule_iff relative literal proper).2 ⟨spelled.normal, parts⟩
  rw [last, ← List.append_assoc, isIgnored, List.foldl_append, List.foldl_cons, applies]
  rfl

end

/-! ## Sources apart from the generated code -/

theorem relativeTo?_eq_none_iff {p base : Path} :
    p.relativeTo? base = none ↔ ¬(p.anchor = base.anchor ∧ base.parts <+: p.parts) := by
  simp [Path.relativeTo?]

/-- Names of which the first are known, from those that they begin with as parts of a path. -/
theorem exists_of_map_prefix {parts : List Message} {root place : List Text}
    (h : root.map ofText ++ parts <+: place.map ofText) :
    ∃ names rest, place = root ++ names ++ rest ∧ parts = names.map ofText := by
  have injective : Function.Injective (List.map ofText) :=
    List.map_injective_iff.2 fun _ _ => ofText_injective
  obtain ⟨rest, eq⟩ := h
  obtain ⟨front, rest, rfl, front_eq, -⟩ := List.map_eq_append_iff.1 eq.symm
  obtain ⟨root', names, rfl, root_eq, names_eq⟩ := List.map_eq_append_iff.1 front_eq
  obtain rfl := injective root_eq
  exact ⟨names, rest, rfl, names_eq.symm⟩

section

variable {s : Settings} {t : Tree} {plan : Plan} {dir : Message}
  (relative : (Path.ofMessage dir).isAbsolute = false) (spelled : SpelledOut dir)
include relative spelled

theorem generatedFolder_eq (root : IsResolved s.root) : generatedFolder s dir =
    ⟨['/'], s.root.names.map ofText ++ (partsOf dir ++ [ofText generatedName])⟩ := by
  have folder : (s.root.child dir).child generatedName =
      ⟨['/'], s.root.parts ++ (partsOf dir ++ [ofText generatedName])⟩ := by
    rw [child_of_relative relative, root.anchor, ← List.append_assoc]
    rfl
  rw [generatedFolder, folder, ← root.texts]
  refine resolve_of_ne rfl fun part mem up => ?_
  subst up
  simp only [List.mem_append, List.mem_singleton] at mem
  rcases mem with mem | mem | mem
  · refine root.noUp (view Path.up) (List.mem_map_of_mem mem) ?_
    rw [Path.up, view_ofText]
  · exact spelled.noUp mem
  · exact absurd mem (by decide)

variable (proper : t.root.Proper) (literal : Glob.IsLiteral dir)
  (output : s.outputDir = .text dir)
  (outside : ∀ input ∈ s.inputPath, input.resolve.relativeTo? (generatedFolder s dir) = none)
include proper literal output outside

/-- **The sources are not in the folder of the generated code,** unless the input is. -/
theorem exists_place_of_prepare (root : IsResolved s.root) (h : (prepare s t).2 = .ok plan)
    {source : Source} (mem : source ∈ plan.sources) : ∃ place : List Text,
      s.root.child source.path = ⟨['/'], place.map ofText⟩ ∧ (∀ name ∈ place, ProperName name) ∧
      ¬(generatedFolder s dir).parts <+: place.map ofText := by
  obtain ⟨input, dir', given, output', found⟩ := discover_of_prepare h
  obtain rfl : dir' = dir := by simpa [output] using output'.symm
  obtain ⟨folder, own, below, hfolder, taken, properPlace, path⟩ :=
    Tree.exists_of_mem_discover proper root found mem
  have resolvedFolder := isResolved_of_resolved hfolder
  have apart := outside input given
  rw [Option.getD_some] at hfolder
  rw [← resolved_eq_ok hfolder, relativeTo?_eq_none_iff] at apart
  refine ⟨folder.names ++ below, by rw [path, child_placeText root properPlace], properPlace, ?_⟩
  rw [generatedFolder_eq relative spelled root] at apart ⊢
  intro inside
  -- the place of the source begins with the names of the folder
  obtain ⟨names, rest, place, parts⟩ := exists_of_map_prefix inside
  obtain ⟨front, last, rfl, front_eq, last_eq⟩ := List.map_eq_append_iff.1 parts.symm
  obtain rfl : last = [generatedName] :=
    List.map_injective_iff.2 (fun _ _ => ofText_injective) last_eq
  rw [← List.append_assoc] at place
  have properFront : ∀ name ∈ s.root.names ++ (front ++ [generatedName]), ProperName name := by
    intro name mem
    refine properPlace name ?_
    rw [place, List.append_assoc s.root.names]
    exact List.mem_append_left _ mem
  have ignored := isIgnored_generated (s := s) relative literal spelled own
    (fun name mem => properFront name (List.mem_append_right _ mem)) parts.symm
  refine not_prefix_of_listed taken ?_ (by decide) ignored ?_ ⟨rest, place.symm⟩
  · intro name mem
    refine properFront name ?_
    rw [← List.append_assoc]
    exact List.mem_append_left _ mem
  · rintro ⟨more, eq⟩
    refine apart ⟨resolvedFolder.anchor, more.map ofText, ?_⟩
    rw [resolvedFolder.texts, ← eq, ← front_eq]
    simp

end

/-- **A run keeps out of the generated code.** If the setting for the folder of the results is a
relative path without wildcards that is spelled out, and the input is not in the folder of the
generated code, then no source is, and no file in it changes that is not one of the results. -/
theorem run_skips_generated {s : Settings} {t : Tree} {dir : Message} (proper : t.root.Proper)
    (output : s.outputDir = .text dir) (relative : (Path.ofMessage dir).isAbsolute = false)
    (literal : Glob.IsLiteral dir) (spelled : SpelledOut dir)
    (outside : ∀ input ∈ (rooted s).inputPath,
      input.resolve.relativeTo? (generatedFolder (rooted s) dir) = none) :
    (∀ plan, (prepare (rooted s) t).2 = .ok plan → ∀ source ∈ plan.sources,
      ((rooted s).root.child source.path).relativeTo? (generatedFolder (rooted s) dir) = none) ∧
    ∀ launch names, (generatedFolder (rooted s) dir).parts <+: names.map ofText →
      names ∉ resultAddresses (rooted s) →
        (run launch s t none).1.tree.content? names = t.content? names := by
  have place {plan : Plan} (prepared : (prepare (rooted s) t).2 = .ok plan) {source : Source}
      (mem : source ∈ plan.sources) :=
    exists_place_of_prepare (s := rooted s) relative spelled proper literal output outside
      (wellPlaced_of_prepare proper prepared).resolved prepared mem
  constructor
  · intro plan prepared source mem
    obtain ⟨place, path, -, apart⟩ := place prepared mem
    rw [path, relativeTo?_eq_none_iff]
    exact fun below => apart below.2
  · intro launch names inside
    refine content?_run launch fun plan prepared source mem same => ?_
    obtain ⟨place, path, properPlace, apart⟩ := place prepared mem
    rw [path, address_ofNames fun name mem => (properPlace name mem).notUp] at same
    exact apart (same ▸ inside)

/-- A package with generated code in the folder of the results, and `others` beside that. -/
def generatedProject (others : Directory) : Tree where
  root := .folder "lib".toList
    (.folder "l10n".toList
      (.folder "generated".toList
        (.file "app_localizations.dart".toList
          (Tree.encode "String get title => 'Generated';".toList) .empty)
        .empty)
      others)
    .empty

/-- The place of the generated code. -/
def generatedPlace : List Text :=
  ["lib".toList, "l10n".toList, "generated".toList, "app_localizations.dart".toList]

/-- A source beside the generated code. -/
def welcomeProject : Tree :=
  generatedProject (.file "main.dart".toList (Tree.encode "f() => Text('Welcome');".toList) .empty)

theorem run_skips_generated_welcome :
    (generatedFolder (rooted replacing) "lib/l10n".toList).parts <+: generatedPlace.map ofText ∧
      (∀ plan, (prepare (rooted replacing) welcomeProject).2 = .ok plan →
        ∀ source ∈ plan.sources, ((rooted replacing).root.child source.path).relativeTo?
          (generatedFolder (rooted replacing) "lib/l10n".toList) = none) ∧
      ∀ launch names,
        (generatedFolder (rooted replacing) "lib/l10n".toList).parts <+: names.map ofText →
          names ∉ resultAddresses (rooted replacing) →
            (run launch replacing welcomeProject none).1.tree.content? names =
              welcomeProject.content? names :=
  ⟨by decide, run_skips_generated (by decide) rfl (by decide) (by decide) (by decide) (by decide)⟩

/-! ## Settings that are not spelled out -/

/-- Settings for the whole root, with a dot in front of the folder of the results. -/
def dotted : Settings :=
  { replacing with inputDir := .text ".".toList, outputDir := .text "./lib/l10n".toList }

set_option maxRecDepth 100000 in
/-- The setting with a dot names the same folder, and yet the generated code is among the sources
below the root, and is rewritten. -/
theorem generated_behind_dot :
    (generatedProject .empty).root.Proper ∧
      (Path.ofMessage "./lib/l10n".toList).isAbsolute = false ∧
      Glob.IsLiteral "./lib/l10n".toList ∧
      (rooted dotted).inputPath = some (rooted dotted).root ∧
      generatedFolder (rooted dotted) "./lib/l10n".toList =
        generatedFolder (rooted replacing) "lib/l10n".toList ∧
      (∃ plan ∈ (prepare (rooted dotted) (generatedProject .empty)).2.toOption,
        ∃ source ∈ plan.sources, source.place (rooted dotted).root = generatedPlace) ∧
      (run (fun _ => .noAnswer) dotted (generatedProject .empty) none).1.tree.content?
          generatedPlace =
        some (Tree.encode "String get title => AppLocalizations.of(context).generated;".toList) :=
  ⟨by decide, by decide, by decide, by decide, by decide, by decide +kernel, by decide +kernel⟩

end Localizer.Extraction
