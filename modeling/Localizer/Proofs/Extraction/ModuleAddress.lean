import Localizer.Extraction.Run
import Localizer.Proofs.Path.AnyDepth
import Mathlib.Data.List.DropRight

/-!
# The address of the generated module

Changed sources import the generated module by an address in its package, and the generator is told
in which folder, and under which name, to write it. Both come from the setting for the folder of
the results, in two ways: the address from the names in that setting, the generator's folder by
writing one more name behind the setting as it stands, without the slashes at its end.

The names in a setting stay the same when those slashes go (`partsOf_resourceFolder`), and the path
stays relative if it was (`exists_cons_resourceFolder`), so that both lead to the same names
(`importUri?_eq`, `modulePath_eq`). `importUri?_names_module` puts them together: there is an
address just if the setting leads into `lib` (`firstName`), and what it says below the package is
where the generator writes the module below `lib`.
-/

namespace Localizer.Extraction

open Text Message Project
open Localizer.Path (partsOf)

/-! ## Names in a setting -/

section

variable {dir : Message}

theorem partsOf_append_slash (m m' : Message) :
    partsOf (m ++ Path.slash :: m') = partsOf m ++ partsOf m' := by
  rw [partsOf, List.splitOn_append_cons_self, List.filter_append]
  rfl

theorem partsOf_resourceFolder (dir : Message) : partsOf (resourceFolder dir) = partsOf dir := by
  induction dir using List.reverseRecOn with
  | nil => rfl
  | append_singleton front last ih =>
    by_cases h : last = Path.slash
    · have shortened : resourceFolder (front ++ [last]) = resourceFolder front :=
        List.rdropWhile_concat_pos _ _ _ (by simpa using h)
      rw [shortened, ih, h, partsOf_append_slash]
      exact (List.append_nil _).symm
    · have kept : resourceFolder (front ++ [last]) = front ++ [last] :=
        List.rdropWhile_concat_neg _ _ _ (by simpa using h)
      rw [kept]

theorem isAbsolute_iff {m : Message} :
    (Path.ofMessage m).isAbsolute = true ↔ ∃ p ∈ m.head?, p.shown = '/' := by
  cases m with
  | nil => simp [Path.isAbsolute, Path.ofMessage, view, Path.anchorOf]
  | cons p m =>
    simp only [Path.isAbsolute, Path.ofMessage, view, List.map_cons, List.head?_cons,
      Option.mem_some_iff, exists_eq_left']
    unfold Path.anchorOf
    split <;> simp_all

/-- A relative path begins with something else than a slash, if with anything, also without the
slashes at its end. -/
theorem exists_cons_resourceFolder (relative : (Path.ofMessage dir).isAbsolute = false)
    (some : dir ≠ []) :
    ∃ p rest, resourceFolder dir = p :: rest ∧ p ∈ dir.head? ∧ p ≠ Path.slash := by
  obtain ⟨p, rest, rfl⟩ := List.exists_cons_of_ne_nil some
  have p_ne : p ≠ Path.slash := by
    rintro rfl
    exact ne_true_of_eq_false relative
      (isAbsolute_iff.2 ⟨Path.slash, rfl, CodePoint.shown_ofChar '/'⟩)
  have front : resourceFolder (p :: rest) <+: p :: rest := List.rdropWhile_prefix _ _
  have left : resourceFolder (p :: rest) ≠ [] := by
    intro nothing
    have slashes := List.rdropWhile_eq_nil_iff.1 nothing p List.mem_cons_self
    exact p_ne (by simpa using slashes)
  obtain ⟨q, rest', eq⟩ := List.exists_cons_of_ne_nil left
  rw [eq] at front
  obtain rfl := (List.cons_prefix_cons.1 front).1
  exact ⟨q, rest', eq, rfl, p_ne⟩

/-- What is written behind a relative path is below it. -/
theorem isAbsolute_resourceFolder_append (relative : (Path.ofMessage dir).isAbsolute = false)
    (some : dir ≠ []) (m : Message) :
    (Path.ofMessage (resourceFolder dir ++ m)).isAbsolute = false := by
  obtain ⟨p, rest, eq, head, -⟩ := exists_cons_resourceFolder relative some
  rw [← Bool.not_eq_true, isAbsolute_iff] at relative ⊢
  rw [eq]
  rintro ⟨q, ⟨⟩, shown⟩
  exact relative ⟨p, head, shown⟩

/-- A relative path is gone down from where it is taken. -/
theorem child_of_relative (relative : (Path.ofMessage dir).isAbsolute = false) (p : Path) :
    p.child dir = ⟨p.anchor, p.parts ++ partsOf dir⟩ := by
  show Path.append _ _ = _
  rw [Path.append, relative, if_neg Bool.false_ne_true]
  rfl

end

/-! ## The first name -/

/-- The first name of a path: what stands in front of the first slash of its normal form, nothing
if the path is absolute. -/
def firstName (p : Path) : Message := p.toMessage.takeWhile (· != Path.slash)

/-- What is between two slashes has none in it. -/
theorem slash_not_mem_of_mem_splitOn {m part : Message} (mem : part ∈ m.splitOn Path.slash) :
    Path.slash ∉ part := by
  induction m generalizing part with
  | nil =>
    obtain rfl : part = [] := by simpa using mem
    exact List.not_mem_nil
  | cons p m ih =>
    rw [List.splitOn_cons_eq_if_modifyHead] at mem
    split at mem
    · rcases List.mem_cons.1 mem with rfl | mem
      · exact List.not_mem_nil
      · exact ih mem
    · next other =>
      obtain ⟨first, rest, split⟩ := List.exists_cons_of_ne_nil (List.splitOn_ne_nil Path.slash m)
      rw [split] at ih mem
      rcases List.mem_cons.1 mem with rfl | mem
      · have apart : Path.slash ≠ p := fun eq => other (by simp [eq])
        exact List.not_mem_cons_of_ne_of_not_mem apart (ih List.mem_cons_self)
      · exact ih (List.mem_cons_of_mem _ mem)

/-- The first of the names of a relative path is its first name. -/
theorem takeWhile_join_cons {part : Message} (plain : Path.slash ∉ part) (parts : List Message) :
    (join [Path.slash] (part :: parts)).takeWhile (· != Path.slash) = part := by
  have whole : ∀ p ∈ part, (p != Path.slash) = true :=
    fun p mem => bne_iff_ne.2 fun eq => plain (eq ▸ mem)
  by_cases last : parts = []
  · rw [last, Path.Rule.join_singleton, List.takeWhile_eq_self_iff.2 whole]
  · rw [Path.Rule.join_cons last, List.takeWhile_append_of_pos whole]
    simp

/-- What makes a path absolute begins with a slash. -/
theorem exists_cons_anchor {dir : Message} (absolute : (Path.ofMessage dir).isAbsolute = true) :
    ∃ rest, (Path.ofMessage dir).anchor = '/' :: rest := by
  have some : Path.anchorOf dir.view ≠ [] := by
    simpa [Path.isAbsolute, Path.ofMessage] using absolute
  show ∃ rest, Path.anchorOf dir.view = '/' :: rest
  unfold Path.anchorOf at some ⊢
  split at some <;> simp_all

/-- A setting leads into the folder of its first name, and nowhere if it starts at the root of all
files. -/
theorem firstName_ofMessage (dir : Message) : firstName (Path.ofMessage dir) =
    if (Path.ofMessage dir).isAbsolute then [] else (partsOf dir).headD Path.here := by
  cases absolute : (Path.ofMessage dir).isAbsolute with
  | true =>
    obtain ⟨rest, anchor⟩ := exists_cons_anchor absolute
    rw [firstName, Path.toMessage, anchor]
    rfl
  | false =>
    have anchor : (Path.ofMessage dir).anchor = [] := by simpa [Path.isAbsolute] using absolute
    have parts : (Path.ofMessage dir).parts = partsOf dir := rfl
    rw [firstName, Path.toMessage, anchor, parts]
    cases names : partsOf dir with
    | nil => rfl
    | cons part parts =>
      have mem : part ∈ partsOf dir := names ▸ List.mem_cons_self
      exact takeWhile_join_cons (slash_not_mem_of_mem_splitOn (List.mem_filter.1 mem).1) parts

/-- A path whose first name is `lib` is a relative one into that folder. -/
theorem exists_cons_of_firstName {dir : Message}
    (leads : firstName (Path.ofMessage dir) = ofText "lib".toList) :
    (Path.ofMessage dir).isAbsolute = false ∧
      ∃ rest, partsOf dir = ofText "lib".toList :: rest := by
  rw [firstName_ofMessage] at leads
  cases absolute : (Path.ofMessage dir).isAbsolute with
  | true =>
    rw [absolute, if_pos rfl] at leads
    exact absurd leads (by decide)
  | false =>
    rw [absolute, if_neg Bool.false_ne_true] at leads
    refine ⟨rfl, ?_⟩
    cases names : partsOf dir with
    | nil =>
      rw [names] at leads
      exact absurd leads (by decide)
    | cons first rest =>
      rw [names] at leads
      exact ⟨rest, by rw [← leads, List.headD_cons]⟩

/-! ## The module -/

/-- The names of the generated module below the folder of the results. -/
def moduleNames : List Message := [ofText "generated".toList, ofText defaultOutputFile]

/-- Where the generator is told to write the module, from the root of the project. -/
def modulePath (c : GeneratorConfig) : Path := (Path.ofMessage c.outputDir).child c.outputFile

theorem child_moduleNames (p : Path) :
    (p.child (ofText "generated".toList)).child (ofText defaultOutputFile) =
      ⟨p.anchor, p.parts ++ moduleNames⟩ := by
  rw [child_of_relative (by decide), child_of_relative (by decide), List.append_assoc]
  rfl

/-- The normal form of a relative path of the module. -/
theorem toMessage_moduleNames (parts : List Message) :
    (Path.mk [] (parts ++ moduleNames)).toMessage = join [Path.slash] (parts ++ moduleNames) := by
  have some : parts ++ moduleNames ≠ [] := List.append_ne_nil_of_right_ne_nil _ (by decide)
  simp [Path.toMessage, some, ofText]

section

variable {package dir : Message}

/-- A message without a backslash keeps its slashes. -/
theorem forwardSlashes_eq_self (plain : CodePoint.ofChar '\\' ∉ dir) :
    forwardSlashes dir = dir := by
  have kept : ∀ p ∈ dir, (if p = CodePoint.ofChar '\\' then Path.slash else p) = p := by
    intro p mem
    refine if_neg fun eq => ?_
    exact plain (eq ▸ mem)
  rw [forwardSlashes, List.map_congr_left kept, List.map_id']

/-- **The address is made of the names in the setting,** if the first is `lib`. -/
theorem importUri?_eq (named : package ≠ []) (plain : CodePoint.ofChar '\\' ∉ dir) :
    importUri? (some package) dir defaultOutputFile =
      if firstName (Path.ofMessage dir) = ofText "lib".toList then
        some (ofText "package:".toList ++ package ++ Path.slash ::
          join [Path.slash] ((partsOf dir).tail ++ moduleNames))
      else none := by
  have same := forwardSlashes_eq_self plain
  have filled : package.isEmpty = false := by simpa using named
  have parts : (Path.ofMessage dir).parts = partsOf dir := rfl
  have module_ := child_moduleNames (Path.ofMessage dir)
  rw [importUri?, Option.bind_eq_bind, Option.bind_some, filled, same, module_, parts,
    firstName_ofMessage, if_neg Bool.false_ne_true]
  dsimp only
  cases absolute : (Path.ofMessage dir).isAbsolute with
  | true =>
    have above : (Path.mk (Path.ofMessage dir).anchor (partsOf dir ++ moduleNames)).isAbsolute =
      true := absolute
    rw [above, if_pos rfl, if_neg (by decide)]
  | false =>
    have below : (Path.mk (Path.ofMessage dir).anchor (partsOf dir ++ moduleNames)).isAbsolute =
      false := absolute
    rw [below, if_neg Bool.false_ne_true]
    cases partsOf dir with
    | nil => rfl
    | cons first rest =>
      rw [List.cons_append]
      dsimp only
      rw [toMessage_moduleNames, List.append_assoc (_ ++ package)]
      rfl

/-- **The generator writes the module below the names in the setting,** if these lead somewhere. -/
theorem modulePath_eq (s : Settings) (relative : (Path.ofMessage dir).isAbsolute = false)
    (some : dir ≠ []) : modulePath (generatorConfig { s with outputDir := .text dir }) =
      ⟨[], partsOf dir ++ moduleNames⟩ := by
  have anchor : (Path.ofMessage
      (resourceFolder dir ++ Path.slash :: ofText "generated".toList)).anchor = [] := by
    simpa [Path.isAbsolute] using isAbsolute_resourceFolder_append relative some _
  have parts : partsOf (resourceFolder dir ++ Path.slash :: ofText "generated".toList) =
      partsOf dir ++ [ofText "generated".toList] := by
    rw [partsOf_append_slash, partsOf_resourceFolder]
    rfl
  show (Path.ofMessage (resourceFolder dir ++ Path.slash :: ofText "generated".toList)).child
    (ofText defaultOutputFile) = _
  rw [child_of_relative (by decide), anchor]
  show Path.mk [] (partsOf _ ++ _) = _
  rw [parts, List.append_assoc]
  rfl

/-- **The import names the module that the generator is told to write.** There is an address just
if the setting for the folder of the results leads into `lib`, and below the package it is the
place of the module below `lib`. -/
theorem importUri?_names_module (s : Settings) (named : package ≠ [])
    (plain : CodePoint.ofChar '\\' ∉ dir) :
    ((importUri? (some package) dir defaultOutputFile).isSome = true ↔
        firstName (Path.ofMessage dir) = ofText "lib".toList) ∧
      ∀ uri ∈ importUri? (some package) dir defaultOutputFile, ∃ rest,
        uri = ofText "package:".toList ++ package ++ Path.slash :: rest ∧
          (modulePath (generatorConfig { s with outputDir := .text dir })).toMessage =
            ofText "lib/".toList ++ rest := by
  rw [importUri?_eq named plain]
  by_cases leads : firstName (Path.ofMessage dir) = ofText "lib".toList
  · rw [if_pos leads]
    refine ⟨iff_of_true rfl leads, ?_⟩
    rintro uri ⟨⟩
    refine ⟨_, rfl, ?_⟩
    obtain ⟨relative, rest, names⟩ := exists_cons_of_firstName leads
    have some : dir ≠ [] := by
      rintro rfl
      exact absurd names (List.cons_ne_nil _ _).symm
    have below : rest ++ moduleNames ≠ [] := List.append_ne_nil_of_right_ne_nil _ (by decide)
    rw [modulePath_eq s relative some, toMessage_moduleNames, names, List.tail_cons,
      List.cons_append, Path.Rule.join_cons below]
    rfl
  · rw [if_neg leads]
    exact ⟨iff_of_false Bool.false_ne_true leads, fun uri none => nomatch none⟩

end

/-- Dots, further slashes and a way up in the setting stay in step. -/
theorem importUri?_names_untidy_module :
    importUri? (some (ofText "app".toList)) (ofText "./lib/../lib//l10n/".toList)
        defaultOutputFile =
      some (ofText "package:app/../lib/l10n/generated/app_localizations.dart".toList) ∧
    ((importUri? (some (ofText "app".toList)) (ofText "./lib/../lib//l10n/".toList)
        defaultOutputFile).isSome = true ↔
      firstName (Path.ofMessage (ofText "./lib/../lib//l10n/".toList)) = ofText "lib".toList) ∧
    ∀ uri ∈ importUri? (some (ofText "app".toList)) (ofText "./lib/../lib//l10n/".toList)
        defaultOutputFile, ∃ rest,
      uri = ofText "package:".toList ++ ofText "app".toList ++ Path.slash :: rest ∧
        (modulePath (generatorConfig
          { root := ⟨['/'], []⟩,
            outputDir := .text (ofText "./lib/../lib//l10n/".toList) })).toMessage =
          ofText "lib/".toList ++ rest :=
  ⟨by decide, importUri?_names_module { root := ⟨['/'], []⟩ } (by decide) (by decide)⟩

end Localizer.Extraction
