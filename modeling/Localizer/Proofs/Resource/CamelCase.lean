import Localizer.Proofs.Resource.Words

/-!
# Camel case

`camelCase` writes the maximal runs of basic letters and digits of a text in camel case (`camelOf`):
the first of them in small letters, and each other with a capital letter in front. What stands
between the runs does not count, and neither does the case of their letters (`camelCase_runs`).
-/

namespace Localizer.Resource

open Text

/-- Words joined into one name: small letters in the first, and a capital letter in front of each
other. -/
def camelOf : List Text → Text
  | [] => []
  | w :: ws => w.map Char.toLower ++
      (ws.map fun v => (v.take 1).map Char.toUpper ++ (v.drop 1).map Char.toLower).flatten

theorem capitalize_eq :
    capitalize = fun v => (v.take 1).map Char.toUpper ++ (v.drop 1).map Char.toLower := by
  funext v
  cases v <;> simp [capitalize]

/-- What a letter is in small letters tells what it is in either case. -/
theorem recase_toLower (c : Char) :
    c.toLower.toLower = c.toLower ∧ c.toLower.toUpper = c.toUpper := by
  by_cases small : c.toNat < 128
  · exact of_small (P := fun c => c.toLower.toLower = c.toLower ∧ c.toLower.toUpper = c.toUpper)
      (by decide +kernel) small
  · have same : c.toLower = c := by
      refine dif_neg ?_
      rintro ⟨-, last⟩
      have before : c.toNat ≤ 'Z'.toNat := last
      exact small (before.trans_lt (by decide))
    rw [same]
    exact ⟨same, rfl⟩

/-- Words that differ in the case of their letters make the same name. -/
theorem camelOf_map_toLower (ws : List Text) :
    camelOf (ws.map fun w => w.map Char.toLower) = camelOf ws := by
  cases ws with
  | nil => rfl
  | cons w ws =>
    have small (v : Text) : (v.map Char.toLower).map Char.toLower = v.map Char.toLower := by
      simp only [List.map_map, Function.comp_def, (recase_toLower _).1]
    have titled (v : Text) : ((v.map Char.toLower).take 1).map Char.toUpper ++
        ((v.map Char.toLower).drop 1).map Char.toLower =
          (v.take 1).map Char.toUpper ++ (v.drop 1).map Char.toLower := by
      cases v with
      | nil => rfl
      | cons c v => simp [Function.comp_def, recase_toLower]
    rw [List.map_cons, camelOf, camelOf, small, List.map_map]
    simp only [Function.comp_def, titled]

/-- **A base is made of the runs of basic letters and digits.** The text has one list of maximal
runs of them, and in camel case it is these runs, joined. Texts with the same runs up to the case
of letters are the same in camel case, whatever stands between the runs. -/
theorem camelCase_runs (s : Text) :
    ∃ ws, (IsRuns isGap ws s ∧ ∀ vs, IsRuns isGap vs s → vs = ws) ∧ camelCase s = camelOf ws ∧
      ∀ t vs, IsRuns isGap vs t →
        (vs.map fun w => w.map Char.toLower) = (ws.map fun w => w.map Char.toLower) →
          camelCase t = camelCase s := by
  have joined {t : Text} {vs : List Text} (h : IsRuns isGap vs t) : camelCase t = camelOf vs := by
    rw [camelCase_eq_words, words_clean, h.eq_runs]
    cases vs with
    | nil => rfl
    | cons w vs =>
      rw [camelOf, ← capitalize_eq]
      rfl
  refine ⟨runs isGap s, ⟨isRuns_runs s, fun vs h => h.eq_runs.symm⟩, joined (isRuns_runs s), ?_⟩
  intro t vs h same
  rw [joined h, joined (isRuns_runs s), ← camelOf_map_toLower, same, camelOf_map_toLower]

end Localizer.Resource
