import Localizer.Proofs.Path.Rule

/-!
# Rules about any depth

A line that starts with two stars and a slash is a rule about any depth: what is behind them is the
pattern, which is compared with the last name of a path. So a line with one name behind the stars
applies to everything of that name, wherever it is; but a path of several names is no last name, and
then the rule applies to nothing at all (`applies_anywhere`, `anywhere_of_two_names`).
-/

namespace Localizer.Path.Rule

open Text CodePoint

/-- The names of a relative path that can be written in a line as they stand. -/
structure AreNames (parts : List Message) : Prop where
  nonempty : parts ≠ []
  name : ∀ part ∈ parts, part ≠ [] ∧ slash ∉ part
  literal : ∀ part ∈ parts, Glob.IsLiteral part
  trimmed : ∀ part ∈ parts, IsTrimmed part

/-- The line of a rule about the path of these names at any depth, with a slash at its end if it is
about folders. -/
def anywhere (parts : List Message) (folders : Bool) : Message :=
  Message.ofText "**/".toList ++ (join [slash] parts ++ if folders then [slash] else [])

/-! ## Last names -/

variable {m : Message}

theorem ne_slash_of_not_mem (h : slash ∉ m) : ∀ p ∈ m.reverse, (p != slash) = true := by
  intro p hp
  simpa using fun eq : p = slash => h (eq ▸ List.mem_reverse.1 hp)

theorem lastName_of_not_mem (h : slash ∉ m) : lastName m = m := by
  rw [lastName, List.takeWhile_eq_self_iff.2 (ne_slash_of_not_mem h), List.reverse_reverse]

/-- The last name of a path is what is behind its last slash. -/
theorem lastName_append (h : slash ∉ m) (front : Message) : lastName (front ++ slash :: m) = m := by
  rw [lastName, List.reverse_append, List.reverse_cons, List.append_assoc,
    List.takeWhile_append_of_pos (ne_slash_of_not_mem h)]
  simp

theorem slash_not_mem_lastName (path : Message) : slash ∉ lastName path := by
  rw [lastName, List.mem_reverse]
  intro mem
  simpa using List.mem_takeWhile_imp mem

/-! ## Paths of names -/

theorem join_cons {part : Message} {parts : List Message} (h : parts ≠ []) :
    join [slash] (part :: parts) = part ++ slash :: join [slash] parts := by
  rw [join, List.intercalate_cons_of_ne_nil h, List.append_assoc]
  rfl

theorem join_singleton (part : Message) : join [slash] [part] = part := List.intercalate_singleton

/-- The path of several names has a slash in it. -/
theorem slash_mem_join {parts : List Message} (h : 2 ≤ parts.length) :
    slash ∈ join [slash] parts := by
  match parts with
  | first :: second :: parts => rw [join_cons (by simp)]; simp

theorem AreNames.tail {part : Message} {parts : List Message} (h : AreNames (part :: parts))
    (nonempty : parts ≠ []) : AreNames parts where
  nonempty := nonempty
  name part mem := h.name part (List.mem_cons_of_mem _ mem)
  literal part mem := h.literal part (List.mem_cons_of_mem _ mem)
  trimmed part mem := h.trimmed part (List.mem_cons_of_mem _ mem)

theorem AreNames.literal_join {parts : List Message} (h : AreNames parts) :
    Glob.IsLiteral (join [slash] parts) := by
  induction parts with
  | nil => exact absurd rfl h.nonempty
  | cons part parts ih =>
    have first := h.literal part List.mem_cons_self
    by_cases last : parts = []
    · rwa [last, join_singleton]
    · rw [join_cons last]
      exact List.forall_mem_append.2
        ⟨first, List.forall_mem_cons.2 ⟨by decide, ih (h.tail last)⟩⟩

/-- A path of names ends in a code point that is neither a blank nor a slash. -/
theorem AreNames.getLast?_join {parts : List Message} (h : AreNames parts) :
    ∃ p, (join [slash] parts).getLast? = some p ∧ isBlank p.shown = false ∧ p ≠ slash := by
  induction parts with
  | nil => exact absurd rfl h.nonempty
  | cons part parts ih =>
    by_cases last : parts = []
    · obtain ⟨filled, plain⟩ := h.name part List.mem_cons_self
      have ends := List.getLast?_eq_some_getLast filled
      rw [last, join_singleton]
      exact ⟨_, ends, (h.trimmed part List.mem_cons_self).2 _ ends,
        fun eq => plain (eq ▸ List.getLast_mem filled)⟩
    · obtain ⟨p, ends, solid⟩ := ih (h.tail last)
      refine ⟨p, ?_, solid⟩
      rw [join_cons last, List.getLast?_append, List.getLast?_cons, ends]
      rfl

/-! ## The rule -/

variable {parts : List Message}

/-- The rule of the line has the whole path as its pattern, and no place. -/
theorem ofLine?_anywhere (h : AreNames parts) (folders : Bool) :
    ofLine? (anywhere parts folders) =
      some { pattern := join [slash] parts, directoryOnly := folders } := by
  obtain ⟨p, ends, solid, plain⟩ := h.getLast?_join
  have filled : join [slash] parts ≠ [] := by
    intro empty
    simp [empty] at ends
  have last : (anywhere parts folders).getLast? = some (if folders then slash else p) := by
    rw [anywhere]
    cases folders <;> simp [List.getLast?_append, ends]
  have taken : content (anywhere parts folders) = anywhere parts folders := by
    have star : isBlank (CodePoint.ofChar '*').shown = false := by decide
    have mark : isBlank slash.shown = false := by decide
    refine content_of_isTrimmed ⟨fun q hq => Option.some.inj hq ▸ star, ?_⟩
    rw [last]
    cases folders <;> simp [solid, mark]
  have shortened : dropEndWhile (· == slash) (anywhere parts folders) =
      Message.ofText "**/".toList ++ join [slash] parts := by
    obtain ⟨front, eq⟩ := List.getLast?_eq_some_iff.1 ends
    rw [anywhere, eq]
    cases folders <;> simp [dropEndWhile, plain]
  have pattern : ofPattern? (anywhere parts folders) false =
      some { pattern := join [slash] parts, directoryOnly := folders } := by
    simp only [ofPattern?, shortened, last, after?_eq_some_iff.2 rfl]
    cases folders <;> simp [filled, plain]
  rw [← pattern, ofLine?, taken]
  rfl

/-- What the rule applies to: the things of its one name, or nothing. -/
theorem applies_iff_lastName (h : AreNames parts) (folders : Bool) (path : Message)
    (isDirectory : Bool) :
    Rule.applies { pattern := join [slash] parts, directoryOnly := folders } path
        isDirectory = true ↔
      (folders = true → isDirectory = true) ∧ parts = [lastName path] := by
  have compared : lastName path = join [slash] parts ↔ parts = [lastName path] := by
    match parts with
    | [] => exact absurd rfl h.nonempty
    | [part] => rw [join_singleton, List.singleton_inj, eq_comm]
    | first :: second :: parts =>
      have several : slash ∈ join [slash] (first :: second :: parts) := slash_mem_join (by simp)
      refine ⟨fun eq => absurd (eq ▸ several) (slash_not_mem_lastName path), fun eq => ?_⟩
      simp at eq
  rw [← compared, ← Glob.matches_iff h.literal_join, applies]
  cases folders <;> cases isDirectory <;> simp

/-- **A rule about any depth applies to what has its one name.** The line of a path behind two stars
is always a rule, which takes nothing back in. With one name it applies to everything of that name,
wherever it is, with a slash at the end of the line only as a folder. With several names it applies
to nothing, not even to that path itself. -/
theorem applies_anywhere (h : AreNames parts) (folders : Bool) :
    ∃ r, ofLine? (anywhere parts folders) = some r ∧ r.negate = false ∧
      (∀ path front : Message, path = join [slash] parts ∨
          path = front ++ slash :: join [slash] parts →
        ∀ isDirectory, r.applies path isDirectory = true ↔
          (folders = true → isDirectory = true) ∧ parts.length = 1) ∧
      (2 ≤ parts.length → ∀ path isDirectory, r.applies path isDirectory = false) := by
  refine ⟨_, ofLine?_anywhere h folders, rfl, ?_, ?_⟩
  · intro path front place isDirectory
    rw [applies_iff_lastName h]
    refine and_congr_right fun _ => ⟨fun eq => by rw [eq]; rfl, fun one => ?_⟩
    obtain ⟨part, rfl⟩ := List.length_eq_one_iff.1 one
    have plain := (h.name part List.mem_cons_self).2
    rw [join_singleton] at place
    rcases place with rfl | rfl
    · rw [lastName_of_not_mem plain]
    · rw [lastName_append plain]
  · intro several path isDirectory
    rw [Bool.eq_false_iff, Ne, applies_iff_lastName h]
    rintro ⟨-, eq⟩
    simp [eq] at several

theorem applies_anywhere_generated :
    AreNames [Message.ofText "generated".toList] ∧
    ∃ r, ofLine? (anywhere [Message.ofText "generated".toList] true) = some r ∧ r.negate = false ∧
      (∀ path front : Message, path = join [slash] [Message.ofText "generated".toList] ∨
          path = front ++ slash :: join [slash] [Message.ofText "generated".toList] →
        ∀ isDirectory, r.applies path isDirectory = true ↔
          (true = true → isDirectory = true) ∧ [Message.ofText "generated".toList].length = 1) ∧
      (2 ≤ [Message.ofText "generated".toList].length →
        ∀ path isDirectory, r.applies path isDirectory = false) := by
  have names : AreNames [Message.ofText "generated".toList] :=
    ⟨by decide, by decide, by decide, by decide +kernel⟩
  exact ⟨names, applies_anywhere names true⟩

/-- A path of two names is not found by its rule, neither at the root nor deeper. -/
theorem anywhere_of_two_names :
    ∃ r, ofLine? (Message.ofText "**/lib/generated".toList) = some r ∧
      r.applies (Message.ofText "lib/generated".toList) true = false ∧
      r.applies (Message.ofText "app/lib/generated".toList) false = false := by
  refine ⟨{ pattern := Message.ofText "lib/generated".toList }, ?_, ?_, ?_⟩ <;> decide +kernel

end Localizer.Path.Rule
