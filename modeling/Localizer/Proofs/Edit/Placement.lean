import Localizer.Proofs.Dart.AppRoot
import Localizer.Proofs.Dart.Inside
import Localizer.Proofs.Edit.Wiring

/-!
# Where wiring goes

The places for the import and for the properties of the app root are found in the bare text of a
buffer, whose comments and strings can hold such lines and calls, too. The import goes in at the
top, at the end, or behind a newline; so it cuts a comment or string in two just if that newline is
not code. The properties go in behind a bracket; so they cut one in two just if that bracket is not
code, and not the end of a line comment (`wiring_cuts_iff`, `wiring_cuts_strings`).
-/

namespace Localizer.Edit

open Text Dart
open Message (newline ofText)

/-- `t` is the buffer `s` with `v` put in at offset `n`. -/
structure PutIn (s : Message) (n : Nat) (v t : Message) : Prop where
  within : n ≤ s.length
  eq : t = s.take n ++ v ++ s.drop n

/-- Before the offset stands a newline of a comment or string. -/
def BehindHiddenNewline (s : Text) (n : Nat) : Prop :=
  ∃ m, n = m + 1 ∧ s[m]? = some '\n' ∧ (m, .code '\n') ∉ located 0 (lex s)

/-- Before the offset stands a bracket of a comment or string, which does not end there. -/
def BehindHiddenBracket (s : Text) (n : Nat) : Prop :=
  ∃ m, n = m + 1 ∧ s[m]? = some '(' ∧ (m, .code '(') ∉ located 0 (lex s) ∧ ¬ EndsComment s n

theorem view_append (a b : Message) : (a ++ b).view = a.view ++ b.view := List.map_append

theorem putIn_append (a v b : Message) : PutIn (a ++ b) a.length v (a ++ v ++ b) where
  within := by simp
  eq := by rw [List.take_left, List.drop_left]

/-! ## The import -/

theorem inside_behind_newline (s : Text) {m : Nat} (char : s[m]? = some '\n') :
    Inside s (m + 1) ↔ BehindHiddenNewline s (m + 1) := by
  rw [inside_behind_newline_iff char]
  constructor
  · exact fun hidden => ⟨m, rfl, char, hidden⟩
  · rintro ⟨m', eq, -, hidden⟩
    obtain rfl := Nat.succ.inj eq
    exact hidden

/-- Behind a hidden newline a comment or string goes on. -/
theorem BehindHiddenNewline.inside {s : Text} {n : Nat} (h : BehindHiddenNewline s n) :
    Inside s n := by
  obtain ⟨m, rfl, char, hidden⟩ := h
  exact (inside_behind_newline_iff char).2 hidden

/-- A statement is put in with newlines around it, and cuts what hides the newline before it. -/
theorem ImportInserted.putIn {statement s t : Message} (h : ImportInserted statement s t) :
    ∃ n a b, PutIn s n (a ++ statement ++ b) t ∧ (∀ p ∈ a ++ b, p = newline) ∧
      (Inside s.view n ↔ BehindHiddenNewline s.view n) := by
  cases h with
  | top =>
    refine ⟨0, [], [newline, newline], ⟨Nat.zero_le _, by simp⟩, by simp, ?_⟩
    refine iff_of_false (not_inside_zero _) ?_
    rintro ⟨m, eq, -⟩
    exact Nat.succ_ne_zero m eq.symm
  | between a b =>
    have char : (a ++ newline :: b).view[a.length]? = some '\n' := by
      rw [view_append, List.getElem?_append_right (by simp)]
      simp [Message.view, newline, CodePoint.shown_ofChar]
    refine ⟨a.length + 1, [], [newline], ?_, by simp, inside_behind_newline _ char⟩
    have put := putIn_append (a ++ [newline]) (statement ++ [newline]) b
    simpa using put
  | last =>
    refine ⟨s.length, [newline], [], ⟨le_rfl, by simp⟩, by simp, ?_⟩
    have outside : ¬ Inside s.view s.length := by
      rw [← Message.length_view]
      exact not_inside_length _
    exact iff_of_false outside fun hidden => outside hidden.inside

/-! ## The app root -/

/-- A buffer has one of the properties of an app root in it. -/
def Marked (s : Message) : Prop := ∃ mark ∈ delegateMarks, mark <:+: s.view

section

variable {className s : Message} {before head rest : Text}

/-- A marked buffer stays as it is. -/
theorem ensureDelegates_of_marked (marked : Marked s) : ensureDelegates className s = s := by
  obtain ⟨mark, mem, occurs⟩ := marked
  have present : delegateMarks.any (occursIn · s.view) = true :=
    List.any_eq_true.2 ⟨mark, mem, occursIn_iff.2 occurs⟩
  exact if_pos present

/-- A buffer without an app root stays as it is. -/
theorem ensureDelegates_of_none (none : appRoot? s.view = none) :
    ensureDelegates className s = s := by
  rw [ensureDelegates, none, ite_self]

/-- The properties are put in behind the bracket of the first app root call. -/
theorem ensureDelegates_putIn (unmarked : ¬ Marked s)
    (root : appRoot? s.view = some (before, head, rest)) :
    ∃ indent, (∀ c ∈ indent, isBlank c = true) ∧
      PutIn s (before ++ head).length (delegates className indent)
        (ensureDelegates className s) := by
  let line := (before.reverse.takeWhile (· != '\n')).reverse
  have blank : ∀ c ∈ indentation line ++ [' ', ' '], isBlank c = true := by
    refine List.forall_mem_append.2 ⟨fun c hc => List.mem_takeWhile_imp hc, ?_⟩
    decide +kernel
  have absent : delegateMarks.any (occursIn · s.view) = false := by
    rw [Bool.eq_false_iff, Ne, List.any_eq_true]
    exact fun ⟨mark, mem, occurs⟩ => unmarked ⟨mark, mem, occursIn_iff.1 occurs⟩
  refine ⟨_, blank, ?_, ?_⟩
  · rw [← Message.length_view, (firstAppRoot_of_eq_some root).split, ← List.append_assoc]
    exact (List.prefix_append _ _).length_le
  · rw [ensureDelegates, absent, if_neg Bool.false_ne_true, root, List.length_append]

/-- The properties are put in if a buffer is not marked and has an app root. -/
theorem ensureDelegates_cases (className s : Message) :
    (ensureDelegates className s = s ∧
      (Marked s ∨ ∀ before head rest, ¬ IsAppRoot s.view before head rest)) ∨
    ¬ Marked s ∧ ∃ before head rest indent, FirstAppRoot s.view before head rest ∧
      (∀ c ∈ indent, isBlank c = true) ∧
      PutIn s (before ++ head).length (delegates className indent)
        (ensureDelegates className s) := by
  by_cases marked : Marked s
  · exact .inl ⟨ensureDelegates_of_marked marked, .inl marked⟩
  cases root : appRoot? s.view with
  | none => exact .inl ⟨ensureDelegates_of_none root, .inr (not_isAppRoot_of_eq_none root)⟩
  | some call =>
    obtain ⟨before, head, rest⟩ := call
    obtain ⟨indent, blank, put⟩ := ensureDelegates_putIn marked root
    exact .inr ⟨marked, before, head, rest, indent, firstAppRoot_of_eq_some root, blank, put⟩

end

/-- Behind the bracket of an app root call is cut what hides it. -/
theorem inside_behind_bracket {s before head rest : Text} (root : IsAppRoot s before head rest) :
    Inside s (before ++ head).length ↔ BehindHiddenBracket s (before ++ head).length := by
  obtain ⟨isHead, -, whole⟩ := root
  obtain ⟨name, rfl⟩ : ∃ name, head = name ++ ['('] := by
    cases isHead
    exact ⟨_, rfl⟩
  have char : s[(before ++ name).length]? = some '(' := by
    have split : s = (before ++ name) ++ '(' :: rest := by rw [whole]; simp
    rw [split, List.getElem?_append_right le_rfl, Nat.sub_self]
    rfl
  have place : (before ++ (name ++ ['('])).length = (before ++ name).length + 1 := by
    simp [Nat.add_assoc]
  rw [place, inside_behind_iff char (by decide) (by decide)]
  constructor
  · rintro ⟨hidden, goesOn⟩
    exact ⟨_, rfl, char, hidden, goesOn⟩
  · rintro ⟨m, eq, -, hidden⟩
    obtain rfl := Nat.succ.inj eq
    exact hidden

/-! ## Both -/

/-- **Wiring cuts what hides its place,** and nothing else. Where the import is put in, a comment or
string is cut in two just if it holds the newline before the place; where the properties of the app
root are put in, just if it holds the bracket before the place and goes on behind it. -/
theorem wiring_cuts_iff (statement className s : Message) :
    (ensureImport statement s = s ∨
      ∃ n a b, PutIn s n (a ++ statement ++ b) (ensureImport statement s) ∧
        (∀ p ∈ a ++ b, p = newline) ∧ (Inside s.view n ↔ BehindHiddenNewline s.view n)) ∧
    (ensureDelegates className s = s ∨
      ∃ before head rest indent, FirstAppRoot s.view before head rest ∧
        PutIn s (before ++ head).length (delegates className indent) (ensureDelegates className s) ∧
        (Inside s.view (before ++ head).length ↔
          BehindHiddenBracket s.view (before ++ head).length)) := by
  refine ⟨(ensureImport_inserts statement s).imp_right ImportInserted.putIn, ?_⟩
  rcases ensureDelegates_cases className s with
    ⟨same, -⟩ | ⟨-, before, head, rest, indent, root, -, put⟩
  · exact .inl same
  · exact .inr ⟨before, head, rest, indent, root, put, inside_behind_bracket root.toIsAppRoot⟩

/-- What is put in leaves the parts of the buffer before and behind it, so it is found by comparing
the buffer at each offset. -/
theorem PutIn.of_parts {s v t : Message} {n : Nat} {P : Nat → Prop} (h : PutIn s n v t)
    (all : ∀ n < s.length + 1, t.take n = s.take n →
      t.drop (t.length - (s.length - n)) = s.drop n → P n) : P n := by
  have before : (s.take n).length = n := List.length_take_of_le h.within
  have front : t.length - (s.length - n) = (s.take n ++ v).length := by
    have within := h.within
    simp only [h.eq, List.length_append, List.length_drop, before]
    omega
  refine all n (Nat.lt_succ_of_le h.within) ?_ ?_
  · rw [h.eq, List.append_assoc, List.take_append_of_le_length before.ge, List.take_take, min_self]
  · rw [front, h.eq, List.drop_left]

/-- An import in a comment and an app root call in a string are taken for code: wherever one says
that the wiring is put in, it cuts the comment or the string. -/
theorem wiring_cuts_strings :
    (∀ n v, PutIn (ofText "/*\nimport 'a';\n*/".toList) n v
        (ensureImport (ofText "import 'b';".toList) (ofText "/*\nimport 'a';\n*/".toList)) →
      Inside "/*\nimport 'a';\n*/".toList n) ∧
    ∀ n v, PutIn (ofText "f('MaterialApp()');".toList) n v
        (ensureDelegates (ofText "L".toList) (ofText "f('MaterialApp()');".toList)) →
      Inside "f('MaterialApp()');".toList n := by
  constructor
  · exact fun n v h => h.of_parts (by decide +kernel)
  · exact fun n v h => h.of_parts (by decide +kernel)

end Localizer.Edit
