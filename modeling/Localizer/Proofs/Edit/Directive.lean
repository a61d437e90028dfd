import Localizer.Proofs.Edit.Placement

/-!
# Wiring is added once, behind what it belongs to

The lines of a buffer are read as import directives and other lines (`Reads`): a directive starts
with a line that begins with its word and goes on to the first line with a semicolon, or to the last
line. The count `importEnd` comes up to the end of the last directive (`importEnd_of_directive`), so
the statement is put in as a line right behind it, or above everything if there is none; and it is
put in just if the buffer does not hold it. The properties of the app root go behind the bracket of
the first call of one (`FirstAppRoot`). What has been put in is found the next time, and nothing is
added again (`wiring_additive`).
-/

namespace Localizer.Edit

open Text Dart
open Message (newline ofText)

/-! ## Lines as directives -/

/-- A part of the lines of a buffer. -/
inductive Chunk where
  /-- The lines of an import directive. -/
  | directive (ls : List Message)
  /-- A line that belongs to none. -/
  | other (line : Message)
  deriving Repr, DecidableEq

namespace Chunk

/-- The lines of a chunk. -/
def lines : Chunk → List Message
  | directive ls => ls
  | other line => [line]

/-- Whether a chunk is a directive. -/
def isDirective : Chunk → Bool
  | directive _ => true
  | other _ => false

end Chunk

/-- A line that starts a directive has its word and a blank, after any blanks. -/
def Opens (line : Message) : Prop :=
  ∃ gap c rest, line.view = gap ++ ("import".toList ++ c :: rest) ∧ (∀ d ∈ gap, isBlank d = true) ∧
    isBlank c = true

/-- A line that ends a directive has a semicolon. -/
def Closes (line : Message) : Prop := ';' ∈ line.view

/-- Lines, read as directives and other lines. -/
inductive Reads : List Message → List Chunk → Prop
  | nil : Reads [] []
  | other {line : Message} {ls : List Message} {xs : List Chunk} (plain : ¬ Opens line)
    (rest : Reads ls xs) : Reads (line :: ls) (.other line :: xs)
  /-- A directive goes on to the first line that ends it. -/
  | closed {body : List Message} {last : Message} {ls : List Message} {xs : List Chunk}
    (first : ∀ line ∈ (body ++ [last]).head?, Opens line) (within : ∀ line ∈ body, ¬ Closes line)
    (closes : Closes last) (rest : Reads ls xs) :
    Reads (body ++ last :: ls) (.directive (body ++ [last]) :: xs)
  /-- A directive that no line ends goes on to the last line. -/
  | unclosed {line : Message} {ls : List Message} (first : Opens line)
    (within : ∀ l ∈ line :: ls, ¬ Closes l) : Reads (line :: ls) [.directive (line :: ls)]

theorem opens_iff {line : Message} : isImportLine line.view = true ↔ Opens line := by
  have letter : isBlank 'i' = false := by decide +kernel
  constructor
  · intro h
    unfold isImportLine at h
    split at h
    next c rest after =>
      refine ⟨line.view.takeWhile isBlank, c, rest, ?_, fun d hd => List.mem_takeWhile_imp hd, h⟩
      rw [← after?_eq_some_iff.1 after, stripLeft, List.takeWhile_append_dropWhile]
    next => simp at h
  · rintro ⟨gap, c, rest, split, blank, stop⟩
    have stripped : stripLeft line.view = "import".toList ++ c :: rest := by
      rw [stripLeft, split, List.dropWhile_append_of_pos blank]
      exact List.dropWhile_cons_of_neg (by rw [Bool.not_eq_true]; exact letter)
    rw [isImportLine, stripped, after?_eq_some_iff.2 rfl]
    exact stop

/-- Lines come to a first one that ends a directive, or there is none. -/
theorem exists_closing (ls : List Message) : (∀ line ∈ ls, ¬ Closes line) ∨
    ∃ body last rest, ls = body ++ last :: rest ∧ (∀ line ∈ body, ¬ Closes line) ∧ Closes last := by
  induction ls with
  | nil => exact .inl (by simp)
  | cons line ls ih =>
    by_cases closes : Closes line
    · exact .inr ⟨[], line, ls, rfl, by simp, closes⟩
    · rcases ih with none | ⟨body, last, rest, rfl, within, stop⟩
      · exact .inl (List.forall_mem_cons.2 ⟨closes, none⟩)
      · exact .inr ⟨line :: body, last, rest, rfl, List.forall_mem_cons.2 ⟨closes, within⟩, stop⟩

/-- **All lines can be read.** -/
theorem exists_reads (ls : List Message) : ∃ xs, Reads ls xs := by
  induction h : ls.length using Nat.strong_induction_on generalizing ls with
  | _ n ih =>
    cases ls with
    | nil => exact ⟨[], .nil⟩
    | cons line ls =>
      by_cases opens : Opens line
      · rcases exists_closing (line :: ls) with none | ⟨body, last, rest, split, within, closes⟩
        · exact ⟨_, .unclosed opens none⟩
        · have shorter := congrArg List.length split
          rw [List.length_append, List.length_cons, List.length_cons] at shorter
          obtain ⟨xs, reads⟩ := ih rest.length (by rw [← h, List.length_cons]; omega) rest rfl
          have first : ∀ l ∈ (body ++ [last]).head?, Opens l := by
            have head : (body ++ [last]).head? = some line := by
              have same := congrArg List.head? split
              cases body <;> simpa [eq_comm] using same
            simpa [head] using opens
          rw [split]
          exact ⟨_, .closed first within closes reads⟩
      · obtain ⟨xs, reads⟩ := ih ls.length (by rw [← h]; simp) ls rfl
        exact ⟨_, .other opens reads⟩

/-- What is read is all of the lines, in order. -/
theorem Reads.flatten {ls : List Message} {xs : List Chunk} (h : Reads ls xs) :
    xs.flatMap Chunk.lines = ls := by
  induction h with
  | nil => rfl
  | other _ _ ih => rw [List.flatMap_cons, ih]; rfl
  | closed _ _ _ _ ih => rw [List.flatMap_cons, ih]; simp [Chunk.lines]
  | unclosed => simp [Chunk.lines]

/-! ## The end of the last directive -/

theorem contains_iff {line : Message} : line.view.contains ';' = true ↔ Closes line := by
  rw [List.contains_iff_mem, Closes]

/-- At its first line a directive counts as begun. -/
theorem importEnd_of_opens {line : Message} (opens : Opens line) (count last : Nat)
    (rest : List Text) : importEnd false count last (line.view :: rest) =
      importEnd true count last (line.view :: rest) := by
  simp only [importEnd, opens_iff.2 opens, Bool.false_or, Bool.true_or, if_true]

/-- Within a directive lines are counted. -/
theorem importEnd_within {body : List Message} (within : ∀ line ∈ body, ¬ Closes line)
    (count last : Nat) (rest : List Text) :
    importEnd true count last (body.map Message.view ++ rest) =
      importEnd true (count + body.length) last rest := by
  induction body generalizing count with
  | nil => rfl
  | cons line body ih =>
    obtain ⟨open', within⟩ := List.forall_mem_cons.1 within
    have semicolon : line.view.contains ';' = false := by
      rwa [Bool.eq_false_iff, Ne, contains_iff]
    rw [List.map_cons, List.cons_append, importEnd, Bool.true_or, if_pos rfl, semicolon,
      if_neg Bool.false_ne_true, ih within, List.length_cons, Nat.add_right_comm, Nat.add_assoc]

/-- A directive that is ended is counted as the last so far. -/
theorem importEnd_closed {body : List Message} {last : Message}
    (first : ∀ line ∈ (body ++ [last]).head?, Opens line) (within : ∀ line ∈ body, ¬ Closes line)
    (closes : Closes last) (count before : Nat) (rest : List Text) :
    importEnd false count before ((body ++ [last]).map Message.view ++ rest) =
      importEnd false (count + (body ++ [last]).length) (count + (body ++ [last]).length) rest := by
  have begun : importEnd false count before ((body ++ [last]).map Message.view ++ rest) =
      importEnd true count before ((body ++ [last]).map Message.view ++ rest) := by
    cases body with
    | nil => exact importEnd_of_opens (first last rfl) _ _ _
    | cons line body => exact importEnd_of_opens (first line rfl) _ _ _
  rw [begun, List.map_append, List.append_assoc, importEnd_within within, List.map_singleton,
    List.singleton_append, importEnd, Bool.true_or, if_pos rfl, if_pos (contains_iff.2 closes),
    List.length_append, List.length_singleton, Nat.add_assoc]

/-- A directive that no line ends comes up to the end. -/
theorem importEnd_unclosed {line : Message} {ls : List Message} (first : Opens line)
    (within : ∀ l ∈ line :: ls, ¬ Closes l) (count last : Nat) :
    importEnd false count last ((line :: ls).map Message.view) = count + (line :: ls).length := by
  have all := importEnd_within within count last []
  rw [List.append_nil] at all
  rw [List.map_cons, importEnd_of_opens first, ← List.map_cons, all]
  rfl

theorem importEnd_other {line : Message} (plain : ¬ Opens line) (count last : Nat)
    (rest : List Text) :
    importEnd false count last (line.view :: rest) = importEnd false (count + 1) last rest := by
  have starts : isImportLine line.view = false := by
    rwa [Bool.eq_false_iff, Ne, opens_iff]
  rw [importEnd, starts, Bool.or_false, if_neg Bool.false_ne_true]

/-- Without a directive the count stays what it was. -/
theorem importEnd_of_none {ls : List Message} {xs : List Chunk} (h : Reads ls xs)
    (none : ∀ x ∈ xs, x.isDirective = false) (count last : Nat) :
    importEnd false count last (ls.map Message.view) = last := by
  induction h generalizing count with
  | nil => rfl
  | other plain _ ih =>
    rw [List.map_cons, importEnd_other plain]
    exact ih (fun x hx => none x (List.mem_cons_of_mem _ hx)) _
  | closed => simp [Chunk.isDirective] at none
  | unclosed => simp [Chunk.isDirective] at none

/-- **The count comes up to the end of the last directive.** -/
theorem importEnd_of_directive {ls d : List Message} {front rest : List Chunk}
    (h : Reads ls (front ++ .directive d :: rest)) (none : ∀ x ∈ rest, x.isDirective = false)
    (count last : Nat) : importEnd false count last (ls.map Message.view) =
      count + (front.flatMap Chunk.lines ++ d).length := by
  generalize hxs : front ++ Chunk.directive d :: rest = xs at h
  induction h generalizing front count last with
  | nil => simp at hxs
  | other plain _ ih =>
    cases front with
    | nil => simp at hxs
    | cons x front =>
      obtain ⟨rfl, later⟩ := List.cons.inj hxs
      rw [List.map_cons, importEnd_other plain, ih _ _ later]
      simp only [List.flatMap_cons, Chunk.lines, List.length_append, List.length_singleton]
      omega
  | @closed body stop ls xs first within closes reads ih =>
    have split : (body ++ stop :: ls).map Message.view =
        (body ++ [stop]).map Message.view ++ ls.map Message.view := by simp
    rw [split, importEnd_closed first within closes]
    cases front with
    | nil =>
      obtain ⟨eq, rfl⟩ := List.cons.inj hxs
      obtain rfl := Chunk.directive.inj eq
      exact importEnd_of_none reads none _ _
    | cons x front =>
      obtain ⟨rfl, later⟩ := List.cons.inj hxs
      rw [ih _ _ later]
      simp only [List.flatMap_cons, Chunk.lines, List.length_append]
      omega
  | unclosed first within =>
    cases front with
    | nil =>
      obtain ⟨eq, -⟩ := List.cons.inj hxs
      obtain rfl := Chunk.directive.inj eq
      exact importEnd_unclosed first within _ _
    | cons x front => simp at hxs

/-- Chunks have a last directive, or none. -/
theorem exists_last_directive (xs : List Chunk) : (∀ x ∈ xs, x.isDirective = false) ∨
    ∃ front d rest, xs = front ++ .directive d :: rest ∧ ∀ x ∈ rest, x.isDirective = false := by
  induction xs with
  | nil => exact .inl (by simp)
  | cons x xs ih =>
    rcases ih with none | ⟨front, d, rest, rfl, none⟩
    · cases x with
      | directive d => exact .inr ⟨[], d, xs, rfl, none⟩
      | other line => exact .inl (List.forall_mem_cons.2 ⟨rfl, none⟩)
    · exact .inr ⟨x :: front, d, rest, rfl, none⟩

theorem Reads.ne_nil {ls d : List Message} {xs : List Chunk} (h : Reads ls xs)
    (mem : .directive d ∈ xs) : d ≠ [] := by
  induction h with
  | nil => simp at mem
  | other _ _ ih => exact ih (by simpa using mem)
  | closed _ _ _ _ ih =>
    rcases List.mem_cons.1 mem with eq | mem
    · rw [Chunk.directive.inj eq]
      simp
    · exact ih mem
  | unclosed =>
    rw [Chunk.directive.inj (List.mem_singleton.1 mem)]
    simp

/-! ## The import -/

/-- Chunks, and the buffer of their lines with a statement put in as a line. -/
inductive LineInserted (statement : Message) : List Chunk → Message → Prop
  /-- Right behind the last directive. -/
  | behind {front rest : List Chunk} {d : List Message}
    (none : ∀ x ∈ rest, x.isDirective = false) :
    LineInserted statement (front ++ .directive d :: rest)
      (Message.unlines (front.flatMap Chunk.lines ++ d ++ statement :: rest.flatMap Chunk.lines))
  /-- At the very top, with an empty line after it, if there is no directive. -/
  | top {xs : List Chunk} (none : ∀ x ∈ xs, x.isDirective = false) :
    LineInserted statement xs (Message.unlines (statement :: [] :: xs.flatMap Chunk.lines))

section

variable {statement className s : Message}

theorem ensureImport_of_contained (present : statement <:+: s) : ensureImport statement s = s := by
  have found : (statement.isEmpty || occursIn statement s) = true := by
    rw [occursIn_iff.2 present, Bool.or_true]
  exact if_pos found

/-- A buffer without the statement gets it as a line, behind its last directive. -/
theorem lineInserted_ensureImport (absent : ¬ statement <:+: s) {xs : List Chunk}
    (h : Reads s.lines xs) : LineInserted statement xs (ensureImport statement s) := by
  have missing : (statement.isEmpty || occursIn statement s) = false := by
    rw [Bool.or_eq_false_iff, Bool.eq_false_iff, Bool.eq_false_iff, Ne, Ne, occursIn_iff,
      List.isEmpty_iff]
    exact ⟨fun empty => absent (empty ▸ List.nil_infix), absent⟩
  rw [ensureImport, missing, if_neg Bool.false_ne_true]
  dsimp only
  rcases exists_last_directive xs with none | ⟨front, d, rest, rfl, none⟩
  · rw [importEnd_of_none h none, ← h.flatten]
    exact .top none
  · have filled : (front.flatMap Chunk.lines ++ d).length ≠ 0 := by
      have pos := List.length_pos_iff.2 (h.ne_nil (List.mem_append_right _ List.mem_cons_self))
      rw [List.length_append]
      omega
    have cut : s.lines = (front.flatMap Chunk.lines ++ d) ++ rest.flatMap Chunk.lines := by
      rw [← h.flatten, List.flatMap_append, List.flatMap_cons, List.append_assoc]
      rfl
    rw [importEnd_of_directive h none, Nat.zero_add]
    split
    next zero => exact absurd zero filled
    next =>
      rw [cut, List.take_left, List.drop_left]
      exact .behind none

example : ensureImport (ofText "import 'b';".toList)
      (ofText "import 'a'\r\n  show A;\r\nf();".toList) =
    ofText "import 'a'\r\n  show A;\r\nimport 'b';\nf();".toList := by
  decide +kernel

theorem infix_unlines {ls : List Message} {line : Message} (mem : line ∈ ls) :
    line <:+: Message.unlines ls := by
  obtain ⟨as, bs, rfl⟩ := List.append_of_mem mem
  have front : line <+: Message.unlines (line :: bs) := by
    cases bs with
    | nil => rw [unlines_singleton]
    | cons b bs =>
      rw [unlines_cons line (List.cons_ne_nil _ _)]
      exact List.prefix_append _ _
  by_cases first : as = []
  · rw [first, List.nil_append]
    exact front.isInfix
  · rw [unlines_append first (List.cons_ne_nil _ _)]
    exact front.isInfix.trans ((List.suffix_cons _ _).trans (List.suffix_append _ _)).isInfix

/-- Whatever a buffer held, it then holds the statement. -/
theorem infix_ensureImport (statement s : Message) : statement <:+: ensureImport statement s := by
  by_cases present : statement <:+: s
  · rwa [ensureImport_of_contained present]
  · obtain ⟨xs, reads⟩ := exists_reads s.lines
    have inserted := lineInserted_ensureImport present reads
    generalize ensureImport statement s = t at inserted
    cases inserted with
    | behind => exact infix_unlines (List.mem_append_right _ List.mem_cons_self)
    | top => exact infix_unlines List.mem_cons_self

theorem ensureImport_eq_self_iff : ensureImport statement s = s ↔ statement <:+: s :=
  ⟨fun same => same ▸ infix_ensureImport statement s, ensureImport_of_contained⟩

/-! ## The app root -/

/-- What holds the two properties is marked. -/
theorem marked_of_putIn {n : Nat} {indent : Text} {t : Message}
    (h : PutIn s n (delegates className indent) t) : Marked t := by
  refine ⟨"localizationsDelegates:".toList, by decide, ?_⟩
  have shown : "localizationsDelegates:".toList <:+: (delegates className indent).view := by
    refine ⟨'\n' :: indent, ' ' :: (className.view ++ (".localizationsDelegates,".toList ++
      '\n' :: (indent ++ ("supportedLocales: ".toList ++ (className.view ++
        ".supportedLocales,".toList))))), ?_⟩
    simp [delegates, view_append]
  rw [h.eq, view_append, view_append]
  exact shown.trans (List.infix_append _ _ _)

theorem ensureDelegates_idempotent (className s : Message) :
    ensureDelegates className (ensureDelegates className s) = ensureDelegates className s := by
  rcases ensureDelegates_cases className s with ⟨same, -⟩ | ⟨-, _, _, _, _, -, -, put⟩
  · rw [same, same]
  · exact ensureDelegates_of_marked (marked_of_putIn put)

end

/-! ## Both -/

/-- **Wiring is additive and idempotent, and splits no import.** A buffer stays as it is just if it
holds the statement. Its lines can be read as directives and other lines; however they are, they are
kept and the statement stands as a line behind the last directive, or at the top with an empty line
if there is none. The properties are put in behind the bracket of the first app root call, unless
the buffer has one of them or no such call. And what has been wired is left as it is. -/
theorem wiring_additive (statement className s : Message) :
    (ensureImport statement s = s ↔ statement <:+: s) ∧
    (∃ xs, Reads s.lines xs) ∧
    (¬ statement <:+: s → ∀ xs, Reads s.lines xs → xs.flatMap Chunk.lines = s.lines ∧
      LineInserted statement xs (ensureImport statement s)) ∧
    ensureImport statement (ensureImport statement s) = ensureImport statement s ∧
    ((ensureDelegates className s = s ∧
        (Marked s ∨ ∀ before head rest, ¬ IsAppRoot s.view before head rest)) ∨
      ¬ Marked s ∧ ∃ before head rest indent, FirstAppRoot s.view before head rest ∧
        (∀ c ∈ indent, isBlank c = true) ∧ PutIn s (before ++ head).length
          (delegates className indent) (ensureDelegates className s)) ∧
    ensureDelegates className (ensureDelegates className s) = ensureDelegates className s := by
  refine ⟨ensureImport_eq_self_iff, exists_reads _, ?_, ?_, ensureDelegates_cases className s,
    ensureDelegates_idempotent className s⟩
  · exact fun absent xs reads => ⟨reads.flatten, lineInserted_ensureImport absent reads⟩
  · exact ensureImport_of_contained (infix_ensureImport statement s)

end Localizer.Edit
