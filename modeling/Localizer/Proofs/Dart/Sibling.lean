import Localizer.Proofs.Dart.Declaration
import Localizer.Proofs.Edit.Plan

/-!
# Groups beside a position

The walk that looks for what makes a position constant goes past the groups that are closed before
the position. One of its tests looks at a bracket's head, one at what stands before a bracket, one
at the text from a bracket to the position, and one at the start of a statement. None of them looks
through a pair of parentheses or braces: the head of a constant holds none
(`not_mem_of_isConstHead`), and the others look at the nearest characters that are no blanks. So a
closed group could hold anything else of its length (`walkOut_siblings`), and what the walk names is
the word of a constant or the bracket of a default (`walkOut_eq_some`).
-/

namespace Localizer.Dart

open Text

/-! ## The walk, step by step -/

section

variable {inside inside' back back' : Text}

/-- What the walk does at a character: it stops or goes on at a bracket that is open at the
position, it stops at the end of a statement, and it passes any other character. -/
theorem walkOut_step (innermost : Bool) (c : Char) :
    walkOut (closes inside) innermost inside (c :: back) =
      if isOpener c = true ∧ KeepsOpen inside then
        match constHeadBefore? back with
        | some start => some start
        | none =>
          if innermost && c != '(' && isParameterDefault back inside then some back.length
          else if c == '{' && opensBlock back then
            (declarationConst? inside).map (back.length + 1 + ·)
          else walkOut (closes (c :: inside)) false (c :: inside) back
      else if c = ';' ∧ KeepsOpen inside then (declarationConst? inside).map (back.length + 1 + ·)
      else walkOut (closes (c :: inside)) innermost (c :: inside) back := by
  split
  next h => exact walkOut_opener h.1 h.2
  next noOpener =>
    split
    next h =>
      obtain ⟨rfl, keepsOpen⟩ := h
      rw [closes_eq_zero_iff.2 keepsOpen, walkOut]
      rfl
    next noStop =>
      exact walkOut_cons fun keepsOpen =>
        ⟨by simpa [keepsOpen] using noOpener, fun stop => noStop ⟨stop, keepsOpen⟩⟩

/-- Places that the tests of the walk cannot tell apart. -/
structure Alike (inside inside' back back' : Text) : Prop where
  depth : closes inside = closes inside'
  declaration : declarationConst? inside = declarationConst? inside'
  default : isParameterDefault back inside = isParameterDefault back' inside'
  head : constHeadBefore? back = constHeadBefore? back'
  block : opensBlock back = opensBlock back'
  size : back.length = back'.length

theorem Alike.keepsOpen (h : Alike inside inside' back back') :
    KeepsOpen inside ↔ KeepsOpen inside' := by
  rw [← closes_eq_zero_iff, ← closes_eq_zero_iff, h.depth]

/-- From such places the walk goes on alike, or it has the same answer. -/
theorem Alike.walkOut {c : Char} (h : Alike inside inside' back back')
    (rest : ∀ innermost, Dart.walkOut (closes (c :: inside)) innermost (c :: inside) back =
      Dart.walkOut (closes (c :: inside')) innermost (c :: inside') back') (innermost : Bool) :
    Dart.walkOut (closes inside) innermost inside (c :: back) =
      Dart.walkOut (closes inside') innermost inside' (c :: back') := by
  rw [walkOut_step, walkOut_step]
  simp only [h.keepsOpen, h.declaration, h.default, h.head, h.block, h.size, rest]

end

/-! ## Heads -/

/-- The test for a block looks at the nearest character that is no blank. -/
theorem opensBlock_eq (back : Text) : opensBlock back =
    (stripLeft (back.take lookBack)).head?.all fun c => c == ')' || isWord c := by
  rw [opensBlock]
  cases stripLeft (back.take lookBack) <;> rfl

/-- So does the test for a default, on both sides of the bracket. -/
theorem isParameterDefault_eq (back inside : Text) : isParameterDefault back inside =
    ((stripLeft (back.take lookBack)).head?.any (fun c => c == '(' || c == ',') &&
      (stripLeft inside.reverse).head? == some '=') := by
  have ends : (stripRight inside).getLast? = (stripLeft inside.reverse).head? := by
    rw [stripRight, List.getLast?_reverse, stripLeft]
  rw [isParameterDefault, ends]
  cases stripLeft (back.take lookBack) <;> rfl

/-- The delimiters of groups that no head of a constant goes past. -/
inductive Delimits : Char → Char → Prop
  | round : Delimits '(' ')'
  | curly : Delimits '{' '}'

section

variable {first last : Char} (delimits : Delimits first last)
include delimits

theorem Delimits.opener : isOpener first = true := by cases delimits <;> rfl

theorem Delimits.closer : isCloser last = true := by cases delimits <;> rfl

theorem Delimits.solid : isBlank first = false ∧ isBlank last = false := by
  cases delimits <;> decide +kernel

theorem not_mem_of_isBlank {s : Text} (blank : ∀ c ∈ s, isBlank c = true) : last ∉ s := by
  intro mem
  have solid := delimits.solid.2
  rw [blank last mem] at solid
  contradiction

/-- What stands before the rest of a name, or after the dot behind a name, holds no such end. -/
theorem exists_more_name (dotted : Bool) (s : Text) :
    ∃ name, (if dotted then '.' :: s else s) = name ++ afterDottedName?.more dotted s ∧
      last ∉ name := by
  have noName : isNameStart last = false ∧ isNamePart last = false ∧ last ≠ '.' := by
    cases delimits <;> decide +kernel
  have name_cons {c : Char} {s name r : Text} (eq : s = name ++ r) (free : last ∉ name)
      (hc : last ≠ c) : ∃ name, c :: s = name ++ r ∧ last ∉ name :=
    ⟨c :: name, by rw [eq]; rfl, by simp [hc, free]⟩
  induction s generalizing dotted with
  | nil => exact ⟨[], by cases dotted <;> rfl, by simp⟩
  | cons c s ih =>
    obtain ⟨name, eq, free⟩ := ih false
    obtain ⟨dots, eqDots, freeDots⟩ := ih true
    rw [afterDottedName?.more]
    split
    next =>
      split
      next start =>
        have hc : last ≠ c := fun h => by simp [← h, noName.1] at start
        obtain ⟨name, eq, free⟩ := name_cons eq free hc
        exact name_cons eq free noName.2.2
      next => exact ⟨[], rfl, by simp⟩
    next =>
      split
      next part =>
        have hc : last ≠ c := fun h => by simp [← h, noName.2.1] at part
        exact name_cons eq free hc
      next =>
        split
        next dot =>
          rw [eq_of_beq dot]
          exact ⟨dots, eqDots, freeDots⟩
        next => exact ⟨[], rfl, by simp⟩

theorem exists_dottedName {s r : Text} (h : afterDottedName? s = some r) :
    ∃ name, s = name ++ r ∧ last ∉ name := by
  have noStart : isNameStart last = false := by cases delimits <;> decide +kernel
  unfold afterDottedName? at h
  split at h
  next c t =>
    split at h
    next start =>
      obtain rfl := Option.some.inj h
      obtain ⟨name, eq, free⟩ := exists_more_name delimits false t
      have hc : last ≠ c := fun h => by simp [← h, noStart] at start
      exact ⟨c :: name, congrArg (c :: ·) eq, by simp [hc, free]⟩
    next => contradiction
  next => contradiction

theorem not_mem_of_isTypeArguments {s : Text} (h : isTypeArguments s = true) : last ∉ s := by
  have other : last ≠ '<' ∧ last ≠ '>' ∧
      (last != ';' && last != '{' && last != '}' && last != '(' && last != ')') = false := by
    cases delimits <;> decide
  unfold isTypeArguments at h
  split at h
  next => simp
  next r =>
    split at h
    next body eq =>
      obtain ⟨pad, hpad, blank⟩ := Edit.eq_stripLeft r.reverse
      have back : stripLeft r.reverse = '>' :: body := by
        rw [← eq, stripRight, List.reverse_reverse, stripLeft]
      have mem : last ∈ r ↔ last ∈ pad ++ '>' :: body := by
        rw [← List.mem_reverse, hpad, back]
      rw [List.mem_cons, mem, List.mem_append, List.mem_cons]
      rintro (eq | inPad | eq | inBody)
      · exact other.1 eq
      · exact not_mem_of_isBlank delimits blank inPad
      · exact other.2.1 eq
      · have := List.all_eq_true.1 h last inBody
        rw [other.2.2] at this
        contradiction
    next => contradiction
  next => contradiction

/-- The head of a constant stands on one side of a group. -/
theorem not_mem_of_isConstHead {s : Text} (h : isConstHead s = true) : last ∉ s := by
  have word : last ∉ "const".toList := by cases delimits <;> decide
  have stripped {t : Text} (free : last ∉ stripLeft t) : last ∉ t := by
    obtain ⟨pad, eq, blank⟩ := Edit.eq_stripLeft t
    rw [eq, List.mem_append, not_or]
    exact ⟨not_mem_of_isBlank delimits blank, free⟩
  unfold isConstHead at h
  split at h
  next c r found =>
    simp only [Bool.and_eq_true] at h
    obtain ⟨blank, arguments⟩ := h
    rw [after?_eq_some_iff.1 found, List.mem_append, List.mem_cons, not_or, not_or]
    refine ⟨word, fun eq => ?_, stripped ?_⟩
    · rw [← eq, delimits.solid.2] at blank
      contradiction
    · have free := not_mem_of_isTypeArguments delimits arguments
      split at free
      next rest named =>
        obtain ⟨name, eq, freeName⟩ := exists_dottedName delimits named
        rw [eq, List.mem_append, not_or]
        exact ⟨freeName, stripped free⟩
      next => exact free
  next => contradiction

/-- A head that ends where a text does starts behind the last of these ends. -/
theorem constHead?_append_cons (before u v : Text) : constHead? before (u ++ last :: v) =
    (constHead? (last :: (u.reverse ++ before)) v).map (u.length + 1 + ·) := by
  have noHead (u : Text) : isConstHead (u ++ last :: v) = false := by
    rw [Bool.eq_false_iff]
    exact fun h => not_mem_of_isConstHead delimits h (by simp)
  induction u generalizing before with
  | nil =>
    rw [List.nil_append, constHead?, show isConstHead (last :: v) = false from noHead [],
      Bool.and_false, if_neg Bool.false_ne_true]
    simp [Nat.add_comm]
  | cons c u ih =>
    rw [List.cons_append, constHead?, show isConstHead (c :: (u ++ last :: v)) = false from
      noHead (c :: u), Bool.and_false, if_neg Bool.false_ne_true, ih, Option.map_map]
    simp only [List.reverse_cons, List.append_assoc, List.singleton_append, List.length_cons]
    congr 1
    funext n
    simp only [Function.comp_apply]
    omega

omit delimits in
/-- Of what stands before a text the search for a head sees the nearest character. -/
theorem constHead?_congr {before before' : Text} (h : atBoundary before = atBoundary before')
    (s : Text) : constHead? before s = constHead? before' s := by
  induction s generalizing before before' with
  | nil => rfl
  | cons c s ih => rw [constHead?, constHead?, h,
    @ih (c :: before) (c :: before') rfl]

variable {m m' : Text} (size : m.length = m'.length) (u : Text)
include size

theorem constHeadBefore?_past :
    constHeadBefore? (u ++ last :: m) = constHeadBefore? (u ++ last :: m') := by
  have length : (u ++ last :: m).length = (u ++ last :: m').length := by simp [size]
  rw [constHeadBefore?, constHeadBefore?, length]
  congr 1
  by_cases far : lookBack ≤ u.length
  · rw [List.take_append_of_le_length far, List.take_append_of_le_length far,
      List.drop_append_of_le_length far, List.drop_append_of_le_length far]
    refine constHead?_congr ?_ _
    cases u.drop lookBack <;> rfl
  · obtain ⟨n, hn⟩ : ∃ n, lookBack - u.length = n + 1 := ⟨lookBack - u.length - 1, by omega⟩
    have window (m : Text) : ((u ++ last :: m).take lookBack).reverse =
        (m.take n).reverse ++ last :: u.reverse := by
      rw [List.take_append, hn, List.take_of_length_le (by omega), List.take_succ_cons]
      simp
    rw [window, window, constHead?_append_cons delimits, constHead?_append_cons delimits]
    simp only [List.length_reverse, List.length_take, size]
    congr 1
    refine constHead?_congr ?_ _
    rfl

omit size in
theorem head?_stripLeft_past :
    (stripLeft ((u ++ last :: m).take lookBack)).head? =
      (stripLeft ((u ++ last :: m').take lookBack)).head? := by
  by_cases far : lookBack ≤ u.length
  · rw [List.take_append_of_le_length far, List.take_append_of_le_length far]
  · obtain ⟨n, hn⟩ : ∃ n, lookBack - u.length = n + 1 := ⟨lookBack - u.length - 1, by omega⟩
    have first (m : Text) : (stripLeft ((u ++ last :: m).take lookBack)).head? =
        (stripLeft u ++ [last]).head? := by
      rw [List.take_append, hn, List.take_of_length_le (by omega), List.take_succ_cons, stripLeft,
        dropWhile_append_cons delimits.solid.2, stripLeft]
      cases u.dropWhile isBlank <;> rfl
    rw [first, first]

/-- Behind a closed group, the walk sees nothing of what is in the group or before it. -/
theorem alike_behind (inside : Text) : Alike inside inside (u ++ last :: m) (u ++ last :: m') := by
  have first : (stripLeft ((u ++ last :: m).take lookBack)).head? =
      (stripLeft ((u ++ last :: m').take lookBack)).head? := head?_stripLeft_past delimits u
  refine ⟨rfl, rfl, ?_, constHeadBefore?_past delimits size u, ?_, by simp [size]⟩
  · rw [isParameterDefault_eq, isParameterDefault_eq, first]
  · rw [opensBlock_eq, opensBlock_eq, first]

end

/-! ## Groups -/

/-- What a balanced text opens it closes, so it is passed over in counting. -/
theorem Balanced.closes_append {x : Text} (h : Balanced x) (t : Text) :
    closes (x ++ t) = closes t := by
  have bounds (n : Nat) : closes (x ++ t) ≤ n ↔ closes t ≤ n := by
    have count := h.count
    rw [closes_le_iff, closes_le_iff]
    constructor
    · intro whole front inner
      have fronts := whole (x ++ front) ((List.prefix_append_right_inj x).2 inner)
      rw [List.countP_append, List.countP_append] at fronts
      omega
    · intro rest front inner
      rcases List.prefix_or_prefix_of_prefix inner (List.prefix_append x t) with inner | ⟨more, rfl⟩
      · exact (h.keepsOpen front inner).trans (Nat.le_add_right _ _)
      · have fronts := rest more ((List.prefix_append_right_inj x).1 inner)
        rw [List.countP_append, List.countP_append]
        omega
  exact Nat.le_antisymm ((bounds _).2 (Nat.le_refl _)) ((bounds _).1 (Nat.le_refl _))

theorem closes_append_congr {s t : Text} (h : closes s = closes t) (x : Text) :
    closes (x ++ s) = closes (x ++ t) := by
  induction x with
  | nil => exact h
  | cons c x ih => simp only [List.cons_append, closes, ih]

section

variable {first last : Char} (delimits : Delimits first last)
include delimits

theorem Delimits.not_mem : first ∉ "static".toList ∧ first ∉ "const".toList := by
  cases delimits <;> decide

/-- Inside of a balanced group no bracket is open at a position behind it. -/
theorem walkOut_group {x : Text} (balanced : Balanced x) (innermost : Bool) (inside back : Text) :
    walkOut (closes inside) innermost inside (last :: (x.reverse ++ first :: back)) =
      walkOut (closes (first :: (x ++ last :: inside))) innermost (first :: (x ++ last :: inside))
        back := by
  have closed (b : Text) (hb : b.countP isOpener ≤ b.countP isCloser) :
      ¬KeepsOpen (b ++ last :: inside) := by
    intro keepsOpen
    have fronts := keepsOpen (b ++ [last]) ⟨inside, by simp⟩
    have opener := isOpener_of_isCloser delimits.closer
    simp only [List.countP_append, List.countP_singleton, delimits.closer, opener, if_true,
      Bool.false_eq_true, if_false] at fronts
    omega
  have atEnd : KeepsOpen inside → isOpener last = false ∧ last ≠ ';' := fun _ =>
    ⟨isOpener_of_isCloser delimits.closer, by cases delimits <;> decide⟩
  rw [walkOut_cons atEnd, walkOut_append, walkOut_cons]
  · exact fun keepsOpen => absurd keepsOpen (closed x balanced.count.le)
  · intro a c b eq keepsOpen
    refine absurd keepsOpen (closed b ?_)
    have front := balanced.keepsOpen (a ++ [c]) ⟨b, by rw [eq]; simp⟩
    have count := balanced.count
    have parts (p : Char → Bool) : x.countP p = (a ++ [c]).countP p + b.countP p := by
      rw [eq, List.append_cons, List.countP_append]
    rw [parts, parts] at count
    omega

section

variable {x y : Text} (hx : Balanced x) (hy : Balanced y) (size : x.length = y.length)
include hx hy size

omit hx hy in
/-- The test for a declaration stops at a group. -/
theorem declarationConst?_group (a c : Text) :
    declarationConst? (a ++ first :: (x ++ last :: c)) =
      declarationConst? (a ++ first :: (y ++ last :: c)) := by
  have eq (s : Text) : declarationConst? s =
      if startsWithWord "const".toList (withoutStatic (stripLeft s)) then
        some (s.length - (withoutStatic (stripLeft s)).length) else none := rfl
  have free := delimits.not_mem
  have solid := delimits.solid.1
  rw [eq, eq, stripLeft_append_cons solid, stripLeft_append_cons solid,
    withoutStatic_append_cons solid free.1, withoutStatic_append_cons solid free.1,
    startsWithWord_append_cons free.2 (y ++ last :: c)]
  simp only [List.length_append, List.length_cons, size]

/-- Before a group, the walk sees of the group how long it is. -/
theorem alike_before (a c back : Text) :
    Alike (a ++ first :: (x ++ last :: c)) (a ++ first :: (y ++ last :: c)) back back := by
  refine ⟨closes_append_congr ?_ a, declarationConst?_group delimits size a c, ?_, rfl, rfl, rfl⟩
  · rw [closes, closes, hx.closes_append, hy.closes_append]
  · have ends (x : Text) : (stripLeft (a ++ first :: (x ++ last :: c)).reverse).head? =
        (stripLeft c.reverse ++ [last]).head? := by
      rw [show (a ++ first :: (x ++ last :: c)).reverse =
        c.reverse ++ last :: (x.reverse ++ first :: a.reverse) by simp,
        stripLeft_append_cons delimits.solid.2]
      cases stripLeft c.reverse <;> rfl
    rw [isParameterDefault_eq, isParameterDefault_eq, ends, ends]

theorem walkOut_before (innermost : Bool) (a c back : Text) :
    walkOut (closes (a ++ first :: (x ++ last :: c))) innermost (a ++ first :: (x ++ last :: c))
        back =
      walkOut (closes (a ++ first :: (y ++ last :: c))) innermost
        (a ++ first :: (y ++ last :: c)) back := by
  induction back generalizing a innermost with
  | nil =>
    rw [walkOut.eq_def, walkOut.eq_def]
    exact declarationConst?_group delimits size a c
  | cons d back ih =>
    exact (alike_before delimits hx hy size a c back).walkOut
      (fun innermost => ih innermost (d :: a)) innermost

theorem walkOut_siblings (innermost : Bool) (inside u back : Text) :
    walkOut (closes inside) innermost inside (u ++ last :: (x.reverse ++ first :: back)) =
      walkOut (closes inside) innermost inside (u ++ last :: (y.reverse ++ first :: back)) := by
  induction u generalizing inside innermost with
  | nil =>
    rw [List.nil_append, List.nil_append, walkOut_group delimits hx, walkOut_group delimits hy]
    exact walkOut_before delimits hx hy size innermost [] inside back
  | cons d u ih =>
    have lengths : (x.reverse ++ first :: back).length = (y.reverse ++ first :: back).length := by
      simp [size]
    exact (alike_behind delimits lengths u inside).walkOut (fun innermost => ih innermost _)
      innermost

end

end

/-! ## What the answer names -/

/-- No blank is a word character. -/
theorem isWord_of_isBlank {c : Char} (blank : isBlank c = true) : isWord c = false := by
  have table : ∀ r ∈ Blank.ranges, ∀ k ≤ r.2 - r.1, isWord (Char.ofNat (r.1 + k)) = false := by
    decide +kernel
  obtain ⟨r, mem, low, high⟩ := inRanges_iff.1 blank
  have at_ := table r mem (c.toNat - r.1) (by omega)
  rwa [Nat.add_sub_cancel' low, Char.ofNat_toNat] at at_

/-- A word stands at an offset of a text, and no longer word does. -/
structure WordAt (word s : Text) (n : Nat) : Prop where
  starts : startsWithWord word (s.drop n) = true
  boundary : atBoundary (s.take n).reverse = true

instance (word s : Text) (n : Nat) : Decidable (WordAt word s n) :=
  decidable_of_iff (_ ∧ _) ⟨fun ⟨a, b⟩ => ⟨a, b⟩, fun ⟨a, b⟩ => ⟨a, b⟩⟩

theorem WordAt.lt {word s : Text} {n : Nat} (h : WordAt word s n) (ne : word ≠ []) :
    n < s.length := by
  have starts := h.starts
  simp only [startsWithWord, Bool.and_eq_true, List.isPrefixOf_iff_prefix] at starts
  have size := starts.1.length_le
  have positive := List.length_pos_iff.2 ne
  rw [List.length_drop] at size
  omega

theorem constHead?_eq_some {before s : Text} {n : Nat} (h : constHead? before s = some n) :
    isConstHead (s.drop n) = true ∧ atBoundary ((s.take n).reverse ++ before) = true := by
  induction s generalizing before n with
  | nil => simp [constHead?] at h
  | cons c s ih =>
    rw [constHead?] at h
    split at h
    next here =>
      obtain rfl := Option.some.inj h
      simp only [Bool.and_eq_true] at here
      exact ⟨here.2, here.1⟩
    next =>
      obtain ⟨m, found, rfl⟩ := Option.map_eq_some_iff.1 h
      simpa using ih found

/-- The head of a constant starts with its word, and no longer word starts there. -/
theorem wordAt_constHead? {before s : Text} {n : Nat} (h : constHead? before s = some n)
    (rest : Text) : WordAt "const".toList (before.reverse ++ (s ++ rest)) (before.length + n) := by
  obtain ⟨head, boundary⟩ := constHead?_eq_some h
  have size : before.reverse.length = before.length := List.length_reverse
  unfold isConstHead at head
  split at head
  next c r eq =>
    rw [after?_eq_some_iff] at eq
    simp only [Bool.and_eq_true] at head
    have inside : n ≤ s.length := by
      by_contra! far
      rw [List.drop_of_length_le far.le] at eq
      simp at eq
    refine ⟨?_, ?_⟩
    · rw [← size, List.drop_length_add_append, List.drop_append_of_le_length inside, eq]
      simp [startsWithWord, atBoundary, isWord_of_isBlank head.1]
    · rwa [← size, List.take_length_add_append, List.take_append_of_le_length inside,
        List.reverse_append, List.reverse_reverse]
  next => contradiction

theorem wordAt_constHeadBefore? {back : Text} {n : Nat} (h : constHeadBefore? back = some n)
    (rest : Text) : WordAt "const".toList (back.reverse ++ rest) n := by
  obtain ⟨m, found, rfl⟩ := Option.map_eq_some_iff.1 h
  have word := wordAt_constHead? found rest
  rw [List.length_drop, ← List.append_assoc, ← List.reverse_append, List.take_append_drop] at word
  exact word

theorem atBoundary_blanks {s : Text} (blanks : ∀ c ∈ s, isBlank c = true) :
    atBoundary s = true := by
  cases s with
  | nil => rfl
  | cons c s => simp [atBoundary, isWord_of_isBlank (blanks c List.mem_cons_self)]

theorem exists_withoutStatic (s : Text) :
    ∃ pre, s = pre ++ withoutStatic s ∧ atBoundary pre.reverse = true := by
  unfold withoutStatic
  split
  next c rest found =>
    split
    next blank =>
      obtain ⟨pad, eq, blanks⟩ := Edit.eq_stripLeft rest
      refine ⟨"static".toList ++ c :: pad, ?_, ?_⟩
      · rw [List.append_assoc, List.cons_append, ← eq]
        exact after?_eq_some_iff.1 found
      · have all : ∀ d ∈ (c :: pad).reverse, isBlank d = true := by
          intro d hd
          rcases List.mem_cons.1 (List.mem_reverse.1 hd) with rfl | hd
          · exact blank
          · exact blanks d hd
        have gap := atBoundary_blanks all
        rw [List.reverse_append]
        cases h : (c :: pad).reverse with
        | nil => simp at h
        | cons d r => rwa [h] at gap
    next => exact ⟨[], rfl, rfl⟩
  next => exact ⟨[], rfl, rfl⟩

/-- The word of a declaration stands behind blanks, or where the text starts. -/
theorem wordAt_declarationConst? {front s : Text} {n : Nat} (stop : atBoundary front.reverse = true)
    (h : declarationConst? s = some n) : WordAt "const".toList (front ++ s) (front.length + n) := by
  obtain ⟨pad, eq, blanks⟩ := Edit.eq_stripLeft s
  obtain ⟨pre, eq', boundary⟩ := exists_withoutStatic (stripLeft s)
  have answer : (if startsWithWord "const".toList (withoutStatic (stripLeft s)) then
      some (s.length - (withoutStatic (stripLeft s)).length) else none) = some n := h
  split at answer
  next starts =>
    have split : s = (pad ++ pre) ++ withoutStatic (stripLeft s) := by
      rw [List.append_assoc, ← eq', ← eq]
    have offset : n = (pad ++ pre).length := by
      have size := congrArg List.length split
      rw [List.length_append] at size
      have value := Option.some.inj answer
      omega
    have cut : front ++ s = (front ++ (pad ++ pre)) ++ withoutStatic (stripLeft s) := by
      rw [List.append_assoc, ← split]
    rw [offset, ← List.length_append, cut]
    refine ⟨?_, ?_⟩
    · rw [List.drop_left]
      exact starts
    · rw [List.take_left, List.reverse_append, List.reverse_append, List.append_assoc]
      exact Edit.atBoundary_append boundary <|
        Edit.atBoundary_append (atBoundary_blanks (by simpa using blanks)) stop
  next => contradiction

/-- What the walk has found at a character: the head of a constant before a bracket, the bracket of
a default, or a declaration that starts behind the end of a statement or the start of a block.
Otherwise it goes on. -/
theorem walkOut_cons_eq_some {innermost : Bool} {inside back : Text} {c : Char} {n : Nat}
    (h : walkOut (closes inside) innermost inside (c :: back) = some n) :
    constHeadBefore? back = some n ∨ (c = '[' ∨ c = '{') ∧ n = back.length ∨
      isWord c = false ∧ (declarationConst? inside).map (back.length + 1 + ·) = some n ∨
      ∃ innermost', walkOut (closes (c :: inside)) innermost' (c :: inside) back = some n := by
  rw [walkOut_step] at h
  split at h
  next opener =>
    split at h
    next start found =>
      exact .inl (found.trans h)
    next =>
      split at h
      next default =>
        have opens := opener.1
        simp only [isOpener, Bool.or_eq_true, beq_iff_eq] at opens
        simp only [Bool.and_eq_true, bne_iff_ne] at default
        exact .inr (.inl ⟨by tauto, (Option.some.inj h).symm⟩)
      next =>
        split at h
        next block =>
          simp only [Bool.and_eq_true, beq_iff_eq] at block
          exact .inr (.inr (.inl ⟨by rw [block.1]; decide, h⟩))
        next => exact .inr (.inr (.inr ⟨_, h⟩))
  next =>
    split at h
    next stop => exact .inr (.inr (.inl ⟨by rw [stop.1]; decide, h⟩))
    next => exact .inr (.inr (.inr ⟨_, h⟩))

/-- **What the walk names** is the word of a constant or the bracket of a default. -/
theorem walkOut_eq_some {innermost : Bool} {inside back : Text} {n : Nat}
    (h : walkOut (closes inside) innermost inside back = some n) :
    WordAt "const".toList (back.reverse ++ inside) n ∨ (back.reverse ++ inside)[n]? = some '[' ∨
      (back.reverse ++ inside)[n]? = some '{' := by
  induction back generalizing inside innermost with
  | nil =>
    rw [walkOut.eq_def] at h
    have boundary : atBoundary ([] : Text).reverse = true := rfl
    exact .inl (by simpa using wordAt_declarationConst? boundary h)
  | cons c back ih =>
    rw [List.reverse_cons, List.append_assoc, List.singleton_append]
    rcases walkOut_cons_eq_some h with head | ⟨kind, rfl⟩ | ⟨stop, declared⟩ | ⟨_, later⟩
    · exact .inl (wordAt_constHeadBefore? head _)
    · have here : (back.reverse ++ c :: inside)[back.length]? = some c := by
        rw [List.getElem?_append_right (by simp)]
        simp
      rw [here]
      exact .inr (kind.imp (congrArg some) (congrArg some))
    · obtain ⟨m, found, rfl⟩ := Option.map_eq_some_iff.1 declared
      have boundary : atBoundary (back.reverse ++ [c]).reverse = true := by
        simp [atBoundary, stop]
      exact .inl (by simpa using wordAt_declarationConst? boundary found)
    · exact ih later

/-- **What makes a position constant is read off what stands before it.** Two balanced groups of one
length in the same parentheses or braces give the same answer behind them, whatever they hold. The
answer depends on the characters before the position alone; it is an offset among them, and there
stands the word of a constant or a bracket that is the default of a parameter. -/
theorem enclosingConst_reads_before :
    (∀ (a c x y : Text) (first last : Char), Delimits first last → Balanced x → Balanced y →
      x.length = y.length →
      enclosingConst (a ++ first :: (x ++ last :: c)) (a ++ first :: (x ++ last :: c)).length =
        enclosingConst (a ++ first :: (y ++ last :: c)) (a ++ first :: (y ++ last :: c)).length) ∧
    (∀ (s t : Text) (n : Nat), s.take n = t.take n → enclosingConst s n = enclosingConst t n) ∧
    ∀ (s : Text) (n start : Nat), enclosingConst s n = some start →
      start < n ∧ (WordAt "const".toList (s.take n) start ∨ s[start]? = some '[' ∨
        s[start]? = some '{') := by
  refine ⟨?_, ?_, ?_⟩
  · intro a c x y first last delimits hx hy size
    have back (x : Text) : (a ++ first :: (x ++ last :: c)).reverse =
        c.reverse ++ last :: (x.reverse ++ first :: a.reverse) := by
      simp
    rw [enclosingConst, enclosingConst, List.take_length, List.take_length, back, back]
    exact walkOut_siblings delimits hx hy size true [] c.reverse a.reverse
  · intro s t n eq
    rw [enclosingConst, enclosingConst, eq]
  · intro s n start h
    have named := @walkOut_eq_some true [] _ _ h
    rw [List.append_nil, List.reverse_reverse] at named
    have before : start < (s.take n).length := by
      rcases named with word | bracket | bracket
      · exact word.lt (by decide)
      · exact (List.getElem?_eq_some_iff.1 bracket).1
      · exact (List.getElem?_eq_some_iff.1 bracket).1
    rw [List.length_take] at before
    rw [List.getElem?_take_of_lt (by omega)] at named
    exact ⟨by omega, named⟩

/-- A call in a constant list, with a constant, a statement's end and a block among its arguments. -/
theorem enclosingConst_reads_before_call :
    Balanced "const [a]; \x7bb\x7d".toList ∧ Balanced "              ".toList ∧
      enclosingConst "const [f(const [a]; \x7bb\x7d), ".toList 26 =
        enclosingConst "const [f(              ), ".toList 26 ∧
      enclosingConst "const [f(const [a]; \x7bb\x7d), ".toList 26 = some 0 := by
  have balanced : Balanced "const [a]; \x7bb\x7d".toList := by decide
  have blank : Balanced "              ".toList := by decide
  have same := enclosingConst_reads_before.1 "const [f".toList ", ".toList _ _ _ _ .round balanced
    blank (by decide)
  have call : "const [f".toList ++ '(' :: ("const [a]; \x7bb\x7d".toList ++ ')' :: ", ".toList) =
      "const [f(const [a]; \x7bb\x7d), ".toList := by decide +kernel
  have blanked : "const [f".toList ++ '(' :: ("              ".toList ++ ')' :: ", ".toList) =
      "const [f(              ), ".toList := by decide +kernel
  have callSize : "const [f(const [a]; \x7bb\x7d), ".toList.length = 26 := by decide +kernel
  have blankedSize : "const [f(              ), ".toList.length = 26 := by decide +kernel
  rw [call, blanked, callSize, blankedSize] at same
  exact ⟨balanced, blank, same, by decide +kernel⟩

end Localizer.Dart
