import Localizer.Dart.Const
import Localizer.Proofs.Dart.Bracket

/-!
# Walking outwards

The walk for the `const` that governs a position carries as its depth the number of groups that the
text behind it closes (`closes`), so that it stops at a character just if that text keeps open what
is open before it. Past any other character it goes on with the same answer (`walkOut_append`), and
past an open bracket it goes on unless that one answers (`walkOut_past`). So it comes to every open
bracket between which and the position nothing ends the walk, and if such a bracket has the head of
a constant before it (`ConstOpener`), there is an answer (`enclosingConst_of_constOpener`).
-/

namespace Localizer.Dart

open Text

section

variable {inside back passed : Text} {innermost : Bool}

/-- A closing bracket begins a group. -/
theorem walkOut_closer {c : Char} (closer : isCloser c = true) (depth : Nat) :
    walkOut depth innermost inside (c :: back) =
      walkOut (depth + 1) innermost (c :: inside) back := by
  rw [isCloser] at closer
  rw [walkOut.eq_def]
  exact if_pos closer

/-- An opening bracket ends the group that is open, if there is one. -/
theorem walkOut_opener_succ {c : Char} (opener : isOpener c = true) (depth : Nat) :
    walkOut (depth + 1) innermost inside (c :: back) =
      walkOut depth innermost (c :: inside) back := by
  have closer := isCloser_of_isOpener opener
  rw [isOpener] at opener
  rw [isCloser] at closer
  rw [walkOut, closer, opener]
  rfl

theorem walkOut_other {c : Char} {depth : Nat} (closer : isCloser c = false)
    (opener : isOpener c = false) (stop : c = ';' → depth ≠ 0) :
    walkOut depth innermost inside (c :: back) = walkOut depth innermost (c :: inside) back := by
  have goesOn : (c == ';' && depth == 0) = false := by
    by_contra ends
    simp only [Bool.not_eq_false, Bool.and_eq_true, beq_iff_eq] at ends
    exact stop ends.1 ends.2
  rw [isOpener] at opener
  rw [isCloser] at closer
  rw [walkOut.eq_def]
  simp only [closer, opener, goesOn, Bool.false_eq_true, ↓reduceIte]

/-- The walk goes past a character inside of a group, or past one that is neither an opening bracket
nor the end of a statement. -/
theorem walkOut_cons {c : Char} (outside : KeepsOpen inside → isOpener c = false ∧ c ≠ ';') :
    walkOut (closes inside) innermost inside (c :: back) =
      walkOut (closes (c :: inside)) innermost (c :: inside) back := by
  rw [← closes_eq_zero_iff] at outside
  cases closer : isCloser c with
  | true => rw [walkOut_closer closer, closes, if_pos closer]
  | false =>
    rw [closes, if_neg (by simp [closer])]
    cases opener : isOpener c with
    | true =>
      cases depth : closes inside with
      | zero => simp [(outside depth).1] at opener
      | succ n => exact walkOut_opener_succ opener n
    | false => exact walkOut_other closer opener fun stop depth => (outside depth).2 stop

variable (innermost back) in
/-- The walk goes past a text in which no bracket is open at the position and no statement ends. -/
theorem walkOut_append
    (outside : ∀ a c b, passed = a ++ c :: b → KeepsOpen (b ++ inside) →
      isOpener c = false ∧ c ≠ ';') :
    walkOut (closes inside) innermost inside (passed.reverse ++ back) =
      walkOut (closes (passed ++ inside)) innermost (passed ++ inside) back := by
  induction passed using List.reverseRecOn generalizing inside back with
  | nil => rfl
  | append_singleton passed c ih =>
    rw [List.reverse_append, List.reverse_singleton, List.singleton_append, List.cons_append,
      walkOut_cons (by exact outside passed c [] rfl), ih, List.append_assoc, List.singleton_append]
    intro a d b eq keepsOpen
    refine outside a d (b ++ [c]) (by rw [eq]; simp) ?_
    rwa [List.append_assoc, List.singleton_append]

/-- What the walk does at a bracket that is open at the position. -/
theorem walkOut_opener {c : Char} (opener : isOpener c = true) (keepsOpen : KeepsOpen inside) :
    walkOut (closes inside) innermost inside (c :: back) =
      match constHeadBefore? back with
      | some start => some start
      | none =>
        if innermost && c != '(' && isParameterDefault back inside then some back.length
        else if c == '{' && opensBlock back then
          (declarationConst? inside).map (back.length + 1 + ·)
        else walkOut (closes (c :: inside)) false (c :: inside) back := by
  have depth := closes_eq_zero_iff.2 keepsOpen
  have closer := isCloser_of_isOpener opener
  have depth' : closes (c :: inside) = 0 := by simp [closes, closer, opener, depth]
  rw [isCloser] at closer
  rw [isOpener] at opener
  rw [depth, depth', walkOut]
  exact (if_neg (by simp [closer])).trans (if_pos opener)

/-- At such a bracket the walk has an answer or goes on, unless it ends at a block. -/
theorem walkOut_opener_goesOn {c : Char} (opener : isOpener c = true) (keepsOpen : KeepsOpen inside)
    (noBlock : ¬(c = '{' ∧ opensBlock back = true)) :
    (walkOut (closes inside) innermost inside (c :: back)).isSome ∨
      walkOut (closes inside) innermost inside (c :: back) =
        walkOut (closes (c :: inside)) false (c :: inside) back := by
  rw [walkOut_opener opener keepsOpen]
  split
  next => exact .inl rfl
  next =>
    split
    next => exact .inl rfl
    next =>
      rw [if_neg (by simpa using noBlock)]
      exact .inr rfl

variable (innermost) in
/-- The walk has an answer or goes past a text in which nothing ends it. -/
theorem walkOut_past
    (outside : ∀ a c b, passed = a ++ c :: b → KeepsOpen (b ++ inside) →
      c ≠ ';' ∧ ¬(c = '{' ∧ opensBlock (a.reverse ++ back) = true)) :
    (walkOut (closes inside) innermost inside (passed.reverse ++ back)).isSome ∨
      ∃ innermost', walkOut (closes inside) innermost inside (passed.reverse ++ back) =
        walkOut (closes (passed ++ inside)) innermost' (passed ++ inside) back := by
  induction passed using List.reverseRecOn generalizing inside innermost with
  | nil => exact .inr ⟨innermost, rfl⟩
  | append_singleton passed c ih =>
    have rest : ∀ a d b, passed = a ++ d :: b → KeepsOpen (b ++ c :: inside) →
        d ≠ ';' ∧ ¬(d = '{' ∧ opensBlock (a.reverse ++ back) = true) := by
      intro a d b eq keepsOpen
      refine outside a d (b ++ [c]) (by rw [eq]; simp) ?_
      rwa [List.append_assoc, List.singleton_append]
    rw [List.reverse_append, List.reverse_singleton, List.singleton_append, List.cons_append,
      List.append_assoc, List.singleton_append]
    by_cases here : isOpener c = true ∧ KeepsOpen inside
    · rcases walkOut_opener_goesOn here.1 here.2 (outside passed c [] rfl here.2).2 with answer | eq
      · exact .inl answer
      · rw [eq]
        exact ih false rest
    · have goesOn : KeepsOpen inside → isOpener c = false ∧ c ≠ ';' := fun keepsOpen =>
        ⟨Bool.eq_false_iff.2 fun opener => here ⟨opener, keepsOpen⟩,
          (outside passed c [] rfl keepsOpen).1⟩
      rw [walkOut_cons goesOn]
      exact ih innermost rest

end

/-! ## Constant calls and collections -/

/-- A bracket at `start` of a masked buffer that makes a position constant: it is open there, the
head of a constant ends at it, and nothing between it and the position ends what it encloses, be it a
brace that opens a block and is open there, too, or the end of a statement outside of the groups that
are closed there. -/
structure ConstOpener (masked : Text) (position start : Nat) : Prop where
  before : start < position
  inside : position ≤ masked.length
  opener : masked[start]?.any isOpener = true
  keepsOpen : KeepsOpen (slice masked (start + 1) position)
  head : (constHeadBefore? (masked.take start).reverse).isSome = true
  between : ∀ i < position, start < i → KeepsOpen (slice masked (i + 1) position) →
    masked[i]? ≠ some ';' ∧
      ¬(masked[i]? = some '{' ∧ opensBlock (masked.take i).reverse = true)

instance (masked : Text) (position start : Nat) : Decidable (ConstOpener masked position start) :=
  decidable_of_iff (start < position ∧ position ≤ masked.length ∧
      masked[start]?.any isOpener = true ∧ KeepsOpen (slice masked (start + 1) position) ∧
      (constHeadBefore? (masked.take start).reverse).isSome = true ∧
      ∀ i < position, start < i → KeepsOpen (slice masked (i + 1) position) →
        masked[i]? ≠ some ';' ∧
          ¬(masked[i]? = some '{' ∧ opensBlock (masked.take i).reverse = true))
    ⟨fun ⟨a, b, c, d, e, f⟩ => ⟨a, b, c, d, e, f⟩, fun ⟨a, b, c, d, e, f⟩ => ⟨a, b, c, d, e, f⟩⟩

/-- A buffer up to a position behind one of its characters. -/
theorem take_eq_append_slice {s : Text} {i n : Nat} {c : Char} (h : s[i]? = some c) (hi : i < n) :
    s.take n = s.take i ++ c :: slice s (i + 1) n := by
  have here : (s.take n)[i]? = some c := by rw [List.getElem?_take_of_lt hi, h]
  have cut := List.take_append_drop i (s.take n)
  rw [List.drop_eq_getElem?_toList_append, here, List.take_take, Nat.min_eq_left (by omega)] at cut
  exact cut.symm

/-- Conversely, where a character of a buffer stands, by what comes before it. -/
theorem of_take_eq_append {s x b : Text} {n : Nat} {c : Char} (h : s.take n = x ++ c :: b) :
    x.length < n ∧ s[x.length]? = some c ∧ s.take x.length = x ∧ slice s (x.length + 1) n = b := by
  have bound : x.length < n := by
    have size := congrArg List.length h
    simp only [List.length_take, List.length_append, List.length_cons] at size
    omega
  refine ⟨bound, ?_, ?_, ?_⟩
  · rw [← List.getElem?_take_of_lt bound, h]
    simp
  · rw [← Nat.min_eq_left (Nat.le_of_lt bound), ← List.take_take, h]
    simp
  · rw [slice, h]
    simp

/-- **The walk finds what encloses a position**, however deep it lies. -/
theorem enclosingConst_of_constOpener {masked : Text} {position start : Nat}
    (h : ConstOpener masked position start) : (enclosingConst masked position).isSome := by
  obtain ⟨c, hc, opener⟩ := (Option.any_eq_true _ _).1 h.opener
  have front := take_eq_append_slice hc h.before
  have back : (masked.take position).reverse =
      (slice masked (start + 1) position).reverse ++ c :: (masked.take start).reverse := by
    rw [front]
    simp
  rw [enclosingConst, back, constBefore?]
  -- the walk has an answer before it comes to the bracket, or has one there
  have outside : ∀ a d b, slice masked (start + 1) position = a ++ d :: b → KeepsOpen (b ++ []) →
      d ≠ ';' ∧ ¬(d = '{' ∧ opensBlock (a.reverse ++ c :: (masked.take start).reverse) = true) := by
    intro a d b eq keepsOpen
    rw [eq, ← List.cons_append, ← List.append_assoc] at front
    obtain ⟨bound, here, upTo, behind⟩ := of_take_eq_append front
    have size : (masked.take start).length = start := List.length_take_of_le <|
      (Nat.le_of_lt h.before).trans h.inside
    have later : start < (masked.take start ++ c :: a).length := by
      rw [List.length_append, size]
      simp
    have ends := h.between _ bound later (by rwa [behind, ← List.append_nil b])
    rw [here, upTo] at ends
    simpa using ends
  have past := walkOut_past true outside
  rw [List.append_nil] at past
  rcases past with answer | ⟨innermost', eq⟩
  · exact answer
  · change (walkOut (closes []) true [] _).isSome
    rw [eq]
    obtain ⟨found, hfound⟩ := Option.isSome_iff_exists.1 h.head
    simp [walkOut_opener opener h.keepsOpen, hfound]

end Localizer.Dart
