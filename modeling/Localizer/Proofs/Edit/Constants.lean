import Localizer.Proofs.Dart.Const
import Localizer.Proofs.Dart.Mask
import Localizer.Proofs.Edit.Replace

/-!
# What is replaced is not constant

Every edit of a plan is that of a literal that stands in the buffer (`edits_of_step`,
`mem_edits_of_foldlM`), so it is one of two. Either nothing makes the literal constant, and the call
stands in its place; or the widget is written again without `const`, and then nothing makes the widget
constant, and the literal only the bracket of the widget (`own_of_constOpener`): a bracket that is open
before the head is open at the literal as well, since the head closes none.
-/

namespace Localizer.Edit

open Text Dart

/-! ## The constants around a widget -/

/-- The only bracket in the head of a constant widget is the one behind its name. -/
theorem ConstTextHead.brackets {s : Text} {head n : Nat} (h : ConstTextHead s head n) :
    ∃ name pad : Text, slice s head n = name ++ '(' :: pad ∧ name ≠ [] ∧
      (∀ c ∈ name, isOpener c = false ∧ isCloser c = false) ∧ ∀ c ∈ pad, isBlank c = true := by
  obtain ⟨gap, pad, text, -, gapBlank, padBlank⟩ := h.text
  refine ⟨"const".toList ++ gap ++ "Text".toList, pad, by rw [text]; simp, by simp, ?_, padBlank⟩
  have letters : ∀ c ∈ "const".toList ++ "Text".toList, isOpener c = false ∧ isCloser c = false := by
    decide
  intro c hc
  rcases List.mem_append.1 hc with hc | hc
  · rcases List.mem_append.1 hc with hc | hc
    · exact letters c (List.mem_append_left _ hc)
    · exact ⟨isOpener_of_isBlank (gapBlank c hc), isCloser_of_isBlank (gapBlank c hc)⟩
  · exact letters c (List.mem_append_right _ hc)

theorem ConstTextHead.no_closer {s : Text} {head n : Nat} (h : ConstTextHead s head n) :
    ∀ c ∈ slice s head n, isCloser c = false := by
  obtain ⟨name, pad, text, -, nameFree, padBlank⟩ := h.brackets
  intro c hc
  rw [text] at hc
  simp only [List.mem_append, List.mem_cons] at hc
  rcases hc with hc | rfl | hc
  · exact (nameFree c hc).2
  · decide
  · exact isCloser_of_isBlank (padBlank c hc)

/-- Masking puts in no closing bracket. -/
theorem no_closer_of_masks {s t : Text} (h : List.Forall₂ Masks s t)
    (free : ∀ c ∈ s, isCloser c = false) : ∀ m ∈ t, isCloser m = false := by
  induction h with
  | nil => simp
  | cons hc _ ih =>
    simp only [List.forall_mem_cons] at free ⊢
    refine ⟨?_, ih free.2⟩
    rcases hc.same_or_blank with rfl | rfl
    · exact free.1
    · decide

/-- A bracket before the head of a widget that makes a literal behind that head constant makes the
widget constant, too. -/
theorem ConstTextHead.constOpener {s : Text} {head n start : Nat} (textHead : ConstTextHead s head n)
    (early : start < head) (h : ConstOpener (mask s) n start) : ConstOpener (mask s) head start := by
  have lt := textHead.lt
  have rest : KeepsOpen (slice (mask s) head n) :=
    .of_forall (no_closer_of_masks (forall₂_masks_slice s head n) textHead.no_closer)
  refine ⟨early, lt.le.trans h.inside, h.opener, ?_, h.head, fun i bound later keepsOpen => ?_⟩
  · have whole := slice_append_slice (s := mask s) early lt.le
    exact (whole ▸ h.keepsOpen).of_isPrefix (List.prefix_append _ _)
  · have whole := slice_append_slice (s := mask s) (Nat.succ_le_of_lt bound) lt.le
    exact h.between i (bound.trans lt) later (whole ▸ keepsOpen.append rest)

/-- An opening bracket that is left by masking stands in the buffer. -/
theorem exists_getElem?_of_opener {s : Text} {i : Nat}
    (h : (mask s)[i]?.any isOpener = true) : ∃ c, s[i]? = some c ∧ isOpener c = true := by
  obtain ⟨c, masked, opener⟩ := (Option.any_eq_true _ _).1 h
  rcases masks_getElem? s i with ⟨-, none⟩ | ⟨d, m, stands, hm, masks⟩
  · simp [none] at masked
  · obtain rfl := Option.some.inj (hm.symm.trans masked)
    rcases masks.same_or_blank with rfl | rfl
    · exact ⟨m, stands, opener⟩
    · exact absurd opener (by decide)

/-- An opening bracket in the head of a widget is the one behind its name. -/
theorem ConstTextHead.eq_bracket {s : Text} {head n start : Nat} {c : Char}
    (h : ConstTextHead s head n) (late : head ≤ start) (before : start < n) (here : s[start]? = some c)
    (opener : isOpener c = true) :
    head < start ∧ ∃ pad, slice s start n = '(' :: pad ∧ ∀ c ∈ pad, isBlank c = true := by
  obtain ⟨name, pad, text, nameNe, nameFree, padBlank⟩ := h.brackets
  have size : (s.take start).length = start :=
    List.length_take_of_le (Nat.le_of_lt (List.getElem?_eq_some_iff.1 here).1)
  have behind : slice s start n = c :: slice s (start + 1) n := by
    rw [slice, take_eq_append_slice here before, List.drop_left' size]
  have cut : name ++ '(' :: pad = slice s head start ++ c :: slice s (start + 1) n := by
    rw [← text, ← behind, slice_append_slice late before.le]
  rcases split_append cut with ⟨cs, hname, -⟩ | ⟨cs, front, hpad⟩
  · have free := (nameFree c (by rw [hname]; simp)).1
    rw [opener] at free
    simp at free
  · cases cs with
    | nil =>
      obtain ⟨rfl, rest⟩ := List.cons.inj hpad
      refine ⟨?_, pad, by rw [behind, ← rest], padBlank⟩
      -- the name stands between the start of the head and the bracket
      have positive := List.length_pos_iff.2 nameNe
      have size := congrArg List.length front
      simp only [slice, List.length_drop, List.length_take, List.append_nil] at size
      omega
    | cons x cs =>
      obtain ⟨-, rfl⟩ := List.cons.inj hpad
      have free := isOpener_of_isBlank (padBlank c (by simp))
      rw [opener] at free
      simp at free

/-- What makes a literal constant behind the head of a widget that nothing makes constant is the
bracket of that head. -/
theorem own_of_constOpener {s : Text} {head n start : Nat} (textHead : ConstTextHead s head n)
    (unbound : enclosingConst (mask s) head = none) (h : ConstOpener (mask s) n start) :
    head < start ∧ ∃ pad, slice s start n = '(' :: pad ∧ ∀ c ∈ pad, isBlank c = true := by
  rcases Nat.lt_or_ge start head with early | late
  · have constant := enclosingConst_of_constOpener (textHead.constOpener early h)
    exact absurd unbound (Option.isSome_iff_ne_none.1 constant)
  · obtain ⟨c, here, opener⟩ := exists_getElem?_of_opener h.opener
    exact textHead.eq_bracket late h.before here opener

/-! ## The edits of a plan -/

/-- An edit that takes a literal out of no constant: nothing makes the literal constant, or nothing
makes the widget constant that is written again without `const`, and the literal only the bracket of
the widget. -/
structure OutsideConstants (l : Localizations) (s : Text) (r : Replacement) (e : Edit) : Prop where
  stands : r.Stands s
  stop : e.stop = r.stop
  constants :
    (e.start = r.offset ∧ e.text = l.accessor r.key r.arguments ∧
      ∀ start, ¬ConstOpener (mask s) r.offset start) ∨
    (ConstTextHead s e.start r.offset ∧
      e.text = "Text(".toList ++ l.accessor r.key r.arguments ∧
      (∀ start, ¬ConstOpener (mask s) e.start start) ∧
      ∀ start, ConstOpener (mask s) r.offset start → e.start < start ∧
        ∃ pad, slice s start r.offset = '(' :: pad ∧ ∀ c ∈ pad, isBlank c = true)

section

variable {l : Localizations} {s : Text}

theorem not_constOpener {s : Text} {n : Nat} (free : enclosingConst (mask s) n = none)
    (start : Nat) : ¬ConstOpener (mask s) n start := by
  intro constant
  have answer := enclosingConst_of_constOpener constant
  rw [free] at answer
  exact absurd answer (by simp)

theorem outsideConstants_of_editOf {claimed : Nat} {site : Site} {e : Edit} (hsite : site.In s)
    (stands : site.replacement.Stands s) (inside : site.replacement.offset ≤ s.length)
    (h : editOf l claimed site = some e) : OutsideConstants l s site.replacement e := by
  rcases editOf_cases hsite h with ⟨free, rfl⟩ | ⟨head, hhead, -, -, unbound, rfl⟩
  · exact ⟨stands, rfl, .inl ⟨rfl, rfl, not_constOpener free⟩⟩
  · have textHead := constTextHead_of_eq_some inside hhead
    exact ⟨stands, rfl, .inr ⟨textHead, rfl, not_constOpener unbound,
      fun _ => own_of_constOpener textHead unbound⟩⟩

/-- A step adds no edit, or that of a literal that stands in the buffer. -/
theorem edits_of_step {p q : Progress} {site : Site} (hsite : site.In s)
    (h : step l p site = .ok q) : q.edits = p.edits ∨
      ∃ e, q.edits = p.edits ++ [e] ∧ editOf l p.claimed site = some e ∧
        site.replacement.Stands s ∧ site.replacement.offset ≤ s.length := by
  have offset : site.place.offset = min site.replacement.offset s.length := by rw [hsite]; rfl
  simp only [step] at h
  split at h
  next =>
    obtain rfl := Except.ok.inj h
    exact .inl rfl
  next stands =>
    rw [ne_eq, not_not, stands_iff hsite] at stands
    split at h
    next =>
      obtain rfl := Except.ok.inj h
      exact .inl rfl
    next =>
      split at h
      next => simp at h
      next inside =>
        split at h
        next e hedit =>
          obtain rfl := Except.ok.inj h
          exact .inr ⟨e, rfl, hedit, stands, by omega⟩
        next =>
          obtain rfl := Except.ok.inj h
          exact .inl rfl

/-- The walk over sites adds such edits only. -/
theorem mem_edits_of_foldlM {sites : List Site} (hs : ∀ site ∈ sites, site.In s) {p q : Progress}
    (h : sites.foldlM (step l) p = .ok q) {e : Edit} (he : e ∈ q.edits) :
    e ∈ p.edits ∨ ∃ site ∈ sites, OutsideConstants l s site.replacement e := by
  induction sites generalizing p with
  | nil =>
    obtain rfl := Except.ok.inj h
    exact .inl he
  | cons site rest ih =>
    rw [List.foldlM_cons] at h
    cases hstep : step l p site with
    | error => simp [hstep, bind, Except.bind] at h
    | ok p' =>
      rw [hstep] at h
      have hsite := hs site (by simp)
      rcases ih (fun x hx => hs x (by simp [hx])) h with mem | ⟨x, hx, outside⟩
      · rcases edits_of_step hsite hstep with same | ⟨d, added, hedit, stands, inside⟩
        · exact .inl (same ▸ mem)
        · rw [added, List.mem_append, List.mem_singleton] at mem
          rcases mem with mem | rfl
          · exact .inl mem
          · exact .inr ⟨site, by simp, outsideConstants_of_editOf hsite stands inside hedit⟩
      · exact .inr ⟨x, by simp [hx], outside⟩

/-- Every edit of a plan takes the literal of a given replacement out of no constant. -/
theorem outsideConstants_of_mem_plan {rs : List Replacement} {p : Progress}
    (h : plan l s rs = .ok p) {e : Edit} (he : e ∈ p.edits) :
    ∃ r ∈ rs, OutsideConstants l s r e := by
  rcases mem_edits_of_foldlM (fun _ hx => (mem_sites hx).1) h he with mem | ⟨site, hsite, outside⟩
  · simp at mem
  · exact ⟨_, (mem_sites hsite).2, outside⟩

/-- The outcome of replacing is that of the edits of a plan. -/
theorem plan_of_replace {rs : List Replacement} {o : Outcome} (h : l.replace s rs = .ok o) :
    ∃ p, plan l s rs = .ok p ∧ o.replaced = p.edits.length ∧
      Wired l (applyAll (Message.ofText s) p.edits) o.content := by
  cases hplan : plan l s rs with
  | error => simp [Localizations.replace, hplan, bind, Except.bind] at h
  | ok p =>
    simp only [Localizations.replace, hplan, bind, Except.bind, pure, Except.pure] at h
    refine ⟨p, rfl, ?_⟩
    split at h
    next empty =>
      obtain rfl := Except.ok.inj h
      rw [List.isEmpty_iff] at empty
      refine ⟨by rw [empty]; rfl, _, .inl ?_, .inl rfl⟩
      simp [empty, applyAll_eq_foldl, lastFirst, Outcome.unchanged]
    next =>
      obtain rfl := Except.ok.inj h
      exact ⟨rfl, wired_wire l _ p⟩

end

/-- **A constant call or collection is found through any depth of nesting**: if a bracket makes a
position constant, the walk outwards from it has an answer. **So nothing is replaced in one**: the
content of an outcome is the buffer with the edits of a plan applied to it, and wired; and every edit
is that of a given literal, which no bracket makes constant if the call stands alone in its place, and
only the bracket of its own widget if the widget is written again. -/
theorem replace_outside_constants :
    (∀ masked position start, ConstOpener masked position start →
      ∃ found, enclosingConstAt masked position = .ok (some found)) ∧
    ∀ (l : Localizations) (s : Text) (rs : List Replacement) (o : Outcome),
      l.replace s rs = .ok o → ∃ p, plan l s rs = .ok p ∧ o.replaced = p.edits.length ∧
        Wired l (applyAll (Message.ofText s) p.edits) o.content ∧
        ∀ e ∈ p.edits, ∃ r ∈ rs, OutsideConstants l s r e := by
  constructor
  · intro masked position start constant
    obtain ⟨found, hfound⟩ := Option.isSome_iff_exists.1 (enclosingConst_of_constOpener constant)
    refine ⟨found, ?_⟩
    rw [enclosingConstAt, if_neg (Nat.not_lt.2 constant.inside), hfound]
  · intro l s rs o h
    obtain ⟨p, hplan, count, wired⟩ := plan_of_replace h
    exact ⟨p, hplan, count, wired, fun e he => outsideConstants_of_mem_plan hplan he⟩

/-- A buffer with a literal deep in a constant call, one in a constant widget and one in neither. -/
def nested : Text :=
  "f() => [const A(b: [B(c: \x7b1: Text('Hi')\x7d)]), const Text('Yo'), Text('No')];".toList

/-- Its literals. -/
def nestedLiterals : List Replacement :=
  [⟨"'Hi'".toList, 34, .text, "hi".toList, []⟩, ⟨"'Yo'".toList, 56, .text, "yo".toList, []⟩,
   ⟨"'No'".toList, 68, .text, "no".toList, []⟩]

/-- The plan for them. -/
def nestedPlan : Progress :=
  { edits := [⟨45, 60, Message.ofText "Text(L.of(context).yo".toList⟩,
      ⟨68, 72, Message.ofText "L.of(context).no".toList⟩]
    skippedConst := 1
    claimed := 72 }

theorem replace_outside_constants_nested :
    ConstOpener (mask nested) 34 15 ∧
      (∃ found, enclosingConstAt (mask nested) 34 = .ok (some found)) ∧
      plan ⟨"L".toList, none⟩ nested nestedLiterals = .ok nestedPlan ∧
      ∃ o, Localizations.replace ⟨"L".toList, none⟩ nested nestedLiterals = .ok o ∧
        o.replaced = 2 ∧
        Wired ⟨"L".toList, none⟩ (applyAll (Message.ofText nested) nestedPlan.edits) o.content ∧
        ∀ e ∈ nestedPlan.edits, ∃ r ∈ nestedLiterals,
          OutsideConstants ⟨"L".toList, none⟩ nested r e := by
  have constant : ConstOpener (mask nested) 34 15 := by decide +kernel
  have planned : plan ⟨"L".toList, none⟩ nested nestedLiterals = .ok nestedPlan := by
    rw [plan, sites_of_ordered nested (by decide)]
    decide +kernel
  have some : ∀ r ∈ nestedLiterals, r.literal ≠ [] := by decide
  obtain ⟨_, -, -, replaced⟩ := replace_eq_ok ⟨"L".toList, none⟩ nested some
  obtain ⟨p, hp, count, wired, outside⟩ := replace_outside_constants.2 _ _ _ _ replaced
  obtain rfl := Except.ok.inj (planned.symm.trans hp)
  exact ⟨constant, replace_outside_constants.1 _ _ _ constant, planned, _, replaced, count, wired,
    outside⟩

end Localizer.Edit
