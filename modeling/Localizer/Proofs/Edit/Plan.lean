import Localizer.Edit.Replacement
import Localizer.Proofs.Edit.Substitution
import Mathlib.Data.List.TakeWhile

/-!
# Which replacements get an edit

The walk over the replacements keeps the end of the last edit as a watermark. `granted` lists, for
a watermark and the sites still to come, the replacements that get an edit together with it; the
walk gathers just these (`plan_eq_granted`). From that list all that is known of a plan is read
off:

* every edit belongs to a replacement whose literal stands in the buffer, ends where the literal
  ends, and starts at the literal or at the head of the constant `Text` widget around it
  (`fits_of_mem_granted`);
* the edits are in order, because each starts behind the watermark and moves it to its own end
  (`inOrder_granted`);
* no replacement gets two edits (`granted_subperm`);
* a literal that stands outside of constant expressions is taken, if not by its own edit then by
  one that it overlaps, and so is any other that is not counted as skipped (`exists_grantedIn_at`,
  `exists_grantedIn_or_mem_skipped`).
-/

namespace Localizer.Edit

open Text Dart

/-! ## The head of a constant widget -/

/-- From `start` to `stop` a buffer holds, on one line, the head of a constant `Text` widget: the
word `const`, blanks, `Text(` and possibly blanks. -/
structure ConstTextHead (s : Text) (start stop : Nat) : Prop where
  text : ∃ gap pad : Text, slice s start stop = "const".toList ++ gap ++ "Text(".toList ++ pad ∧
    gap ≠ [] ∧ (∀ c ∈ gap, isBlank c = true) ∧ ∀ c ∈ pad, isBlank c = true
  line : '\n' ∉ slice s start stop
  word : atBoundary (s.take start).reverse = true

theorem ConstTextHead.lt {s : Text} {start stop : Nat} (h : ConstTextHead s start stop) :
    start < stop := by
  obtain ⟨gap, pad, eq, -⟩ := h.text
  have length := congrArg List.length eq
  simp [slice] at length
  omega

theorem eq_of_endsInWord {word back : Text} (h : endsInWord word back = true) :
    ∃ rest, back = word.reverse ++ rest ∧ atBoundary rest = true := by
  simp only [endsInWord, Bool.and_eq_true, List.isPrefixOf_iff_prefix] at h
  obtain ⟨⟨rest, rfl⟩, boundary⟩ := h
  refine ⟨rest, rfl, ?_⟩
  rwa [List.drop_left' (by simp)] at boundary

theorem eq_stripLeft (s : Text) :
    ∃ pad, s = pad ++ stripLeft s ∧ ∀ c ∈ pad, isBlank c = true :=
  ⟨s.takeWhile isBlank, List.takeWhile_append_dropWhile.symm, fun _ h => List.mem_takeWhile_imp h⟩

/-- What stands before a line of a buffer, read backwards, starts with no word character. -/
theorem atBoundary_dropWhile_line (back : Text) :
    atBoundary (back.dropWhile (· != '\n')) = true := by
  have newline : isWord '\n' = false := by decide +kernel
  cases h : back.dropWhile (· != '\n') with
  | nil => rfl
  | cons c r =>
    have head := List.head_dropWhile_not (· != '\n') (l := back) (by simp [h])
    simp only [h, List.head_cons, bne_eq_false_iff_eq] at head
    simp [atBoundary, head, newline]

theorem atBoundary_append {a b : Text} (ha : atBoundary a = true) (hb : atBoundary b = true) :
    atBoundary (a ++ b) = true := by
  cases a with
  | nil => exact hb
  | cons c r => simpa [atBoundary] using ha

/-- The line before a place, read backwards, when a head is found in it. -/
theorem lineBack_of_constTextHead? {p : Place Char} {head : Nat}
    (h : constTextHead? p = some head) :
    ∃ pad gap rest : Text, p.lineBack = pad ++ ("Text(".toList.reverse ++
        (gap ++ ("const".toList.reverse ++ rest))) ∧ gap ≠ [] ∧
      (∀ c ∈ gap, isBlank c = true) ∧ (∀ c ∈ pad, isBlank c = true) ∧ atBoundary rest = true ∧
      head = p.offset - p.lineBack.length + rest.length := by
  unfold constTextHead? at h
  split at h
  next c r hafter =>
    dsimp only at h
    split at h
    next hc =>
      obtain ⟨cBlank, hword⟩ := Bool.and_eq_true_iff.1 hc
      obtain ⟨pad, hpad, padBlank⟩ := eq_stripLeft p.lineBack
      obtain ⟨gap, hgap, gapBlank⟩ := eq_stripLeft r
      obtain ⟨rest, hrest, boundary⟩ := eq_of_endsInWord hword
      rw [after?_eq_some_iff.1 hafter, hgap, hrest] at hpad
      refine ⟨pad, c :: gap, rest, by simpa using hpad, by simp, ?_, padBlank, boundary, ?_⟩
      · intro d hd
        rcases List.mem_cons.1 hd with rfl | hd
        · exact cBlank
        · exact gapBlank d hd
      · rw [hrest, Option.some.injEq] at h
        rw [← h, show "const".length = 5 from rfl]
        simp
        omega
    next => simp at h
  next => simp at h

/-- The head that is found before a place of a buffer does stand there. -/
theorem constTextHead_of_eq_some {s : Text} {n head : Nat} (hn : n ≤ s.length)
    (h : constTextHead? (.of s n) = some head) : ConstTextHead s head n := by
  obtain ⟨pad, gap, rest, line, gapNe, gapBlank, padBlank, boundary, offset⟩ :=
    lineBack_of_constTextHead? h
  let before := (s.take n).reverse.dropWhile (· != '\n')
  have cut : (s.take n).reverse = (Place.of s n).lineBack ++ before :=
    List.takeWhile_append_dropWhile.symm
  have front : s.take n = (rest ++ before).reverse ++
      ("const".toList ++ gap.reverse ++ "Text(".toList ++ pad.reverse) := by
    rw [← List.reverse_reverse (s.take n), cut, line]
    simp [List.append_assoc]
  have start : (rest ++ before).reverse.length = head := by
    have size := congrArg List.length cut
    have place : (Place.of s n).offset = n := Nat.min_eq_left hn
    rw [offset, place]
    simp only [List.length_reverse, List.length_take, List.length_append,
      Nat.min_eq_left hn] at size ⊢
    omega
  have text : slice s head n =
      "const".toList ++ gap.reverse ++ "Text(".toList ++ pad.reverse := by
    rw [slice, front, List.drop_left' start]
  have first : s.take head = (rest ++ before).reverse := by
    have bound : head ≤ n := by
      have size := congrArg List.length front
      rw [List.length_append, start, List.length_take, Nat.min_eq_left hn] at size
      omega
    rw [← Nat.min_eq_left bound, ← List.take_take, front, List.take_left' start]
  refine ⟨⟨gap.reverse, pad.reverse, text, by simpa using gapNe, ?_, ?_⟩, ?_, ?_⟩
  · intro c hc
    exact gapBlank c (List.mem_reverse.1 hc)
  · intro c hc
    exact padBlank c (List.mem_reverse.1 hc)
  · intro mem
    have inLine : '\n' ∈ (Place.of s n).lineBack := by
      rw [text] at mem
      rw [line]
      simp only [List.mem_append, List.mem_reverse] at mem ⊢
      tauto
    simpa using List.mem_takeWhile_imp inLine
  · rw [first, List.reverse_reverse]
    exact atBoundary_append boundary (atBoundary_dropWhile_line _)

/-! ## Edits that fit -/

/-- The offset just after the literal of a replacement. -/
def Replacement.stop (r : Replacement) : Nat := r.offset + r.literal.length

/-- The literal of a replacement stands at its offset. -/
def Replacement.Stands (s : Text) (r : Replacement) : Prop := slice s r.offset r.stop = r.literal

/-- An edit puts the call of a replacement in the place of its literal, or of its literal with the
head of the constant `Text` widget before it, which is then written again without `const`. -/
structure Fits (l : Localizations) (s : Text) (r : Replacement) (e : Edit) : Prop where
  stands : r.Stands s
  stop : e.stop = r.stop
  start : (e.start = r.offset ∧ e.text = l.accessor r.key r.arguments) ∨
    (ConstTextHead s e.start r.offset ∧
      e.text = "Text(".toList ++ l.accessor r.key r.arguments)

/-- A site of a buffer: the places of a replacement are those at its offset. -/
def Site.In (s : Text) (site : Site) : Prop :=
  site = ⟨.of s site.replacement.offset, .of (mask s) site.replacement.offset, site.replacement⟩

theorem slice_eq_take_drop (s : Text) (r : Replacement) :
    slice s r.offset r.stop = (s.drop r.offset).take r.literal.length := by
  rw [slice, List.drop_take, Replacement.stop, Nat.add_sub_cancel_left]

/-- A literal that is not empty lies in the buffer that it stands in. -/
theorem Replacement.Stands.stop_le {s : Text} {r : Replacement} (h : r.Stands s)
    (ne : r.literal ≠ []) : r.stop ≤ s.length := by
  have length := congrArg List.length h
  have positive := List.length_pos_iff.2 ne
  simp only [slice, List.length_drop, List.length_take] at length
  simp only [Replacement.stop] at *
  omega

/-- An edit puts the call in the place of a literal outside of constants, or writes the widget again
whose head before the literal is the only constant around it. -/
theorem editOf_cases {l : Localizations} {s : Text} {claimed : Nat} {site : Site} {e : Edit}
    (hsite : site.In s) (h : editOf l claimed site = some e) :
    let r := site.replacement
    (enclosingConst (mask s) r.offset = none ∧
      e = ⟨r.offset, r.stop, l.accessor r.key r.arguments⟩) ∨
    ∃ head, constTextHead? (.of s r.offset) = some head ∧ claimed ≤ head ∧
      enclosingConst (mask s) r.offset = some head ∧ enclosingConst (mask s) head = none ∧
      e = ⟨head, r.stop, "Text(".toList ++ l.accessor r.key r.arguments⟩ := by
  intro r
  have masked : site.masked = .of (mask s) r.offset := by rw [hsite]
  have place : site.place = .of s r.offset := by rw [hsite]
  simp only [editOf, masked, place, Place.moveTo_of] at h
  split at h
  next governed => exact .inl ⟨governed, (Option.some.inj h).symm⟩
  next const governed =>
    split at h
    next => simp at h
    next head hhead =>
      split at h
      next fit =>
        obtain ⟨rfl, free, unbound⟩ := fit
        split at hhead
        next => exact .inr ⟨head, hhead, free, governed, unbound, (Option.some.inj h).symm⟩
        next => simp at hhead
      next => simp at h

/-- The edit of a site at which its literal stands fits, and starts behind the watermark. -/
theorem fits_of_editOf {l : Localizations} {s : Text} {claimed : Nat} {site : Site} {e : Edit}
    (hsite : site.In s) (stands : site.replacement.Stands s) (ne : site.replacement.literal ≠ [])
    (free : claimed ≤ site.replacement.offset) (h : editOf l claimed site = some e) :
    Fits l s site.replacement e ∧ claimed ≤ e.start := by
  have inside : site.replacement.offset ≤ s.length :=
    Nat.le_trans (Nat.le_add_right _ _) (stands.stop_le ne)
  rcases editOf_cases hsite h with ⟨-, rfl⟩ | ⟨head, hhead, free, -, -, rfl⟩
  · exact ⟨⟨stands, rfl, .inl ⟨rfl, rfl⟩⟩, free⟩
  · exact ⟨⟨stands, rfl, .inr ⟨constTextHead_of_eq_some inside hhead, rfl⟩⟩, free⟩

theorem Fits.start_le {l : Localizations} {s : Text} {r : Replacement} {e : Edit}
    (h : Fits l s r e) : e.start ≤ r.offset := by
  rcases h.start with ⟨start, -⟩ | ⟨head, -⟩
  · exact Nat.le_of_eq start
  · exact Nat.le_of_lt head.lt

theorem Fits.inside {l : Localizations} {s : Text} {r : Replacement} {e : Edit}
    (h : Fits l s r e) (ne : r.literal ≠ []) : e.start < e.stop ∧ e.stop ≤ s.length := by
  have positive := List.length_pos_iff.2 ne
  have start := h.start_le
  refine ⟨?_, h.stop ▸ h.stands.stop_le ne⟩
  rw [h.stop, Replacement.stop]
  omega

/-! ## The replacements that get an edit -/

/-- The replacements of sites that get an edit, with their edits; `claimed` is the end of the last
edit before them. -/
def granted (l : Localizations) : (claimed : Nat) → List Site → List (Replacement × Edit)
  | _, [] => []
  | claimed, site :: rest =>
    let r := site.replacement
    if site.place.rest.take r.literal.length = r.literal ∧ claimed ≤ r.offset then
      match editOf l claimed site with
      | some e => (r, e) :: granted l r.stop rest
      | none => granted l claimed rest
    else granted l claimed rest

/-- The replacements of sites that stay because they are constant. -/
def skipped (l : Localizations) : (claimed : Nat) → List Site → List Replacement
  | _, [] => []
  | claimed, site :: rest =>
    let r := site.replacement
    if site.place.rest.take r.literal.length = r.literal ∧ claimed ≤ r.offset then
      match editOf l claimed site with
      | some _ => skipped l r.stop rest
      | none => r :: skipped l claimed rest
    else skipped l claimed rest

section

variable {l : Localizations} {s : Text}

theorem stands_iff {site : Site} (h : site.In s) :
    site.place.rest.take site.replacement.literal.length = site.replacement.literal ↔
      site.replacement.Stands s := by
  have rest : site.place.rest = s.drop site.replacement.offset := by rw [h]; rfl
  rw [rest, Replacement.Stands, slice_eq_take_drop]

theorem offset_le_of_stands {site : Site} (h : site.In s) (stands : site.replacement.Stands s)
    (ne : site.replacement.literal ≠ []) : ¬ site.place.offset < site.replacement.offset := by
  have offset : site.place.offset = min site.replacement.offset s.length := by rw [h]; rfl
  have stop := stands.stop_le ne
  simp only [Replacement.stop] at stop
  omega

/-- The walk over sites gathers the edits that are granted, counts what is skipped, and never
fails. -/
theorem foldlM_step_eq_granted {sites : List Site} (p : Progress)
    (hs : ∀ site ∈ sites, site.In s ∧ site.replacement.literal ≠ []) :
    ∃ p', sites.foldlM (step l) p = .ok p' ∧
      p'.edits = p.edits ++ (granted l p.claimed sites).map Prod.snd ∧
      p'.skippedConst = p.skippedConst + (skipped l p.claimed sites).length := by
  induction sites generalizing p with
  | nil => exact ⟨p, rfl, by simp [granted], by simp [skipped]⟩
  | cons site rest ih =>
    obtain ⟨hin, ne⟩ := hs site (by simp)
    have hrest : ∀ x ∈ rest, x.In s ∧ x.replacement.literal ≠ [] :=
      fun x hx => hs x (by simp [hx])
    -- what one step does decides how the walk goes on
    have next (q : Progress) (h : step l p site = .ok q)
        (he : q.edits ++ (granted l q.claimed rest).map Prod.snd =
          p.edits ++ (granted l p.claimed (site :: rest)).map Prod.snd)
        (hc : q.skippedConst + (skipped l q.claimed rest).length =
          p.skippedConst + (skipped l p.claimed (site :: rest)).length) :
        ∃ p', (site :: rest).foldlM (step l) p = .ok p' ∧
          p'.edits = p.edits ++ (granted l p.claimed (site :: rest)).map Prod.snd ∧
          p'.skippedConst =
            p.skippedConst + (skipped l p.claimed (site :: rest)).length := by
      obtain ⟨p', run, edits, count⟩ := ih q hrest
      refine ⟨p', ?_, by rw [edits, he], by rw [count, hc]⟩
      rw [List.foldlM_cons, h]
      exact run
    by_cases stands : site.place.rest.take site.replacement.literal.length =
        site.replacement.literal
    · by_cases free : p.claimed ≤ site.replacement.offset
      · have inside := offset_le_of_stands hin ((stands_iff hin).1 stands) ne
        cases hedit : editOf l p.claimed site with
        | none =>
          refine next { p with skippedConst := p.skippedConst + 1 } ?_ ?_ ?_
          · simp [step, stands, Nat.not_lt.2 free, inside, hedit]
          · simp [granted, stands, free, hedit]
          · simp [skipped, stands, free, hedit]
            omega
        | some e =>
          refine next { p with edits := p.edits ++ [e], claimed := site.replacement.stop } ?_ ?_ ?_
          · simp [step, stands, Nat.not_lt.2 free, inside, hedit, Replacement.stop]
          · simp [granted, stands, free, hedit]
          · simp [skipped, stands, free, hedit]
      · refine next p ?_ ?_ ?_
        · simp [step, stands, Nat.lt_of_not_le free]
        · simp [granted, free]
        · simp [skipped, free]
    · refine next p ?_ ?_ ?_
      · simp [step, stands]
      · simp [granted, stands]
      · simp [skipped, stands]

/-- Every granted edit fits its replacement and starts behind the watermark. -/
theorem fits_of_mem_granted {sites : List Site} {claimed : Nat}
    (hs : ∀ site ∈ sites, site.In s ∧ site.replacement.literal ≠ []) {r : Replacement} {e : Edit}
    (h : (r, e) ∈ granted l claimed sites) :
    Fits l s r e ∧ claimed ≤ e.start ∧ r.literal ≠ [] := by
  induction sites generalizing claimed with
  | nil => simp [granted] at h
  | cons site rest ih =>
    obtain ⟨hin, ne⟩ := hs site (by simp)
    have hrest : ∀ x ∈ rest, x.In s ∧ x.replacement.literal ≠ [] :=
      fun x hx => hs x (by simp [hx])
    simp only [granted] at h
    split at h
    next hc =>
      obtain ⟨stands, free⟩ := hc
      rw [stands_iff hin] at stands
      split at h
      next d hedit =>
        obtain ⟨fits, start⟩ := fits_of_editOf hin stands ne free hedit
        rcases List.mem_cons.1 h with heq | h
        · obtain ⟨rfl, rfl⟩ := Prod.mk.inj heq
          exact ⟨fits, start, ne⟩
        · obtain ⟨hfits, hstart, hne⟩ := ih hrest h
          have := (fits.inside ne).1
          have := fits.stop
          exact ⟨hfits, by omega, hne⟩
      next => exact ih hrest h
    next => exact ih hrest h

/-- The granted edits are in order. -/
theorem inOrder_granted {sites : List Site} {claimed : Nat}
    (hs : ∀ site ∈ sites, site.In s ∧ site.replacement.literal ≠ []) :
    InOrder s.length ((granted l claimed sites).map Prod.snd) := by
  induction sites generalizing claimed with
  | nil => exact .nil
  | cons site rest ih =>
    obtain ⟨hin, ne⟩ := hs site (by simp)
    have hrest : ∀ x ∈ rest, x.In s ∧ x.replacement.literal ≠ [] :=
      fun x hx => hs x (by simp [hx])
    simp only [granted]
    split
    next hc =>
      obtain ⟨stands, free⟩ := hc
      rw [stands_iff hin] at stands
      split
      next d hedit =>
        obtain ⟨fits, -⟩ := fits_of_editOf hin stands ne free hedit
        refine InOrder.cons (fits.inside ne) ?_ (ih hrest)
        intro e he
        obtain ⟨⟨r, e⟩, hmem, rfl⟩ := List.mem_map.1 he
        rw [fits.stop]
        exact (fits_of_mem_granted hrest hmem).2.1
      next => exact ih hrest
    next => exact ih hrest

/-- The replacements that get an edit are among those of the sites, each as often at most. -/
theorem granted_sublist (claimed : Nat) (sites : List Site) :
    ((granted l claimed sites).map Prod.fst).Sublist (sites.map Site.replacement) := by
  induction sites generalizing claimed with
  | nil => simp [granted]
  | cons site rest ih =>
    simp only [granted, List.map_cons]
    split
    next =>
      split
      next => exact (ih _).cons_cons _
      next => exact (ih _).cons _
    next => exact (ih _).cons _

/-- Among sites in order, a literal that stands starts before the watermark or in the span of a
granted edit, unless it is skipped. -/
theorem exists_granted_or_mem_skipped {sites : List Site} {claimed : Nat}
    (hs : ∀ site ∈ sites, site.In s ∧ site.replacement.literal ≠ [])
    (ordered : sites.Pairwise fun a b => a.replacement.offset ≤ b.replacement.offset)
    {site : Site} (mem : site ∈ sites) (stands : site.replacement.Stands s) :
    (site.replacement.offset < claimed ∨ ∃ span ∈ granted l claimed sites,
      span.2.start ≤ site.replacement.offset ∧ site.replacement.offset < span.2.stop) ∨
      site.replacement ∈ skipped l claimed sites := by
  induction sites generalizing claimed with
  | nil => simp at mem
  | cons x rest ih =>
    obtain ⟨hin, ne⟩ := hs x (by simp)
    obtain ⟨first, ordered⟩ := List.pairwise_cons.1 ordered
    have later (n : Nat) (h : site ∈ rest) : (site.replacement.offset < n ∨
        ∃ span ∈ granted l n rest,
          span.2.start ≤ site.replacement.offset ∧ site.replacement.offset < span.2.stop) ∨
        site.replacement ∈ skipped l n rest :=
      ih (fun y hy => hs y (by simp [hy])) ordered h
    simp only [granted, skipped]
    rcases List.mem_cons.1 mem with rfl | mem
    · by_cases behind : claimed ≤ site.replacement.offset
      · rw [if_pos ⟨(stands_iff hin).2 stands, behind⟩, if_pos ⟨(stands_iff hin).2 stands, behind⟩]
        cases hedit : editOf l claimed site with
        | none => exact .inr List.mem_cons_self
        | some e =>
          have fits := (fits_of_editOf hin stands ne behind hedit).1
          have positive := List.length_pos_iff.2 ne
          refine .inl (.inr ⟨_, List.mem_cons_self, fits.start_le, ?_⟩)
          rw [fits.stop, Replacement.stop]
          omega
      · exact .inl (.inl (by omega))
    · split
      next hc =>
        split
        next e hedit =>
          have fits := (fits_of_editOf hin ((stands_iff hin).1 hc.1) ne hc.2 hedit).1
          -- a literal that starts before the end of this span starts in it
          rcases later _ mem with (before | ⟨span, hspan, covers⟩) | constant
          · have start := Nat.le_trans fits.start_le (first site mem)
            exact .inl (.inr ⟨_, List.mem_cons_self, start, fits.stop ▸ before⟩)
          · exact .inl (.inr ⟨span, List.mem_cons_of_mem _ hspan, covers⟩)
          · exact .inr constant
        next => exact (later _ mem).imp id (List.mem_cons_of_mem _)
      next => exact later _ mem

/-- What is skipped stands in a constant expression. -/
theorem enclosingConst_of_mem_skipped {sites : List Site} {claimed : Nat}
    (hs : ∀ site ∈ sites, site.In s) {r : Replacement} (h : r ∈ skipped l claimed sites) :
    enclosingConst (mask s) r.offset ≠ none := by
  induction sites generalizing claimed with
  | nil => simp [skipped] at h
  | cons x rest ih =>
    have hrest : ∀ y ∈ rest, y.In s := fun y hy => hs y (by simp [hy])
    simp only [skipped] at h
    split at h
    next =>
      split at h
      next => exact ih hrest h
      next hedit =>
        rcases List.mem_cons.1 h with rfl | h
        · intro free
          have masked : constBefore? x.masked.back = none := by
            rw [hs x (by simp)]
            exact free
          simp [editOf, masked] at hedit
        · exact ih hrest h
    next => exact ih hrest h

end

/-! ## Plans -/

/-- The replacements of a list that get an edit in a buffer, with their edits. -/
def grantedIn (l : Localizations) (s : Text) (rs : List Replacement) : List (Replacement × Edit) :=
  granted l 0 (sites s rs)

theorem mem_sites {s : Text} {rs : List Replacement} {site : Site} (h : site ∈ sites s rs) :
    site.In s ∧ site.replacement ∈ rs := by
  rw [sites_eq_map] at h
  obtain ⟨r, hr, rfl⟩ := List.mem_map.1 h
  exact ⟨rfl, (List.mergeSort_perm rs _).mem_iff.1 hr⟩

/-- Replacements in order are taken up as they are. -/
theorem sites_of_ordered (s : Text) {rs : List Replacement}
    (ordered : rs.Pairwise fun a b => a.offset ≤ b.offset) :
    sites s rs = rs.map fun r => ⟨.of s r.offset, .of (mask s) r.offset, r⟩ := by
  rw [sites_eq_map, List.mergeSort_of_pairwise]
  exact ordered.imp fun h => by simpa using h

section

variable {l : Localizations} {s : Text} {rs : List Replacement} (ne : ∀ r ∈ rs, r.literal ≠ [])
include ne

theorem sites_ne {site : Site} (h : site ∈ sites s rs) :
    site.In s ∧ site.replacement.literal ≠ [] :=
  ⟨(mem_sites h).1, ne _ (mem_sites h).2⟩

/-- The plan for replacements whose literals are not empty is made, and its edits are the granted
ones. -/
theorem plan_eq_granted :
    ∃ p, plan l s rs = .ok p ∧ p.edits = (grantedIn l s rs).map Prod.snd ∧
      p.skippedConst = (skipped l 0 (sites s rs)).length := by
  obtain ⟨p, run, edits, count⟩ :=
    foldlM_step_eq_granted (l := l) {} fun _ => sites_ne (s := s) ne
  exact ⟨p, run, by simpa [grantedIn] using edits, by simpa using count⟩

theorem fits_of_mem_grantedIn {r : Replacement} {e : Edit} (h : (r, e) ∈ grantedIn l s rs) :
    Fits l s r e :=
  (fits_of_mem_granted (fun _ => sites_ne ne) h).1

theorem inOrder_grantedIn : InOrder s.length ((grantedIn l s rs).map Prod.snd) :=
  inOrder_granted fun _ => sites_ne ne

/-- A literal that stands starts in the span of a granted edit, unless it is skipped. -/
theorem exists_grantedIn_or_mem_skipped {r : Replacement} (hr : r ∈ rs) (stands : r.Stands s) :
    (∃ span ∈ grantedIn l s rs, span.2.start ≤ r.offset ∧ r.offset < span.2.stop) ∨
      r ∈ skipped l 0 (sites s rs) := by
  have ordered : (sites s rs).Pairwise fun a b => a.replacement.offset ≤ b.replacement.offset := by
    rw [sites_eq_map, List.pairwise_map]
    have sorted : (rs.mergeSort fun a b => a.offset ≤ b.offset).Pairwise
        fun a b => decide (a.offset ≤ b.offset) = true := by
      refine List.pairwise_mergeSort ?_ ?_ rs
      · intro a b c hab hbc
        simp only [decide_eq_true_eq] at hab hbc ⊢
        omega
      · intro a b
        simp only [Bool.or_eq_true, decide_eq_true_eq]
        omega
    exact sorted.imp fun h => by simpa using h
  have mem : (⟨.of s r.offset, .of (mask s) r.offset, r⟩ : Site) ∈ sites s rs := by
    rw [sites_eq_map]
    exact List.mem_map.2 ⟨r, (List.mergeSort_perm rs _).mem_iff.2 hr, rfl⟩
  rcases exists_granted_or_mem_skipped (fun _ => sites_ne ne) ordered mem stands with
    (before | covered) | constant
  · exact absurd before (Nat.not_lt_zero _)
  · exact .inl covered
  · exact .inr constant

/-- A literal that stands outside of constant expressions starts in the span of a granted edit. -/
theorem exists_grantedIn_at {r : Replacement} (hr : r ∈ rs) (stands : r.Stands s)
    (free : enclosingConst (mask s) r.offset = none) :
    ∃ span ∈ grantedIn l s rs, span.2.start ≤ r.offset ∧ r.offset < span.2.stop := by
  refine (exists_grantedIn_or_mem_skipped ne hr stands).resolve_right fun constant => ?_
  exact enclosingConst_of_mem_skipped (fun _ h => (mem_sites h).1) constant free

end

/-- No replacement gets more edits than it has occurrences in the list. -/
theorem granted_subperm (l : Localizations) (s : Text) (rs : List Replacement) :
    ((grantedIn l s rs).map Prod.fst).Subperm rs := by
  have ordered : (sites s rs).map Site.replacement = rs.mergeSort fun a b => a.offset ≤ b.offset := by
    rw [sites_eq_map, List.map_map]
    exact List.map_id _
  have sublist := granted_sublist (l := l) 0 (sites s rs)
  rw [ordered] at sublist
  exact sublist.subperm.trans (List.mergeSort_perm rs _).subperm

end Localizer.Edit
