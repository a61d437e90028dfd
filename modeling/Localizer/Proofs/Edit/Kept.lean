import Localizer.Proofs.Dart.AppRoot
import Localizer.Proofs.Dart.Exclusion
import Localizer.Proofs.Edit.Replace
import Mathlib.Data.List.Pairwise

/-!
# Literals that stay

When the literals of replacements stand in a buffer, each behind the one before (`Apart`), none is
lost: the watermark never passes the start of the next one, so each gets an edit or is counted as
constant (`perm_granted_skipped`). No edit touches the literal of another replacement
(`Apart.untouched`): only the head of a constant widget makes an edit start before its literal, and no
quote stands in a head. So a literal that stays has the edited text before it on the one side and the
edited text behind it on the other (`stays_substitute`). Wiring leaves it like that unless the first
app root call stands in it (`wire_staysIn`), for the import goes in at a line break and the head of a
call has no quote in it either.
-/

namespace Localizer.Edit

open Text Dart
open Message (newline ofText)

/-! ## Replacements that are apart -/

/-- A text on one line between two equal quotes. -/
def Quoted (t : Text) : Prop := ∃ q inner, IsQuote q ∧ '\n' ∉ t ∧ t = q :: (inner ++ [q])

/-- The literals of replacements stand in a buffer, each behind the one before. -/
structure Apart (s : Text) (rs : List Replacement) : Prop where
  stands : ∀ r ∈ rs, r.Stands s
  quoted : ∀ r ∈ rs, Quoted r.literal
  order : rs.Pairwise fun a b => a.stop ≤ b.offset

theorem Quoted.ne_nil {t : Text} (h : Quoted t) : t ≠ [] := by
  obtain ⟨q, inner, -, -, rfl⟩ := h
  exact List.cons_ne_nil _ _

section

variable {l : Localizations} {s : Text} {rs : List Replacement}

theorem Apart.ne_nil (apart : Apart s rs) : ∀ r ∈ rs, r.literal ≠ [] :=
  fun r hr => (apart.quoted r hr).ne_nil

/-- Sites whose literals stand behind the watermark, each behind the one before, are granted an edit or
skipped. -/
theorem perm_granted_skipped_sites {sites : List Site} {claimed : Nat}
    (hs : ∀ site ∈ sites, site.In s ∧ site.replacement.Stands s)
    (order : sites.Pairwise fun a b => a.replacement.stop ≤ b.replacement.offset)
    (free : ∀ site ∈ sites, claimed ≤ site.replacement.offset) :
    ((granted l claimed sites).map Prod.fst ++ skipped l claimed sites).Perm
      (sites.map Site.replacement) := by
  induction sites generalizing claimed with
  | nil => exact .refl _
  | cons site rest ih =>
    obtain ⟨hin, stands⟩ := hs site (by simp)
    obtain ⟨first, order⟩ := List.pairwise_cons.1 order
    have later {n : Nat} (behind : ∀ x ∈ rest, n ≤ x.replacement.offset) :=
      ih (fun x hx => hs x (by simp [hx])) order behind
    have taken := And.intro ((stands_iff hin).2 stands) (free site (by simp))
    simp only [granted, skipped]
    rw [if_pos taken, if_pos taken]
    cases editOf l claimed site with
    | none => exact List.perm_middle.trans ((later fun x hx => free x (by simp [hx])).cons _)
    | some e => exact (later first).cons _

theorem Apart.sites_eq (apart : Apart s rs) :
    sites s rs = rs.map fun r => ⟨.of s r.offset, .of (mask s) r.offset, r⟩ := by
  refine sites_of_ordered s (apart.order.imp fun {a b} h => ?_)
  exact Nat.le_trans (Nat.le_add_right _ _) h

/-- **Replacements that are apart are all accounted for.** -/
theorem perm_granted_skipped (apart : Apart s rs) :
    ((grantedIn l s rs).map Prod.fst ++ skipped l 0 (sites s rs)).Perm rs := by
  have whole : (sites s rs).map Site.replacement = rs := by
    rw [apart.sites_eq, List.map_map]
    exact List.map_id _
  have order : (sites s rs).Pairwise fun a b => a.replacement.stop ≤ b.replacement.offset := by
    rw [apart.sites_eq, List.pairwise_map]
    exact apart.order
  have stand (site : Site) (h : site ∈ sites s rs) : site.In s ∧ site.replacement.Stands s :=
    ⟨(mem_sites h).1, apart.stands _ (mem_sites h).2⟩
  have free (site : Site) (_ : site ∈ sites s rs) : 0 ≤ site.replacement.offset := Nat.zero_le _
  have perm := perm_granted_skipped_sites (l := l) stand order free
  rwa [whole] at perm

theorem Apart.nodup (apart : Apart s rs) : rs.Nodup := by
  refine apart.order.imp_of_mem fun {a b} ha _ h => ?_
  rintro rfl
  have filled := List.length_pos_iff.2 (apart.ne_nil a ha)
  rw [Replacement.stop] at h
  omega

/-- No quote stands in the head of a constant widget. -/
theorem ConstTextHead.not_mem {start stop : Nat} {q : Char} (h : ConstTextHead s start stop)
    (quote : IsQuote q) : q ∉ slice s start stop := by
  obtain ⟨gap, pad, text, -, blankGap, blankPad⟩ := h.text
  have solid := isBlank_quote quote
  have words : ∀ c ∈ "const".toList ++ "Text(".toList, ¬ IsQuote c := by decide
  rw [text]
  simp only [List.mem_append, not_or]
  refine ⟨⟨⟨fun mem => words q (List.mem_append_left _ mem) quote, fun mem => ?_⟩,
    fun mem => words q (List.mem_append_right _ mem) quote⟩, fun mem => ?_⟩
  · rw [blankGap q mem] at solid
    contradiction
  · rw [blankPad q mem] at solid
    contradiction

/-- A quote stands before the head of a constant widget or behind it. -/
theorem ConstTextHead.clear {start stop k : Nat} {q : Char} (h : ConstTextHead s start stop)
    (quote : IsQuote q) (here : s[k]? = some q) : k < start ∨ stop ≤ k := by
  by_contra inside
  simp only [not_or, Nat.not_lt, Nat.not_le] at inside
  refine h.not_mem quote (List.mem_iff_getElem?.2 ⟨k - start, ?_⟩)
  rw [getElem?_slice (by omega), Nat.add_sub_cancel' inside.1, here]

/-- The literal of a replacement ends in a quote. -/
theorem Apart.exists_last (apart : Apart s rs) {r : Replacement} (hr : r ∈ rs) :
    ∃ q k, IsQuote q ∧ s[k]? = some q ∧ r.stop = k + 1 := by
  obtain ⟨q, inner, quote, -, literal⟩ := apart.quoted r hr
  have stands : slice s r.offset r.stop = q :: inner ++ [q] := (apart.stands r hr).trans literal
  have size : r.stop = r.offset + (inner.length + 1) + 1 := by
    rw [Replacement.stop, literal]
    simp
    omega
  refine ⟨q, r.offset + (inner.length + 1), quote, ?_, size⟩
  rw [← getElem?_slice (j := r.stop) (by omega), stands]
  exact List.getElem?_concat_length

/-- **No edit touches the literal of another replacement.** -/
theorem Apart.untouched (apart : Apart s rs) {r r' : Replacement} {e : Edit} (hr : r ∈ rs)
    (hr' : r' ∈ rs) (ne : r ≠ r') (fits : Fits l s r' e) :
    e.stop ≤ r.offset ∨ r.stop ≤ e.start := by
  have disjoint : r.stop ≤ r'.offset ∨ r'.stop ≤ r.offset := by
    have either : rs.Pairwise fun a b => a.stop ≤ b.offset ∨ b.stop ≤ a.offset :=
      apart.order.imp .inl
    have symmetric : Std.Symm fun a b : Replacement => a.stop ≤ b.offset ∨ b.stop ≤ a.offset :=
      ⟨fun _ _ => Or.symm⟩
    exact either.forall hr hr' ne
  rcases disjoint with before | behind
  · rcases fits.start with ⟨start, -⟩ | ⟨head, -⟩
    · exact .inr (start ▸ before)
    · -- the quote that ends the literal stands before the head
      obtain ⟨q, k, quote, here, stop⟩ := apart.exists_last hr
      rcases head.clear quote here with clear | clear
      · exact .inr (by omega)
      · omega
  · exact .inl (fits.stop ▸ behind)

end

/-! ## Around a span that no edit touches -/

section

variable {s : Message} {i j k m n : Nat}

/-- Edits in order lie before a span or behind it, if none of them touches it. -/
theorem exists_around {edits : List Edit} (order : InOrder s.length edits)
    (apart : ∀ e ∈ edits, e.stop ≤ m ∨ n ≤ e.start) :
    ∃ front back, edits = front ++ back ∧ (∀ e ∈ front, e.stop ≤ m) ∧ ∀ e ∈ back, n ≤ e.start := by
  induction edits with
  | nil => exact ⟨[], [], rfl, by simp, by simp⟩
  | cons e es ih =>
    rcases apart e (by simp) with before | behind
    · obtain ⟨front, back, rfl, hfront, hback⟩ := ih order.tail fun d hd => apart d (by simp [hd])
      exact ⟨e :: front, back, rfl, List.forall_mem_cons.2 ⟨before, hfront⟩, hback⟩
    · refine ⟨[], e :: es, rfl, by simp, List.forall_mem_cons.2 ⟨behind, ?_⟩⟩
      intro d hd
      have first := order.behind d hd
      have span := order.head
      omega

/-- Text that edits leave alone stays in front of what they make of the rest. -/
theorem substitute_of_behind {back : List Edit} (hkn : k ≤ n) (hn : n ≤ s.length)
    (behind : ∀ e ∈ back, n ≤ e.start) :
    substitute s k back = slice s k n ++ substitute s n back := by
  cases back with
  | nil =>
    have cut := List.take_append_drop n s
    rw [substitute, substitute, slice]
    conv_lhs => rw [← cut]
    rw [List.drop_append_of_le_length (by simp; omega)]
  | cons e es =>
    have start := behind e (by simp)
    rw [substitute, substitute, ← slice_append_slice hkn start]
    simp only [List.append_assoc]

/-- **The edited buffer around a span that no edit touches.** -/
theorem substitute_append {front back : List Edit} (hmn : m ≤ n) (hn : n ≤ s.length)
    (order : InOrder s.length (front ++ back)) (hkm : k ≤ m) (first : ∀ e ∈ front, k ≤ e.start)
    (before : ∀ e ∈ front, e.stop ≤ m) (behind : ∀ e ∈ back, n ≤ e.start) :
    substitute s k (front ++ back) =
      substitute (s.take m) k front ++ slice s m n ++ substitute s n back := by
  induction front generalizing k with
  | nil =>
    rw [List.nil_append, substitute_of_behind (Nat.le_trans hkm hmn) hn behind,
      ← slice_append_slice hkm hmn]
    rfl
  | cons e es ih =>
    have span := order.head
    have stop := before e (by simp)
    have later := ih order.tail stop (fun d hd => order.behind d (by simp [hd]))
      fun d hd => before d (by simp [hd])
    have gap : slice (s.take m) k e.start = slice s k e.start := by
      rw [slice, slice, List.take_take, Nat.min_eq_left (by omega)]
    rw [List.cons_append, substitute, substitute, later, gap]
    simp only [List.append_assoc]

end

/-- The literal of a replacement stays in a buffer that comes of `s` by edits: what is made of the text
before it comes before it, and what is made of the text behind it comes behind it. -/
def Stays (s : Text) (edits : List Edit) (r : Replacement) (t : Message) : Prop :=
  ∃ front back a b, edits = front ++ back ∧ (∀ e ∈ front, e.stop ≤ r.offset) ∧
    (∀ e ∈ back, r.stop ≤ e.start) ∧ t = a ++ ofText r.literal ++ b ∧
    (substitute (ofText (s.take r.offset)) 0 front).Sublist a ∧
    (substitute (ofText s) r.stop back).Sublist b

theorem stays_substitute {s : Text} {edits : List Edit} {r : Replacement} (stands : r.Stands s)
    (ne : r.literal ≠ []) (order : InOrder s.length edits)
    (apart : ∀ e ∈ edits, e.stop ≤ r.offset ∨ r.stop ≤ e.start) :
    Stays s edits r (substitute (ofText s) 0 edits) := by
  have order : InOrder (ofText s).length edits := by simpa [ofText] using order
  have span : r.offset ≤ r.stop := Nat.le_add_right _ _
  have inside : r.stop ≤ (ofText s).length := by simpa [ofText] using stands.stop_le ne
  obtain ⟨front, back, rfl, before, behind⟩ := exists_around order apart
  have literal : slice (ofText s) r.offset r.stop = ofText r.literal := by
    rw [← stands]
    simp [slice, ofText, List.map_take, List.map_drop]
  have head : (ofText s).take r.offset = ofText (s.take r.offset) := by
    simp [ofText, List.map_take]
  refine ⟨front, back, _, _, rfl, before, behind, ?_, .refl _, .refl _⟩
  rw [substitute_append span inside order (Nat.zero_le _) (fun _ _ => Nat.zero_le _) before behind,
    literal, head]

/-! ## Wiring -/

/-- A part `m` of the buffer `s` is in the buffer `t`, where what was before it is still before it and
what was behind it is still behind it. -/
def StaysIn (m s t : Message) : Prop :=
  ∀ a b, s = a ++ m ++ b → ∃ a' b', t = a' ++ m ++ b' ∧ a.Sublist a' ∧ b.Sublist b'

theorem StaysIn.refl (m s : Message) : StaysIn m s s :=
  fun a b h => ⟨a, b, h, .refl a, .refl b⟩

theorem StaysIn.trans {m s t u : Message} (hst : StaysIn m s t) (htu : StaysIn m t u) :
    StaysIn m s u := by
  intro a b h
  obtain ⟨a', b', h', ha, hb⟩ := hst a b h
  obtain ⟨a'', b'', h'', ha', hb'⟩ := htu a' b' h'
  exact ⟨a'', b'', h'', ha.trans ha', hb.trans hb'⟩

theorem Stays.staysIn {s : Text} {edits : List Edit} {r : Replacement} {t u : Message}
    (h : Stays s edits r t) (keeps : StaysIn (ofText r.literal) t u) : Stays s edits r u := by
  obtain ⟨front, back, a, b, split, before, behind, whole, ha, hb⟩ := h
  obtain ⟨a', b', whole', ha', hb'⟩ := keeps a b whole
  exact ⟨front, back, a', b', split, before, behind, whole', ha.trans ha', hb.trans hb'⟩

/-- The import goes in at a line break, so that a part of a line stays. -/
theorem ImportInserted.staysIn {statement m s t : Message} (h : ImportInserted statement s t)
    (line : newline ∉ m) : StaysIn m s t := by
  intro a b whole
  cases h with
  | top s =>
    refine ⟨statement ++ newline :: newline :: a, b, by simp [whole], ?_, .refl b⟩
    exact ((List.sublist_cons_self _ _).trans (List.sublist_cons_self _ _)).trans
      (List.sublist_append_right _ _)
  | between c d =>
    rcases split_append whole.symm with ⟨u, front, rfl⟩ | ⟨u, rfl, rfl⟩
    · rcases split_append front with ⟨v, rfl, rfl⟩ | ⟨v, -, inside⟩
      · refine ⟨c ++ newline :: (statement ++ newline :: v), b, by simp, ?_, .refl b⟩
        refine (List.Sublist.refl c).append (.cons_cons _ ?_)
        exact (List.sublist_cons_self _ _).trans (List.sublist_append_right _ _)
      · exact absurd (by simp [inside]) line
    · refine ⟨a, u ++ newline :: (statement ++ newline :: d), by simp, .refl a, ?_⟩
      refine (List.Sublist.refl u).append (.cons_cons _ ?_)
      exact (List.sublist_cons_self _ _).trans (List.sublist_append_right _ _)
  | last s =>
    exact ⟨a, b ++ newline :: statement, by simp [whole], .refl a, List.sublist_append_left _ _⟩

/-- No quote stands in the head of an app root call. -/
theorem not_mem_appRootHead {head : Text} {q : Char} (h : AppRootHead head) (quote : IsQuote q) :
    q ∉ head := by
  obtain ⟨known, form, blank⟩ := h
  rename_i name variant gap
  have classes : ∀ name ∈ appRootClasses, ∀ c ∈ name, ¬ IsQuote c := by decide
  have forms : ∀ c ∈ variant, ¬ IsQuote c := by
    rcases form with rfl | rfl <;> decide
  have solid := isBlank_quote quote
  have bracket : ∀ c ∈ ['('], ¬ IsQuote c := by decide
  simp only [List.mem_append, not_or]
  refine ⟨⟨⟨fun mem => classes name known q mem quote, fun mem => forms q mem quote⟩,
    fun mem => ?_⟩, fun mem => bracket q mem quote⟩
  rw [blank q mem] at solid
  contradiction

/-- A quote stands before the head of an app root call or behind it. -/
theorem clear_of_appRootHead {before head rest u v : Text} {q : Char} (h : AppRootHead head)
    (quote : IsQuote q) (whole : u ++ q :: v = before ++ (head ++ rest)) :
    u.length < before.length ∨ before.length + head.length ≤ u.length := by
  rcases split_append whole.symm with ⟨w, rfl, -⟩ | ⟨w, rfl, inside⟩
  · exact .inl (by simp)
  · rcases split_append inside with ⟨t, rfl, -⟩ | ⟨t, rfl, -⟩
    · exact absurd (by simp) (not_mem_appRootHead h quote)
    · exact .inr (by simp)

/-- A part that holds the head of an app root call behind its first character holds such a call. -/
theorem isSome_appRoot?_of_head {before head rest u x v : Text} (h : AppRootHead head)
    (boundary : atBoundary before.reverse = true) (whole : u ++ (x ++ v) = before ++ (head ++ rest))
    (first : u.length < before.length)
    (last : before.length + head.length ≤ u.length + x.length) : (appRoot? x).isSome = true := by
  obtain ⟨w, rfl, tail⟩ : ∃ w, before = u ++ w ∧ x ++ v = w ++ (head ++ rest) := by
    rcases List.append_eq_append_iff.1 whole with ⟨w, rfl, tail⟩ | ⟨w, rfl, tail⟩
    · exact ⟨w, rfl, tail⟩
    · rw [List.length_append] at first
      omega
  simp only [List.length_append] at first last
  obtain ⟨y, rfl⟩ : ∃ y, x = w ++ head ++ y := by
    rw [← List.append_assoc] at tail
    rcases List.append_eq_append_iff.1 tail with ⟨y, front, -⟩ | ⟨y, rfl, -⟩
    · have length := congrArg List.length front
      simp only [List.length_append] at length
      obtain rfl : y = [] := List.length_eq_zero_iff.1 (by omega)
      exact ⟨[], by simpa using front.symm⟩
    · exact ⟨y, rfl⟩
  have filled : w.reverse ≠ [] := by
    rw [Ne, List.reverse_eq_nil_iff]
    rintro rfl
    simp at first
  have start : atBoundary (w.reverse ++ []) = true := by
    obtain ⟨c, z, hz⟩ := List.exists_cons_of_ne_nil filled
    simpa [hz, atBoundary] using boundary
  rw [List.append_assoc]
  exact isSome_findAppRoot h start y

/-- The bracket of the first app root call is not in a quoted part that holds no such call. -/
theorem appRoot_apart {u x v before head rest : Text} (quoted : Quoted x)
    (rootless : appRoot? x = none) (root : appRoot? (u ++ x ++ v) = some (before, head, rest)) :
    before.length + head.length ≤ u.length ∨
      u.length + x.length ≤ before.length + head.length := by
  obtain ⟨isHead, boundary, whole⟩ := findAppRoot_eq_some root
  rw [List.append_assoc] at whole
  rw [List.append_nil] at boundary
  obtain ⟨q, inner, quote, -, literal⟩ := quoted
  have opening : u ++ q :: (inner ++ [q] ++ v) = before ++ (head ++ rest) := by
    rw [← whole, literal]
    simp
  rcases clear_of_appRootHead isHead quote opening with later | ahead
  · refine .inr (Nat.le_of_not_le fun inside => ?_)
    have found := isSome_appRoot?_of_head isHead boundary whole later inside
    simp [rootless] at found
  · exact .inl ahead

/-- A quoted part stays when the properties of the app root are put in, unless it holds the call. -/
theorem ensureDelegates_staysIn (className s : Message) {x : Text} (quoted : Quoted x)
    (rootless : appRoot? x = none) : StaysIn (ofText x) s (ensureDelegates className s) := by
  intro a b whole
  unfold ensureDelegates
  split
  next => exact ⟨a, b, whole, .refl a, .refl b⟩
  next =>
    split
    next => exact ⟨a, b, whole, .refl a, .refl b⟩
    next before head rest root =>
      dsimp only
      generalize delegates className _ = added
      have view : s.view = a.view ++ x ++ b.view := by
        have shown := Message.view_ofText x
        simp only [Message.view] at shown
        simp [whole, Message.view, shown]
      rw [view] at root
      have apart := appRoot_apart quoted rootless root
      rw [Message.length_view] at apart
      generalize before.length + head.length = place at apart
      have size : (ofText x).length = x.length := List.length_map _
      rw [← size] at apart
      have sides (y z : Message) : (y ++ z).Sublist (y ++ added ++ z) :=
        (List.sublist_append_left _ _).append (.refl z)
      rcases apart with front | behind
      · refine ⟨a.take place ++ added ++ a.drop place, b, ?_, ?_, .refl b⟩
        · rw [whole, List.append_assoc a, List.take_append_of_le_length front,
            List.drop_append_of_le_length front]
          simp only [List.append_assoc]
        · have halves := sides (a.take place) (a.drop place)
          rwa [List.take_append_drop] at halves
      · obtain ⟨k, rfl⟩ := Nat.le.dest behind
        rw [← List.length_append]
        refine ⟨a, b.take k ++ added ++ b.drop k, ?_, .refl a, ?_⟩
        · rw [whole, List.take_length_add_append, List.drop_length_add_append]
          simp only [List.append_assoc]
        · have halves := sides (b.take k) (b.drop k)
          rwa [List.take_append_drop] at halves

/-- **Wiring leaves a literal where it is**, unless an app root call stands in it. -/
theorem wire_staysIn (l : Localizations) (s : Message) (p : Progress) {x : Text} (quoted : Quoted x)
    (rootless : appRoot? x = none) : StaysIn (ofText x) s (wire l s p).content := by
  have line : newline ∉ ofText x := by
    obtain ⟨-, -, -, line, -⟩ := quoted
    exact Message.ofChar_mem_ofText.not.2 line
  have delegated := fun t => ensureDelegates_staysIn l.className t quoted rootless
  refine StaysIn.trans ?_ (delegated _)
  split
  next =>
    rcases ensureImport_inserts (l.importStatement.getD []) s with same | inserted
    · rw [same]
      exact .refl _ _
    · exact inserted.staysIn line
  next => exact .refl _ _

/-! ## Replacing -/

section

variable {l : Localizations} {s : Text} {rs : List Replacement}

/-- **A literal that is skipped stays.** -/
theorem stays_of_mem_skipped (apart : Apart s rs) {r : Replacement}
    (h : r ∈ skipped l 0 (sites s rs)) :
    Stays s ((grantedIn l s rs).map Prod.snd) r
      (substitute (ofText s) 0 ((grantedIn l s rs).map Prod.snd)) := by
  have perm := perm_granted_skipped (l := l) apart
  have given : r ∈ rs := perm.subset (List.mem_append_right _ h)
  refine stays_substitute (apart.stands r given) (apart.ne_nil r given)
    (inOrder_grantedIn apart.ne_nil) ?_
  intro e he
  obtain ⟨⟨r', e⟩, mem, rfl⟩ := List.mem_map.1 he
  have taken : r' ∈ (grantedIn l s rs).map Prod.fst := List.mem_map_of_mem mem
  have distinct : r ≠ r' := by
    rintro rfl
    have once := perm.nodup_iff.2 apart.nodup
    exact List.disjoint_of_nodup_append once taken h
  exact apart.untouched given (perm.subset (List.mem_append_left _ taken)) distinct
    (fits_of_mem_grantedIn apart.ne_nil mem)

/-- A literal that is skipped stays in what comes of replacing, unless it holds an app root call. -/
theorem stays_of_replace (apart : Apart s rs) {o : Outcome} (h : l.replace s rs = .ok o)
    {r : Replacement} (hr : r ∈ skipped l 0 (sites s rs)) (rootless : appRoot? r.literal = none) :
    Stays s ((grantedIn l s rs).map Prod.snd) r o.content := by
  have edited := stays_of_mem_skipped apart hr
  have quoted : Quoted r.literal :=
    apart.quoted r ((perm_granted_skipped (l := l) apart).subset (List.mem_append_right _ hr))
  obtain ⟨p, edits, -, hreplace⟩ := replace_eq_ok l s apart.ne_nil
  have order := inOrder_grantedIn (l := l) (s := s) apart.ne_nil
  rw [← applyAll_eq_substitute (by simpa [ofText] using order), ← edits] at edited
  rw [hreplace] at h
  obtain rfl := Except.ok.inj h
  split
  next empty =>
    -- nothing was edited, so the buffer is handed back
    rw [List.isEmpty_iff.1 empty] at edited edits
    rw [applyAll_eq_substitute .nil] at edited
    rw [← edits]
    exact edited
  next =>
    rw [← edits]
    exact edited.staysIn (wire_staysIn l _ p quoted rootless)

end

end Localizer.Edit
