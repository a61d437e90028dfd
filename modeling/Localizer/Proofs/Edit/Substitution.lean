import Localizer.Edit.Span
import Mathlib.Data.List.Sort

/-!
# Edits from left to right

Edits are applied from the last to the first. For edits in order that do not overlap this is the
same as going through the buffer once from left to right and putting each message in the place of
its span (`applyAll_eq_substitute`). The induction is on the edits, with what stands before the
first of them kept aside: an edit changes nothing before its start, so that the spans of those
still to come are where they were.
-/

namespace Localizer.Edit

open Text (slice)

/-- The buffer from offset `n` on, with the messages of edits in the places of their spans. -/
def substitute (s : Message) (n : Nat) : List Edit → Message
  | [] => s.drop n
  | e :: es => slice s n e.start ++ e.text ++ substitute s e.stop es

/-- Edits whose spans lie in a buffer of this length, each behind the one before. -/
structure InOrder (length : Nat) (edits : List Edit) : Prop where
  /-- No span starts before the end of an earlier one. -/
  disjoint : edits.Pairwise fun a b => a.stop ≤ b.start
  /-- Every span holds at least one character of the buffer. -/
  inside : ∀ e ∈ edits, e.start < e.stop ∧ e.stop ≤ length

namespace InOrder

variable {length : Nat} {e : Edit} {es : List Edit}

theorem nil : InOrder length [] := ⟨.nil, by simp⟩

theorem head (h : InOrder length (e :: es)) : e.start < e.stop ∧ e.stop ≤ length :=
  h.inside e (by simp)

theorem tail (h : InOrder length (e :: es)) : InOrder length es :=
  ⟨(List.pairwise_cons.1 h.disjoint).2, fun d hd => h.inside d (by simp [hd])⟩

theorem behind (h : InOrder length (e :: es)) : ∀ d ∈ es, e.stop ≤ d.start :=
  (List.pairwise_cons.1 h.disjoint).1

theorem cons (inside : e.start < e.stop ∧ e.stop ≤ length) (behind : ∀ d ∈ es, e.stop ≤ d.start)
    (h : InOrder length es) : InOrder length (e :: es) := by
  refine ⟨List.pairwise_cons.2 ⟨behind, h.disjoint⟩, ?_⟩
  intro d hd
  rcases List.mem_cons.1 hd with rfl | hd
  · exact inside
  · exact h.inside d hd

/-- The starts of edits in order increase. -/
theorem starts (h : InOrder length es) : es.Pairwise fun a b => a.start < b.start :=
  h.disjoint.imp_of_mem fun {a _} ha _ hab => Nat.lt_of_lt_of_le (h.inside a ha).1 hab

end InOrder

/-- Edits in order are applied in the reverse order. -/
theorem lastFirst_eq_reverse {length : Nat} {edits : List Edit} (h : InOrder length edits) :
    lastFirst edits = edits.reverse := by
  have starts := h.starts
  have sorted : (lastFirst edits).Pairwise fun a b => decide (b.start ≤ a.start) = true := by
    refine List.pairwise_mergeSort ?_ ?_ edits
    · intro a b c hab hbc
      simp only [decide_eq_true_eq] at hab hbc ⊢
      omega
    · intro a b
      simp only [Bool.or_eq_true, decide_eq_true_eq]
      omega
  have reversed : edits.reverse.Pairwise fun a b => decide (b.start ≤ a.start) = true := by
    rw [List.pairwise_reverse]
    exact starts.imp fun h => by simpa using Nat.le_of_lt h
  have perm : (lastFirst edits).Perm edits := List.mergeSort_perm _ _
  refine List.Perm.eq_of_pairwise ?_ sorted reversed (perm.trans edits.reverse_perm.symm)
  -- two edits of the list with the same start are the same edit
  intro a b ha hb hab hba
  have distinct : (edits.map Edit.start).Nodup := by
    rw [List.Nodup, List.pairwise_map]
    exact starts.imp fun h => Nat.ne_of_lt h
  refine List.inj_on_of_nodup_map distinct (perm.mem_iff.1 ha) (List.mem_reverse.1 hb) ?_
  simp only [decide_eq_true_eq] at hab hba
  omega

theorem foldl_apply_reverse {s : Message} {edits : List Edit} (h : InOrder s.length edits)
    {n : Nat} (hn : n ≤ s.length) (behind : ∀ e ∈ edits, n ≤ e.start) :
    edits.reverse.foldl apply s = s.take n ++ substitute s n edits := by
  induction edits generalizing n with
  | nil => simp [substitute]
  | cons e es ih =>
    obtain ⟨hspan, hstop⟩ := h.head
    have hstart := behind e (by simp)
    have front : (s.take e.stop).length = e.stop := by simpa using hstop
    have take : (s.take e.stop ++ substitute s e.stop es).take e.start = s.take e.start := by
      rw [List.take_append_of_le_length (by omega), List.take_take, Nat.min_eq_left (by omega)]
    have drop : (s.take e.stop ++ substitute s e.stop es).drop e.stop = substitute s e.stop es :=
      List.drop_left' front
    have cut : s.take e.start = s.take n ++ slice s n e.start := by
      conv_lhs => rw [← List.take_append_drop n (s.take e.start)]
      rw [List.take_take, Nat.min_eq_left hstart, slice]
    rw [List.reverse_cons, List.foldl_append, ih h.tail hstop h.behind]
    simp only [List.foldl_cons, List.foldl_nil, apply, substitute]
    rw [take, drop, cut]
    simp only [List.append_assoc]

/-- **Edits in order are substituted from left to right.** -/
theorem applyAll_eq_substitute {s : Message} {edits : List Edit} (h : InOrder s.length edits) :
    applyAll s edits = substitute s 0 edits := by
  rw [applyAll_eq_foldl, lastFirst_eq_reverse h,
    foldl_apply_reverse h (Nat.zero_le _) fun e _ => Nat.zero_le _]
  simp

end Localizer.Edit
