-- SUMMARY: Who is present after a history of joins and leaves, since when, and how one more event changes that.
import Mathlib.Data.List.DropRight

/-!
# Presence

Events come in the order they happened. Someone is present when the last event
that joins or leaves is a join; the present stay starts with the first join
after the last leave.
-/

universe u

namespace Presence

variable {ε : Type u} (joins leaves : ε → Bool)

def present (es : List ε) : Bool :=
  (es.filter fun e => joins e || leaves e).getLast?.any joins

/-- The events after the last leave. -/
def stay (es : List ε) : List ε := es.rtakeWhile fun e => !leaves e

/-- The position of the join the present stay starts with. -/
def start (es : List ε) : Nat :=
  es.length - (stay leaves es).length + (stay leaves es).findIdx joins

/-- What came after that join. -/
def since (es : List ε) : List ε := es.drop (start joins leaves es + 1)

variable {joins leaves} {es : List ε} {e : ε}

theorem present_concat :
    present joins leaves (es ++ [e]) = (joins e || !leaves e && present joins leaves es) := by
  unfold present
  rw [List.filter_append, List.filter_singleton]
  cases hj : joins e with
  | true => simp [hj]
  | false =>
    cases hl : leaves e with
    | true => simp [hj]
    | false => simp

theorem stay_concat (hleaves : leaves e = false) :
    stay leaves (es ++ [e]) = stay leaves es ++ [e] :=
  List.rtakeWhile_concat_pos _ _ _ (by simp [hleaves])

theorem stay_concat_of_leaves (hleaves : leaves e = true) : stay leaves (es ++ [e]) = [] :=
  List.rtakeWhile_concat_neg _ _ _ (by simp [hleaves])

theorem length_stay_le : (stay leaves es).length ≤ es.length :=
  (List.rtakeWhile_suffix _ _).length_le

/-- Someone is present exactly when there was a join after the last leave. -/
theorem present_iff (hdisjoint : ∀ e, joins e → ¬leaves e) :
    present joins leaves es = true ↔ ∃ e ∈ stay leaves es, joins e := by
  induction es using List.reverseRecOn with
  | nil => simp [present, stay]
  | append_singleton es e ih =>
    rw [present_concat]
    cases hl : leaves e with
    | true =>
      have hj : joins e = false := by
        by_contra hj
        exact hdisjoint e (by simpa using hj) hl
      simp [stay_concat_of_leaves hl, hj]
    | false =>
      simp only [stay_concat hl, List.mem_append, List.mem_singleton, Bool.not_false,
        Bool.true_and, Bool.or_eq_true, ih, or_and_right, exists_or, exists_eq_left]
      exact Or.comm

/-- The join the stay starts with has happened. -/
theorem start_lt (hdisjoint : ∀ e, joins e → ¬leaves e) (h : present joins leaves es = true) :
    start joins leaves es < es.length := by
  have hfound := List.findIdx_lt_length.mpr ((present_iff hdisjoint).mp h)
  have hle : (stay leaves es).length ≤ es.length := length_stay_le
  unfold start
  omega

theorem start_concat (hdisjoint : ∀ e, joins e → ¬leaves e) (h : present joins leaves es = true)
    (hleaves : leaves e = false) : start joins leaves (es ++ [e]) = start joins leaves es := by
  have hfound := List.findIdx_lt_length.mpr ((present_iff hdisjoint).mp h)
  unfold start
  rw [stay_concat hleaves, List.findIdx_append, if_pos hfound, List.length_append,
    List.length_append, List.length_singleton, Nat.add_sub_add_right]

/-- Who was not present starts with the join. -/
theorem start_concat_of_joins (hdisjoint : ∀ e, joins e → ¬leaves e)
    (h : present joins leaves es = false) (hjoins : joins e = true) :
    start joins leaves (es ++ [e]) = es.length := by
  have hleaves : leaves e = false := by simpa using hdisjoint e hjoins
  have hnone : (stay leaves es).findIdx joins = (stay leaves es).length := by
    refine List.findIdx_eq_length_of_false fun e he => ?_
    by_contra hj
    have hpresent := (present_iff hdisjoint).mpr ⟨e, he, by simpa using hj⟩
    rw [h] at hpresent
    cases hpresent
  have hle : (stay leaves es).length ≤ es.length := length_stay_le
  unfold start
  rw [stay_concat hleaves, List.findIdx_append, hnone]
  simp [hjoins]
  omega

theorem since_concat (hdisjoint : ∀ e, joins e → ¬leaves e) (h : present joins leaves es = true)
    (hleaves : leaves e = false) :
    since joins leaves (es ++ [e]) = since joins leaves es ++ [e] := by
  unfold since
  rw [start_concat hdisjoint h hleaves, List.drop_append_of_le_length (start_lt hdisjoint h)]

theorem since_concat_of_joins (hdisjoint : ∀ e, joins e → ¬leaves e)
    (h : present joins leaves es = false) (hjoins : joins e = true) :
    since joins leaves (es ++ [e]) = [] := by
  unfold since
  rw [start_concat_of_joins hdisjoint h hjoins]
  simp

end Presence
