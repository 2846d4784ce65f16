-- SUMMARY: State kept under handles that are used again for new objects: whether the state a use finds was made for the same object.

/-!
# Reused handles

State about an object is kept under the object's handle: the first use makes
it, a drop takes it away. The handle of an object that is gone may come back
for another object; if the state was not dropped it is found again.
-/

universe u

namespace Handles

/-- What happens to handles, in a history with the newest event first. -/
inductive Event (κ : Type u) where
  /-- A new object gets the handle. -/
  | make (key : κ)
  /-- The state under the handle is used; where there is none it is made, and
      `ok` tells whether that works. -/
  | use (key : κ) (ok : Bool)
  | drop (key : κ)

/-- The state under a handle. -/
structure Entry where
  /-- Which object of this handle it was made for. -/
  madeFor : Nat
  ok : Bool
  deriving DecidableEq, Repr

variable {κ : Type u} [DecidableEq κ] {k k' : κ} {history : List (Event κ)}

/-- How many objects have had the handle. -/
def incarnation (k : κ) : List (Event κ) → Nat
  | [] => 0
  | .make k' :: past => if k' = k then incarnation k past + 1 else incarnation k past
  | .use _ _ :: past | .drop _ :: past => incarnation k past

def entry (k : κ) : List (Event κ) → Option Entry
  | [] => none
  | .make _ :: past => entry k past
  | .use k' ok :: past =>
    if k' = k then (entry k past).or (some ⟨incarnation k past, ok⟩) else entry k past
  | .drop k' :: past => if k' = k then none else entry k past

/-- State that works was made under the handle, and then a new object got the
    handle, with no drop in between or since. -/
def stale (k : κ) : List (Event κ) → Bool
  | [] => false
  | .make k' :: past =>
    if k' = k then (entry k past).any Entry.ok else stale k past
  | .use _ _ :: past => stale k past
  | .drop k' :: past => if k' = k then false else stale k past

/-- Stale state is there. -/
theorem entry_ok_of_stale (h : stale k history = true) : (entry k history).any Entry.ok = true := by
  induction history with
  | nil => cases h
  | cons e past ih =>
    cases e with
    | make k' =>
      rw [stale] at h
      split at h
      · exact h
      · exact ih h
    | use k' ok =>
      have hpast := ih h
      rw [entry]
      split
      · cases hentry : entry k past with
        | none => rw [hentry] at hpast; cases hpast
        | some e => rw [hentry] at hpast; exact hpast
      · exact hpast
    | drop k' =>
      rw [stale] at h
      rw [entry]
      split at h
      · cases h
      · rename_i hne
        rw [if_neg hne]
        exact ih h

/-- State that works was made for the object the handle now stands for, exactly
    when it is not stale. -/
theorem madeFor_eq_iff {e : Entry} (he : entry k history = some e) (hok : e.ok = true) :
    e.madeFor ≤ incarnation k history ∧
      (e.madeFor = incarnation k history ↔ stale k history = false) := by
  induction history with
  | nil => cases he
  | cons event past ih =>
    cases event with
    | make k' =>
      obtain ⟨hle, hiff⟩ := ih he
      rw [incarnation, stale]
      split
      · refine ⟨Nat.le_succ_of_le hle, iff_of_false (by omega) ?_⟩
        rw [show entry k past = some e from he]
        simp [hok]
      · exact ⟨hle, hiff⟩
    | use k' ok =>
      rw [entry] at he
      split at he
      · cases hpast : entry k past with
        | none =>
          rw [hpast, Option.none_or, Option.some.injEq] at he
          subst he
          refine ⟨Nat.le_refl _, iff_of_true rfl ?_⟩
          rw [stale, Bool.eq_false_iff]
          intro hstale
          have := entry_ok_of_stale hstale
          rw [hpast] at this
          cases this
        | some e' =>
          rw [hpast, Option.some_or] at he
          exact ih (hpast.trans he)
      · exact ih he
    | drop k' =>
      rw [entry] at he
      split at he
      · cases he
      · rename_i hne
        rw [incarnation, stale, if_neg hne]
        exact ih he

end Handles
