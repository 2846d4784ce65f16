-- SUMMARY: The distinct elements of a list in the order they first occur, without those seen before.
import Mathlib.Data.List.Basic

/-!
# First occurrences

A loop that keeps a set of what it has seen passes over a list and acts on
what is new. What it acts on is `firsts`.
-/

universe u

namespace Firsts

variable {α : Type u} [BEq α] {a : α} {seen l : List α}

def firsts (seen l : List α) : List α := (l.filter fun a => !seen.contains a).eraseDups

@[simp] theorem firsts_nil : firsts seen [] = [] := rfl

theorem firsts_of_nothing_seen : firsts [] l = l.eraseDups := by
  have hall : l.filter (fun a => !([] : List α).contains a) = l := List.filter_eq_self.mpr (by simp)
  rw [firsts, hall]

variable [LawfulBEq α]

theorem firsts_cons_of_mem (h : a ∈ seen) : firsts seen (a :: l) = firsts seen l := by
  rw [firsts, List.filter_cons_of_neg (by simpa using h), firsts]

/-- What is new has been seen from then on. -/
theorem firsts_cons_of_not_mem (h : a ∉ seen) :
    firsts seen (a :: l) = a :: firsts (a :: seen) l := by
  rw [firsts, List.filter_cons_of_pos (by simpa using h), List.eraseDups_cons, firsts,
    List.filter_filter]
  congr 3
  funext b
  rw [List.contains_cons, Bool.not_or]

end Firsts
