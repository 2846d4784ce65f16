-- SUMMARY: The lines of a text: what stands between its separators, where the last one may end the text.

/-! # Lines -/

universe u

variable {α : Type u} [DecidableEq α] {sep : α} {l rest : List α}

/-- The lines of a text; a separator at its end starts no further line. -/
def linesOf (sep : α) : List α → List (List α)
  | [] => []
  | a :: s =>
    if a = sep then
      [] :: linesOf sep s
    else
      match linesOf sep s with
      | [] => [[a]]
      | l :: ls => (a :: l) :: ls

theorem linesOf_append (h : sep ∉ l) (rest : List α) :
    linesOf sep (l ++ sep :: rest) = l :: linesOf sep rest := by
  induction l with
  | nil => rw [List.nil_append, linesOf, if_pos rfl]
  | cons a l ih =>
    have hne : a ≠ sep := fun heq => h (heq ▸ List.mem_cons_self)
    have hl : sep ∉ l := fun hmem => h (List.mem_cons_of_mem a hmem)
    rw [List.cons_append, linesOf, if_neg hne, ih hl]

/-- Lines that are all closed come before what follows them. -/
theorem linesOf_flatMap {ls : List (List α)} (h : ∀ l ∈ ls, sep ∉ l) (rest : List α) :
    linesOf sep (ls.flatMap (· ++ [sep]) ++ rest) = ls ++ linesOf sep rest := by
  induction ls with
  | nil => rfl
  | cons l ls ih =>
    obtain ⟨hl, hls⟩ := List.forall_mem_cons.mp h
    rw [List.flatMap_cons, List.append_assoc, List.append_assoc, List.singleton_append,
      linesOf_append hl, ih hls, List.cons_append]
