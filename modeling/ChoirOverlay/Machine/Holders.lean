-- SUMMARY: A map whose entries hold something, and what they hold together.
import Mathlib.Algebra.BigOperators.Group.List.Basic
import Mathlib.Data.List.AList

/-!
# Holders

What the entries of a map hold is added up. An entry that is taken out takes its
share along, and one that is put in brings its own.
-/

universe u v w

namespace Ownership

variable {α : Type u} {β : Type v} {M : Type w} [DecidableEq α] [AddCommMonoid M]
  {f f' : α → β → M} {m : AList fun _ : α => β} {k : α} {b b' : β}

/-- An entry is the one that was put in, or was there under another key. -/
theorem lookup_insert_cases {k' : α} (h : (m.insert k b).lookup k' = some b') :
    k' = k ∧ b' = b ∨ k' ≠ k ∧ m.lookup k' = some b' := by
  rcases eq_or_ne k' k with rfl | hne
  · rw [AList.lookup_insert] at h
    exact .inl ⟨rfl, (Option.some.inj h).symm⟩
  · rw [AList.lookup_insert_ne hne] at h
    exact .inr ⟨hne, h⟩

/-- What is left is under another key. -/
theorem lookup_erase_cases {k' : α} (h : (m.erase k).lookup k' = some b') :
    k' ≠ k ∧ m.lookup k' = some b' := by
  rcases eq_or_ne k' k with rfl | hne
  · rw [AList.lookup_erase] at h
    cases h
  · rw [AList.lookup_erase_ne hne] at h
    exact ⟨hne, h⟩

/-- What all entries hold. -/
def total (f : α → β → M) (m : AList fun _ : α => β) : M :=
  (m.entries.map fun e => f e.1 e.2).sum

omit [DecidableEq α] in
@[simp] theorem total_empty : total f (∅ : AList fun _ : α => β) = 0 := rfl

theorem total_congr (h : ∀ k b, m.lookup k = some b → f k b = f' k b) : total f m = total f' m := by
  have hentry : ∀ e ∈ m.entries, f e.1 e.2 = f' e.1 e.2 := by
    rintro ⟨k, b⟩ he
    exact h k b (AList.mem_lookup_iff.mpr he)
  rw [total, total, List.map_congr_left hentry]

/-- The entry of a key is replaced, or there was none. -/
theorem total_insert : total f (m.insert k b) = f k b + total f (m.erase k) := by
  rw [total, AList.entries_insert, List.map_cons, List.sum_cons]
  rfl

theorem total_insert_new (hk : k ∉ m) : total f (m.insert k b) = f k b + total f m := by
  rw [total, AList.entries_insert_of_notMem hk, List.map_cons, List.sum_cons]
  rfl

/-- The share of one entry. -/
theorem total_erase (hb : m.lookup k = some b) :
    total f m = f k b + total f (m.erase k) := by
  have hmem : k ∈ m := AList.lookup_isSome.mp (Option.isSome_iff_exists.mpr ⟨b, hb⟩)
  obtain ⟨b', l₁, l₂, hl₁, hentries, herase⟩ := List.exists_of_kerase hmem
  have hlookup : List.dlookup k m.entries = some b' := by
    rw [hentries, List.dlookup_append, List.dlookup_eq_none.mpr hl₁, Option.none_or,
      List.dlookup_cons_eq]
  obtain rfl : b' = b := Option.some.inj (hlookup.symm.trans hb)
  have hrest : (m.erase k).entries = l₁ ++ l₂ := herase
  rw [total, total, hentries, hrest]
  simp only [List.map_append, List.map_cons, List.sum_append, List.sum_cons]
  exact add_left_comm ..

end Ownership
