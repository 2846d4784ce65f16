-- SUMMARY: A map under a key of each object, which is the map of the objects as long as no two of them share a key.
import Mathlib.Data.List.AList

/-!
# Maps under a key

An object is looked up by a key that is computed from it. `Keyed` compares the map
with what is meant of each object.
-/

universe u v w x

namespace Keyed

variable {α : Type u} {κ : Type v} {β : Type w} {γ : Type x} [DecidableEq α] [DecidableEq κ]

/-- The entry of each object is right, every entry is of an object, and no two objects have one
key. -/
structure Represents (key : α → κ) (rel : α → β → γ → Prop) (m : AList fun _ : κ => β)
    (live : α → Option γ) : Prop where
  found : ∀ a c, live a = some c → ∃ b, m.lookup (key a) = some b ∧ rel a b c
  only : ∀ k b, m.lookup k = some b → ∃ a c, key a = k ∧ live a = some c
  apart : ∀ a a' c c', live a = some c → live a' = some c' → key a = key a' → a = a'

variable {key : α → κ} {rel : α → β → γ → Prop} {m : AList fun _ : κ => β} {live : α → Option γ}
  {a : α} {b : β} {c : γ}

omit [DecidableEq α] in
theorem Represents.empty : Represents key rel ∅ fun _ => none where
  found _ _ h := by cases h
  only k b h := by simp at h
  apart _ _ _ _ h := by cases h

namespace Represents

omit [DecidableEq α] in
theorem of_eq {live' : α → Option γ} (h : Represents key rel m live) (hlive : live' = live) :
    Represents key rel m live' :=
  hlive ▸ h

omit [DecidableEq α] in
/-- What is not an object has no entry, if no object has its key. -/
theorem lookup_none (h : Represents key rel m live) (hlive : live a = none)
    (hkey : ∀ a' c', live a' = some c' → key a' = key a → a' = a) : m.lookup (key a) = none := by
  cases hlookup : m.lookup (key a) with
  | none => rfl
  | some b =>
    obtain ⟨a', c', hk, hc⟩ := h.only (key a) b hlookup
    obtain rfl := hkey a' c' hc hk
    rw [hlive] at hc
    cases hc

/-- A new object, with a key of its own. -/
theorem insert (h : Represents key rel m live) (hkey : ∀ a' c', live a' = some c' → key a' ≠ key a)
    (hrel : rel a b c) :
    Represents key rel (m.insert (key a) b) (Function.update live a (some c)) where
  found a' c' hc := by
    by_cases ha : a' = a
    · subst ha
      rw [Function.update_self] at hc
      obtain rfl := Option.some.inj hc
      exact ⟨b, AList.lookup_insert m, hrel⟩
    · rw [Function.update_of_ne ha] at hc
      rw [AList.lookup_insert_ne (hkey a' c' hc)]
      exact h.found a' c' hc
  only k b' hb := by
    by_cases hk : k = key a
    · exact ⟨a, c, hk.symm, Function.update_self ..⟩
    · rw [AList.lookup_insert_ne hk] at hb
      obtain ⟨a', c', rfl, hc⟩ := h.only k b' hb
      have ha : a' ≠ a := fun ha => hk (ha ▸ rfl)
      exact ⟨a', c', rfl, (Function.update_of_ne ha ..).trans hc⟩
  apart a₁ a₂ c₁ c₂ h₁ h₂ hk := by
    rw [Function.update_apply] at h₁ h₂
    split at h₁
    · rename_i ha₁
      split at h₂
      · rename_i ha₂
        exact ha₁.trans ha₂.symm
      · exact absurd hk.symm (ha₁ ▸ hkey a₂ c₂ h₂)
    · split at h₂
      · rename_i ha₂
        exact absurd hk (ha₂ ▸ hkey a₁ c₁ h₁)
      · exact h.apart a₁ a₂ c₁ c₂ h₁ h₂ hk

/-- An object goes. -/
theorem erase (h : Represents key rel m live) (hlive : live a = some c) :
    Represents key rel (m.erase (key a)) (Function.update live a none) where
  found a' c' hc := by
    rw [Function.update_apply] at hc
    split at hc
    · cases hc
    · rename_i ha
      have hkey : key a' ≠ key a := fun hk => ha (h.apart a' a c' c hc hlive hk)
      rw [AList.lookup_erase_ne hkey]
      exact h.found a' c' hc
  only k b hb := by
    by_cases hk : k = key a
    · rw [hk, AList.lookup_erase] at hb
      cases hb
    · rw [AList.lookup_erase_ne hk] at hb
      obtain ⟨a', c', rfl, hc⟩ := h.only k b hb
      have ha : a' ≠ a := fun ha => hk (ha ▸ rfl)
      exact ⟨a', c', rfl, (Function.update_of_ne ha ..).trans hc⟩
  apart a₁ a₂ c₁ c₂ h₁ h₂ hk := by
    rw [Function.update_apply] at h₁ h₂
    split at h₁
    · cases h₁
    · split at h₂
      · cases h₂
      · exact h.apart a₁ a₂ c₁ c₂ h₁ h₂ hk

end Represents

end Keyed
