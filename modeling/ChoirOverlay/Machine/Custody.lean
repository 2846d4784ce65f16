-- SUMMARY: A log of objects that are created and destroyed, and the custody of those created since some point of it.
import Mathlib.Algebra.Order.Group.Multiset

/-!
# Custody

Whoever creates an object destroys it once or hands it on. `Custody base l held`
says that of all objects created between `base` and `l`, each was destroyed once
or is held, and that nothing else was destroyed.
-/

universe u

namespace Ownership

structure Obj (κ : Type u) where
  kind : κ
  id : Nat
  deriving DecidableEq, Repr

/-- What was created and destroyed, in order. A part is not destroyed by itself: it
goes with the object it was made from. -/
structure Ledger (κ : Type u) where
  created : List (Obj κ) := []
  destroyed : List (Obj κ) := []
  /-- What each part was made from. -/
  parts : List (Obj κ) := []

variable {κ : Type u} {k : κ} {h : Option Nat} {base l l' m : Ledger κ}
  {held held' : Multiset (Obj κ)}

/-- What a handle stands for; a null handle stands for nothing. -/
def owned (k : κ) (h : Option Nat) : Multiset (Obj κ) := h.elim 0 fun id => {⟨k, id⟩}

@[simp] theorem owned_none : owned k none = 0 := rfl

@[simp] theorem owned_some (id : Nat) : owned k (some id) = {⟨k, id⟩} := rfl

namespace Ledger

/-- The handle a creation gives, null when it fails. -/
def fresh (l : Ledger κ) (ok : Bool) : Option Nat := if ok then some l.created.length else none

def create (l : Ledger κ) (k : κ) (ok : Bool) : Ledger κ :=
  if ok then { l with created := l.created ++ [⟨k, l.created.length⟩] } else l

/-- Destroy what a handle stands for, unless it is null. -/
def free (l : Ledger κ) (k : κ) (h : Option Nat) : Ledger κ :=
  match h with
  | none => l
  | some id => { l with destroyed := l.destroyed ++ [⟨k, id⟩] }

/-- Parts of what a handle stands for. -/
def addParts (l : Ledger κ) (k : κ) (h : Option Nat) (n : Nat) : Ledger κ :=
  match h with
  | none => l
  | some id => { l with parts := l.parts ++ List.replicate n ⟨k, id⟩ }

end Ledger

/-! ## Destroying -/

/-- From `l` to `l'` just these objects are destroyed, and none is created. -/
structure Destroys (l l' : Ledger κ) (gone : Multiset (Obj κ)) : Prop where
  created : l'.created = l.created
  parts : l'.parts = l.parts
  destroyed : ∃ ds : List (Obj κ), l'.destroyed = l.destroyed ++ ds ∧ ↑ds = gone

theorem Destroys.refl (l : Ledger κ) : Destroys l l 0 :=
  ⟨rfl, rfl, [], (List.append_nil _).symm, rfl⟩

theorem Destroys.free (l : Ledger κ) (k : κ) (h : Option Nat) :
    Destroys l (l.free k h) (owned k h) := by
  cases h with
  | none => exact Destroys.refl l
  | some id => exact ⟨rfl, rfl, [⟨k, id⟩], rfl, rfl⟩

theorem Destroys.trans (h : Destroys l m held) (h' : Destroys m l' held') :
    Destroys l l' (held + held') := by
  obtain ⟨ds, hds, rfl⟩ := h.destroyed
  obtain ⟨ds', hds', rfl⟩ := h'.destroyed
  refine ⟨h'.created.trans h.created, h'.parts.trans h.parts, ds ++ ds', ?_, ?_⟩
  · rw [hds', hds, List.append_assoc]
  · exact (Multiset.coe_add ds ds').symm

/-! ## Custody -/

/-- Each object created since `base` was destroyed once or is held, nothing else was
destroyed, and the parts made since are of such objects. -/
def Custody (base l : Ledger κ) (held : Multiset (Obj κ)) : Prop :=
  ∃ cs ds ps : List (Obj κ), l.created = base.created ++ cs ∧ l.destroyed = base.destroyed ++ ds ∧
    l.parts = base.parts ++ ps ∧ cs.map Obj.id = List.range' base.created.length cs.length ∧
    (cs : Multiset (Obj κ)) = ds + held ∧ ∀ p ∈ ps, p ∈ cs

namespace Custody

theorem refl (l : Ledger κ) : Custody l l 0 :=
  ⟨[], [], [], by simp, by simp, by simp, by simp, by simp, by simp⟩

theorem length_le (hl : Custody base l held) : base.created.length ≤ l.created.length := by
  obtain ⟨cs, -, -, hcs, -⟩ := hl
  rw [hcs, List.length_append]
  exact Nat.le_add_right ..

theorem create (hl : Custody base l held) (k : κ) (ok : Bool) :
    Custody base (l.create k ok) (held + owned k (l.fresh ok)) := by
  cases ok with
  | false => simpa [Ledger.create, Ledger.fresh] using hl
  | true =>
    obtain ⟨cs, ds, ps, hcs, hds, hps, hids, hheld, hparts⟩ := hl
    refine ⟨cs ++ [⟨k, l.created.length⟩], ds, ps, ?_, hds, hps, ?_, ?_, ?_⟩
    · simp [Ledger.create, hcs]
    · rw [List.map_append, hids, hcs, List.length_append, List.length_append, List.length_singleton,
        List.range'_concat, List.map_singleton, Nat.one_mul]
    · rw [← Multiset.coe_add, hheld, add_assoc]
      rfl
    · exact fun p hp => List.mem_append_left _ (hparts p hp)

/-- What is destroyed is no longer held. -/
theorem destroys {gone : Multiset (Obj κ)} (hl : Custody base l (held + gone))
    (hgone : Destroys l l' gone) : Custody base l' held := by
  obtain ⟨cs, ds, ps, hcs, hds, hps, hids, hheld, hparts⟩ := hl
  obtain ⟨ds', hds', rfl⟩ := hgone.destroyed
  refine ⟨cs, ds ++ ds', ps, ?_, ?_, ?_, hids, ?_, hparts⟩
  · rw [hgone.created, hcs]
  · rw [hds', hds, List.append_assoc]
  · rw [hgone.parts, hps]
  · rw [hheld, ← Multiset.coe_add, add_assoc, add_comm held]

theorem free (hl : Custody base l (held + owned k h)) : Custody base (l.free k h) held :=
  hl.destroys (.free l k h)

theorem addParts (hl : Custody base l (held + owned k h)) (n : Nat) :
    Custody base (l.addParts k h n) (held + owned k h) := by
  cases h with
  | none => exact hl
  | some id =>
    obtain ⟨cs, ds, ps, hcs, hds, hps, hids, hheld, hparts⟩ := hl
    have hmem : ⟨k, id⟩ ∈ cs := by
      rw [← Multiset.mem_coe, hheld]
      simp
    refine ⟨cs, ds, ps ++ List.replicate n ⟨k, id⟩, hcs, hds, ?_, hids, hheld, ?_⟩
    · simp [Ledger.addParts, hps]
    · intro p hp
      rcases List.mem_append.mp hp with hp | hp
      · exact hparts p hp
      · rwa [List.eq_of_mem_replicate hp]

/-- One stretch of the log after another. -/
theorem trans (hm : Custody base m held) (hl : Custody m l held') :
    Custody base l (held + held') := by
  obtain ⟨cs, ds, ps, hcs, hds, hps, hids, hheld, hparts⟩ := hm
  obtain ⟨cs', ds', ps', hcs', hds', hps', hids', hheld', hparts'⟩ := hl
  refine ⟨cs ++ cs', ds ++ ds', ps ++ ps', ?_, ?_, ?_, ?_, ?_, ?_⟩
  · rw [hcs', hcs, List.append_assoc]
  · rw [hds', hds, List.append_assoc]
  · rw [hps', hps, List.append_assoc]
  · rw [List.map_append, hids, hids', hcs, List.length_append, List.length_append,
      List.range'_append_1]
  · rw [← Multiset.coe_add, hheld, hheld', ← Multiset.coe_add, add_add_add_comm]
  · intro p hp
    rcases List.mem_append.mp hp with hp | hp
    · exact List.mem_append_left _ (hparts p hp)
    · exact List.mem_append_right _ (hparts' p hp)

/-- Each object created since `base` was destroyed once or is held once, and not
both; any other is neither. -/
theorem count_eq [DecidableEq κ] (hl : Custody base l held) (x : Obj κ) :
    (l.destroyed.drop base.destroyed.length).count x + held.count x =
      if x ∈ l.created.drop base.created.length then 1 else 0 := by
  obtain ⟨cs, ds, -, hcs, hds, -, hids, hheld, -⟩ := hl
  have hnodup : cs.Nodup := List.Nodup.of_map Obj.id (by rw [hids]; exact List.nodup_range')
  rw [hcs, hds, List.drop_left, List.drop_left, ← List.Nodup.count hnodup, ← Multiset.coe_count,
    ← Multiset.coe_count, hheld, Multiset.count_add]

end Custody

end Ownership
