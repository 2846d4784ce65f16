-- SUMMARY: Pre- and postconditions of procedures whose process may die, with a condition that holds at every moment.
import ChoirOverlay.Machine.Crash

/-!
# Conditions of fallible procedures

`Triple C P p Q`: from a state with `P` on, every state that `p` passes has `C`, and where
`p` comes to a result, the result and the state have `Q`. Wherever the process dies, it
leaves a state with `C`, if it began in one.
-/

universe u v

namespace Crash

variable {σ : Type u} {α β : Type} {C P P' : σ → Prop} {Q Q' : α → σ → Prop} {R : β → σ → Prop}
  {p : Proc σ α} {k : α → Proc σ β} {s : σ}

/-- Go by something of the state. -/
def Proc.reading (f : σ → β) (k : β → Proc σ α) : Proc σ α := fun s => k (f s) s

def Triple (C P : σ → Prop) (p : Proc σ α) (Q : α → σ → Prop) : Prop :=
  ∀ s, P s → (∀ m ∈ (p s).moments, C m) ∧ ∀ a, (p s).result = some a → Q a (p.last s)

namespace Triple

open Proc

/-! ## Operations -/

theorem done {a : α} (h : ∀ s, P s → Q a s) : Triple C P (Proc.done a) Q := by
  intro s hs
  refine ⟨fun _ hm => absurd hm List.not_mem_nil, fun b hb => ?_⟩
  obtain rfl := Option.some.inj hb
  exact h s hs

theorem die : Triple C P (Proc.die : Proc σ α) Q :=
  fun _ _ => ⟨fun _ hm => absurd hm List.not_mem_nil, fun _ ha => by cases ha⟩

/-- An operation on something else keeps what holds. -/
theorem ask (o : Outcome) : Triple C P (Proc.ask o) fun _ => P := by
  intro s hs
  refine ⟨fun m hm => ?_, fun b _ => ?_⟩
  · cases o <;> exact absurd hm List.not_mem_nil
  · rw [last_ask]
    exact hs

/-- What an operation does, where it takes effect. -/
theorem op (o : Outcome) {f : σ → σ} (h : ∀ s, P s → C (f s)) :
    Triple C P (Proc.op o f) fun ok s' => ∃ s, P s ∧ s' = if ok then f s else s := by
  intro s hs
  refine ⟨(moments_op o f).mpr fun _ => h s hs, fun ok hok => ⟨s, hs, ?_⟩⟩
  cases o with
  | ok =>
    obtain rfl := Option.some.inj hok
    rfl
  | fails =>
    obtain rfl := Option.some.inj hok
    rfl
  | dies => cases hok

/-- What an operation does that takes effect. -/
theorem op_ok {f : σ → σ} (h : ∀ s, P s → C (f s)) :
    Triple C P (Proc.op .ok f) fun ok s' => ok = true ∧ ∃ s, P s ∧ s' = f s := by
  intro s hs
  refine ⟨(moments_op .ok f).mpr fun _ => h s hs, fun ok hok => ⟨?_, s, hs, rfl⟩⟩
  exact (Option.some.inj hok).symm

/-- An operation that keeps a condition. -/
theorem op_keeps (o : Outcome) {f : σ → σ} (h : ∀ s, C s → C (f s)) :
    Triple C C (Proc.op o f) fun _ => C := by
  intro s hs
  refine ⟨(moments_op o f).mpr fun _ => h s hs, fun ok _ => ?_⟩
  rw [last_op]
  split
  · exact h s hs
  · exact hs

/-! ## Composition -/

theorem bind (hp : Triple C P p Q) (hk : ∀ a, Triple C (Q a) (k a) R) :
    Triple C P (p.bind k) R := by
  intro s hs
  obtain ⟨hmoments, hresult⟩ := hp s hs
  cases ha : (p s).result with
  | none =>
    rw [bind_of_none ha]
    exact ⟨hmoments, fun _ hb => by cases hb⟩
  | some a =>
    obtain ⟨hmoments', hresult'⟩ := hk a (p.last s) (hresult a ha)
    refine ⟨(moments_bind_of_some ha).mpr ⟨hmoments, hmoments'⟩, fun b hb => ?_⟩
    rw [last_bind_of_some ha]
    rw [bind_of_some ha] at hb
    exact hresult' b hb

/-- The second goes on where the first succeeded. -/
theorem andThen {p q : Proc σ Bool} {Q R : Bool → σ → Prop} (hp : Triple C P p Q)
    (hq : Triple C (Q true) q R) (hfails : ∀ s, Q false s → R false s) :
    Triple C P (p.andThen q) R := by
  refine hp.bind fun ok => ?_
  cases ok with
  | true => exact hq
  | false => exact done hfails

theorem imp (hp : Triple C P p Q) (hpre : ∀ s, P' s → P s) (hpost : ∀ a s, Q a s → Q' a s) :
    Triple C P' p Q' :=
  fun s hs => ⟨(hp s (hpre s hs)).1, fun a ha => hpost a _ ((hp s (hpre s hs)).2 a ha)⟩

/-- Less is said of the moments. -/
theorem weaken {C' : σ → Prop} (hp : Triple C P p Q) (hC : ∀ s, C s → C' s) : Triple C' P p Q :=
  fun s hs => ⟨fun m hm => hC m ((hp s hs).1 m hm), (hp s hs).2⟩

/-- Nothing is said of a procedure. -/
theorem any (p : Proc σ α) : Triple (fun _ => True) P p fun _ _ => True :=
  fun _ _ => ⟨fun _ _ => trivial, fun _ _ => trivial⟩

/-- A procedure that goes by what it reads. -/
theorem reading {f : σ → β} {k : β → Proc σ α}
    (h : ∀ b, Triple C (fun s => P s ∧ f s = b) (k b) Q) :
    Triple C P (Proc.reading f k) Q :=
  fun s hs => h (f s) s ⟨hs, rfl⟩

/-- Wherever it ends. -/
theorem last (hp : Triple C P p Q) (hs : P s) (hC : C s) : C (p.last s) :=
  holds_last hC (hp s hs).1

end Triple

end Crash
