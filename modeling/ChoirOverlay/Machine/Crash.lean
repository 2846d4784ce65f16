-- SUMMARY: Procedures whose operations may fail and whose process may die between any two of them, and when one refines another.

/-!
# Fallible procedures

A procedure passes states. Each operation is given its outcome: it takes
effect, fails without one, or the process dies before it. What holds "at every
moment" holds of every state a procedure passes.

`Refines` compares two procedures through a view of the states: they come to
the same result, and whatever holds at the start holds at every moment of one
exactly when it does at every moment of the other.
-/

universe u

namespace Crash

inductive Outcome where
  | ok
  | fails
  /-- The process dies before the operation. -/
  | dies
  deriving DecidableEq, Repr

/-- The states a procedure passes, in order, without the one it starts in, and
    its result, unless the process died. -/
structure Passage (σ : Type u) (α : Type) where
  moments : List σ
  result : Option α

def Proc (σ : Type u) (α : Type) := σ → Passage σ α

variable {σ ν : Type u} {α β : Type} {s : σ}

namespace Proc

/-- The state a procedure leaves. -/
def last (p : Proc σ α) (s : σ) : σ := (p s).moments.getLastD s

/-- The result, without passing a state. -/
def done (a : α) : Proc σ α := fun _ => ⟨[], some a⟩

def die : Proc σ α := fun _ => ⟨[], none⟩

def bind (p : Proc σ α) (k : α → Proc σ β) : Proc σ β := fun s =>
  match (p s).result with
  | none => ⟨(p s).moments, none⟩
  | some a => ⟨(p s).moments ++ (k a (p.last s)).moments, (k a (p.last s)).result⟩

/-- An operation, and whether it took effect. -/
def op (o : Outcome) (f : σ → σ) : Proc σ Bool := fun s =>
  match o with
  | .ok => ⟨[f s], some true⟩
  | .fails => ⟨[], some false⟩
  | .dies => ⟨[], none⟩

/-- An operation on something else than the state. -/
def ask (o : Outcome) : Proc σ Bool := fun _ =>
  match o with
  | .ok => ⟨[], some true⟩
  | .fails => ⟨[], some false⟩
  | .dies => ⟨[], none⟩

/-- Go on after a success. -/
def andThen (p q : Proc σ Bool) : Proc σ Bool := p.bind fun ok => if ok then q else done false

variable {p : Proc σ α} {k : α → Proc σ β}

@[simp] theorem ask_ok_andThen (q : Proc σ Bool) : (ask .ok).andThen q = q := rfl

@[simp] theorem last_done (a : α) : (done a : Proc σ α).last s = s := rfl

@[simp] theorem last_die : (die : Proc σ α).last s = s := rfl

@[simp] theorem last_ask (o : Outcome) : (ask o).last s = s := by cases o <;> rfl

theorem last_op (o : Outcome) (f : σ → σ) : (op o f).last s = if o = .ok then f s else s := by
  cases o <;> rfl

theorem last_op_of_true {o : Outcome} {f : σ → σ} (h : (op o f s).result = some true) :
    (op o f).last s = f s := by
  cases o with
  | ok => rfl
  | fails => cases h
  | dies => cases h

theorem bind_of_none (h : (p s).result = none) : p.bind k s = ⟨(p s).moments, none⟩ := by
  simp only [bind, h]

theorem bind_of_some {a : α} (h : (p s).result = some a) :
    p.bind k s = ⟨(p s).moments ++ (k a (p.last s)).moments, (k a (p.last s)).result⟩ := by
  simp only [bind, h]

theorem andThen_true {p q : Proc σ Bool} :
    (p.andThen q s).result = some true ↔
      (p s).result = some true ∧ (q (p.last s)).result = some true := by
  rw [andThen]
  cases h : (p s).result with
  | none => simp [bind_of_none h]
  | some ok => cases ok <;> simp [bind_of_some h, done]

private theorem getLastD_append (xs ys : List σ) (s : σ) :
    (xs ++ ys).getLastD s = ys.getLastD (xs.getLastD s) := by
  cases ys with
  | nil => simp
  | cons y ys => simp [List.getLastD_eq_getLast?, List.getLast?_append]

theorem last_bind_of_none (h : (p s).result = none) : (p.bind k).last s = p.last s := by
  rw [last, bind_of_none h, last]

theorem last_bind_of_some {a : α} (h : (p s).result = some a) :
    (p.bind k).last s = (k a).last (p.last s) := by
  rw [last, bind_of_some h, last, getLastD_append, last]

/-- What holds at the start and at every moment holds at the end. -/
theorem holds_last {C : σ → Prop} (hs : C s) (h : ∀ m ∈ (p s).moments, C m) : C (p.last s) := by
  rw [last, List.getLastD_eq_getLast?]
  cases hlast : (p s).moments.getLast? with
  | none => exact hs
  | some m => exact h m (List.mem_of_getLast? hlast)

/-! ## Moments -/

theorem moments_op {C : σ → Prop} (o : Outcome) (f : σ → σ) :
    (∀ m ∈ (op o f s).moments, C m) ↔ (o = .ok → C (f s)) := by
  cases o <;> simp [op]

theorem moments_bind_of_some {C : σ → Prop} {a : α} (h : (p s).result = some a) :
    (∀ m ∈ (p.bind k s).moments, C m) ↔
      (∀ m ∈ (p s).moments, C m) ∧ ∀ m ∈ (k a (p.last s)).moments, C m := by
  rw [bind_of_some h]
  exact List.forall_mem_append

/-- What comes after passes nothing. -/
theorem moments_bind_of_silent {C : σ → Prop} (hk : ∀ a s, (k a s).moments = []) :
    (∀ m ∈ (p.bind k s).moments, C m) ↔ ∀ m ∈ (p s).moments, C m := by
  cases h : (p s).result with
  | none => rw [bind_of_none h]
  | some a => simp [moments_bind_of_some h, hk]

/-- An operation, and what comes after it. -/
theorem moments_op_bind {C : σ → Prop} (o : Outcome) (f : σ → σ) (k : Bool → Proc σ β) :
    (∀ m ∈ ((op o f).bind k s).moments, C m) ↔
      (o = .ok → C (f s) ∧ ∀ m ∈ (k true (f s)).moments, C m) ∧
        (o = .fails → ∀ m ∈ (k false s).moments, C m) := by
  cases o <;> simp [bind, op, last]

/-- The same where a failure is the end. -/
theorem moments_op_andThen {C : σ → Prop} (o : Outcome) (f : σ → σ) (q : Proc σ Bool) :
    (∀ m ∈ ((op o f).andThen q s).moments, C m) ↔
      (o = .ok → C (f s) ∧ ∀ m ∈ (q (f s)).moments, C m) := by
  rw [andThen, moments_op_bind]
  simp [done]

theorem last_bind_of_silent (hk : ∀ a s, (k a s).moments = []) : (p.bind k).last s = p.last s := by
  cases h : (p s).result with
  | none => exact last_bind_of_none h
  | some a => rw [last_bind_of_some h, last, hk, List.getLastD_nil]

theorem last_op_bind (o : Outcome) (f : σ → σ) (k : Bool → Proc σ β) :
    ((op o f).bind k).last s =
      match o with
      | .ok => (k true).last (f s)
      | .fails => (k false).last s
      | .dies => s := by
  cases o with
  | ok => exact last_bind_of_some rfl
  | fails => exact last_bind_of_some rfl
  | dies => exact last_bind_of_none rfl

theorem last_op_andThen (o : Outcome) (f : σ → σ) (q : Proc σ Bool) :
    ((op o f).andThen q).last s = if o = .ok then q.last (f s) else s := by
  rw [andThen, last_op_bind]
  cases o <;> rfl

end Proc

open Proc

/-! ## Refinement -/

/-- From `s` on, `p` passes what `q` passes, seen through `view`. -/
structure Refines (view : σ → ν) (p : Proc σ α) (q : Proc ν α) (s : σ) : Prop where
  result : (p s).result = (q (view s)).result
  last : view (p.last s) = q.last (view s)
  moments : ∀ {C : ν → Prop}, C (view s) →
    ((∀ m ∈ (p s).moments, C (view m)) ↔ ∀ m ∈ (q (view s)).moments, C m)

variable {view : σ → ν} {p : Proc σ α} {q : Proc ν α}

theorem refines_done (a : α) : Refines view (done a) (done a) s :=
  ⟨rfl, rfl, fun _ => by simp [done]⟩

theorem refines_die : Refines view (die : Proc σ α) die s :=
  ⟨rfl, rfl, fun _ => by simp [die]⟩

theorem refines_ask (o : Outcome) : Refines view (ask o) (ask o) s := by
  cases o with
  | ok => exact refines_done true
  | fails => exact refines_done false
  | dies => exact refines_die

/-- An operation that the view shows. -/
theorem refines_op (o : Outcome) {f : σ → σ} {g : ν → ν} (h : view (f s) = g (view s)) :
    Refines view (op o f) (op o g) s := by
  refine ⟨by cases o <;> rfl, ?_, fun {C} _ => ?_⟩
  · rw [last_op, last_op]
    split
    · exact h
    · rfl
  · have hp : (∀ m ∈ (op o f s).moments, C (view m)) ↔ (o = .ok → C (view (f s))) := moments_op o f
    rw [hp, moments_op, h]

/-- An operation that it does not show. -/
theorem refines_op_ask (o : Outcome) {f : σ → σ} (h : view (f s) = view s) :
    Refines view (op o f) (ask o) s := by
  refine ⟨by cases o <;> rfl, ?_, fun {C} hs => ?_⟩
  · rw [last_op, last_ask]
    split
    · exact h
    · rfl
  · have hp : (∀ m ∈ (op o f s).moments, C (view m)) ↔ (o = .ok → C (view (f s))) := moments_op o f
    rw [hp, h]
    cases o <;> simp [ask, hs]

namespace Refines

/-- What holds at the start and at every moment of the one that is refined
    holds where the other ends. -/
theorem holds_last (h : Refines view p q s) {C : ν → Prop} (hs : C (view s))
    (hq : ∀ m ∈ (q (view s)).moments, C m) : C (view (p.last s)) := by
  rw [h.last]
  exact Proc.holds_last hs hq

variable {k : α → Proc σ β} {l : α → Proc ν β}

theorem bind (h : Refines view p q s)
    (hk : ∀ a, (p s).result = some a → Refines view (k a) (l a) (p.last s)) :
    Refines view (p.bind k) (q.bind l) s := by
  cases hq : (q (view s)).result with
  | none =>
    have hp : (p s).result = none := h.result.trans hq
    refine ⟨?_, ?_, fun hs => ?_⟩
    · rw [bind_of_none hp, bind_of_none hq]
    · rw [last_bind_of_none hp, last_bind_of_none hq, h.last]
    · rw [bind_of_none hp, bind_of_none hq]
      exact h.moments hs
  | some a =>
    have hp : (p s).result = some a := h.result.trans hq
    have hka := hk a hp
    refine ⟨?_, ?_, fun hs => ?_⟩
    · rw [bind_of_some hp, bind_of_some hq]
      simp only [hka.result, h.last]
    · rw [last_bind_of_some hp, last_bind_of_some hq, hka.last, h.last]
    · rw [moments_bind_of_some hq, bind_of_some hp, List.forall_mem_append, h.moments hs]
      -- The second half starts where the first ends, and `C` holds there.
      refine and_congr_right fun hfirst => ?_
      rw [hka.moments (h.holds_last hs hfirst), h.last]

theorem andThen {p p' : Proc σ Bool} {q q' : Proc ν Bool} (h : Refines view p q s)
    (h' : (p s).result = some true → Refines view p' q' (p.last s)) :
    Refines view (p.andThen p') (q.andThen q') s := by
  refine h.bind fun ok hok => ?_
  cases ok with
  | true => exact h' hok
  | false => exact refines_done false

end Refines

end Crash
