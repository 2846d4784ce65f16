-- SUMMARY: Append-only event logs, kept newest first: properties of every entry given the entries before it.

/-!
# Logs

A log is a list with its newest entry first, so the entries that came before
an entry are the tail it is consed to. Ordering laws ("this is written only
after that was received") are properties of an entry given that tail.
-/

universe u

namespace Log

variable {α : Type u} {φ : List α → α → Prop}

/-- Every entry satisfies `φ` given the entries before it. -/
def Each (φ : List α → α → Prop) : List α → Prop
  | [] => True
  | a :: past => φ past a ∧ Each φ past

@[simp] theorem each_nil : Each φ ([] : List α) := trivial

@[simp] theorem each_cons (a : α) (past : List α) :
    Each φ (a :: past) ↔ φ past a ∧ Each φ past := Iff.rfl

/-! ## Sequences of entries -/

/-- Entries that satisfy the tests stand in the log, that of the first test
    newest. -/
def saw : List (α → Bool) → List α → Bool
  | [], _ => true
  | _ :: _, [] => false
  | p :: ps, a :: past => (p a && saw ps past) || saw (p :: ps) past

variable {p : α → Bool} {ps : List (α → Bool)} {a : α} {past log : List α}

@[simp] theorem saw_nil : saw [] log = true := by cases log <;> rfl

theorem saw_cons_of_test (hp : p a = true) (h : saw ps past = true) :
    saw (p :: ps) (a :: past) = true := by
  simp [saw, hp, h]

/-- What was seen stays seen. -/
theorem saw_cons (h : saw ps past = true) : saw ps (a :: past) = true := by
  cases ps with
  | nil => exact saw_nil
  | cons p ps => simp [saw, h]

theorem saw_of_suffix (h : saw ps past = true) (hsuffix : past <:+ log) : saw ps log = true := by
  obtain ⟨later, rfl⟩ := hsuffix
  induction later with
  | nil => exact h
  | cons a later ih => exact saw_cons ih

instance decidableEach [∀ past a, Decidable (φ past a)] : (log : List α) → Decidable (Each φ log)
  | [] => .isTrue trivial
  | a :: past =>
    have := decidableEach past
    inferInstanceAs (Decidable (φ past a ∧ Each φ past))

end Log
