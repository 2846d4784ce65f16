-- SUMMARY: Writing a file in place: what is left of it when a call fails or the process dies.
import ChoirOverlay.Host.Installed

/-! # Files written in place -/

namespace Choir

open Crash Crash.Proc

/-- The outcomes of the calls. What `writes` leaves over is written at once. -/
structure InPlaceEnv where
  opens : Outcome := .ok
  writes : List FileWrite := []
  close : Outcome := .ok

/-- Truncate the file, write the text and close. -/
def writeInPlace (env : InPlaceEnv) (path text : Bytes) : Proc Files Bool :=
  (op env.opens fun fs => Function.update fs path (some [])).andThen <|
    (writeAll path env.writes text).bind fun ok =>
      (ask env.close).bind fun closed => done (ok && closed)

variable {env : InPlaceEnv} {path text : Bytes} {fs : Files}

/-- The process dies with the file open. -/
def InPlaceEnv.dies (env : InPlaceEnv) (text : Bytes) : Prop :=
  writesOutcome env.writes text = .dies ∨ env.close = .dies

theorem open_of_written (h : (writeInPlace env path text fs).result = some true) :
    env.opens = .ok := by
  have hopens := (andThen_true.mp h).1
  cases hopen : env.opens with
  | ok => rfl
  | fails | dies =>
    rw [hopen] at hopens
    cases hopens

theorem writeInPlace_of_not_open (hopen : env.opens ≠ .ok) :
    (writeInPlace env path text).last fs = fs := by
  rw [writeInPlace, last_op_andThen, if_neg hopen]

/-- What is left under the path once the file is open. -/
theorem writeInPlace_last (hopen : env.opens = .ok) :
    (writeInPlace env path text).last fs path = some (arriving env.writes text) := by
  have hempty : Function.update fs path (some []) path = some ([] : Bytes) :=
    Function.update_self ..
  have hsilent : ∀ (ok : Bool) (fs : Files),
      (((ask env.close).bind fun closed => done (ok && closed)) fs).moments = [] := by
    intro ok fs
    cases env.close <;> rfl
  rw [writeInPlace, last_op_andThen, if_pos hopen, last_bind_of_silent hsilent,
    writeAll_last _ hempty, List.nil_append]

/-- How it ends then. -/
theorem writeInPlace_result (hopen : env.opens = .ok) :
    (writeInPlace env path text fs).result =
      if writesOutcome env.writes text = .dies ∨ env.close = .dies then none
      else some (decide (writesOutcome env.writes text = .ok ∧ env.close = .ok)) := by
  have hwrites := @writeAll_result path env.writes text (Function.update fs path (some []))
  simp only [writeInPlace, hopen, andThen]
  rw [bind_of_some rfl]
  show ((writeAll path env.writes text).bind _ (Function.update fs path (some []))).result = _
  cases hwritten : writesOutcome env.writes text with
  | dies =>
    rw [hwritten] at hwrites
    rw [bind_of_none hwrites]
    simp
  | ok =>
    rw [hwritten] at hwrites
    rw [bind_of_some hwrites]
    cases env.close <;> rfl
  | fails =>
    rw [hwritten] at hwrites
    rw [bind_of_some hwrites]
    cases env.close <;> rfl

/-- Where it succeeds the file is the text. -/
theorem writeInPlace_written (h : (writeInPlace env path text fs).result = some true) :
    (writeInPlace env path text).last fs path = some text := by
  have hopen := open_of_written h
  rw [writeInPlace_result hopen] at h
  split at h
  · cases h
  · have hwritten : writesOutcome env.writes text = .ok :=
      (of_decide_eq_true (Option.some.inj h)).1
    rw [writeInPlace_last hopen, (arriving_eq_self_iff _ _).mpr hwritten]

end Choir
