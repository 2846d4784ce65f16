-- SUMMARY: Buffers that are submitted with a fence: when a fence may be waited for, when a buffer may be used again, and the flag that mirrors both.
import ChoirOverlay.Machine.Log

/-!
# Fences

A buffer is handed to a queue together with a fence, which is waited for before
the buffer is used again. A fence is reset before it is submitted anew; waiting
for one that was reset and not submitted blocks forever.

`Mirrors` is what a flag "in flight" has to say of the log. The rules below
carry it over each event.
-/

universe u v

namespace Fences

/-- What happens to buffers and fences, in a log with the newest event first. -/
inductive Event (β : Type u) (φ : Type v) where
  | submit (buffer : β) (fence : φ)
  | wait (fence : φ)
  | reset (fence : φ)
  /-- The buffer is recorded anew or freed. -/
  | use (buffer : β)

variable {β : Type u} {φ : Type v} {b b' : β} {f f' : φ} {log : List (Event β φ)} {flag : Bool}

/-- The fence was submitted since its latest reset. -/
def Armed (f : φ) : List (Event β φ) → Prop
  | [] => False
  | .submit _ f' :: past => f' = f ∨ Armed f past
  | .reset f' :: past => f' ≠ f ∧ Armed f past
  | .wait _ :: past | .use _ :: past => Armed f past

/-- Some submit of the buffer with the fence was not waited for. -/
def Pending (b : β) (f : φ) : List (Event β φ) → Prop
  | [] => False
  | .submit b' f' :: past => (b' = b ∧ f' = f) ∨ Pending b f past
  | .wait f' :: past => f' ≠ f ∧ Pending b f past
  | .reset _ :: past | .use _ :: past => Pending b f past

/-- Every submit of the buffer was waited for. -/
def Idle (b : β) (log : List (Event β φ)) : Prop := ∀ f, ¬ Pending b f log

/-- A wait returns, and a buffer is used by nobody else. -/
def Lawful (past : List (Event β φ)) : Event β φ → Prop
  | .wait f => Armed f past
  | .use b => Idle b past
  | .submit _ _ | .reset _ => True

/-- The flag says of a buffer and its fence whether a submit is out. -/
structure Mirrors (flag : Bool) (b : β) (f : φ) (log : List (Event β φ)) : Prop where
  armed : flag = true → Armed f log
  idle : flag = false → Idle b log

/-- The buffer is submitted with no other fence. -/
def Paired (b : β) (f : φ) (log : List (Event β φ)) : Prop := ∀ f', Pending b f' log → f' = f

/-! ## Idle buffers -/

theorem Idle.wait (h : Idle b log) (f : φ) : Idle b (.wait f :: log) := fun f' hp => h f' hp.2

/-- The wait for its fence makes a buffer idle. -/
theorem Paired.idle_wait (h : Paired b f log) : Idle b (.wait f :: log) :=
  fun f' hp => hp.1 (h f' hp.2).symm

theorem Idle.submit_ne (h : Idle b log) (hne : b' ≠ b) : Idle b (.submit b' f' :: log) :=
  fun f hp => hp.elim (fun heq => hne heq.1) (h f)

/-! ## The flag -/

theorem Mirrors.use (h : Mirrors flag b f log) (b' : β) : Mirrors flag b f (.use b' :: log) :=
  ⟨h.armed, h.idle⟩

theorem Mirrors.wait (h : Mirrors flag b f log) (f' : φ) : Mirrors flag b f (.wait f' :: log) :=
  ⟨h.armed, fun hflag => (h.idle hflag).wait f'⟩

theorem Mirrors.reset_ne (h : Mirrors flag b f log) (hne : f' ≠ f) :
    Mirrors flag b f (.reset f' :: log) :=
  ⟨fun hflag => ⟨hne, h.armed hflag⟩, h.idle⟩

/-- A submit that is not the buffer's own. -/
theorem Mirrors.submit_ne (h : Mirrors flag b f log) (hne : b' ≠ b) :
    Mirrors flag b f (.submit b' f' :: log) :=
  ⟨fun hflag => .inr (h.armed hflag), fun hflag => (h.idle hflag).submit_ne hne⟩

theorem mirrors_submit : Mirrors true b f (.submit b f :: log) :=
  ⟨fun _ => .inl rfl, nofun⟩

/-- A reset fence: the flag comes down, and the buffer has to be idle. -/
theorem mirrors_false (h : Idle b log) : Mirrors false b f log := ⟨nofun, fun _ => h⟩

/-! ## The pairing -/

theorem Paired.wait (h : Paired b f log) (f' : φ) : Paired b f (.wait f' :: log) :=
  fun f'' hp => h f'' hp.2

/-- A submit keeps the pairing of each other buffer, and its own when it is made
    with the fence. -/
theorem Paired.submit (h : Paired b f log) (hf : b' = b → f' = f) :
    Paired b f (.submit b' f' :: log) := by
  rintro f'' (⟨hb, hf''⟩ | hp)
  · exact hf''.symm.trans (hf hb)
  · exact h f'' hp

end Fences
