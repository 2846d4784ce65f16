-- SUMMARY: The write loop of the transport, call by call, and what a peer reads of the frames that went out.
import ChoirOverlay.Discord.Transport

/-!
# Sending

`send_raw` writes a frame to a socket that does not block, and waits for room where there
is none. What each call does is an input.
-/

namespace Choir

/-- What the `poll` for `POLLOUT` finds. -/
inductive RoomWait where
  | writable
  | interrupted
  /-- Nothing within the timeout, an error or a hangup. -/
  | gone
  deriving DecidableEq, Repr

/-- What one `write` of the loop does. -/
inductive SendCall where
  /-- This many bytes are taken, or all there are. -/
  | wrote (n : Nat)
  | interrupted
  /-- The send buffer is full. -/
  | full (wait : RoomWait)
  | error
  deriving DecidableEq, Repr

namespace IpcTransport

/-- The loop of `send_raw`: the bytes that go out, and what it returns. Calls past the end
of the list take all that is left. -/
def sendAll : List SendCall → Bytes → Bytes × Bool
  | [], left => (left, true)
  | call :: calls, left =>
    if left = [] then ([], true)
    else
      match call with
      | .wrote n =>
        if n = 0 then ([], false)
        else (left.take n ++ (sendAll calls (left.drop n)).1, (sendAll calls (left.drop n)).2)
      | .interrupted | .full .writable | .full .interrupted => sendAll calls left
      | .full .gone | .error => ([], false)

/-- What goes out is a front of the frame, and all of it exactly when the loop says so. -/
theorem sendAll_spec (calls : List SendCall) (left : Bytes) :
    (sendAll calls left).1 <+: left ∧
      ((sendAll calls left).2 = true ↔ (sendAll calls left).1 = left) := by
  induction calls generalizing left with
  | nil => exact ⟨List.prefix_rfl, by simp [sendAll]⟩
  | cons call calls ih =>
    unfold sendAll
    by_cases hleft : left = []
    · rw [if_pos hleft]
      exact ⟨List.nil_prefix, by simp [hleft]⟩
    have hnone : (([], false) : Bytes × Bool).1 <+: left ∧
        ((([], false) : Bytes × Bool).2 = true ↔ (([], false) : Bytes × Bool).1 = left) :=
      ⟨List.nil_prefix, by simpa using Ne.symm hleft⟩
    rw [if_neg hleft]
    cases call with
    | wrote n =>
      dsimp only
      split
      · exact hnone
      · obtain ⟨hfront, hwhole⟩ := ih (left.drop n)
        have hparts : left.take n ++ left.drop n = left := List.take_append_drop n left
        refine ⟨?_, hwhole.trans ?_⟩
        · have hgrown := (List.prefix_append_right_inj (left.take n)).mpr hfront
          rwa [hparts] at hgrown
        · constructor
          · intro h
            rw [h, hparts]
          · intro h
            exact List.append_cancel_left (h.trans hparts.symm)
    | interrupted => exact ih left
    | full wait =>
      cases wait with
      | writable => exact ih left
      | interrupted => exact ih left
      | gone => exact hnone
    | error => exact hnone

end IpcTransport

end Choir
