-- SUMMARY: When the overlay's render gate is closed while no host is connected.
import ChoirOverlay.Json.Text
import ChoirOverlay.Machine.Run
import ChoirOverlay.Overlay.StateClient

/-!
# Losing the host

Nothing withdraws the published snapshot when a connection ends, so the gate
stays as the last snapshot left it.
-/

namespace Choir

namespace StateClient

/-- The last snapshot among the frames, or else the one published before. -/
def lastShown (lib : JsonLib) (before : Option Snapshot) : List Frame → Option Snapshot
  | [] => before
  | f :: frames =>
    lastShown lib
      (if f.type = .snapshot then (Snapshot.fromJsonStr lib f.payload).or before else before) frames

/-- The snapshot does not open the gate. -/
def Hidden (s : Option Snapshot) : Prop := ∀ snap ∈ s, snap.inVoice = false

instance (s : Option Snapshot) : Decidable (Hidden s) :=
  inferInstanceAs (Decidable (∀ snap ∈ s, snap.inVoice = false))

/-- When the event ends the connection, the last snapshot that came over it,
    or was there before, does not open the gate. -/
def EndsHidden (lib : JsonLib) (c : StateClient) (e : Event) : Prop :=
  c.ended = false →
    match e, c.conn with
    | .readable read, some r =>
      if (r.feed read).2 = true then
        ((r.feed read).1.drain ((r.feed read).1.buf.length + 1)).2.failed = true →
          Hidden (lastShown lib c.latest
            ((r.feed read).1.drain ((r.feed read).1.buf.length + 1)).1)
      else Hidden c.latest
    | .pollError, some _ | .stop, some _ => Hidden c.latest
    | _, _ => True

instance (lib : JsonLib) (c : StateClient) (e : Event) : Decidable (EndsHidden lib c e) :=
  match e, hc : c.conn with
  | .readable read, some r =>
    decidable_of_iff (c.ended = false →
      if (r.feed read).2 = true then
        ((r.feed read).1.drain ((r.feed read).1.buf.length + 1)).2.failed = true →
          Hidden (lastShown lib c.latest
            ((r.feed read).1.drain ((r.feed read).1.buf.length + 1)).1)
      else Hidden c.latest) (by simp only [EndsHidden, hc])
  | .pollError, some _ | .stop, some _ =>
    decidable_of_iff (c.ended = false → Hidden c.latest) (by simp only [EndsHidden, hc])
  | .refused, _ | .connected _, _ => .isTrue (by simp [EndsHidden])
  | .readable _, none | .pollError, none | .stop, none => .isTrue (by simp [EndsHidden, hc])

variable {lib : JsonLib} {c : StateClient}

theorem gate_eq_false : c.gate = false ↔ Hidden c.latest := by
  unfold gate Hidden
  cases c.latest <;> simp

theorem dispatch_latest (f : Frame) :
    (dispatch lib c f).latest =
      if f.type = .snapshot then (Snapshot.fromJsonStr lib f.payload).or c.latest
      else c.latest := by
  unfold dispatch
  cases f.type with
  | snapshot => cases Snapshot.fromJsonStr lib f.payload <;> rfl
  | avatarReady =>
    cases AvatarReq.fromJsonStr lib f.payload with
    | none => rfl
    | some req =>
      simp only
      split <;> rfl
  | _ => rfl

/-- The frames of a turn leave the last snapshot among them. -/
theorem foldl_dispatch_latest (frames : List Frame) :
    (frames.foldl (dispatch lib) c).latest = lastShown lib c.latest frames := by
  induction frames generalizing c with
  | nil => rfl
  | cons f frames ih => rw [List.foldl_cons, ih, dispatch_latest, lastShown]

/-- Without a connection the gate is closed. -/
def ClosedWhenGone (c : StateClient) : Prop := c.conn = none → c.gate = false

/-- A turn opens the gate without a connection only by ending one. -/
theorem takeFrames_closed {r : FrameReader} :
    (c.takeFrames lib r).ClosedWhenGone ↔
      ((r.drain (r.buf.length + 1)).2.failed = true →
        Hidden (lastShown lib c.latest (r.drain (r.buf.length + 1)).1)) := by
  unfold takeFrames ClosedWhenGone
  simp only
  split
  · rename_i hf
    simp only [hangUp, gate_eq_false, foldl_dispatch_latest, hf, true_implies]
  · rename_i hf
    simp [hf]

theorem hangUp_closed : c.hangUp.ClosedWhenGone ↔ Hidden c.latest := by
  simp only [ClosedWhenGone, hangUp, gate_eq_false, true_implies]

/-- An event opens the gate without a connection exactly when it ends a
    connection whose last snapshot opens it. -/
theorem step_closed (lib : JsonLib) (c : StateClient) (e : Event) (hc : c.ClosedWhenGone) :
    (c.step lib e).ClosedWhenGone ↔ EndsHidden lib c e := by
  unfold step EndsHidden
  cases hended : c.ended with
  | true => simpa using hc
  | false =>
    simp only [Bool.false_eq_true, if_false, true_implies]
    cases hconn : c.conn with
    | none =>
      cases e with
      | connected written =>
        simp only [iff_true]
        cases helloPayload lib c.self with
        | none => exact fun _ => hc hconn
        | some payload =>
          cases written with
          | true => simp [ClosedWhenGone]
          | false => exact hc
      | stop =>
        simp only [iff_true]
        exact fun _ => hc hconn
      | refused => simpa using hc
      | readable read => simpa using hc
      | pollError => simpa using hc
    | some r =>
      cases e with
      | readable read =>
        simp only
        split
        · exact takeFrames_closed
        · exact hangUp_closed
      | stop => exact hangUp_closed
      | pollError => exact hangUp_closed
      | refused => simpa using hc
      | connected written => simpa using hc

/-- In a run of the client the gate is closed in every state without a
    connection exactly when each connection ends on a snapshot, or on none,
    that does not open it. -/
theorem run_closed_iff (lib : JsonLib) (self : ProcSelf) (es : List Event) :
    (∀ pre, pre <+: es → (Machine.run (step lib) { self } pre).conn = none →
        (Machine.run (step lib) { self } pre).gate = false) ↔
      Machine.Along (step lib) (EndsHidden lib) { self } es :=
  Machine.forall_prefix_iff_along (P := ClosedWhenGone) (step_closed lib) (fun _ => rfl) es

/-- A host that dies after a snapshot in voice leaves the gate open. -/
theorem hostLoss_gate_open :
    let es : List Event :=
      [.connected true,
        .readable (.data (encodeFrame ⟨.snapshot,
          JsonText.text (Snapshot.toJson { inVoice := true, channelName := ascii "1" })⟩)),
        .readable (.data [])]
    (Machine.run (step compactJson) {} es).conn = none ∧
      (Machine.run (step compactJson) {} es).gate = true := by
  decide +kernel

end StateClient

end Choir
