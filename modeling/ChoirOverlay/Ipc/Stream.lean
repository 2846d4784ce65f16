-- SUMMARY: Frames in flight: what a reader and the bytes on their way to it hold, and how each read moves it.
import ChoirOverlay.Ipc.Protocol

/-!
# Frames in flight

A sender appends frames to a stream, a reader takes the stream in chunks of any
size. `Carries` says which frames the reader's buffer and the bytes behind it
still hold. Reading a chunk splits them into frames that are found now and
frames that stay (`Carries.feed`).
-/

namespace Choir

/-- One `read` takes so many bytes at most. -/
def kReadLen : Nat := 4096

/-- A frame well below `kMaxFrameLen`: next to a part of it there is room for
    one more read in the buffer. -/
structure Frame.Small (f : Frame) : Prop where
  known : MsgType.ofByte f.type.toByte = f.type
  short : (encodeFrame f).length + kReadLen ≤ kMaxFrameLen

theorem Frame.Small.sendable {f : Frame} (h : f.Small) : f.Sendable where
  known := h.known
  fits := by
    have hshort := h.short
    rw [length_encodeFrame] at hshort
    omega

/-- The frames on their way: part of the first may be in the buffer of the
    reader, the rest is on the wire. -/
structure Carries (r : FrameReader) (wire : Bytes) (frames : List Frame) : Prop where
  small : ∀ f ∈ frames, f.Small
  bytes : r.buf ++ wire = frames.flatMap encodeFrame
  sound : r.failed = false
  idle : r.next.2 = none

namespace Carries

variable {r : FrameReader} {wire : Bytes} {frames : List Frame}

theorem empty : Carries {} [] [] := ⟨by simp, rfl, rfl, rfl⟩

theorem send (h : Carries r wire frames) {sent : List Frame} (hsent : ∀ f ∈ sent, f.Small) :
    Carries r (wire ++ sent.flatMap encodeFrame) (frames ++ sent) where
  small f hf := (List.mem_append.mp hf).elim (h.small f) (hsent f)
  bytes := by rw [← List.append_assoc, h.bytes, List.flatMap_append]
  sound := h.sound
  idle := h.idle

theorem next_none (h : r.next.2 = none) (hsound : r.failed = false) {f : Frame} {rest : Bytes} :
    tryDecodeFrame r.buf ≠ .frame f rest := by
  intro hdec
  simp [FrameReader.next, hsound, hdec] at h

/-- An idle reader holds less than a frame. -/
theorem buf_length (h : Carries r wire frames) : r.buf.length + kReadLen ≤ kMaxFrameLen := by
  cases frames with
  | nil =>
    have hbuf : r.buf = [] := (List.append_eq_nil_iff.mp h.bytes).1
    rw [hbuf]
    decide
  | cons f fs =>
    have hf := h.small f List.mem_cons_self
    rcases tryDecodeFrame_prefix hf.sendable h.bytes with ⟨-, hlen⟩ | ⟨rest, hdec, -⟩
    · exact Nat.le_trans (Nat.add_le_add_right (Nat.le_of_lt hlen) _) hf.short
    · exact absurd hdec (next_none h.idle h.sound)

/-- When nothing is left on the wire every frame has been found. -/
theorem consumed (h : Carries r [] frames) : frames = [] := by
  cases frames with
  | nil => rfl
  | cons f fs =>
    exfalso
    rcases tryDecodeFrame_prefix (h.small f List.mem_cons_self).sendable h.bytes with
      ⟨-, hlen⟩ | ⟨rest, hdec, -⟩
    · have hbytes := congrArg List.length h.bytes
      simp only [List.append_nil, List.flatMap_cons, List.length_append] at hbytes
      omega
    · exact next_none h.idle h.sound hdec

/-- Draining finds a part of the frames and leaves the others. By induction on
    the fuel. -/
theorem drain {fuel : Nat} (hfuel : r.buf.length < fuel) (hsmall : ∀ f ∈ frames, f.Small)
    (hbytes : r.buf ++ wire = frames.flatMap encodeFrame) (hsound : r.failed = false) :
    ∃ left, frames = (r.drain fuel).1 ++ left ∧ Carries (r.drain fuel).2 wire left := by
  induction fuel generalizing r frames with
  | zero => omega
  | succ fuel ih =>
    cases frames with
    | nil =>
      have hbuf : r.buf = [] := (List.append_eq_nil_iff.mp hbytes).1
      have hnext : r.next = (r, none) := by
        simp [FrameReader.next, hsound, hbuf, tryDecodeFrame_nil]
      rw [FrameReader.drain, hnext]
      exact ⟨[], rfl, hsmall, hbytes, hsound, congrArg Prod.snd hnext⟩
    | cons f fs =>
      rcases tryDecodeFrame_prefix (hsmall f List.mem_cons_self).sendable hbytes with
        ⟨hdec, -⟩ | ⟨rest, hdec, hrest⟩
      · have hnext : r.next = (r, none) := by simp [FrameReader.next, hsound, hdec]
        rw [FrameReader.drain, hnext]
        exact ⟨f :: fs, rfl, hsmall, hbytes, hsound, congrArg Prod.snd hnext⟩
      · have hnext : r.next = ({ r with buf := rest }, some f) := by
          simp [FrameReader.next, hsound, hdec]
        have hlen : ({ r with buf := rest } : FrameReader).buf.length < fuel :=
          Nat.lt_of_lt_of_le (tryDecodeFrame_length hdec) (Nat.le_of_lt_succ hfuel)
        obtain ⟨left, hleft, hcarries⟩ := ih hlen
          (fun g hg => hsmall g (List.mem_cons_of_mem _ hg)) hrest hsound
        rw [FrameReader.drain, hnext]
        exact ⟨left, congrArg (f :: ·) hleft, hcarries⟩

/-- A read of the next bytes of the wire. -/
theorem feed (h : Carries r wire frames) {n : Nat} (hn : n ≤ kReadLen) (hne : wire.take n ≠ []) :
    ∃ r', r.feed (.data (wire.take n)) = (r', true) ∧ ∃ left,
      frames = (r'.drain (r'.buf.length + 1)).1 ++ left ∧
        Carries (r'.drain (r'.buf.length + 1)).2 (wire.drop n) left := by
  have hroom : ¬ kMaxFrameLen < (r.buf ++ wire.take n).length := by
    have hbuf := h.buf_length
    have htake := List.length_take_le n wire
    rw [List.length_append]
    omega
  refine ⟨{ r with buf := r.buf ++ wire.take n }, ?_, ?_⟩
  · cases htake : wire.take n with
    | nil => exact absurd htake hne
    | cons b bytes =>
      rw [htake] at hroom
      simp only [FrameReader.feed, h.sound, hroom, if_false, Bool.false_eq_true]
  · refine drain (Nat.lt_succ_self _) h.small ?_ h.sound
    rw [List.append_assoc, List.take_append_drop, h.bytes]

end Carries

end Choir
