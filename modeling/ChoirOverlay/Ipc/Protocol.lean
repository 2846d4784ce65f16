-- SUMMARY: The frames between host and overlay: encoding, decoding from a buffer, and the reader the overlay uses.
import ChoirOverlay.Base.Bytes
import ChoirOverlay.Machine.Deframe

/-!
# The wire protocol

A frame is a little-endian length, a type byte and a payload. What a sender
encodes is decoded from the front of a buffer as soon as all of it is there
(`tryDecodeFrame_prefix`), whatever follows.
-/

namespace Choir

/-- `kMaxFrameLen`: a bound on type byte and payload. -/
def kMaxFrameLen : Nat := 16 * 1024 * 1024

/-- `MsgType`; a byte off the wire may be none of them. -/
inductive MsgType where
  | hello | snapshot | avatarReady | disabled | ping | pong
  | unknown (byte : UInt8)
  deriving DecidableEq, Repr

def MsgType.toByte : MsgType → UInt8
  | .hello => 1 | .snapshot => 2 | .avatarReady => 3 | .disabled => 4 | .ping => 5 | .pong => 6
  | .unknown byte => byte

def MsgType.ofByte (byte : UInt8) : MsgType :=
  if byte = 1 then .hello
  else if byte = 2 then .snapshot
  else if byte = 3 then .avatarReady
  else if byte = 4 then .disabled
  else if byte = 5 then .ping
  else if byte = 6 then .pong
  else .unknown byte

/-- `DecodedFrame`. -/
structure Frame where
  type : MsgType
  payload : Bytes
  deriving DecidableEq, Repr

def encodeFrame (f : Frame) : Bytes :=
  le32 (1 + f.payload.length) ++ f.type.toByte :: f.payload

/-- What `try_decode_frame` finds at the front of a buffer. -/
inductive Decoded where
  | incomplete
  | corrupt
  | frame (f : Frame) (rest : Bytes)
  deriving DecidableEq

def tryDecodeFrame : Bytes → Decoded
  | l₀ :: l₁ :: l₂ :: l₃ :: body =>
    let total := readLe32 l₀ l₁ l₂ l₃
    if total < 1 ∨ kMaxFrameLen < total then .corrupt
    else match body with
      | [] => .incomplete
      | t :: body =>
        if body.length + 1 < total then .incomplete
        else .frame ⟨.ofByte t, body.take (total - 1)⟩ (body.drop (total - 1))
  | _ => .incomplete

/-! ## Decoding what was encoded -/

/-- A frame a sender may encode: one of the known types, within the bound. -/
structure Frame.Sendable (f : Frame) : Prop where
  known : MsgType.ofByte f.type.toByte = f.type
  fits : 1 + f.payload.length ≤ kMaxFrameLen

theorem length_encodeFrame (f : Frame) : (encodeFrame f).length = 5 + f.payload.length := by
  simp only [encodeFrame, List.length_append, length_le32, List.length_cons]
  omega

theorem tryDecodeFrame_encodeFrame {f : Frame} (hf : f.Sendable) (rest : Bytes) :
    tryDecodeFrame (encodeFrame f ++ rest) = .frame f rest := by
  have hfits : 1 + f.payload.length ≤ 0x1000000 := hf.fits
  have hread := readLe32_le32 (n := 1 + f.payload.length) (by omega)
  simp only [encodeFrame, le32, List.cons_append, List.nil_append, tryDecodeFrame, hread]
  rw [if_neg (by simp only [kMaxFrameLen]; omega), if_neg (by simp; omega)]
  simp [hf.known]

/-- The front of a frame that is not all there is no frame yet. -/
theorem tryDecodeFrame_incomplete {f : Frame} (hf : f.Sendable) {buf tail : Bytes}
    (heq : buf ++ tail = encodeFrame f) (hne : tail ≠ []) : tryDecodeFrame buf = .incomplete := by
  have hfits : 1 + f.payload.length ≤ 0x1000000 := hf.fits
  have hread := readLe32_le32 (n := 1 + f.payload.length) (by omega)
  have hpos := List.length_pos_iff.mpr hne
  have hlen := congrArg List.length heq
  rw [List.length_append, length_encodeFrame] at hlen
  match buf with
  | [] | [_] | [_, _] | [_, _, _] => rfl
  | l₀ :: l₁ :: l₂ :: l₃ :: body =>
    simp only [encodeFrame, le32, List.cons_append, List.nil_append, List.cons.injEq] at heq
    obtain ⟨rfl, rfl, rfl, rfl, -⟩ := heq
    simp only [tryDecodeFrame, hread]
    rw [if_neg (by simp only [kMaxFrameLen]; omega)]
    cases body with
    | nil => rfl
    | cons t body =>
      simp only [List.length_cons] at hlen
      exact if_pos (by omega)

/-- A buffer at the front of a stream that starts with a frame: the frame is
    still incomplete, or it is decoded and the rest of the stream is left. -/
theorem tryDecodeFrame_prefix {f : Frame} (hf : f.Sendable) {buf tail more : Bytes}
    (heq : buf ++ tail = encodeFrame f ++ more) :
    (tryDecodeFrame buf = .incomplete ∧ buf.length < (encodeFrame f).length) ∨
      ∃ rest, tryDecodeFrame buf = .frame f rest ∧ rest ++ tail = more := by
  rcases List.append_eq_append_iff.mp heq with ⟨mid, hmid, -⟩ | ⟨rest, hbuf, hmore⟩
  · cases mid with
    | nil =>
      refine .inr ⟨[], ?_, ?_⟩
      · rw [show buf = encodeFrame f ++ [] by simpa using hmid.symm]
        exact tryDecodeFrame_encodeFrame hf []
      · rw [show buf = encodeFrame f by simpa using hmid.symm] at heq
        exact List.append_cancel_left heq
    | cons b mid =>
      refine .inl ⟨tryDecodeFrame_incomplete hf hmid.symm (by simp), ?_⟩
      rw [hmid]
      simp
  · exact .inr ⟨rest, by rw [hbuf]; exact tryDecodeFrame_encodeFrame hf rest, hmore.symm⟩

/-- The same for a frame of any size whose length fits its field: one over the
    bound is never decoded. -/
theorem tryDecodeFrame_front {f : Frame} (hknown : MsgType.ofByte f.type.toByte = f.type)
    (hlen : 1 + f.payload.length < 0x100000000) {buf tail more : Bytes}
    (heq : buf ++ tail = encodeFrame f ++ more) :
    tryDecodeFrame buf = .incomplete ∨ tryDecodeFrame buf = .corrupt ∨
      ∃ rest, tryDecodeFrame buf = .frame f rest ∧ rest ++ tail = more := by
  by_cases hfits : 1 + f.payload.length ≤ kMaxFrameLen
  · rcases tryDecodeFrame_prefix ⟨hknown, hfits⟩ heq with ⟨hdec, -⟩ | hdec
    · exact .inl hdec
    · exact .inr (.inr hdec)
  · have hread := readLe32_le32 (n := 1 + f.payload.length) (by omega)
    rcases buf with _ | ⟨l₀, _ | ⟨l₁, _ | ⟨l₂, _ | ⟨l₃, body⟩⟩⟩⟩
    · exact .inl rfl
    · exact .inl rfl
    · exact .inl rfl
    · exact .inl rfl
    · simp only [encodeFrame, le32, List.cons_append, List.nil_append, List.cons.injEq] at heq
      obtain ⟨rfl, rfl, rfl, rfl, -⟩ := heq
      refine .inr (.inl ?_)
      simp only [tryDecodeFrame, hread]
      rw [if_pos (.inr (Nat.lt_of_not_le hfits))]

/-- A decoded frame leaves a shorter buffer. -/
theorem tryDecodeFrame_length {buf rest : Bytes} {f : Frame}
    (h : tryDecodeFrame buf = .frame f rest) : rest.length < buf.length := by
  match buf with
  | [] | [_] | [_, _] | [_, _, _] => cases h
  | l₀ :: l₁ :: l₂ :: l₃ :: body =>
    simp only [tryDecodeFrame] at h
    split at h
    · cases h
    · cases body with
      | nil => cases h
      | cons t body =>
        simp only at h
        split at h
        · cases h
        · simp only [Decoded.frame.injEq] at h
          rw [← h.2]
          simp only [List.length_drop, List.length_cons]
          omega

theorem tryDecodeFrame_nil : tryDecodeFrame [] = .incomplete := rfl

theorem MsgType.toByte_ofByte (byte : UInt8) : (MsgType.ofByte byte).toByte = byte := by
  unfold ofByte
  repeat' split
  all_goals simp_all [toByte]

private theorem eq_encodeFrame {total : Nat} {l₀ l₁ l₂ l₃ : UInt8} (t : UInt8) (body : Bytes)
    (hword : le32 total = [l₀, l₁, l₂, l₃]) (hsize : 1 + (body.take (total - 1)).length = total) :
    l₀ :: l₁ :: l₂ :: l₃ :: t :: body =
      encodeFrame ⟨.ofByte t, body.take (total - 1)⟩ ++ body.drop (total - 1) := by
  have hencode : encodeFrame ⟨.ofByte t, body.take (total - 1)⟩ =
      le32 total ++ t :: body.take (total - 1) := by
    rw [encodeFrame, MsgType.toByte_ofByte]
    exact congrArg (fun n => le32 n ++ t :: body.take (total - 1)) hsize
  rw [hencode, hword]
  simp only [List.cons_append, List.nil_append, List.take_append_drop]

/-- A decoded frame is one a sender could have written, and was written so. -/
theorem eq_of_tryDecodeFrame {buf rest : Bytes} {f : Frame}
    (h : tryDecodeFrame buf = .frame f rest) : f.Sendable ∧ buf = encodeFrame f ++ rest := by
  match buf with
  | [] | [_] | [_, _] | [_, _, _] => cases h
  | l₀ :: l₁ :: l₂ :: l₃ :: body =>
    have hword := le32_readLe32 l₀ l₁ l₂ l₃
    simp only [tryDecodeFrame] at h
    generalize readLe32 l₀ l₁ l₂ l₃ = total at h hword
    split at h
    · cases h
    rename_i htotal
    rw [not_or, Nat.not_lt, Nat.not_lt] at htotal
    cases body with
    | nil => cases h
    | cons t body =>
      simp only at h
      split at h
      · cases h
      rename_i hbody
      simp only [Decoded.frame.injEq] at h
      obtain ⟨rfl, rfl⟩ := h
      have hsize : 1 + (body.take (total - 1)).length = total := by
        rw [List.length_take, Nat.min_eq_left (by omega), Nat.add_sub_cancel' htotal.1]
      refine ⟨⟨?_, ?_⟩, ?_⟩
      · simp only [MsgType.toByte_ofByte]
      · simp only [hsize]
        exact htotal.2
      · exact eq_encodeFrame t body hword hsize

/-- The frames of the protocol. -/
def frameCodec : Deframe.Codec Frame UInt8 where
  encode := encodeFrame
  next buf :=
    match tryDecodeFrame buf with
    | .frame f rest => some (f, rest)
    | .incomplete | .corrupt => none
  Valid := Frame.Sendable
  encode_ne_nil f := by simp [encodeFrame, le32]
  next_encode f rest hf := by rw [tryDecodeFrame_encodeFrame hf]
  eq_of_next buf f rest h := by
    cases hdec : tryDecodeFrame buf with
    | incomplete | corrupt => simp [hdec] at h
    | frame g rest' =>
      simp only [hdec, Option.some.injEq, Prod.mk.injEq] at h
      obtain ⟨rfl, rfl⟩ := h
      exact eq_of_tryDecodeFrame hdec

theorem frameCodec_next_of_frame {buf rest : Bytes} {f : Frame}
    (h : tryDecodeFrame buf = .frame f rest) : frameCodec.next buf = some (f, rest) := by
  simp only [frameCodec, h]

theorem frameCodec_next_eq_none {buf : Bytes} :
    frameCodec.next buf = none ↔
      tryDecodeFrame buf = .incomplete ∨ tryDecodeFrame buf = .corrupt := by
  simp only [frameCodec]
  cases tryDecodeFrame buf <;> simp

/-- The beginning of a frame is no corrupt stream. -/
theorem tryDecodeFrame_stream {buf tail : Bytes} {frames : List Frame}
    (hframes : ∀ f ∈ frames, f.Sendable) (heq : buf ++ tail = frames.flatMap encodeFrame)
    (hnext : frameCodec.next buf = none) : tryDecodeFrame buf = .incomplete := by
  cases frames with
  | nil =>
    obtain ⟨rfl, -⟩ := List.append_eq_nil_iff.mp heq
    rfl
  | cons f frames =>
    rcases tryDecodeFrame_prefix (hframes f List.mem_cons_self) heq with ⟨hdec, -⟩ | ⟨rest, hdec, -⟩
    · exact hdec
    · rw [frameCodec_next_of_frame hdec] at hnext
      cases hnext

/-- The bytes may be the beginning of a frame. -/
def isSound (buf : Bytes) : Bool := decide (tryDecodeFrame buf ≠ .corrupt)

theorem isSound_of_stream (rest tail : Bytes) (frames : List Frame)
    (hframes : ∀ f ∈ frames, f.Sendable) (heq : rest ++ tail = frames.flatMap encodeFrame)
    (hnext : frameCodec.next rest = none) : isSound rest = true := by
  rw [isSound, tryDecodeFrame_stream hframes heq hnext]
  rfl

/-! ## FrameReader -/

structure FrameReader where
  buf : Bytes := []
  failed : Bool := false
  deriving DecidableEq, Repr

namespace FrameReader

/-- `feed`, on what the read returns: up to 4096 bytes. -/
def feed (r : FrameReader) (read : ReadResult) : FrameReader × Bool :=
  if r.failed then (r, false)
  else match read with
    | .data [] => (r, false)
    | .data bytes =>
      let buf := r.buf ++ bytes
      if kMaxFrameLen < buf.length then ({ buf := [], failed := true }, false)
      else ({ r with buf }, true)
    | .interrupted | .wouldBlock => (r, true)
    | .error => (r, false)

def next (r : FrameReader) : FrameReader × Option Frame :=
  if r.failed then (r, none)
  else match tryDecodeFrame r.buf with
    | .incomplete => (r, none)
    | .corrupt => ({ buf := [], failed := true }, none)
    | .frame f rest => ({ r with buf := rest }, some f)

theorem next_length {r r' : FrameReader} {f : Frame} (h : r.next = (r', some f)) :
    r'.buf.length < r.buf.length := by
  unfold next at h
  split at h
  · cases h
  · split at h
    · cases h
    · cases h
    · rename_i f' rest hdec
      simp only [Prod.mk.injEq, Option.some.injEq] at h
      rw [← h.1]
      exact tryDecodeFrame_length hdec

/-- `next` until it finds nothing: the frames found, in order, and the reader
    left. Each frame takes bytes off the buffer. -/
def drain : Nat → FrameReader → List Frame × FrameReader
  | 0, r => ([], r)
  | fuel + 1, r =>
    match r.next with
    | (r', none) => ([], r')
    | (r', some f) => (f :: (drain fuel r').1, (drain fuel r').2)

/-- With fuel for the bytes of the buffer nothing is left to find. -/
theorem drain_done {fuel : Nat} {r : FrameReader} (h : r.buf.length < fuel) :
    (r.drain fuel).2.next.2 = none := by
  induction fuel generalizing r with
  | zero => omega
  | succ fuel ih =>
    unfold drain
    split
    · rename_i r' hnext
      unfold next at hnext ⊢
      split at hnext
      · obtain rfl : r = r' := by simpa using hnext
        simp_all
      · split at hnext
        · obtain rfl : r = r' := by simpa using hnext
          simp_all
        · obtain rfl : ({ buf := [], failed := true } : FrameReader) = r' := by simpa using hnext
          rfl
        · cases hnext
    · rename_i r' f hnext
      exact ih (by have := next_length hnext; omega)

/-- The loop takes all frames off the buffer; on a corrupt rest the reader fails. -/
theorem drain_eq {r : FrameReader} (hsound : r.failed = false) {fuel : Nat}
    (hfuel : r.buf.length < fuel) :
    r.drain fuel = ((frameCodec.split fuel r.buf).1,
      if tryDecodeFrame (frameCodec.split fuel r.buf).2 = .corrupt then
        { buf := [], failed := true }
      else { buf := (frameCodec.split fuel r.buf).2 }) := by
  induction fuel generalizing r with
  | zero => omega
  | succ fuel ih =>
    obtain ⟨buf, failed⟩ := r
    subst hsound
    rw [drain]
    cases hdec : tryDecodeFrame buf with
    | incomplete =>
      have hsplit :=
        Deframe.Codec.split_of_none (frameCodec_next_eq_none.mpr (.inl hdec)) (fuel + 1)
      simp [next, hdec, hsplit]
    | corrupt =>
      have hsplit :=
        Deframe.Codec.split_of_none (frameCodec_next_eq_none.mpr (.inr hdec)) (fuel + 1)
      simp [next, hdec, hsplit]
    | frame f rest =>
      have hlen := tryDecodeFrame_length hdec
      have hsplit := Deframe.Codec.split_of_some (frameCodec_next_of_frame hdec) fuel
      have hrest := ih (r := { buf := rest }) rfl
        (Nat.lt_of_lt_of_le hlen (Nat.le_of_lt_succ hfuel))
      simp only [next, hdec, hsplit, Bool.false_eq_true, if_false, hrest]

end FrameReader

end Choir
