-- SUMMARY: The transport below the RPC client: a connection, its receive buffer and the framing of messages.
import ChoirOverlay.Base.Bytes
import ChoirOverlay.Machine.Deframe
import Mathlib.Algebra.Ring.Int.Defs
import Mathlib.Algebra.Ring.Nat

/-!
# IpcTransport

The part of `IpcTransport` that touches only its own fields. What the kernel
does is an input: which socket probes succeed, what the reads return, and
whether the frame writes go through.
-/

namespace Choir

/-- `kHeaderLen`: opcode and length, four bytes each. -/
def kHeaderLen : Nat := 8

/-- `kMaxPayloadLen` and `kMaxRecvBuffer`. -/
def kMaxPayloadLen : Nat := 16 * 1024 * 1024
def kMaxRecvBuffer : Nat := 16 * 1024 * 1024

/-- `kOpHandshake`, `kOpFrame`, `kOpPing` and `kOpPong`. -/
def kOpHandshake : Int := 0
def kOpFrame : Int := 1
def kOpPing : Int := 3
def kOpPong : Int := 4

/-- A connection, numbered in the order in which they were opened. -/
abbrev Conn := Nat

structure IpcTransport where
  /-- `fd_`: the open connection, if there is one. -/
  fd : Option Conn := none
  rbuf : Bytes := []
  /-- How many connections were opened; the number of the next one. -/
  opened : Nat := 0
  /-- What the kernel does with the coming frame writes, in order: true when a
      frame goes out whole. Writes past the end of the list go through. -/
  verdicts : List Bool := []

/-- What `peel_one` finds at the front of the buffer. -/
inductive Peeled where
  | incomplete
  | corrupt
  | message (op : Int) (payload rest : Bytes)

namespace IpcTransport

/-- `connect`: nothing to do on a live connection, else the first of the ten
    sockets that accepts. -/
def connect (t : IpcTransport) (probe : Nat → Bool) : IpcTransport × Bool :=
  match t.fd with
  | some _ => (t, true)
  | none =>
    if (List.range 10).any probe then
      ({ t with fd := some t.opened, rbuf := [], opened := t.opened + 1 }, true)
    else (t, false)

/-- Close the descriptor and forget what was received on it. -/
def shut (t : IpcTransport) : IpcTransport := { t with fd := none, rbuf := [] }

/-- The loop around `write`: whether the whole frame goes out. -/
def writeFrame (t : IpcTransport) : Bool × IpcTransport :=
  match t.verdicts with
  | [] => (true, t)
  | ok :: rest => (ok, { t with verdicts := rest })

/-- The next `n` frame writes all go through. -/
def Allows (t : IpcTransport) (n : Nat) : Prop := ∀ ok ∈ t.verdicts.take n, ok = true

instance (t : IpcTransport) (n : Nat) : Decidable (t.Allows n) :=
  inferInstanceAs (Decidable (∀ ok ∈ t.verdicts.take n, ok = true))

/-- `read_le32`: a signed word. -/
def readInt32 (b₀ b₁ b₂ b₃ : UInt8) : Int := Int.bmod (readLe32 b₀ b₁ b₂ b₃) (2 ^ 32)

/-- `peel_one`, up to the tearing down of a corrupt stream. -/
def peelOne (rbuf : Bytes) : Peeled :=
  match rbuf with
  | o₀ :: o₁ :: o₂ :: o₃ :: l₀ :: l₁ :: l₂ :: l₃ :: body =>
    let len := readInt32 l₀ l₁ l₂ l₃
    if len < 0 ∨ kMaxPayloadLen < len then .corrupt
    else if body.length < len.toNat then .incomplete
    else .message (readInt32 o₀ o₁ o₂ o₃) (body.take len.toNat) (body.drop len.toNat)
  | _ => .incomplete

/-- The bytes `send_raw` writes. -/
def frame (op : Int) (payload : Bytes) : Bytes :=
  le32 (op % 0x100000000).toNat ++ le32 payload.length ++ payload

/-- The read loop of `poll`: the buffer after it, or `none` when the loop tears
    the connection down. It stops at a read shorter than its 4096 bytes. -/
def fill (rbuf : Bytes) : List ReadResult → Option Bytes
  | [] => some rbuf
  | .interrupted :: reads => fill rbuf reads
  | .wouldBlock :: _ => some rbuf
  | .error :: _ => none
  | .data bytes :: reads =>
    let rbuf := rbuf ++ bytes
    if bytes = [] then none
    else if kMaxRecvBuffer < rbuf.length then none
    else if bytes.length < 4096 then some rbuf
    else fill rbuf reads

/-! ## Facts -/

@[simp] theorem shut_fd (t : IpcTransport) : t.shut.fd = none := rfl
@[simp] theorem shut_opened (t : IpcTransport) : t.shut.opened = t.opened := rfl
@[simp] theorem shut_verdicts (t : IpcTransport) : t.shut.verdicts = t.verdicts := rfl

theorem writeFrame_snd (t : IpcTransport) :
    t.writeFrame.2 = { t with verdicts := t.verdicts.drop 1 } := by
  obtain ⟨fd, rbuf, opened, verdicts⟩ := t
  cases verdicts <;> rfl

theorem writeFrame_fst (t : IpcTransport) : t.writeFrame.1 = true ↔ t.Allows 1 := by
  unfold writeFrame Allows
  split <;> simp_all

@[simp] theorem allows_zero (t : IpcTransport) : t.Allows 0 := by simp [Allows]

/-- Peeling the writes one by one. -/
theorem allows_add (t : IpcTransport) (m n : Nat) :
    t.Allows (m + n) ↔ t.Allows m ∧ { t with verdicts := t.verdicts.drop m }.Allows n := by
  simp only [Allows, List.take_add, List.mem_append, or_imp, forall_and]

private theorem readInt32_le32 {n : Int} {w : Nat} (hw : w < 0x100000000)
    (h : Int.bmod w 0x100000000 = n) :
    readInt32 (UInt8.ofNat w) (UInt8.ofNat (w / 0x100)) (UInt8.ofNat (w / 0x10000))
      (UInt8.ofNat (w / 0x1000000)) = n := by
  unfold readInt32
  rw [readLe32_le32 hw]
  exact h

private theorem bmod_word {n : Int} (h : -0x80000000 ≤ n ∧ n < 0x80000000) :
    Int.bmod (n % 0x100000000).toNat 0x100000000 = n := by
  have hnonneg : ((n % 0x100000000).toNat : Int) = n % 0x100000000 :=
    Int.toNat_of_nonneg (by omega)
  rw [hnonneg, Int.bmod_def]
  split <;> omega

/-- A frame at the front of the buffer is peeled off as it was sent. -/
theorem peelOne_frame {op : Int} {payload : Bytes} (rest : Bytes)
    (hop : -0x80000000 ≤ op ∧ op < 0x80000000) (hlen : payload.length ≤ kMaxPayloadLen) :
    peelOne (frame op payload ++ rest) = .message op payload rest := by
  have hmax : payload.length ≤ 0x1000000 := hlen
  have hword : Int.bmod payload.length 0x100000000 = payload.length :=
    Int.bmod_eq_of_le (by omega) (by omega)
  have hhead := readInt32_le32 (by omega) (bmod_word hop)
  have hsize := readInt32_le32 (by omega) hword
  simp only [frame, le32, List.cons_append, List.nil_append, peelOne, hhead, hsize]
  rw [if_neg (by simp only [kMaxPayloadLen]; omega), if_neg (by simp)]
  simp

/-- A peeled message leaves a shorter buffer: the dispatch loop ends. -/
theorem peelOne_length {rbuf payload rest : Bytes} {op : Int}
    (h : peelOne rbuf = .message op payload rest) :
    rest.length + kHeaderLen ≤ rbuf.length := by
  unfold peelOne at h
  split at h
  · rename_i o₀ o₁ o₂ o₃ l₀ l₁ l₂ l₃ body
    simp only at h
    split at h
    · cases h
    · split at h
      · cases h
      · simp only [Peeled.message.injEq] at h
        obtain ⟨-, -, rfl⟩ := h
        simp only [List.length_drop, List.length_cons, kHeaderLen]
        omega
  · cases h

end IpcTransport

/-! ## Messages -/

/-- What the transport hands up of the wire. -/
structure Message where
  op : Int
  payload : Bytes
  deriving DecidableEq, Repr

/-- A message a peer may send: a 32-bit opcode, and a payload within the bound. -/
structure Message.Sendable (m : Message) : Prop where
  op : -0x80000000 ≤ m.op ∧ m.op < 0x80000000
  fits : m.payload.length ≤ kMaxPayloadLen

def Message.encode (m : Message) : Bytes := IpcTransport.frame m.op m.payload

namespace IpcTransport

private theorem readInt32_eq (b₀ b₁ b₂ b₃ : UInt8) :
    readInt32 b₀ b₁ b₂ b₃ = readLe32 b₀ b₁ b₂ b₃ ∧ readLe32 b₀ b₁ b₂ b₃ < 0x80000000 ∨
      readInt32 b₀ b₁ b₂ b₃ = readLe32 b₀ b₁ b₂ b₃ - 0x100000000 ∧
        0x80000000 ≤ readLe32 b₀ b₁ b₂ b₃ := by
  have hlt := readLe32_lt b₀ b₁ b₂ b₃
  unfold readInt32
  rw [Int.bmod_def]
  split <;> omega

/-- The word a signed word was read from. -/
private theorem word_readInt32 (b₀ b₁ b₂ b₃ : UInt8) :
    le32 (readInt32 b₀ b₁ b₂ b₃ % 0x100000000).toNat = [b₀, b₁, b₂, b₃] := by
  have hlt := readLe32_lt b₀ b₁ b₂ b₃
  have hword : (readInt32 b₀ b₁ b₂ b₃ % 0x100000000).toNat = readLe32 b₀ b₁ b₂ b₃ := by
    rcases readInt32_eq b₀ b₁ b₂ b₃ with ⟨h, -⟩ | ⟨h, -⟩ <;> rw [h] <;> omega
  rw [hword, le32_readLe32]

private theorem range_readInt32 (b₀ b₁ b₂ b₃ : UInt8) :
    -0x80000000 ≤ readInt32 b₀ b₁ b₂ b₃ ∧ readInt32 b₀ b₁ b₂ b₃ < 0x80000000 := by
  have hlt := readLe32_lt b₀ b₁ b₂ b₃
  rcases readInt32_eq b₀ b₁ b₂ b₃ with ⟨h, hword⟩ | ⟨h, hword⟩ <;> rw [h] <;> omega

private theorem len_readInt32 {b₀ b₁ b₂ b₃ : UInt8}
    (hlen : ¬ (readInt32 b₀ b₁ b₂ b₃ < 0 ∨ kMaxPayloadLen < readInt32 b₀ b₁ b₂ b₃)) :
    le32 (readInt32 b₀ b₁ b₂ b₃).toNat = [b₀, b₁, b₂, b₃] ∧
      (readInt32 b₀ b₁ b₂ b₃).toNat ≤ kMaxPayloadLen := by
  have hlt := readLe32_lt b₀ b₁ b₂ b₃
  rw [not_or, Int.not_lt, Int.not_lt] at hlen
  have hword : (readInt32 b₀ b₁ b₂ b₃).toNat = readLe32 b₀ b₁ b₂ b₃ := by
    rcases readInt32_eq b₀ b₁ b₂ b₃ with ⟨h, -⟩ | ⟨h, -⟩ <;> rw [h] at hlen ⊢ <;> omega
  refine ⟨by rw [hword, le32_readLe32], ?_⟩
  omega

private theorem eq_frame {op : Int} {len : Nat} {o₀ o₁ o₂ o₃ l₀ l₁ l₂ l₃ : UInt8} (body : Bytes)
    (hop : le32 (op % 0x100000000).toNat = [o₀, o₁, o₂, o₃]) (hlen : le32 len = [l₀, l₁, l₂, l₃])
    (hsize : (body.take len).length = len) :
    o₀ :: o₁ :: o₂ :: o₃ :: l₀ :: l₁ :: l₂ :: l₃ :: body =
      frame op (body.take len) ++ body.drop len := by
  rw [frame, hop, hsize, hlen]
  simp only [List.cons_append, List.nil_append, List.take_append_drop]

/-- A peeled message is one a peer could have sent, and was sent so. -/
theorem eq_of_peelOne {rbuf payload rest : Bytes} {op : Int}
    (h : peelOne rbuf = .message op payload rest) :
    Message.Sendable ⟨op, payload⟩ ∧ rbuf = frame op payload ++ rest := by
  unfold peelOne at h
  split at h
  · rename_i o₀ o₁ o₂ o₃ l₀ l₁ l₂ l₃ body
    simp only at h
    split at h
    · cases h
    rename_i hlen
    obtain ⟨hword, hmax⟩ := len_readInt32 hlen
    generalize (readInt32 l₀ l₁ l₂ l₃).toNat = len at h hword hmax
    split at h
    · cases h
    rename_i hbody
    simp only [Peeled.message.injEq] at h
    obtain ⟨rfl, rfl, rfl⟩ := h
    have hsize : (body.take len).length = len := List.length_take_of_le (Nat.not_lt.mp hbody)
    have hop := range_readInt32 o₀ o₁ o₂ o₃
    have hframe := eq_frame body (word_readInt32 o₀ o₁ o₂ o₃) hword hsize
    generalize readInt32 o₀ o₁ o₂ o₃ = op at hop hframe ⊢
    exact ⟨⟨hop, Nat.le_trans (Nat.le_of_eq hsize) hmax⟩, hframe⟩
  · cases h

/-- The messages of Discord's IPC. -/
def messageCodec : Deframe.Codec Message UInt8 where
  encode := Message.encode
  next buf :=
    match peelOne buf with
    | .message op payload rest => some (⟨op, payload⟩, rest)
    | .incomplete | .corrupt => none
  Valid := Message.Sendable
  encode_ne_nil m := by simp [Message.encode, frame, le32]
  next_encode m rest hm := by rw [Message.encode, peelOne_frame rest hm.op hm.fits]
  eq_of_next buf m rest h := by
    cases hpeel : peelOne buf with
    | incomplete | corrupt => simp [hpeel] at h
    | message op payload rest' =>
      simp only [hpeel, Option.some.injEq, Prod.mk.injEq] at h
      obtain ⟨rfl, rfl⟩ := h
      exact eq_of_peelOne hpeel

theorem messageCodec_next_of_message {buf payload rest : Bytes} {op : Int}
    (h : peelOne buf = .message op payload rest) :
    messageCodec.next buf = some (⟨op, payload⟩, rest) := by
  simp only [messageCodec, h]

theorem messageCodec_next_eq_none {buf : Bytes} :
    messageCodec.next buf = none ↔ peelOne buf = .incomplete ∨ peelOne buf = .corrupt := by
  simp only [messageCodec]
  cases peelOne buf <;> simp

/-- The beginning of a message is no corrupt stream. -/
theorem peelOne_stream {buf tail : Bytes} {ms : List Message} (hms : ∀ m ∈ ms, m.Sendable)
    (heq : buf ++ tail = ms.flatMap Message.encode) : peelOne buf ≠ .corrupt := by
  match buf with
  | [] | [_] | [_, _] | [_, _, _] | [_, _, _, _] | [_, _, _, _, _] | [_, _, _, _, _, _]
  | [_, _, _, _, _, _, _] => nofun
  | o₀ :: o₁ :: o₂ :: o₃ :: l₀ :: l₁ :: l₂ :: l₃ :: body =>
    cases ms with
    | nil => cases heq
    | cons m ms =>
      have hm := hms m List.mem_cons_self
      have hmax : m.payload.length ≤ 0x1000000 := hm.fits
      have hword : Int.bmod m.payload.length 0x100000000 = m.payload.length :=
        Int.bmod_eq_of_le (by omega) (by omega)
      have hsize := readInt32_le32 (by omega) hword
      simp only [Message.encode, frame, le32, List.flatMap_cons, List.cons_append, List.nil_append,
        List.cons.injEq] at heq
      obtain ⟨-, -, -, -, rfl, rfl, rfl, rfl, -⟩ := heq
      simp only [peelOne, hsize]
      rw [if_neg (by simp only [kMaxPayloadLen]; omega)]
      split <;> nofun

end IpcTransport

end Choir
