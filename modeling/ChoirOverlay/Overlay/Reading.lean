-- SUMMARY: The reader of the overlay over a whole connection: what it delivers of what it was fed.
import ChoirOverlay.Machine.Run
import ChoirOverlay.Overlay.StateClient

/-!
# Reading a connection

`Reading` is a `FrameReader` driven as `serve` drives it, with a record of what
was read and of what was handed on. It is a receiver of frames that has no room
for more than `kMaxFrameLen` bytes before it takes the frames off.
-/

namespace Choir

/-- The guard of `FrameReader::feed`. -/
def readerRoom : Deframe.Receiver frameCodec where
  before n := decide (n ≤ kMaxFrameLen)
  after _ := true
  sound := isSound
  sound_of_stream := isSound_of_stream

structure Reading where
  reader : FrameReader := {}
  /-- What was read so far. -/
  received : Bytes := []
  /-- The frames handed on so far. -/
  delivered : List Frame := []
  /-- `serve` has returned. -/
  closed : Bool := false
  deriving DecidableEq

namespace Reading

/-- One turn of `serve`: `feed`, then `next` until it finds nothing. -/
def step (rd : Reading) (read : ReadResult) : Reading :=
  if rd.closed then rd
  else
    let (r, alive) := rd.reader.feed read
    let received := rd.received ++ read.bytes
    if alive then
      let (frames, r) := r.drain (r.buf.length + 1)
      { reader := r, received, delivered := rd.delivered ++ frames, closed := r.failed }
    else { rd with reader := r, received, closed := true }

variable {lib : JsonLib} {rd : Reading} {read : ReadResult}

theorem step_open (hopen : rd.closed = false) :
    rd.step read =
      if (rd.reader.feed read).2 = true then
        let done := (rd.reader.feed read).1.drain ((rd.reader.feed read).1.buf.length + 1)
        { reader := done.2
          received := rd.received ++ read.bytes
          delivered := rd.delivered ++ done.1
          closed := done.2.failed }
      else { rd with
        reader := (rd.reader.feed read).1
        received := rd.received ++ read.bytes
        closed := true } := by
  rw [step, hopen]
  rfl

/-- The client makes the same turn, and dispatches what it delivers. -/
theorem stateClient_step {c : StateClient} (hended : c.ended = false)
    (hconn : c.conn = some rd.reader) (hopen : rd.closed = false) :
    ∃ frames, (rd.step read).delivered = rd.delivered ++ frames ∧
      c.step lib (.readable read) =
        if (rd.step read).closed = true then (frames.foldl (StateClient.dispatch lib) c).hangUp
        else { frames.foldl (StateClient.dispatch lib) c with
          conn := some (rd.step read).reader } := by
  have hclient : c.step lib (.readable read) =
      if (rd.reader.feed read).2 = true then c.takeFrames lib (rd.reader.feed read).1
      else c.hangUp := by
    simp only [StateClient.step, hended, hconn, Bool.false_eq_true, if_false]
  rw [hclient, step_open hopen]
  cases (rd.reader.feed read).2 with
  | false => exact ⟨[], (List.append_nil _).symm, rfl⟩
  | true => exact ⟨_, rfl, rfl⟩

/-! ## Reads -/

theorem closed_step (hclosed : rd.closed = true) : rd.step read = rd := by
  rw [step, if_pos hclosed]

theorem closed_run (hclosed : rd.closed = true) (reads : List ReadResult) :
    Machine.run step rd reads = rd :=
  Machine.run_invariant (P := fun rd' => rd' = rd)
    (fun _ _ h => by rw [h, closed_step hclosed]) rfl reads

/-- A read of data pulls frames; without room, or on a corrupt rest, the reader
    fails. -/
theorem step_data (hopen : rd.closed = false) (hsound : rd.reader.failed = false) {bytes : Bytes}
    (hbytes : bytes ≠ []) :
    match readerRoom.pull rd.reader.buf bytes with
    | some (frames, rest) => rd.step (.data bytes) =
        { rd with
          reader := { buf := rest }
          received := rd.received ++ bytes
          delivered := rd.delivered ++ frames }
    | none => (rd.step (.data bytes)).closed = true ∧
        (rd.step (.data bytes)).reader = { buf := [], failed := true } := by
  obtain ⟨b, bytes, rfl⟩ := List.exists_cons_of_ne_nil hbytes
  have hfeed : rd.reader.feed (.data (b :: bytes)) =
      if kMaxFrameLen < (rd.reader.buf ++ b :: bytes).length then
        ({ buf := [], failed := true }, false)
      else ({ buf := rd.reader.buf ++ b :: bytes }, true) := by
    simp only [FrameReader.feed, hsound, Bool.false_eq_true, if_false]
  rw [step_open hopen, hfeed, Deframe.Receiver.pull]
  generalize rd.reader.buf ++ b :: bytes = whole
  by_cases hroom : kMaxFrameLen < whole.length
  · rw [if_pos hroom, show readerRoom.before whole.length = false from
      decide_eq_false (Nat.not_le.mpr hroom)]
    exact ⟨rfl, rfl⟩
  · rw [if_neg hroom, show readerRoom.before whole.length = true from
      decide_eq_true (Nat.not_lt.mp hroom)]
    have hdrain := FrameReader.drain_eq (r := { buf := whole }) rfl (Nat.lt_succ_self _)
    simp only [if_true, hdrain]
    by_cases hcorrupt : tryDecodeFrame (frameCodec.split (whole.length + 1) whole).2 = .corrupt
    · simp [readerRoom, isSound, hcorrupt]
    · simp [readerRoom, isSound, hcorrupt, hopen, ReadResult.bytes]

/-- A connection that is read in these chunks. -/
theorem run_data (hopen : rd.closed = false) (hsound : rd.reader.failed = false)
    {chunks : List Bytes} (hchunks : ∀ chunk ∈ chunks, chunk ≠ []) :
    match readerRoom.pulls rd.reader.buf chunks with
    | some (frames, rest) => Machine.run step rd (chunks.map .data) =
        { rd with
          reader := { buf := rest }
          received := rd.received ++ chunks.flatten
          delivered := rd.delivered ++ frames }
    | none => (Machine.run step rd (chunks.map .data)).reader.failed = true := by
  induction chunks generalizing rd with
  | nil =>
    obtain ⟨⟨buf, failed⟩, received, delivered, closed⟩ := rd
    subst hsound
    simp [Deframe.Receiver.pulls]
  | cons chunk chunks ih =>
    have hdata := step_data hopen hsound (hchunks chunk List.mem_cons_self)
    rw [Deframe.Receiver.pulls]
    cases hpull : readerRoom.pull rd.reader.buf chunk with
    | none =>
      simp only [hpull] at hdata
      simp only [Option.bind_none, List.map_cons, Machine.run_cons]
      rw [closed_run hdata.1, hdata.2]
    | some done =>
      obtain ⟨frames, rest⟩ := done
      simp only [hpull] at hdata
      have hrest := @ih (rd.step (.data chunk)) (by rw [hdata]; exact hopen) (by rw [hdata])
        fun chunk hchunk => hchunks chunk (List.mem_cons_of_mem _ hchunk)
      simp only [hdata] at hrest
      simp only [Option.bind_some, List.map_cons, Machine.run_cons, hdata]
      cases hpulls : readerRoom.pulls rest chunks with
      | none =>
        simp only [hpulls] at hrest
        exact hrest
      | some more =>
        simp only [hpulls] at hrest
        simp only [Option.map_some, List.flatten_cons, hrest, List.append_assoc]

/-- The frames of a stream are all delivered, by a reader that does not fail,
    exactly when it has room for the stream at each cut. -/
theorem delivers_iff {frames : List Frame} (hframes : ∀ f ∈ frames, f.Sendable)
    {chunks : List Bytes} (hchunks : ∀ chunk ∈ chunks, chunk ≠ [])
    (hcut : chunks.flatten = frames.flatMap encodeFrame) :
    ((Machine.run step {} (chunks.map .data)).delivered = frames ∧
        (Machine.run step {} (chunks.map .data)).reader.failed = false) ↔
      readerRoom.Fits frames 0 chunks := by
  rw [← List.length_nil, ← Deframe.Receiver.pulls_stream hframes frameCodec.next_nil hcut]
  have hrun := @run_data {} rfl rfl chunks hchunks
  cases hpulls : readerRoom.pulls [] chunks with
  | none =>
    simp only [hpulls] at hrun
    simp [hrun]
  | some done =>
    obtain ⟨delivered, rest⟩ := done
    simp only [hpulls] at hrun
    rw [hrun]
    constructor
    · rintro ⟨hall, -⟩
      obtain rfl : delivered = frames := hall
      rw [Deframe.Receiver.pulls_all hcut hpulls]
    · intro hall
      obtain ⟨rfl, -⟩ := Prod.mk.inj (Option.some.inj hall)
      exact ⟨rfl, rfl⟩

/-! ## Any bytes -/

/-- What holds of a reader whatever it is fed. -/
structure Faithful (rd : Reading) : Prop where
  conserved : rd.reader.failed = false →
    rd.delivered.flatMap encodeFrame ++ rd.reader.buf = rd.received
  bounded : rd.reader.buf.length ≤ kMaxFrameLen
  ended : rd.reader.failed = true → rd.closed = true

/-- A reader fails and drops its buffer, or has room for what is read. -/
theorem feed_cases (read : ReadResult) (hsound : rd.reader.failed = false)
    (hbound : rd.reader.buf.length ≤ kMaxFrameLen) :
    rd.reader.feed read = ({ buf := [], failed := true }, false) ∨
      ∃ alive, rd.reader.feed read = ({ buf := rd.reader.buf ++ read.bytes }, alive) ∧
        (rd.reader.buf ++ read.bytes).length ≤ kMaxFrameLen := by
  obtain ⟨⟨buf, failed⟩, received, delivered, closed⟩ := rd
  subst hsound
  have hsame : ∀ alive : Bool, ∃ alive' : Bool,
      (({ buf } : FrameReader), alive) = ({ buf := buf ++ [] }, alive') ∧
        (buf ++ []).length ≤ kMaxFrameLen := fun alive => by
    rw [List.append_nil]
    exact ⟨alive, rfl, hbound⟩
  cases read with
  | data bytes =>
    cases bytes with
    | nil => exact .inr (hsame false)
    | cons b bytes =>
      by_cases hroom : kMaxFrameLen < (buf ++ b :: bytes).length
      · exact .inl (by simp only [FrameReader.feed, hroom, if_true, Bool.false_eq_true, if_false])
      · refine .inr ⟨true, ?_, Nat.not_lt.mp hroom⟩
        simp only [FrameReader.feed, hroom, Bool.false_eq_true, if_false, ReadResult.bytes]
  | interrupted => exact .inr (hsame true)
  | wouldBlock => exact .inr (hsame true)
  | error => exact .inr (hsame false)

theorem faithful_step (h : rd.Faithful) (read : ReadResult) : (rd.step read).Faithful := by
  cases hopen : rd.closed with
  | true =>
    rw [closed_step hopen]
    exact h
  | false =>
    have hsound : rd.reader.failed = false := by
      cases hfailed : rd.reader.failed with
      | false => rfl
      | true => rw [h.ended hfailed] at hopen; cases hopen
    have hbytes := h.conserved hsound
    rw [step_open hopen]
    rcases feed_cases read hsound h.bounded with hfeed | ⟨alive, hfeed, hroom⟩
    · rw [hfeed]
      exact ⟨nofun, Nat.zero_le _, fun _ => rfl⟩
    · rw [hfeed]
      cases alive with
      | false =>
        have hconserved : rd.delivered.flatMap encodeFrame ++ (rd.reader.buf ++ read.bytes) =
            rd.received ++ read.bytes := by
          rw [← List.append_assoc, hbytes]
        exact ⟨fun _ => hconserved, hroom, nofun⟩
      | true =>
        generalize hwhole : rd.reader.buf ++ read.bytes = whole at hroom
        have hdrain := FrameReader.drain_eq (r := { buf := whole }) rfl (Nat.lt_succ_self _)
        have hsplit := Deframe.Codec.split_conserves (c := frameCodec) (whole.length + 1) whole
        have hlen : (frameCodec.split (whole.length + 1) whole).2.length ≤ kMaxFrameLen := by
          have hbytes := congrArg List.length hsplit
          rw [List.length_append] at hbytes
          omega
        simp only [if_true, hdrain]
        split
        · exact ⟨nofun, Nat.zero_le _, fun _ => rfl⟩
        · refine ⟨fun _ => ?_, hlen, nofun⟩
          rw [List.flatMap_append, List.append_assoc, ← hbytes, List.append_assoc, hwhole]
          exact congrArg _ hsplit

theorem faithful_init : Faithful {} := ⟨fun _ => rfl, Nat.zero_le _, nofun⟩

theorem faithful_run (reads : List ReadResult) : (Machine.run step {} reads).Faithful :=
  Machine.run_invariant (P := Faithful) (fun _ read h => faithful_step h read) faithful_init reads

end Reading

end Choir
