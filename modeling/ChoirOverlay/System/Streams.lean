-- SUMMARY: The two receivers of frames over any stream of bytes: what they keep, what they deliver and when they give up.
import ChoirOverlay.Host.Isolation
import ChoirOverlay.Host.Receiving
import ChoirOverlay.Overlay.Reading
import Mathlib.Data.List.Infix

/-!
# Streams of frames

Both receivers account for every byte of a stream until they give up on it, and
both give up on streams of frames that are within the bound: the reader when
the bytes of an unfinished frame and the next read together pass
`kMaxFrameLen`, the server when an unfinished frame does, which with its length
prefix can be four bytes longer.
-/

namespace Choir

/-! ## Any bytes -/

namespace Watched

variable {lib : JsonLib} {sock : Sock} {w w' : Watched}

/-- The frames heard and the bytes in the buffer are the bytes received. -/
def Conserved (sock : Sock) (received : Bytes) (hs : List Heard) (s : StateServer) : Prop :=
  ∀ c, s.clients.lookup sock = some c →
    (hs.map Heard.frame).flatMap encodeFrame ++ c.rbuf = received

def Bounded (sock : Sock) (s : StateServer) : Prop :=
  ∀ c, s.clients.lookup sock = some c → c.rbuf.length ≤ kMaxFrameLen

theorem conserved_law (lib : JsonLib) (sock : Sock) :
    Law lib sock (Conserved sock) fun received hs s =>
      Conserved sock received hs s ∧ Bounded sock s where
  fresh s hc _ := by
    refine ⟨fun c hc' => ?_, fun c hc' => ?_⟩
    all_goals
      rw [hc] at hc'
      obtain rfl := Option.some.inj hc'
    · rfl
    · exact Nat.zero_le _
  congr _ _ s s' hlookup _ h :=
    ⟨fun c hc => h.1 c (hlookup ▸ hc), fun c hc => h.2 c (hlookup ▸ hc)⟩
  weaken _ _ _ h := h.1
  gone _ _ _ s s' hgone _ _ := by
    refine ⟨fun c hc => ?_, fun c hc => ?_⟩
    all_goals
      rw [hgone] at hc
      cases hc
  data received hs s c bytes hc h := by
    intro c' hc'
    rw [StateServer.lookup_setClient] at hc'
    obtain rfl := Option.some.inj hc'
    rw [← h c hc, List.append_assoc]
  taken received hs s s' c f rest hc hdec _ hentry h := by
    intro c' hc'
    rw [hentry] at hc'
    obtain rfl := Option.some.inj hc'
    rw [StateServer.heard_rbuf, List.map_append, List.flatMap_append, List.append_assoc, ← h c hc,
      (eq_of_tryDecodeFrame hdec).2]
    simp only [List.map_singleton, List.flatMap_singleton]
  done received hs s c hc _ hroom h := by
    refine ⟨h, fun c' hc' => ?_⟩
    rw [hc] at hc'
    obtain rfl := Option.some.inj hc'
    exact hroom

/-- Nothing is heard from a connection that is gone, until its address is used
    for another one. -/
theorem gone_heard {es : List Event} (hgone : w.server.clients.lookup sock = none)
    (hsame : ∀ life, .connect sock life ∉ es)
    (hrun : Machine.runM (step lib) w es = .ok w') :
    w'.heard sock = w.heard sock ∧ w'.server.clients.lookup sock = none := by
  refine Machine.runM_invariant (P := fun v => v.heard sock = w.heard sock ∧
    v.server.clients.lookup sock = none) es (fun v e v' he h hok => ?_) ⟨rfl, hgone⟩ hrun
  cases step_concerns sock hok with
  | made life => exact absurd he (hsame life)
  | read data hread hreceived hheard =>
    rw [StateServer.onReadyRead_gone h.2] at hread
    rw [hheard, StateServer.taken, h.2, ← Except.ok.inj hread]
    exact ⟨(List.append_nil _).trans h.1, h.2⟩
  | ended hentry hout hreceived hheard => exact ⟨hheard.trans h.1, hentry⟩
  | elsewhere _ hentry hout hreceived hheard => exact ⟨hheard.trans h.1, hentry.trans h.2⟩

end Watched

/-- Neither receiver loses or makes up a byte, whatever it is sent: while the
    stream has not failed, the encodings of the frames delivered and the bytes
    held are the bytes received. No more than `kMaxFrameLen` bytes are held
    after a read, and a stream that failed delivers nothing more. The client of
    a game makes the turns of its reader and dispatches what they deliver. -/
theorem streams_conserved (lib : JsonLib) (isBlocked : Option (Bytes → Bool)) (snap : Snapshot) :
    (∀ reads : List ReadResult,
      let rd := Machine.run Reading.step {} reads
      (rd.reader.failed = false →
        rd.delivered.flatMap encodeFrame ++ rd.reader.buf = rd.received) ∧
      rd.reader.buf.length ≤ kMaxFrameLen ∧
      (rd.reader.failed = true → ∀ more,
        (Machine.run Reading.step {} (reads ++ more)).delivered = rd.delivered) ∧
      ∀ (c : StateClient) read, c.ended = false → c.conn = some rd.reader → rd.closed = false →
        ∃ frames, (rd.step read).delivered = rd.delivered ++ frames ∧
          c.step lib (.readable read) =
            if (rd.step read).closed = true then (frames.foldl (StateClient.dispatch lib) c).hangUp
            else { frames.foldl (StateClient.dispatch lib) c with
              conn := some (rd.step read).reader }) ∧
    ∀ es w, Machine.runM (Watched.step lib) (.init isBlocked snap) es = .ok w → ∀ sock,
      (∀ c, w.server.clients.lookup sock = some c →
        (w.framesOf sock).flatMap encodeFrame ++ c.rbuf = w.received sock ∧
        c.rbuf.length ≤ kMaxFrameLen) ∧
      (w.server.clients.lookup sock = none → ∀ later w', (∀ life, .connect sock life ∉ later) →
        Machine.runM (Watched.step lib) w later = .ok w' → w'.framesOf sock = w.framesOf sock) := by
  refine ⟨fun reads => ?_, fun es w hrun sock => ?_⟩
  · have hrd := Reading.faithful_run reads
    refine ⟨hrd.conserved, hrd.bounded, fun hfailed more => ?_, fun c read hended hconn hopen => ?_⟩
    · rw [Machine.run_append, Reading.closed_run (hrd.ended hfailed)]
    · exact Reading.stateClient_step hended hconn hopen
  · have hinit : Watched.Conserved sock [] [] (Watched.init isBlocked snap).server ∧
        Watched.Bounded sock (Watched.init isBlocked snap).server := by
      refine ⟨fun c hc => ?_, fun c hc => ?_⟩ <;> cases hc
    obtain ⟨hbytes, hbound⟩ := (Watched.conserved_law lib sock).run es hinit hrun
    refine ⟨fun c hc => ⟨hbytes c hc, hbound c hc⟩, fun hgone later w' hsame hlater => ?_⟩
    rw [Watched.framesOf, (Watched.gone_heard hgone hsame hlater).1, Watched.framesOf]

/-! ## Streams of frames -/

theorem unfinished_zero (frames : List Frame) : frameCodec.unfinished frames 0 = 0 := by
  cases frames with
  | nil => rfl
  | cons f frames => exact if_pos (List.length_pos_iff.mpr (frameCodec.encode_ne_nil f))

/-- The reader has room for an unfinished frame and one more read. -/
theorem readerRoom_fits {frames : List Frame} {chunks : List Bytes} :
    readerRoom.Fits frames 0 chunks ↔ ∀ pre chunk, pre ++ [chunk] <+: chunks →
      frameCodec.unfinished frames pre.flatten.length + chunk.length ≤ kMaxFrameLen := by
  simp only [Deframe.Receiver.Fits, readerRoom, Nat.zero_add, and_true, decide_eq_true_eq]

/-- The server has room for an unfinished frame. -/
theorem serverRoom_fits {frames : List Frame} {chunks : List Bytes} :
    serverRoom.Fits frames 0 chunks ↔ ∀ pre, pre <+: chunks →
      frameCodec.unfinished frames pre.flatten.length ≤ kMaxFrameLen := by
  simp only [Deframe.Receiver.Fits, serverRoom, Nat.zero_add, true_and, decide_eq_true_eq]
  constructor
  · intro h pre hpre
    rcases List.eq_nil_or_concat pre with rfl | ⟨front, chunk, rfl⟩
    · rw [List.flatten_nil, List.length_nil, unfinished_zero]
      exact Nat.zero_le _
    · rw [List.concat_eq_append] at hpre ⊢
      rw [List.flatten_append, List.flatten_singleton, List.length_append]
      exact h front chunk hpre
  · intro h pre chunk hpre
    have hcut := h _ hpre
    rwa [List.flatten_append, List.flatten_singleton, List.length_append] at hcut

/-- A new connection, and then its reads. -/
theorem connect_delivers_iff {lib : JsonLib} {w : Watched} {sock : Sock}
    (hnew : sock ∉ w.server.clients) (life : Option Nat) {frames : List Frame}
    (hframes : ∀ f ∈ frames, f.Sendable) {chunks : List Bytes}
    (hcut : chunks.flatten = frames.flatMap encodeFrame) :
    (∃ w', Machine.runM (Watched.step lib) w
          (.connect sock life :: chunks.map (.readable sock)) = .ok w' ∧
        w'.framesOf sock = frames ∧ sock ∈ w'.server.clients) ↔
      serverRoom.Fits frames 0 chunks ∧
        (∀ r ∈ w.server.answersTo lib {} frames, r.isSome = true) ∧
        ∀ k ∈ life, (w.server.answersTo lib {} frames).length ≤ k := by
  obtain ⟨w₁, hstep, hentry, hheard, hserves, hlife⟩ : ∃ w₁,
      w.step lib (.connect sock life) = .ok w₁ ∧ w₁.server.clients.lookup sock = some {} ∧
        w₁.framesOf sock = [] ∧
        w₁.server.answersTo lib {} frames = w.server.answersTo lib {} frames ∧
        w₁.server.life sock = life := by
    rw [Watched.step, if_neg hnew]
    refine ⟨_, rfl, ?_⟩
    simp only [StateServer.onNewConnection, if_neg hnew, Watched.framesOf, Function.update_self]
    refine ⟨StateServer.lookup_setClient, rfl, ?_, Function.update_self ..⟩
    apply StateServer.answersTo_congr <;> rfl
  have hiff := Watched.delivers_iff lib hentry rfl hframes hcut
  rw [hheard, List.nil_append] at hiff
  rw [StateServer.Answered, hserves, StateServer.Takes, hlife] at hiff
  rw [← hiff]
  constructor
  · rintro ⟨w', hrun, hend⟩
    obtain ⟨w₂, hstep', hrest⟩ := Machine.runM_cons_eq_ok.mp hrun
    rw [hstep] at hstep'
    obtain rfl := Except.ok.inj hstep'
    exact ⟨w', hrest, hend⟩
  · rintro ⟨w', hrest, hend⟩
    exact ⟨w', Machine.runM_cons_eq_ok.mpr ⟨w₁, hstep, hrest⟩, hend⟩

/-- Both receivers deliver a list of frames whose encodings arrive in chunks,
    each exactly when it has room at every cut: the reader for what is
    unfinished there and the next chunk, the server for what is unfinished, and
    its replies must go out. -/
theorem streams_delivered_iff (lib : JsonLib) (frames : List Frame)
    (hframes : ∀ f ∈ frames, f.Sendable) (chunks : List Bytes)
    (hcut : chunks.flatten = frames.flatMap encodeFrame) :
    ((∀ chunk ∈ chunks, chunk ≠ []) →
      let rd := Machine.run Reading.step {} (chunks.map .data)
      (rd.delivered = frames ∧ rd.reader.failed = false ↔
        ∀ pre chunk, pre ++ [chunk] <+: chunks →
          frameCodec.unfinished frames pre.flatten.length + chunk.length ≤ kMaxFrameLen)) ∧
    ∀ (w : Watched) (sock : Sock) (life : Option Nat), sock ∉ w.server.clients →
      ((∃ w', Machine.runM (Watched.step lib) w
            (.connect sock life :: chunks.map (.readable sock)) = .ok w' ∧
          w'.framesOf sock = frames ∧ sock ∈ w'.server.clients) ↔
        (∀ pre, pre <+: chunks → frameCodec.unfinished frames pre.flatten.length ≤ kMaxFrameLen) ∧
          (∀ r ∈ w.server.answersTo lib {} frames, r.isSome = true) ∧
          ∀ k ∈ life, (w.server.answersTo lib {} frames).length ≤ k) := by
  refine ⟨fun hchunks => ?_, fun w sock life hnew => ?_⟩
  · rw [← readerRoom_fits]
    exact Reading.delivers_iff hframes hchunks hcut
  · rw [← serverRoom_fits]
    exact connect_delivers_iff hnew life hframes hcut

/-- A Ping that arrives byte by byte. -/
theorem streams_delivered_ping :
    let frames : List Frame := [⟨.ping, []⟩]
    let chunks : List Bytes := [[1], [0], [0], [0], [5]]
    (Machine.run Reading.step {} (chunks.map .data)).delivered = frames ∧
      ∃ w', Machine.runM (Watched.step compactJson) (.init none {})
          (.connect 0 none :: chunks.map (.readable 0)) = .ok w' ∧
        w'.framesOf 0 = frames ∧ 0 ∈ w'.server.clients := by
  intro frames chunks
  have hframes : ∀ f ∈ frames, f.Sendable := by
    intro f hf
    obtain rfl := List.mem_singleton.mp hf
    exact ⟨rfl, by decide⟩
  have hiff := streams_delivered_iff compactJson frames hframes chunks (by decide)
  have hshort : ∀ pre, pre <+: chunks → pre.flatten.length ≤ 5 := fun pre hpre =>
    hpre.flatten.length_le
  refine ⟨((hiff.1 (by decide)).mpr fun pre chunk hpre => ?_).1,
    (hiff.2 (.init none {}) 0 none nofun).mpr ⟨fun pre hpre => ?_, by decide, nofun⟩⟩
  · have hcut := hshort _ hpre
    rw [List.flatten_append, List.flatten_singleton, List.length_append] at hcut
    have hle := Deframe.Codec.unfinished_le (c := frameCodec) frames pre.flatten.length
    exact Nat.le_trans (by omega) (show 5 ≤ kMaxFrameLen by decide)
  · exact Nat.le_trans (Deframe.Codec.unfinished_le _ _)
      (Nat.le_trans (hshort pre hpre) (by decide))

/-- A stream that arrives byte by byte is cut everywhere. -/
theorem bytewise_prefix (stream : Bytes) {n : Nat} (hn : n < stream.length) :
    ∃ byte, (stream.take n).map (fun byte => [byte]) ++ [[byte]] <+:
      stream.map fun byte => [byte] := by
  refine ⟨stream[n], ?_⟩
  have hprefix := (List.take_prefix (n + 1) stream).map fun byte => [byte]
  rwa [List.take_succ_eq_append_getElem hn, List.map_append] at hprefix

theorem flatten_bytewise (stream : Bytes) : (stream.map fun byte => [byte]).flatten = stream :=
  List.flatMap_singleton' stream

/-- All of the front of a frame is unfinished. -/
theorem unfinished_front {f : Frame} {n : Nat} (hn : n < (encodeFrame f).length) :
    frameCodec.unfinished [f] n = n := if_pos hn

/-- A frame of the greatest length that arrives byte by byte: both receivers
    give up on it before its last bytes. -/
theorem greatestFrame_refused :
    let f : Frame := ⟨.snapshot, List.replicate (kMaxFrameLen - 1) 0x20⟩
    let chunks := (encodeFrame f).map fun byte => [byte]
    1 + f.payload.length ≤ kMaxFrameLen ∧ chunks.flatten = [f].flatMap encodeFrame ∧
      ¬ ((Machine.run Reading.step {} (chunks.map .data)).delivered = [f] ∧
        (Machine.run Reading.step {} (chunks.map .data)).reader.failed = false) ∧
      ¬ ∃ w', Machine.runM (Watched.step compactJson) (.init none {})
          (.connect 0 none :: chunks.map (.readable 0)) = .ok w' ∧
        w'.framesOf 0 = [f] ∧ 0 ∈ w'.server.clients := by
  intro f chunks
  have hfits : 1 + f.payload.length = kMaxFrameLen := by
    rw [List.length_replicate]
    exact Nat.add_sub_cancel' (by decide)
  have hframes : ∀ g ∈ [f], g.Sendable := by
    intro g hg
    obtain rfl := List.mem_singleton.mp hg
    exact ⟨rfl, Nat.le_of_eq hfits⟩
  have hcut : chunks.flatten = [f].flatMap encodeFrame := by
    rw [List.flatMap_singleton]
    exact flatten_bytewise _
  have hlen : (encodeFrame f).length = kMaxFrameLen + 4 := by
    rw [length_encodeFrame]
    omega
  have hfront : ∀ n, n < kMaxFrameLen + 4 →
      frameCodec.unfinished [f] (((encodeFrame f).take n).map fun byte => [byte]).flatten.length =
        n := by
    intro n hn
    rw [flatten_bytewise, List.length_take_of_le (by omega)]
    exact unfinished_front (by omega)
  refine ⟨Nat.le_of_eq hfits, hcut, fun hall => ?_, fun hall => ?_⟩
  · have hroom := readerRoom_fits.mp ((Reading.delivers_iff hframes (by
      intro chunk hchunk
      obtain ⟨byte, -, rfl⟩ := List.mem_map.mp hchunk
      exact List.cons_ne_nil byte []) hcut).mp hall)
    obtain ⟨byte, hprefix⟩ := bytewise_prefix (encodeFrame f) (n := kMaxFrameLen) (by omega)
    have hbytes := hroom _ _ hprefix
    rw [hfront _ (by omega), List.length_singleton] at hbytes
    omega
  · have hnew : 0 ∉ (Watched.init none {}).server.clients := nofun
    have hroom := serverRoom_fits.mp ((connect_delivers_iff hnew none hframes hcut).mp hall).1
    have hbytes := hroom _ ((List.take_prefix (kMaxFrameLen + 1) (encodeFrame f)).map _)
    rw [hfront _ (by omega)] at hbytes
    omega

end Choir
