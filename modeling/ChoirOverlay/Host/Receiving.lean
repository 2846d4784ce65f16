-- SUMMARY: The server as a receiver of the frames of one client: what a read hands on, and when it returns.
import ChoirOverlay.Host.Inbound
import Mathlib.Data.List.TakeWhile

/-!
# Receiving from a client

`drain_frames` is a receiver of frames that has no room for more than
`kMaxFrameLen` bytes after it has taken the frames off. It goes through when
the replies to the frames go out.
-/

namespace Choir

/-- The guard of `StateServer::drain_frames`. -/
def serverRoom : Deframe.Receiver frameCodec where
  before _ := true
  after n := decide (n ≤ kMaxFrameLen)
  sound := isSound
  sound_of_stream := isSound_of_stream

namespace StateServer

variable {lib : JsonLib} {sock : Sock} {s s' : StateServer} {c : Client} {f : Frame}
variable {fs gs : List Frame}

/-! ## Replies to frames -/

/-- The client after these frames. -/
def heardAll (lib : JsonLib) (s : StateServer) (c : Client) (fs : List Frame) : Client :=
  fs.foldl (fun c f => s.heard lib c f) c

/-- The replies due to these frames. -/
def answersTo (lib : JsonLib) (s : StateServer) : Client → List Frame → List (Option Frame)
  | _, [] => []
  | c, f :: fs => s.answers lib c f ++ answersTo lib s (s.heard lib c f) fs

/-- They can all be written, and the socket takes them. -/
def Answered (lib : JsonLib) (sock : Sock) (c : Client) (fs : List Frame) (s : StateServer) :
    Prop :=
  (∀ r ∈ s.answersTo lib c fs, r.isSome = true) ∧ s.Takes sock (s.answersTo lib c fs).length

theorem answersTo_append (c : Client) :
    s.answersTo lib c (fs ++ gs) = s.answersTo lib c fs ++
      s.answersTo lib (s.heardAll lib c fs) gs := by
  induction fs generalizing c with
  | nil => rfl
  | cons f fs ih =>
    rw [List.cons_append, answersTo, ih, answersTo, List.append_assoc]
    rfl

/-- The bytes in the buffer play no part. -/
theorem heard_with_rbuf (c : Client) (buf : Bytes) (f : Frame) :
    s.heard lib { c with rbuf := buf } f = { s.heard lib c f with rbuf := buf } := by
  unfold heard
  cases f.type with
  | hello =>
    simp only [classify]
    split_ifs <;> rfl
  | snapshot | avatarReady | disabled | ping | pong | unknown => rfl

theorem heardAll_with_rbuf (c : Client) (buf : Bytes) (fs : List Frame) :
    s.heardAll lib { c with rbuf := buf } fs = { s.heardAll lib c fs with rbuf := buf } := by
  unfold heardAll
  induction fs generalizing c with
  | nil => rfl
  | cons f fs ih => rw [List.foldl_cons, heard_with_rbuf, ih, List.foldl_cons]

theorem answers_with_rbuf (c : Client) (buf : Bytes) (f : Frame) :
    s.answers lib { c with rbuf := buf } f = s.answers lib c f := by
  unfold answers
  cases f.type with
  | hello =>
    simp only [classify, greeting]
    split_ifs <;> rfl
  | snapshot | avatarReady | disabled | ping | pong | unknown => rfl

theorem answersTo_with_rbuf (c : Client) (buf : Bytes) (fs : List Frame) :
    s.answersTo lib { c with rbuf := buf } fs = s.answersTo lib c fs := by
  induction fs generalizing c with
  | nil => rfl
  | cons f fs ih => rw [answersTo, answers_with_rbuf, heard_with_rbuf, ih, answersTo]

/-- Replies depend on what is served and on the denylist only. -/
theorem answersTo_congr (hcurrent : s'.current = s.current) (havatars : s'.avatars = s.avatars)
    (hblocked : s'.isBlocked = s.isBlocked) (c : Client) (fs : List Frame) :
    s'.answersTo lib c fs = s.answersTo lib c fs := by
  induction fs generalizing c with
  | nil => rfl
  | cons f fs ih =>
    simp only [answersTo, ih, heard, answers, greeting, classify_congr hblocked, hcurrent, havatars]

theorem Wrote.answersTo_eq {n : Nat} (h : Wrote sock n s s') (c : Client) (fs : List Frame) :
    s'.answersTo lib c fs = s.answersTo lib c fs :=
  answersTo_congr h.current h.avatars h.isBlocked c fs

theorem Wrote.answers_eq {n : Nat} (h : Wrote sock n s s') (c : Client) (f : Frame) :
    s'.answers lib c f = s.answers lib c f := by
  simp only [answers, greeting, classify_congr h.isBlocked, h.current, h.avatars]

theorem Wrote.heardAll_eq {n : Nat} (h : Wrote sock n s s') (c : Client) (fs : List Frame) :
    s'.heardAll lib c fs = s.heardAll lib c fs := by
  simp only [heardAll, heard, classify_congr h.isBlocked]

/-- Some frames are answered, and then the others by the server that is left. -/
theorem answered_append {n : Nat} (fs : List Frame) (h : Wrote sock n s s')
    (hn : n = (s.answersTo lib c fs).length) :
    s.Answered lib sock c (fs ++ gs) ↔
      s.Answered lib sock c fs ∧ s'.Answered lib sock (s.heardAll lib c fs) gs := by
  rw [Answered, Answered, Answered, answersTo_append, h.answersTo_eq, h.takes, List.length_append,
    ← hn, List.forall_mem_append]
  constructor
  · rintro ⟨⟨hnow, hlater⟩, htakes⟩
    exact ⟨⟨hnow, htakes.mono (Nat.le_add_right ..)⟩, hlater, htakes⟩
  · rintro ⟨⟨hnow, -⟩, hlater, htakes⟩
    exact ⟨⟨hnow, hlater⟩, htakes⟩

theorem answered_left (h : s.Answered lib sock c (fs ++ gs)) : s.Answered lib sock c fs := by
  rw [Answered, answersTo_append, List.forall_mem_append, List.length_append] at h
  exact ⟨h.1.1, h.2.mono (Nat.le_add_right ..)⟩

theorem writes_of_forall {rs : List (Option Frame)} (h : ∀ r ∈ rs, r.isSome = true) :
    writes rs = rs.length := by
  rw [writes, List.takeWhile_eq_self_iff.mpr h]

/-- Replies after which the client is still there have gone out. -/
theorem Sends.alive {rs : List (Option Frame)} (h : Sends sock rs s (.ok s'))
    (halive : s'.clients.lookup sock ≠ none) :
    (∀ r ∈ rs, r.isSome = true) ∧ s.Takes sock rs.length ∧ s'.clients = s.clients ∧
      Wrote sock rs.length s s' := by
  cases h with
  | sent hall hclients hwrote => exact ⟨hall, (hwrote.takes 0).mp takes_zero, hclients, hwrote⟩
  | died hdies hgone => exact absurd hgone halive

/-- Replies that can go out do. -/
theorem Sends.goes_out {rs : List (Option Frame)} {r : Except Fault StateServer}
    (h : Sends sock rs s r) (hall : ∀ r ∈ rs, r.isSome = true) (htakes : s.Takes sock rs.length) :
    ∃ s', r = .ok s' ∧ s'.clients = s.clients ∧ Wrote sock rs.length s s' := by
  cases h with
  | sent _ hclients hwrote => exact ⟨_, rfl, hclients, hwrote⟩
  | threw hthrows _ => exact absurd hall hthrows
  | died hdies _ => exact absurd (writes_of_forall hall ▸ htakes) hdies
  | dangled hdies => exact absurd (writes_of_forall hall ▸ htakes) hdies

/-! ## One read -/

/-- Where the loop returns and leaves the client there. -/
structure Done (lib : JsonLib) (sock : Sock) (c : Client) (fs : List Frame) (rest : Bytes)
    (s s' : StateServer) : Prop where
  answered : s.Answered lib sock c fs
  wrote : Wrote sock (s.answersTo lib c fs).length s s'
  entry : s'.clients.lookup sock = some { s.heardAll lib c fs with rbuf := rest }

theorem Done.cons {s₁ : StateServer} {rest : Bytes} (hwrote : Wrote sock 0 s s₁) {s₂ : StateServer}
    (hall : ∀ r ∈ s.answers lib c f, r.isSome = true)
    (htakes : s₁.Takes sock (s.answers lib c f).length)
    (hwrote' : Wrote sock (s.answers lib c f).length s₁ s₂)
    (h : Done lib sock (s.heard lib c f) fs rest s₂ s') : Done lib sock c (f :: fs) rest s s' := by
  have hsend := hwrote.trans hwrote'
  rw [Nat.zero_add] at hsend
  have hone : s.answersTo lib c [f] = s.answers lib c f := List.append_nil _
  have hhere : s.Answered lib sock c [f] := by
    rw [Answered, hone]
    refine ⟨hall, ?_⟩
    have := (hwrote.takes _).mp htakes
    rwa [Nat.zero_add] at this
  refine ⟨?_, ?_, ?_⟩
  · exact (answered_append [f] hsend (by rw [hone])).mpr ⟨hhere, h.answered⟩
  · rw [answersTo, List.length_append, ← hsend.answersTo_eq]
    exact hsend.trans h.wrote
  · rw [h.entry, hsend.heardAll_eq]
    rfl

theorem done_nil (hc : s.clients.lookup sock = some c) : Done lib sock c [] c.rbuf s s :=
  ⟨⟨by simp [answersTo], takes_zero⟩, .refl, hc⟩

theorem Done.of_rbuf {buf rest : Bytes} (h : Done lib sock { c with rbuf := buf } fs rest s s') :
    Done lib sock c fs rest s s' where
  answered := by
    have := h.answered
    rwa [Answered, answersTo_with_rbuf] at this
  wrote := answersTo_with_rbuf (s := s) c buf fs ▸ h.wrote
  entry := by rw [h.entry, heardAll_with_rbuf]

/-- The loop takes the frames off the buffer that are complete. By induction on
    the fuel. -/
theorem drainFrames_done_of_ok {fuel : Nat} {keep : Bool}
    (hc : s.clients.lookup sock = some c) (hfuel : c.rbuf.length < fuel)
    (hok : s.drainFrames lib sock fuel = .ok (s', keep)) :
    Done lib sock c (frameCodec.split fuel c.rbuf).1 (frameCodec.split fuel c.rbuf).2 s s' ∧
      s.drained lib sock fuel = (frameCodec.split fuel c.rbuf).1 ∧
      keep = (isSound (frameCodec.split fuel c.rbuf).2 &&
        serverRoom.after (frameCodec.split fuel c.rbuf).2.length) := by
  induction fuel generalizing s c with
  | zero => omega
  | succ fuel ih =>
    cases hdec : tryDecodeFrame c.rbuf with
    | frame f rest =>
      have hlen := tryDecodeFrame_length hdec
      rw [Deframe.Codec.split_of_some (frameCodec_next_of_frame hdec)]
      obtain ⟨s₂, hframe, hrest, hdrained⟩ := drainFrames_frame hc hdec hok
      have hset : (s.setClient sock { c with rbuf := rest }).clients.lookup sock =
        some { c with rbuf := rest } := lookup_setClient
      obtain ⟨s₁, hwrote, hheard, hsends⟩ := onFrame_sends lib f hset
      have hwrote₁ : Wrote sock 0 s s₁ := setClient_wrote.trans hwrote
      rw [hframe] at hsends
      have halive : s₂.clients.lookup sock ≠ none := fun hgone => by
        rw [drainFrames_gone (by omega) hgone] at hrest
        cases hrest
      obtain ⟨hall, htakes, hclients, hsent⟩ := hsends.alive halive
      have hentry : s₂.clients.lookup sock = some { s.heard lib c f with rbuf := rest } := by
        rw [hclients, hheard, ← heard_with_rbuf]
        rfl
      obtain ⟨hdone, hmore, hkeep⟩ := ih hentry (by simp only; omega) hrest
      rw [hdrained, hmore]
      have hwrote₀ : Wrote sock 0 s (s.setClient sock { c with rbuf := rest }) := setClient_wrote
      rw [hwrote₀.answers_eq, answers_with_rbuf] at hall htakes hsent
      exact ⟨hdone.of_rbuf.cons hwrote₁ hall htakes hsent, rfl, hkeep⟩
    | corrupt | incomplete =>
      have hidle : tryDecodeFrame c.rbuf = .incomplete ∨ tryDecodeFrame c.rbuf = .corrupt := by
        simp [hdec]
      rw [Deframe.Codec.split_of_none (frameCodec_next_eq_none.mpr hidle)]
      obtain ⟨rfl, hnone, hkeep⟩ := drainFrames_idle hc hidle hok
      exact ⟨done_nil hc, hnone, hkeep⟩

/-- The loop returns when the replies go out. By induction on the fuel. -/
theorem drainFrames_returns {fuel : Nat} (hc : s.clients.lookup sock = some c)
    (hfuel : c.rbuf.length < fuel)
    (hans : s.Answered lib sock c (frameCodec.split fuel c.rbuf).1) :
    ∃ s' keep, s.drainFrames lib sock fuel = .ok (s', keep) := by
  induction fuel generalizing s c with
  | zero => omega
  | succ fuel ih =>
    rw [drainFrames, client_of_lookup hc]
    simp only [bind, Except.bind]
    cases hdec : tryDecodeFrame c.rbuf with
    | corrupt | incomplete => exact ⟨_, _, rfl⟩
    | frame f rest =>
      have hlen := tryDecodeFrame_length hdec
      rw [Deframe.Codec.split_of_some (frameCodec_next_of_frame hdec)] at hans
      have hset : (s.setClient sock { c with rbuf := rest }).clients.lookup sock =
        some { c with rbuf := rest } := lookup_setClient
      obtain ⟨s₁, hwrote, hheard, hsends⟩ := onFrame_sends lib f hset
      have hwrote₁ : Wrote sock 0 s s₁ := setClient_wrote.trans hwrote
      have hwrote₀ : Wrote sock 0 s (s.setClient sock { c with rbuf := rest }) := setClient_wrote
      rw [hwrote₀.answers_eq, answers_with_rbuf] at hsends
      obtain ⟨hall, htakes⟩ := hans
      rw [answersTo, List.forall_mem_append] at hall
      rw [answersTo, List.length_append] at htakes
      have hhere : s₁.Takes sock (s.answers lib c f).length := by
        rw [hwrote₁.takes, Nat.zero_add]
        exact htakes.mono (Nat.le_add_right ..)
      obtain ⟨s₂, hframe, hclients, hsent⟩ := hsends.goes_out hall.1 hhere
      have hsend := hwrote₁.trans hsent
      rw [Nat.zero_add] at hsend
      simp only [hframe]
      have hentry : s₂.clients.lookup sock = some { s.heard lib c f with rbuf := rest } := by
        rw [hclients, hheard, ← heard_with_rbuf]
        rfl
      refine ih hentry (by simp only; omega) ?_
      rw [Answered, answersTo_with_rbuf, hsend.answersTo_eq, hsend.takes]
      exact ⟨hall.2, htakes⟩

/-- Setting the entry makes no difference to the replies. -/
theorem Done.of_wrote {s₀ : StateServer} {rest : Bytes} (h : Wrote sock 0 s s₀)
    (hdone : Done lib sock c fs rest s₀ s') : Done lib sock c fs rest s s' where
  answered := by
    have := hdone.answered
    rwa [Answered, h.answersTo_eq, h.takes, Nat.zero_add] at this
  wrote := by
    have := h.trans hdone.wrote
    rwa [Nat.zero_add, h.answersTo_eq] at this
  entry := by rw [hdone.entry, h.heardAll_eq]

/-- A read hands on what the receiver pulls, and drops a client there is no
    room for. -/
theorem onReadyRead_done {data : Bytes} (hc : s.clients.lookup sock = some c)
    (hok : s.onReadyRead lib sock data = .ok s') :
    ∃ s₁ fs rest, Done lib sock c fs rest s s₁ ∧ s.taken lib sock data = fs ∧
      (serverRoom.pull c.rbuf data = some (fs, rest) ∧ s' = s₁ ∨
        serverRoom.pull c.rbuf data = none ∧ s' = s₁.onDisconnected sock) := by
  have hset : Wrote sock 0 s (s.setClient sock { c with rbuf := c.rbuf ++ data }) := setClient_wrote
  obtain ⟨s₁, keep, hdrain, hs'⟩ := onReadyRead_ok hc hok
  obtain ⟨hdone, htaken, hkeep⟩ := drainFrames_done_of_ok lookup_setClient
    (Nat.lt_succ_self (c.rbuf ++ data).length) hdrain
  refine ⟨s₁, _, _, hdone.of_rbuf.of_wrote hset, by simp only [taken, hc]; exact htaken, ?_⟩
  have hpull : serverRoom.pull c.rbuf data = if keep = true then
      some (frameCodec.split ((c.rbuf ++ data).length + 1) (c.rbuf ++ data)) else none := by
    rw [hkeep]
    rfl
  rw [hpull]
  cases keep with
  | true => exact .inl ⟨rfl, hs'⟩
  | false => exact .inr ⟨rfl, hs'⟩

theorem onReadyRead_returns {data rest : Bytes} (hc : s.clients.lookup sock = some c)
    (hpull : serverRoom.pull c.rbuf data = some (fs, rest)) (hans : s.Answered lib sock c fs) :
    ∃ s', s.onReadyRead lib sock data = .ok s' := by
  have hset : Wrote sock 0 s (s.setClient sock { c with rbuf := c.rbuf ++ data }) := setClient_wrote
  have hfs : (frameCodec.split ((c.rbuf ++ data).length + 1) (c.rbuf ++ data)).1 = fs := by
    rw [Deframe.Receiver.pull, Option.ite_none_right_eq_some] at hpull
    rw [Option.some.inj hpull.2]
  have hans' : (s.setClient sock { c with rbuf := c.rbuf ++ data }).Answered lib sock
      { c with rbuf := c.rbuf ++ data }
      (frameCodec.split ((c.rbuf ++ data).length + 1) (c.rbuf ++ data)).1 := by
    rw [hfs, Answered, answersTo_with_rbuf, hset.answersTo_eq, hset.takes, Nat.zero_add]
    exact hans
  obtain ⟨s₁, keep, hdrain⟩ := drainFrames_returns lookup_setClient (Nat.lt_succ_self _) hans'
  rw [onReadyRead]
  simp only [hc, hdrain, bind, Except.bind]
  cases keep with
  | true => exact ⟨s₁, rfl⟩
  | false => exact ⟨s₁.onDisconnected sock, rfl⟩

end StateServer

/-! ## All reads -/

namespace Watched

variable {lib : JsonLib} {sock : Sock} {w w' : Watched} {c : StateServer.Client}
variable {frames : List Frame} {chunks : List Bytes}

/-- The frames heard from a connection. -/
def framesOf (w : Watched) (sock : Sock) : List Frame := (w.heard sock).map Heard.frame

theorem step_readable {data : Bytes} (hok : w.step lib (.readable sock data) = .ok w') :
    w.server.onReadyRead lib sock data = .ok w'.server ∧
      w'.framesOf sock = w.framesOf sock ++ w.server.taken lib sock data := by
  obtain ⟨hread, -, hheard⟩ := step_readable_ok hok
  refine ⟨hread, ?_⟩
  simp only [framesOf, hheard, Function.update_self, List.map_append, List.map_map]
  refine congrArg _ ?_
  exact (List.map_congr_left fun _ _ => rfl).trans (List.map_id _)

/-- A connection that is gone stays so while it is read. -/
theorem gone_run (hgone : w.server.clients.lookup sock = none)
    (hrun : Machine.runM (step lib) w (chunks.map (.readable sock)) = .ok w') :
    w'.server.clients.lookup sock = none := by
  refine Machine.runM_invariant (P := fun w => w.server.clients.lookup sock = none) _
    (fun v e v' he h hok => ?_) hgone hrun
  obtain ⟨data, -, rfl⟩ := List.mem_map.mp he
  have hread := (step_readable hok).1
  rw [StateServer.onReadyRead_gone h] at hread
  rw [← Except.ok.inj hread]
  exact h

/-- Reads that leave the client there hand on what the receiver pulls, and its
    replies went out. -/
theorem run_pulls (hc : w.server.clients.lookup sock = some c)
    (hrun : Machine.runM (step lib) w (chunks.map (.readable sock)) = .ok w')
    (halive : sock ∈ w'.server.clients) :
    ∃ fs rest, serverRoom.pulls c.rbuf chunks = some (fs, rest) ∧
      w'.framesOf sock = w.framesOf sock ++ fs ∧ w.server.Answered lib sock c fs := by
  induction chunks generalizing w c with
  | nil =>
    obtain rfl := Except.ok.inj hrun
    exact ⟨[], c.rbuf, rfl, (List.append_nil _).symm, by
      simp [StateServer.Answered, StateServer.answersTo, StateServer.takes_zero]⟩
  | cons chunk chunks ih =>
    obtain ⟨w₁, hstep, hrest⟩ := Machine.runM_cons_eq_ok.mp hrun
    obtain ⟨hread, hframes⟩ := step_readable hstep
    obtain ⟨s₁, fs, rest, hdone, htaken, hpull⟩ := StateServer.onReadyRead_done hc hread
    rcases hpull with ⟨hpull, hs₁⟩ | ⟨-, hs₁⟩
    · rw [← hs₁] at hdone
      obtain ⟨more, last, hpulls, hmore, hans⟩ := ih hdone.entry hrest
      refine ⟨fs ++ more, last, ?_, ?_, ?_⟩
      · exact Deframe.Receiver.pulls_cons_eq_some.mpr ⟨fs, rest, more, hpull, hpulls, rfl⟩
      · rw [hmore, hframes, htaken, List.append_assoc]
      · refine (StateServer.answered_append _ hdone.wrote rfl).mpr ⟨hdone.answered, ?_⟩
        rwa [StateServer.Answered, StateServer.answersTo_with_rbuf] at hans
    · -- There was no room: the client is gone for good.
      have hgone : w₁.server.clients.lookup sock = none := by
        rw [hs₁]
        exact AList.lookup_erase sock _
      exact absurd halive (AList.lookup_eq_none.mp (gone_run hgone hrest))

/-- The same reads return when there is room and the replies go out. -/
theorem pulls_run {fs : List Frame} {rest : Bytes} (hc : w.server.clients.lookup sock = some c)
    (hpulls : serverRoom.pulls c.rbuf chunks = some (fs, rest))
    (hans : w.server.Answered lib sock c fs) :
    ∃ w', Machine.runM (step lib) w (chunks.map (.readable sock)) = .ok w' ∧
      w'.framesOf sock = w.framesOf sock ++ fs ∧ sock ∈ w'.server.clients := by
  induction chunks generalizing w c fs with
  | nil =>
    obtain ⟨rfl, rfl⟩ := Prod.mk.inj (Option.some.inj hpulls)
    exact ⟨w, rfl, (List.append_nil _).symm, StateServer.mem_of_lookup hc⟩
  | cons chunk chunks ih =>
    obtain ⟨now, mid, more, hpull, hlater, rfl⟩ := Deframe.Receiver.pulls_cons_eq_some.mp hpulls
    obtain ⟨s₁, hread⟩ := StateServer.onReadyRead_returns hc hpull (StateServer.answered_left hans)
    obtain ⟨w₁, hstep⟩ : ∃ w₁, w.step lib (.readable sock chunk) = .ok w₁ := by
      simp only [step, hread, bind, Except.bind]
      exact ⟨_, rfl⟩
    obtain ⟨hread₁, hframes⟩ := step_readable hstep
    obtain ⟨s₂, fs, rest', hdone, htaken, hdid⟩ := StateServer.onReadyRead_done hc hread₁
    rcases hdid with ⟨hpull', hs₂⟩ | ⟨hpull', -⟩
    · rw [hpull] at hpull'
      obtain ⟨rfl, rfl⟩ := Prod.mk.inj (Option.some.inj hpull')
      rw [← hs₂] at hdone
      have hrest := ((StateServer.answered_append _ hdone.wrote rfl).mp hans).2
      obtain ⟨w', hrun, hmore, halive⟩ := ih hdone.entry hlater (by
        rwa [StateServer.Answered, StateServer.answersTo_with_rbuf])
      refine ⟨w', Machine.runM_cons_eq_ok.mpr ⟨w₁, hstep, hrun⟩, ?_, halive⟩
      rw [hmore, hframes, htaken, List.append_assoc]
    · rw [hpull] at hpull'
      cases hpull'

/-- The frames of a stream are all handed on, and the client stays, exactly
    when there is room for the stream at each cut and the replies go out. -/
theorem delivers_iff (lib : JsonLib) (hc : w.server.clients.lookup sock = some c)
    (hempty : c.rbuf = [])
    (hframes : ∀ f ∈ frames, f.Sendable) (hcut : chunks.flatten = frames.flatMap encodeFrame) :
    (∃ w', Machine.runM (step lib) w (chunks.map (.readable sock)) = .ok w' ∧
        w'.framesOf sock = w.framesOf sock ++ frames ∧ sock ∈ w'.server.clients) ↔
      serverRoom.Fits frames 0 chunks ∧ w.server.Answered lib sock c frames := by
  obtain ⟨rbuf, active, inert⟩ := c
  obtain rfl : rbuf = [] := hempty
  rw [← List.length_nil, ← Deframe.Receiver.pulls_stream hframes frameCodec.next_nil hcut]
  constructor
  · rintro ⟨w', hrun, hall, halive⟩
    obtain ⟨fs, rest, hpulls, hfs, hans⟩ := run_pulls hc hrun halive
    rw [hall, List.append_cancel_left_eq] at hfs
    obtain rfl := hfs
    rw [Deframe.Receiver.pulls_all hcut hpulls] at hpulls
    exact ⟨hpulls, hans⟩
  · rintro ⟨hpulls, hans⟩
    exact pulls_run hc hpulls hans

end Watched

end Choir
