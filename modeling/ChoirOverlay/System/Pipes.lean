-- SUMMARY: What a step of server and clients does to the frames on their way to one process.
import ChoirOverlay.Host.Hosting
import ChoirOverlay.System.Synced

/-!
# Pipes

The frames on their way to a process form a queue. A step takes some of them
off its front and lets the process see them, puts some at its end, or ends the
connection (`Moves`). Of a frame that is put there it is said what it carries
and whom it answers (`Said`).
-/

namespace Choir

variable {lib : JsonLib}

/-! ## What the server puts on the way -/

namespace StateServer

variable {sock : Sock} {s s' : StateServer} {f : Frame} {frames : List Frame}

/-- A frame as the server sends it: small, and a snapshot only if it is the one
    that is served. -/
structure Current (lib : JsonLib) (s : StateServer) (f : Frame) : Prop where
  small : f.Small
  snapshot : f.type = .snapshot → s.current.toJsonStr lib = some f.payload

private theorem small_of_empty {type : MsgType} (h : MsgType.ofByte type.toByte = type) :
    Frame.Small ⟨type, []⟩ where
  known := h
  short := by
    rw [length_encodeFrame]
    show 5 + 0 + kReadLen ≤ kMaxFrameLen
    decide

theorem Sound.current_of_answers (h : s.Sound lib) {c : Client} {g : Frame}
    (hf : some f ∈ s.answers lib c g) : Current lib s f := by
  unfold answers at hf
  cases htype : g.type with
  | hello =>
    simp only [htype] at hf
    split at hf
    · simp at hf
    unfold greeting at hf
    split at hf
    · obtain rfl : f = ⟨.disabled, []⟩ := by simpa using hf
      exact ⟨small_of_empty rfl, by simp⟩
    · rcases List.mem_cons.mp hf with hf | hf
      · obtain ⟨text, htext, rfl⟩ := Option.map_eq_some_iff.mp hf.symm
        exact ⟨h.current.small text htext, fun _ => htext⟩
      · obtain ⟨e, he, hreply⟩ := List.mem_map.mp hf
        obtain ⟨g', hg', hsmall⟩ := h.avatarReply he
        obtain rfl : f = g' := Option.some.inj (hreply.symm.trans hg')
        obtain ⟨text, -, rfl⟩ := Option.map_eq_some_iff.mp hg'
        exact ⟨hsmall, by simp⟩
  | ping =>
    simp only [htype] at hf
    obtain rfl : f = ⟨.pong, []⟩ := by simpa using hf
    exact ⟨small_of_empty rfl, by simp⟩
  | snapshot | avatarReady | disabled | pong | unknown => simp [htype] at hf

theorem Sound.current_of_replies (h : s.Sound lib) {fuel : Nat} {c : Client}
    (hf : some f ∈ replies lib s fuel c) : Current lib s f := by
  induction fuel generalizing c with
  | zero => simp [replies] at hf
  | succ fuel ih =>
    rw [replies] at hf
    cases hdec : tryDecodeFrame c.rbuf with
    | corrupt | incomplete => simp [hdec] at hf
    | frame g rest =>
      simp only [hdec, List.mem_append] at hf
      exact hf.elim h.current_of_answers ih

/-- A read answers its client, and nobody else hears of it. -/
theorem Sound.reads (h : s.Sound lib) {data : Bytes} {c : Client}
    (hc : s.clients.lookup sock = some c) (hok : s.onReadyRead lib sock data = .ok s') :
    ∃ sent : List Frame, s'.out sock = s.out sock ++ sent.flatMap encodeFrame ∧
      ∀ f ∈ sent, Current lib s' f ∧ some f ∈
        replies lib s ((c.rbuf ++ data).length + 1) { c with rbuf := c.rbuf ++ data } := by
  obtain ⟨sent, hsent, hout⟩ := adds_onReadyRead hc hok
  refine ⟨sent, hout, fun f hf => ?_⟩
  have hreply := (List.takeWhile_prefix _).subset (hsent f hf)
  obtain ⟨hsmall, hsnap⟩ := h.current_of_replies hreply
  exact ⟨⟨hsmall, (keeps_onReadyRead hok).current ▸ hsnap⟩, hreply⟩

/-- A frame that is sent to every active client. -/
theorem sentOnce_frames (h : SentOnce f s s') (sock : Sock) :
    ∃ sent : List Frame, s'.out sock = s.out sock ++ sent.flatMap encodeFrame ∧
      ∀ g ∈ sent, g = f ∧ s.isActive sock = true := by
  by_cases hsock : s.isActive sock = true ∧ s.life sock ≠ some 0
  · refine ⟨[f], ?_, fun g hg => ⟨List.mem_singleton.mp hg, hsock.1⟩⟩
    rw [h sock, if_pos hsock, List.flatMap_singleton]
  · refine ⟨[], ?_, List.forall_mem_nil _⟩
    rw [h sock, if_neg hsock, List.flatMap_nil]

end StateServer

/-! ## What a process sees -/

namespace StateClient

variable {c : StateClient} {r : FrameReader} {wire : Bytes} {frames : List Frame}

/-- What the frames of the host have made of a process. -/
def shown (c : StateClient) : Option Snapshot × Bool := (c.latest, c.disabled)

theorem takeFrames_flow (lib : JsonLib) (c : StateClient)
    (hdrain : ∃ left, frames = (r.drain (r.buf.length + 1)).1 ++ left ∧
      Carries (r.drain (r.buf.length + 1)).2 wire left) :
    ∃ taken left r', frames = taken ++ left ∧ (c.takeFrames lib r).conn = some r' ∧
      Carries r' wire left ∧
      (c.takeFrames lib r).shown = (taken.foldl (dispatch lib) c).shown := by
  obtain ⟨left, hframes, hcarries⟩ := hdrain
  refine ⟨_, left, (r.drain (r.buf.length + 1)).2, hframes, ?_⟩
  rw [takeFrames]
  simp only [hcarries.sound, Bool.false_eq_true, if_false]
  exact ⟨trivial, hcarries, rfl⟩

/-- The connection ends, or some of the frames on their way are taken. -/
theorem step_flow (hended : c.ended = false) (hconn : c.conn = some r)
    (hcarries : Carries r wire frames) {e : Event}
    (hdata : ∀ b bytes, e ≠ .readable (.data (b :: bytes))) :
    (c.step lib e).conn = none ∧ (c.step lib e).shown = c.shown ∨
      ∃ taken left r', frames = taken ++ left ∧ (c.step lib e).conn = some r' ∧
        Carries r' wire left ∧ (c.step lib e).shown = (taken.foldl (dispatch lib) c).shown := by
  have hagain := takeFrames_flow lib c
    (Carries.drain (Nat.lt_succ_self _) hcarries.small hcarries.bytes hcarries.sound)
  simp only [step, hended, Bool.false_eq_true, if_false, hconn]
  cases e with
  | refused => exact .inr ⟨[], frames, r, rfl, hconn, hcarries, rfl⟩
  | connected written => exact .inr ⟨[], frames, r, rfl, hconn, hcarries, rfl⟩
  | readable read =>
    cases read with
    | data bytes =>
      cases bytes with
      | nil =>
        left
        simp [FrameReader.feed, hcarries.sound, hangUp, shown]
      | cons b bytes => exact absurd rfl (hdata b bytes)
    | interrupted | wouldBlock =>
      right
      simpa [FrameReader.feed, hcarries.sound] using hagain
    | error =>
      left
      simp [FrameReader.feed, hcarries.sound, hangUp, shown]
  | pollError => exact .inl ⟨rfl, rfl⟩
  | stop => exact .inl ⟨rfl, rfl⟩

theorem step_receive_flow (lib : JsonLib) {n : Nat} (hended : c.ended = false)
    (hconn : c.conn = some r)
    (hcarries : Carries r wire frames) (hn : n ≤ kReadLen) (hne : wire.take n ≠ []) :
    ∃ taken left r', frames = taken ++ left ∧
      (c.step lib (.readable (.data (wire.take n)))).conn = some r' ∧
      Carries r' (wire.drop n) left ∧
      (c.step lib (.readable (.data (wire.take n)))).shown =
        (taken.foldl (dispatch lib) c).shown := by
  obtain ⟨r', hfeed, hdrain⟩ := hcarries.feed hn hne
  simp only [step, hended, Bool.false_eq_true, if_false, hconn, hfeed, if_true]
  exact takeFrames_flow lib c hdrain

/-- A connection begins with an empty reader. -/
theorem step_connected_conn (lib : JsonLib) (written : Bool) (hended : c.ended = false)
    (hconn : c.conn = none) :
    (c.step lib (.connected written)).conn = none ∨
      (c.step lib (.connected written)).conn = some {} := by
  simp only [step, hended, Bool.false_eq_true, if_false, hconn]
  cases helloPayload lib c.self with
  | none => exact .inl rfl
  | some payload =>
    cases written with
    | false => exact .inl hconn
    | true => exact .inr rfl

/-- Without a connection nothing is seen. -/
theorem step_idle_shown (hconn : c.conn = none) (e : Event) :
    (c.step lib e).shown = c.shown := by
  unfold step
  split
  · rfl
  · rw [hconn]
    cases e with
    | connected written =>
      simp only
      split
      · rfl
      · split <;> rfl
    | stop | refused | readable | pollError => rfl

end StateClient

/-! ## Steps -/

namespace World

variable {w w' : World} {p : Nat} {sock : Sock} {frames : List Frame}

/-- The frames on their way to a process that is connected by this socket. -/
structure Pipe (w : World) (p : Nat) (sock : Sock) (frames : List Frame) : Prop where
  link : w.link p = some sock
  carries : ∃ r, (w.procs p).conn = some r ∧ Carries r (w.server.out sock) frames

theorem pipe_iff : w.Pipe p sock frames ↔ w.link p = some sock ∧
    ∃ r, (w.procs p).conn = some r ∧ Carries r (w.server.out sock) frames :=
  ⟨fun h => ⟨h.link, h.carries⟩, fun h => ⟨h.1, h.2⟩⟩

/-- Whom a frame that is put on the way is for. -/
inductive Said (lib : JsonLib) (w : World) (sock : Sock) (f : Frame) : Prop where
  /-- A broadcast to an active client. -/
  | broadcast (hactive : w.server.isActive sock = true)
  /-- The reply to what a client has written. -/
  | reply {c : StateServer.Client} {data : Bytes} {fuel : Nat}
      (hc : w.server.clients.lookup sock = some c) (hdata : data <+: w.up sock)
      (hf : some f ∈ StateServer.replies lib w.server fuel { c with rbuf := c.rbuf ++ data })

/-- What a step does to a process and its pipe. -/
structure Moves (lib : JsonLib) (w w' : World) (p : Nat) : Prop where
  flows : ∀ sock frames, w.Pipe p sock frames →
    w'.link p = none ∧ (w'.procs p).shown = (w.procs p).shown ∨
      ∃ taken left sent : List Frame, frames = taken ++ left ∧ w'.Pipe p sock (left ++ sent) ∧
        (w'.procs p).shown =
          (taken.foldl (StateClient.dispatch lib) (w.procs p)).shown ∧
        ∀ f ∈ sent, StateServer.Current lib w'.server f ∧ w.Said lib sock f
  opens : w.link p = none → (w'.procs p).shown = (w.procs p).shown ∧
    (w'.link p = none ∨ w'.Pipe p w.nextSock [])

/-- A step that concerns neither the process nor what is on its way. -/
theorem moves_quiet (hlink : w'.link p = w.link p) (hproc : w'.procs p = w.procs p)
    (hout : ∀ sock, w.link p = some sock → w'.server.out sock = w.server.out sock) :
    w.Moves lib w' p where
  flows sock frames hpipe := by
    obtain ⟨r, hconn, hcarries⟩ := hpipe.carries
    refine .inr ⟨[], frames, [], rfl, ⟨hlink.trans hpipe.link, r, hproc ▸ hconn, ?_⟩, ?_, ?_⟩
    · rwa [List.append_nil, hout sock hpipe.link]
    · rw [hproc]
      rfl
    · exact List.forall_mem_nil _
  opens hnone := ⟨by rw [hproc], .inl (hlink.trans hnone)⟩

/-- A pipe is in the processes, their links and what the server has written. -/
theorem Pipe.congr (h : w.Pipe p sock frames) (hlink : w'.link = w.link)
    (hprocs : w'.procs = w.procs) (hout : w'.server.out = w.server.out) :
    w'.Pipe p sock frames := by
  rw [pipe_iff, hlink, hprocs, hout, ← pipe_iff]
  exact h

theorem Moves.congr {w'' : World} (h : w.Moves lib w' p) (hlink : w''.link = w'.link)
    (hprocs : w''.procs = w'.procs) (hout : w''.server.out = w'.server.out)
    (hcur : w''.server.current = w'.server.current) : w.Moves lib w'' p where
  flows sock frames hpipe := by
    rw [hlink, hprocs]
    refine (h.flows sock frames hpipe).imp_right ?_
    rintro ⟨taken, left, sent, hframes, hpipe', hshown, hsent⟩
    refine ⟨taken, left, sent, hframes, hpipe'.congr hlink hprocs hout, hshown, fun f hf => ?_⟩
    obtain ⟨hf, hsaid⟩ := hsent f hf
    exact ⟨⟨hf.small, fun htype => hcur ▸ hf.snapshot htype⟩, hsaid⟩
  opens hnone := by
    rw [hlink, hprocs]
    refine ⟨(h.opens hnone).1, (h.opens hnone).2.imp_right fun hpipe => ?_⟩
    exact hpipe.congr hlink hprocs hout

/-- An operation of the host, whatever it has read before. -/
theorem moves_host {r : Except Fault StateServer} (p : Nat) (up : Sock → Bytes)
    (hok : ∀ s', r = .ok s' → ∀ sock, ∃ sent : List Frame,
      s'.out sock = w.server.out sock ++ sent.flatMap encodeFrame ∧
        ∀ f ∈ sent, StateServer.Current lib s' f ∧ w.Said lib sock f) :
    w.Moves lib (({ w with up } : World).host r) p where
  flows sock frames hpipe := by
    cases r with
    | error fault => exact .inl ⟨rfl, rfl⟩
    | ok s' =>
      obtain ⟨sent, hout, hsent⟩ := hok s' rfl sock
      obtain ⟨rd, hconn, hcarries⟩ := hpipe.carries
      refine .inr ⟨[], frames, sent, rfl, ⟨hpipe.link, rd, hconn, ?_⟩, rfl, hsent⟩
      show Carries rd (s'.out sock) (frames ++ sent)
      rw [hout]
      exact hcarries.send fun f hf => (hsent f hf).1.small
  opens hnone := by
    cases r with
    | error fault => exact ⟨rfl, .inl rfl⟩
    | ok s' => exact ⟨rfl, .inl hnone⟩

theorem client_self_shown (e : StateClient.Event) (w : World) :
    ((w.client lib p e).procs p).shown = ((w.procs p).step lib e).shown := by
  simp [client, StateClient.shown]

theorem client_self_conn (e : StateClient.Event) (w : World) :
    ((w.client lib p e).procs p).conn = ((w.procs p).step lib e).conn := by
  simp [client]

theorem client_self_link_none {e : StateClient.Event}
    (hconn : ((w.procs p).step lib e).conn = none) : (w.client lib p e).link p = none := by
  simp [client, hconn]

theorem client_self_link_some {e : StateClient.Event} {r : FrameReader}
    (hconn : ((w.procs p).step lib e).conn = some r) :
    (w.client lib p e).link p = w.link p := by
  simp [client, hconn]

theorem client_other {q : Nat} (hne : q ≠ p) (e : StateClient.Event) (w : World) :
    (w.client lib p e).procs q = w.procs q ∧ (w.client lib p e).link q = w.link q := by
  refine ⟨Function.update_of_ne hne _ _, ?_⟩
  simp only [client]
  split
  · rfl
  · exact Function.update_of_ne hne _ _

/-- A process takes a step of its own. -/
theorem moves_client {e : StateClient.Event}
    (hlinked : ∀ sock frames, w.Pipe p sock frames →
      ((w.procs p).step lib e).conn = none ∧
          ((w.procs p).step lib e).shown = (w.procs p).shown ∨
        ∃ taken left r', frames = taken ++ left ∧ ((w.procs p).step lib e).conn = some r' ∧
          Carries r' (w'.server.out sock) left ∧ ((w.procs p).step lib e).shown =
            (taken.foldl (StateClient.dispatch lib) (w.procs p)).shown)
    (hunlinked : w.link p = none → ((w.procs p).step lib e).shown = (w.procs p).shown)
    (hproc : w'.procs p = w.procs p) (hlink : w'.link p = w.link p) :
    w.Moves lib (w'.client lib p e) p where
  flows sock frames hpipe := by
    rcases hlinked sock frames hpipe with ⟨hconn, hshown⟩ | hflow
    · refine .inl ⟨client_self_link_none (hproc ▸ hconn), ?_⟩
      rw [client_self_shown, hproc, hshown]
    · obtain ⟨taken, left, r', hframes, hconn, hcarries, hshown⟩ := hflow
      refine .inr ⟨taken, left, [], hframes, ⟨?_, r', ?_, ?_⟩, ?_, List.forall_mem_nil _⟩
      · rw [client_self_link_some (hproc ▸ hconn), hlink, hpipe.link]
      · rw [client_self_conn, hproc, hconn]
      · rwa [List.append_nil]
      · rw [client_self_shown, hproc, hshown]
  opens hnone := by
    rw [client_self_shown, hproc]
    refine ⟨hunlinked hnone, .inl ?_⟩
    simp only [client]
    split
    · exact hlink.trans hnone
    · exact Function.update_self ..

/-- Another process takes a step. -/
theorem moves_client_other {q : Nat} (hne : p ≠ q) (e : StateClient.Event)
    (hproc : w'.procs p = w.procs p) (hlink : w'.link p = w.link p)
    (hout : ∀ sock, w.link p = some sock → w'.server.out sock = w.server.out sock) :
    w.Moves lib (w'.client lib q e) p :=
  moves_quiet ((client_other hne e w').2.trans hlink) ((client_other hne e w').1.trans hproc) hout

/-! ## Every event -/

theorem Inv.ended (h : w.Inv lib none) (hpipe : w.Pipe p sock frames) :
    (w.procs p).ended = false := (h.delivers p sock (by simp) hpipe.link).1

theorem moves_receive (h : w.Inv lib none) (p q n : Nat) : w.Moves lib (w.receive lib q n) p := by
  unfold receive
  cases hl : w.link q with
  | none => exact moves_quiet rfl rfl fun _ _ => rfl
  | some sock =>
    simp only
    split
    · exact moves_quiet rfl rfl fun _ _ => rfl
    rename_i hne
    by_cases hpq : p = q
    · subst hpq
      refine moves_client (fun sock' frames hpipe => ?_) (fun hnone => ?_) rfl rfl
      · obtain rfl : sock = sock' := Option.some.inj (hl.symm.trans hpipe.link)
        obtain ⟨r, hconn, hcarries⟩ := hpipe.carries
        obtain ⟨taken, left, r', hframes, hconn', hcarries', hshown⟩ :=
          StateClient.step_receive_flow lib (h.ended hpipe) hconn hcarries
            (Nat.min_le_right ..) hne
        refine .inr ⟨taken, left, r', hframes, hconn', ?_, hshown⟩
        show Carries r' (Function.update w.server.out sock _ sock) left
        rwa [Function.update_self]
      · exact absurd (hl.symm.trans hnone) (by simp)
    · refine moves_client_other hpq _ rfl rfl fun sock' hl' => ?_
      refine Function.update_of_ne ?_ _ _
      rintro rfl
      exact hpq (h.apart p q sock' hl' hl)

theorem moves_connect (h : w.Inv lib none) (p q : Nat) (written : Bool) :
    w.Moves lib (w.connect lib q written) p := by
  unfold connect
  split
  · exact moves_quiet rfl rfl fun _ _ => rfl
  rename_i hfree
  simp only [Bool.or_eq_true, not_or, Bool.not_eq_true, Option.isSome_eq_false_iff,
    Option.isNone_iff_eq_none] at hfree
  obtain ⟨hnone, hended⟩ := hfree
  by_cases hpq : p = q
  · subst hpq
    have hconn := h.unlinked p (by simp) hnone
    refine ⟨fun sock frames hpipe => ?_, fun _ => ⟨?_, ?_⟩⟩
    · exact absurd (hnone.symm.trans hpipe.link) (by simp)
    · rw [client_self_shown]
      exact StateClient.step_idle_shown hconn _
    · rcases StateClient.step_connected_conn lib written hended hconn with hnew | hnew
      · exact .inl (client_self_link_none hnew)
      · refine .inr ⟨(client_self_link_some (r := {}) ?_).trans (Function.update_self ..), {},
          (client_self_conn ..).trans hnew, ?_⟩
        · exact hnew
        show Carries {} (w.server.out w.nextSock) []
        rw [h.fresh _ (Nat.le_refl _)]
        exact Carries.empty
  · refine moves_client_other hpq _ rfl ?_ fun _ _ => rfl
    exact Function.update_of_ne hpq _ _

theorem moves_other (h : w.Inv lib none) (p q : Nat) {e : StateClient.Event}
    (hdata : ∀ b bytes, e ≠ .readable (.data (b :: bytes))) :
    w.Moves lib (w.client lib q e) p := by
  by_cases hpq : p = q
  · subst hpq
    refine moves_client (fun sock frames hpipe => ?_) (fun hnone => ?_) rfl rfl
    · obtain ⟨r, hconn, hcarries⟩ := hpipe.carries
      exact StateClient.step_flow (h.ended hpipe) hconn hcarries hdata
    · exact StateClient.step_idle_shown (h.unlinked p (by simp) hnone) e
  · exact moves_client_other hpq e rfl rfl fun _ _ => rfl

theorem moves_arrive (h : w.Inv lib none) (p : Nat) (sock : Sock) (n : Nat) :
    w.Moves lib (w.arrive lib sock n) p := by
  unfold arrive
  split
  · rename_i hmem
    obtain ⟨c, hc⟩ := Option.isSome_iff_exists.mp (AList.lookup_isSome.mpr hmem)
    have hread : ∀ s', w.server.onReadyRead lib sock ((w.up sock).take n) = .ok s' →
        ∀ other, ∃ sent : List Frame,
          s'.out other = w.server.out other ++ sent.flatMap encodeFrame ∧
            ∀ f ∈ sent, StateServer.Current lib s' f ∧ w.Said lib other f := by
      intro s' hok other
      by_cases hother : other = sock
      · subst hother
        obtain ⟨sent, hout, hsent⟩ := h.sound.reads hc hok
        exact ⟨sent, hout, fun f hf =>
          ⟨(hsent f hf).1, .reply hc (List.take_prefix _ _) (hsent f hf).2⟩⟩
      · refine ⟨[], ?_, List.forall_mem_nil _⟩
        rw [(StateServer.only_onReadyRead hok).out other hother, List.flatMap_nil, List.append_nil]
    exact moves_host p _ hread
  · exact moves_quiet rfl rfl fun _ _ => rfl

/-- What every event does to every process. -/
theorem step_moves (h : w.Inv lib none) {e : Event} (he : e.Modest lib) (p : Nat) :
    w.Moves lib (w.step lib e) p := by
  unfold step
  split
  · exact moves_quiet rfl rfl fun _ _ => rfl
  cases e with
  | snapshot snap =>
    refine moves_host p w.up fun s' hok sock => ?_
    obtain ⟨text, htext, honce⟩ := StateServer.broadcast_sent hok
    obtain ⟨sent, hout, hsent⟩ := StateServer.sentOnce_frames honce sock
    refine ⟨sent, hout, fun f hf => ?_⟩
    obtain ⟨rfl, hactive⟩ := hsent f hf
    refine ⟨⟨he.small text htext, fun _ => ?_⟩, .broadcast hactive⟩
    rw [(StateServer.broadcast_keeps hok).1]
    exact htext
  | announce hash path width height =>
    refine moves_host p w.up fun s' hok sock => ?_
    obtain ⟨text, htext, honce⟩ := StateServer.broadcastAvatar_sent hok
    obtain ⟨sent, hout, hsent⟩ := StateServer.sentOnce_frames honce sock
    refine ⟨sent, hout, fun f hf => ?_⟩
    obtain ⟨rfl, hactive⟩ := hsent f hf
    exact ⟨⟨he text htext, by simp⟩, .broadcast hactive⟩
  | connect q written => exact moves_connect h p q written
  | accept =>
    simp only [accept]
    split
    · exact moves_quiet rfl rfl fun _ _ => rfl
    · refine moves_quiet rfl rfl fun _ _ => ?_
      simp only [StateServer.onNewConnection]
      split <;> rfl
  | arrive sock n => exact moves_arrive h p sock n
  | disconnected sock => exact moves_quiet rfl rfl fun _ _ => rfl
  | receive q n => exact moves_receive h p q n
  | other q e =>
    simp only
    split
    · exact moves_quiet rfl rfl fun _ _ => rfl
    · exact moves_quiet rfl rfl fun _ _ => rfl
    rename_i hdata
    exact moves_other h p q hdata

/-! ## What is served -/

/-- The snapshot that is served after an event. -/
def Event.served (snap : Snapshot) : Event → Snapshot
  | .snapshot snap' => snap'
  | .announce .. | .connect .. | .accept | .arrive .. | .disconnected _ | .receive .. | .other .. =>
    snap

theorem host_current {r : Except Fault StateServer} {snap : Snapshot}
    (hup : (w.host r).crashed = false) (hok : ∀ s', r = .ok s' → s'.current = snap) :
    (w.host r).server.current = snap := by
  cases r with
  | error fault => simp [host] at hup
  | ok s' => exact hok s' rfl

theorem step_current {e : Event} (hup : (w.step lib e).crashed = false) :
    (w.step lib e).server.current = e.served w.server.current := by
  unfold step at hup ⊢
  split at hup
  · rename_i hdown
    rw [hdown] at hup
    cases hup
  rename_i hdown
  rw [if_neg hdown]
  cases e with
  | snapshot snap => exact host_current hup fun s' hok => (StateServer.broadcast_keeps hok).1
  | announce hash path width height =>
    exact host_current hup fun s' hok => (StateServer.broadcastAvatar_keeps hok).1
  | connect p written =>
    simp only [connect]
    split <;> rfl
  | accept =>
    simp only [accept]
    split
    · rfl
    · simp only [StateServer.onNewConnection]
      split <;> rfl
  | arrive sock n =>
    simp only [arrive] at hup ⊢
    split at hup
    · rename_i hmem
      rw [if_pos hmem]
      exact host_current hup fun s' hok => (StateServer.keeps_onReadyRead hok).current
    · rename_i hmem
      rw [if_neg hmem]
      rfl
  | disconnected sock => rfl
  | receive p n =>
    simp only [receive]
    split
    · rfl
    · split <;> rfl
  | other p e =>
    simp only
    split <;> rfl

end World

end Choir
