-- SUMMARY: The frames the server takes from its clients, and what a client is sent that is not active.
import ChoirOverlay.Host.Broadcast
import ChoirOverlay.Machine.Run

/-!
# Inbound frames

The clients send any bytes in any chunks, between them the host announces what
it likes. `Watched` is the server with a record of what each connection
received and of the frames taken from it.
-/

namespace Choir

namespace StateServer

variable {lib : JsonLib} {sock other : Sock} {f : Frame} {s s' s'' : StateServer}

/-- The frames `drain_frames` hands to its switch, in order, up to one that is
    not handled to the end. -/
def drained (lib : JsonLib) (sock : Sock) : Nat → StateServer → List Frame
  | 0, _ => []
  | fuel + 1, s =>
    match s.clients.lookup sock with
    | none => []
    | some c =>
      match tryDecodeFrame c.rbuf with
      | .corrupt | .incomplete => []
      | .frame f rest =>
        f :: match (s.setClient sock { c with rbuf := rest }).onFrame lib sock f with
          | .ok s => drained lib sock fuel s
          | .error _ => []

/-- The frames a call of `on_ready_read` hands on. -/
def taken (lib : JsonLib) (sock : Sock) (data : Bytes) (s : StateServer) : List Frame :=
  match s.clients.lookup sock with
  | none => []
  | some c =>
    (s.setClient sock { c with rbuf := c.rbuf ++ data }).drained lib sock
      ((c.rbuf ++ data).length + 1)

/-! ## One frame -/

/-- The handler leaves the client as the frame makes it, or without an entry. -/
theorem onFrame_entry {c : Client} (hc : s.clients.lookup sock = some c)
    (hok : s.onFrame lib sock f = .ok s') :
    s'.clients.lookup sock = none ∨ s'.clients.lookup sock = some (s.heard lib c f) := by
  obtain ⟨s₁, -, hentry, hsends⟩ := onFrame_sends lib f hc
  rw [hok] at hsends
  cases hsends with
  | sent _ hclients _ => exact .inr (by rw [hclients]; exact hentry)
  | died _ hgone => exact .inl hgone

/-- Nothing happens to the other connections. -/
structure Only (sock : Sock) (s s' : StateServer) : Prop where
  lookup : ∀ other, other ≠ sock → s'.clients.lookup other = s.clients.lookup other
  out : ∀ other, other ≠ sock → s'.out other = s.out other
  isBlocked : s'.isBlocked = s.isBlocked

theorem Only.refl (sock : Sock) (s : StateServer) : Only sock s s :=
  ⟨fun _ _ => rfl, fun _ _ => rfl, rfl⟩

theorem Only.trans (h : Only sock s s') (h' : Only sock s' s'') : Only sock s s'' where
  lookup other ho := (h'.lookup other ho).trans (h.lookup other ho)
  out other ho := (h'.out other ho).trans (h.out other ho)
  isBlocked := h'.isBlocked.trans h.isBlocked

theorem only_setClient (sock : Sock) (c : Client) (s : StateServer) :
    Only sock s (s.setClient sock c) :=
  ⟨fun _ ho => lookup_setClient_ne ho, fun _ _ => rfl, rfl⟩

theorem only_onDisconnected (sock : Sock) (s : StateServer) :
    Only sock s (s.onDisconnected sock) :=
  ⟨fun _ ho => AList.lookup_erase_ne ho, fun _ _ => rfl, rfl⟩

theorem only_sendFrame (sock : Sock) (f : Frame) (s : StateServer) :
    Only sock s (s.sendFrame sock f) := by
  by_cases hlife : s.life sock = some 0
  · rw [sendFrame_dead hlife]
    exact only_onDisconnected sock s
  · rw [sendFrame_live hlife]
    exact ⟨fun _ _ => rfl, fun _ ho => Function.update_of_ne ho _ _, rfl⟩

theorem only_seedAvatars (entries : List (Sigma fun _ : Bytes => AvatarEntry))
    (hok : s.seedAvatars lib sock entries = .ok s') : Only sock s s' := by
  induction entries generalizing s with
  | nil =>
    obtain rfl : s = s' := Except.ok.inj hok
    exact .refl sock s
  | cons e rest ih =>
    obtain ⟨payload, -, hrest⟩ := seedAvatars_cons_ok hok
    exact (only_sendFrame sock _ s).trans (ih hrest)

theorem only_seedClient (hok : s.seedClient lib sock = .ok s') : Only sock s s' := by
  obtain ⟨snapJson, -, hseed⟩ := seedClient_ok hok
  exact (only_sendFrame sock _ s).trans (only_seedAvatars _ hseed)

theorem only_onFrame {c : Client} (hc : s.clients.lookup sock = some c)
    (hok : s.onFrame lib sock f = .ok s') : Only sock s s' := by
  rw [onFrame] at hok
  cases htype : f.type with
  | hello =>
    simp only [htype, handleHello, client_of_lookup hc, bind, Except.bind] at hok
    split at hok
    · obtain rfl : s = s' := Except.ok.inj hok
      exact .refl sock s
    have hset := only_setClient sock (s.classify lib c f.payload) s
    split at hok
    · rw [← Except.ok.inj hok]
      exact hset.trans (only_sendFrame sock _ _)
    · exact hset.trans (only_seedClient hok)
  | ping =>
    simp only [htype] at hok
    rw [← Except.ok.inj hok]
    exact only_sendFrame sock _ s
  | snapshot | avatarReady | disabled | pong | unknown =>
    simp only [htype] at hok
    rw [← Except.ok.inj hok]
    exact .refl sock s

/-! ## Clients that are not active -/

/-- The replies to a frame of a client that its frame does not make active. -/
def plainReplies (classified : Bool) (f : Frame) : List Frame :=
  match f.type with
  | .hello => if classified then [] else [⟨.disabled, []⟩]
  | .ping => [⟨.pong, []⟩]
  | .snapshot | .avatarReady | .disabled | .pong | .unknown _ => []

/-- A client that is still there was sent the frame. -/
theorem out_sendFrame {c : Client} (hc : (s.sendFrame sock f).clients.lookup sock = some c) :
    (s.sendFrame sock f).out sock = s.out sock ++ encodeFrame f := by
  by_cases hlife : s.life sock = some 0
  · rw [sendFrame_dead hlife, onDisconnected, AList.lookup_erase] at hc
    cases hc
  · rw [sendFrame_live hlife]
    exact Function.update_self ..

theorem out_onFrame {c c' : Client} (hc : s.clients.lookup sock = some c)
    (hok : s.onFrame lib sock f = .ok s') (hc' : s'.clients.lookup sock = some c')
    (hplain : (s.heard lib c f).active = false) :
    s'.out sock = s.out sock ++ (plainReplies (c.active || c.inert) f).flatMap encodeFrame := by
  have hnone : s.out sock = s.out sock ++ ([] : List Frame).flatMap encodeFrame :=
    (List.append_nil _).symm
  rw [onFrame] at hok
  rw [heard] at hplain
  rw [plainReplies]
  cases htype : f.type with
  | hello =>
    simp only [htype, handleHello, client_of_lookup hc, bind, Except.bind] at hok hplain ⊢
    by_cases hclassified : (c.active || c.inert) = true
    · rw [if_pos hclassified] at hok
      rw [if_pos hclassified]
      obtain rfl : s = s' := Except.ok.inj hok
      exact hnone
    · rw [if_neg hclassified] at hok
      rw [if_neg hclassified, List.flatMap_singleton]
      -- A client that does not become active is blocked.
      have hinert : (s.classify lib c f.payload).inert = true := by
        rw [classify, if_neg hclassified] at hplain ⊢
        split at hplain
        · rw [if_pos ‹_›]
        · cases hplain
      rw [if_pos hinert] at hok
      obtain rfl := Except.ok.inj hok
      exact out_sendFrame hc'
  | ping =>
    simp only [htype] at hok
    obtain rfl := Except.ok.inj hok
    rw [List.flatMap_singleton]
    exact out_sendFrame hc'
  | snapshot | avatarReady | disabled | pong | unknown =>
    simp only [htype] at hok
    obtain rfl : s = s' := Except.ok.inj hok
    exact hnone

/-! ## The loop -/

/-- Where the loop returns, the client is there and holds no complete frame. -/
structure Drained (sock : Sock) (s' : StateServer) (keep : Bool) (c : Client) : Prop where
  entry : s'.clients.lookup sock = some c
  kept : keep = true → tryDecodeFrame c.rbuf = .incomplete ∧ c.rbuf.length ≤ kMaxFrameLen
  dropped : keep = false → tryDecodeFrame c.rbuf = .corrupt ∨ kMaxFrameLen < c.rbuf.length

/-- One turn of the loop that handles a frame. -/
theorem drainFrames_frame {fuel : Nat} {c : Client} {rest : Bytes} {keep : Bool}
    (hc : s.clients.lookup sock = some c) (hdec : tryDecodeFrame c.rbuf = .frame f rest)
    (hok : s.drainFrames lib sock (fuel + 1) = .ok (s', keep)) :
    ∃ s₁, (s.setClient sock { c with rbuf := rest }).onFrame lib sock f = .ok s₁ ∧
      s₁.drainFrames lib sock fuel = .ok (s', keep) ∧
      s.drained lib sock (fuel + 1) = f :: s₁.drained lib sock fuel := by
  rw [drainFrames, client_of_lookup hc] at hok
  simp only [bind, Except.bind, hdec] at hok
  rw [drained, hc]
  simp only [hdec]
  cases hframe : (s.setClient sock { c with rbuf := rest }).onFrame lib sock f with
  | error fault => simp [hframe] at hok
  | ok s₁ =>
    simp only [hframe] at hok
    exact ⟨s₁, rfl, hok, rfl⟩

/-- A turn that finds no frame is the last one. -/
theorem drainFrames_idle {fuel : Nat} {c : Client} {keep : Bool}
    (hc : s.clients.lookup sock = some c)
    (hidle : tryDecodeFrame c.rbuf = .incomplete ∨ tryDecodeFrame c.rbuf = .corrupt)
    (hok : s.drainFrames lib sock (fuel + 1) = .ok (s', keep)) :
    s' = s ∧ s.drained lib sock (fuel + 1) = [] ∧
      keep = (isSound c.rbuf && decide (c.rbuf.length ≤ kMaxFrameLen)) := by
  rw [drainFrames, client_of_lookup hc] at hok
  rcases hidle with hdec | hdec <;>
    simp only [bind, Except.bind, hdec, Except.ok.injEq, Prod.mk.injEq] at hok <;>
    obtain ⟨rfl, rfl⟩ := hok <;>
    exact ⟨rfl, by simp only [drained, hc, hdec], by simp [isSound, hdec]⟩

/-- What the handling of each frame preserves, the loop preserves: a handler
    that loses the client is followed by no other turn. -/
theorem drainFrames_invariant {P : List Frame → StateServer → Prop}
    (hstep : ∀ fs s c f rest s', s.clients.lookup sock = some c →
      tryDecodeFrame c.rbuf = .frame f rest →
      (s.setClient sock { c with rbuf := rest }).onFrame lib sock f = .ok s' →
      s'.clients.lookup sock = some (s.heard lib { c with rbuf := rest } f) →
      P fs s → P (fs ++ [f]) s')
    {fuel : Nat} (fs : List Frame) {keep : Bool} {c : Client} (h : P fs s)
    (hc : s.clients.lookup sock = some c) (hfuel : c.rbuf.length < fuel)
    (hok : s.drainFrames lib sock fuel = .ok (s', keep)) :
    P (fs ++ s.drained lib sock fuel) s' := by
  induction fuel generalizing s fs c with
  | zero => omega
  | succ fuel ih =>
    cases hdec : tryDecodeFrame c.rbuf with
    | frame f rest =>
      have hlen := tryDecodeFrame_length hdec
      obtain ⟨s₁, hframe, hrest, hdrained⟩ := drainFrames_frame hc hdec hok
      rcases onFrame_entry lookup_setClient hframe with hgone | hentry
      · rw [drainFrames_gone (by omega) hgone] at hrest
        cases hrest
      · have hfuel' : (s.heard lib { c with rbuf := rest } f).rbuf.length < fuel := by
          rw [heard_rbuf]
          exact Nat.lt_of_lt_of_le hlen (Nat.le_of_lt_succ hfuel)
        rw [hdrained, List.append_cons]
        exact ih _ (hstep fs s c f rest s₁ hc hdec hframe hentry h) hentry hfuel' hrest
    | corrupt | incomplete =>
      obtain ⟨rfl, hnone, -⟩ := drainFrames_idle hc (by simp [hdec]) hok
      rw [hnone, List.append_nil]
      exact h

/-- With fuel for the bytes of the buffer the loop ends where its code says. -/
theorem drainFrames_done {fuel : Nat} {c : Client} {keep : Bool}
    (hc : s.clients.lookup sock = some c) (hfuel : c.rbuf.length < fuel)
    (hok : s.drainFrames lib sock fuel = .ok (s', keep)) : ∃ c', Drained sock s' keep c' := by
  induction fuel generalizing s c with
  | zero => omega
  | succ fuel ih =>
    cases hdec : tryDecodeFrame c.rbuf with
    | frame f rest =>
      have hlen := tryDecodeFrame_length hdec
      obtain ⟨s₁, hframe, hrest, -⟩ := drainFrames_frame hc hdec hok
      cases hc₁ : s₁.clients.lookup sock with
      | none =>
        rw [drainFrames_gone (by omega) hc₁] at hrest
        cases hrest
      | some c₁ =>
        have hbuf : c₁.rbuf = rest := by
          rcases onFrame_entry lookup_setClient hframe with hgone | hheard
          · rw [hgone] at hc₁
            cases hc₁
          · rw [hc₁] at hheard
            rw [Option.some.inj hheard, heard_rbuf]
        exact ih hc₁ (by rw [hbuf]; omega) hrest
    | corrupt =>
      obtain ⟨rfl, -, rfl⟩ := drainFrames_idle hc (.inr hdec) hok
      exact ⟨c, hc, by simp [isSound, hdec], fun _ => .inl hdec⟩
    | incomplete =>
      obtain ⟨rfl, -, rfl⟩ := drainFrames_idle hc (.inl hdec) hok
      refine ⟨c, hc, fun hkeep => ⟨hdec, ?_⟩, fun hkeep => .inr ?_⟩
      · simpa [isSound, hdec] using hkeep
      · simpa [isSound, hdec] using hkeep

/-- A read is appended to the buffer and drained; the connection may be dropped. -/
theorem onReadyRead_ok {data : Bytes} {c : Client} (hc : s.clients.lookup sock = some c)
    (hok : s.onReadyRead lib sock data = .ok s') :
    ∃ s₁ keep, (s.setClient sock { c with rbuf := c.rbuf ++ data }).drainFrames lib sock
        ((c.rbuf ++ data).length + 1) = .ok (s₁, keep) ∧
      s' = if keep then s₁ else s₁.onDisconnected sock := by
  rw [onReadyRead] at hok
  simp only [hc, bind, Except.bind] at hok
  split at hok
  · cases hok
  · rename_i res hdrain
    refine ⟨res.1, res.2, hdrain, ?_⟩
    split at hok <;> simp_all

theorem onReadyRead_gone {data : Bytes} (hc : s.clients.lookup sock = none) :
    s.onReadyRead lib sock data = .ok s := by
  rw [onReadyRead]
  simp only [hc]

/-- A read touches its connection only. -/
theorem only_onReadyRead {data : Bytes} (hok : s.onReadyRead lib sock data = .ok s') :
    Only sock s s' := by
  cases hc : s.clients.lookup sock with
  | none =>
    rw [onReadyRead_gone hc] at hok
    rw [← Except.ok.inj hok]
    exact .refl sock s
  | some c =>
    obtain ⟨s₁, keep, hdrain, rfl⟩ := onReadyRead_ok hc hok
    have honly : Only sock s s₁ := by
      refine drainFrames_invariant (P := fun _ s₁ => Only sock s s₁)
        (fun fs s₁ c f rest s₂ hc₁ hdec hframe _ h => ?_) [] (only_setClient sock _ s)
        lookup_setClient (Nat.lt_succ_self _) hdrain
      exact (h.trans (only_setClient sock _ s₁)).trans (only_onFrame lookup_setClient hframe)
    split
    · exact honly
    · exact honly.trans (only_onDisconnected sock s₁)

/-! ## Announcements -/

/-- A loop over clients that returns has left all of them, and has written to
    the active ones only. -/
structure Announced (s s' : StateServer) : Prop where
  clients : s'.clients = s.clients
  isBlocked : s'.isBlocked = s.isBlocked
  out : ∀ sock, s.isActive sock = false → s'.out sock = s.out sock

theorem announced_sendActive (f : Frame) (socks : List Sock)
    (hok : s.sendActive f socks = .ok s') : Announced s s' := by
  induction socks generalizing s with
  | nil =>
    obtain rfl : s = s' := Except.ok.inj hok
    exact ⟨rfl, rfl, fun _ _ => rfl⟩
  | cons sock rest ih =>
    obtain ⟨c, s₁, hc, hs₁, ⟨c', hc'⟩, hrest⟩ := sendActive_cons_ok hok
    cases hact : c.active with
    | false =>
      rw [hact, if_neg Bool.false_ne_true] at hs₁
      rw [hs₁] at hrest
      exact ih hrest
    | true =>
      rw [hact, if_pos rfl] at hs₁
      subst hs₁
      -- A socket that dies takes the entry with it.
      have hlife : s.life sock ≠ some 0 := fun hlife => by
        rw [sendFrame_dead hlife, onDisconnected, AList.lookup_erase] at hc'
        cases hc'
      have hclients : (s.sendFrame sock f).clients = s.clients := sendFrame_clients hlife
      have honly := only_sendFrame sock f s
      have hann := ih hrest
      refine ⟨hann.clients.trans hclients, hann.isBlocked.trans honly.isBlocked, ?_⟩
      intro other hother
      have hne : other ≠ sock := by
        rintro rfl
        rw [isActive, hc] at hother
        exact absurd (hact.symm.trans hother) (by simp)
      rw [hann.out other (by rw [isActive, hclients]; exact hother), honly.out other hne]

theorem announced_broadcast {snap : Snapshot}
    (hok : (s.setSnapshot snap).broadcast lib snap = .ok s') : Announced s s' := by
  obtain ⟨snapJson, -, hsend⟩ := broadcast_ok hok
  exact { announced_sendActive _ _ hsend with }

theorem announced_broadcastAvatar {hash path : Bytes} {w h : UInt32}
    (hok : s.broadcastAvatar lib hash path w h = .ok s') : Announced s s' := by
  obtain ⟨payload, -, hsend⟩ := broadcastAvatar_ok hok
  exact { announced_sendActive _ _ hsend with }

end StateServer

/-! ## Runs -/

/-- A frame taken from a client, with what the denylist made of it, were it a
    Hello, when it was taken. -/
structure Heard where
  frame : Frame
  blocked : Bool

structure Watched where
  server : StateServer
  /-- What a connection has received so far. -/
  received : Sock → Bytes := fun _ => []
  /-- The frames taken from it so far. -/
  heard : Sock → List Heard := fun _ => []

namespace Watched

inductive Event where
  /-- A new connection; its socket takes so many writes. -/
  | connect (sock : Sock) (life : Option Nat)
  | readable (sock : Sock) (data : Bytes)
  | disconnected (sock : Sock)
  /-- `on_change`. -/
  | snapshot (snap : Snapshot)
  /-- `avatars.ready`. -/
  | announce (hash path : Bytes) (w h : UInt32)
  /-- The settings window swaps the denylist. -/
  | denylist (isBlocked : Option (Bytes → Bool))

def step (lib : JsonLib) (w : Watched) : Event → Except Fault Watched
  | .connect sock life =>
    -- A socket's address is free again once its entry is gone.
    if sock ∈ w.server.clients then .ok w
    else .ok {
      server := { w.server with
        life := Function.update w.server.life sock life
        out := Function.update w.server.out sock [] }.onNewConnection sock
      received := Function.update w.received sock []
      heard := Function.update w.heard sock [] }
  | .readable sock data => do
    let server ← w.server.onReadyRead lib sock data
    let judge (f : Frame) : Heard := ⟨f, w.server.blocksHello lib f.payload⟩
    .ok {
      server
      received := Function.update w.received sock (w.received sock ++ data)
      heard := Function.update w.heard sock
        (w.heard sock ++ (w.server.taken lib sock data).map judge) }
  | .disconnected sock => .ok { w with server := w.server.onDisconnected sock }
  | .snapshot snap => do
    let server ← (w.server.setSnapshot snap).broadcast lib snap
    .ok { w with server }
  | .announce hash path width height => do
    let server ← w.server.broadcastAvatar lib hash path width height
    .ok { w with server }
  | .denylist isBlocked => .ok { w with server := { w.server with isBlocked } }

/-- The host's server before the first connection. -/
def init (isBlocked : Option (Bytes → Bool)) (snap : Snapshot) : Watched where
  server := { isBlocked, current := snap }

/-- What `step` makes of the reads, broadcasts and announcements that return. -/
theorem step_readable_ok {lib : JsonLib} {sock : Sock} {data : Bytes} {w w' : Watched}
    (hok : w.step lib (.readable sock data) = .ok w') :
    w.server.onReadyRead lib sock data = .ok w'.server ∧
      w'.received = Function.update w.received sock (w.received sock ++ data) ∧
      w'.heard = Function.update w.heard sock (w.heard sock ++ (w.server.taken lib sock data).map
        fun f => ⟨f, w.server.blocksHello lib f.payload⟩) := by
  obtain ⟨server, hread, hw'⟩ := Machine.bind_eq_ok.mp hok
  obtain rfl := Except.ok.inj hw'
  exact ⟨hread, rfl, rfl⟩

theorem step_snapshot_ok {lib : JsonLib} {snap : Snapshot} {w w' : Watched}
    (hok : w.step lib (.snapshot snap) = .ok w') :
    ∃ server, (w.server.setSnapshot snap).broadcast lib snap = .ok server ∧
      w' = { w with server } := by
  obtain ⟨server, hsend, hw'⟩ := Machine.bind_eq_ok.mp hok
  exact ⟨server, hsend, (Except.ok.inj hw').symm⟩

theorem step_announce_ok {lib : JsonLib} {hash path : Bytes} {width height : UInt32}
    {w w' : Watched} (hok : w.step lib (.announce hash path width height) = .ok w') :
    ∃ server, w.server.broadcastAvatar lib hash path width height = .ok server ∧
      w' = { w with server } := by
  obtain ⟨server, hsend, hw'⟩ := Machine.bind_eq_ok.mp hok
  exact ⟨server, hsend, (Except.ok.inj hw').symm⟩

/-! ## What an event is to a connection -/

/-- What an event does to the connection `sock`. -/
inductive Concerns (lib : JsonLib) (sock : Sock) (w w' : Watched) : Event → Prop where
  | made (life : Option Nat) (hentry : w'.server.clients.lookup sock = some {})
      (hout : w'.server.out sock = []) (hreceived : w'.received sock = [])
      (hheard : w'.heard sock = []) : Concerns lib sock w w' (.connect sock life)
  | read (data : Bytes) (hread : w.server.onReadyRead lib sock data = .ok w'.server)
      (hreceived : w'.received sock = w.received sock ++ data)
      (hheard : w'.heard sock = w.heard sock ++
        (w.server.taken lib sock data).map fun f => ⟨f, w.server.blocksHello lib f.payload⟩) :
      Concerns lib sock w w' (.readable sock data)
  | ended (hentry : w'.server.clients.lookup sock = none)
      (hout : w'.server.out sock = w.server.out sock)
      (hreceived : w'.received sock = w.received sock) (hheard : w'.heard sock = w.heard sock) :
      Concerns lib sock w w' (.disconnected sock)
  /-- The event is about another connection, or announces to the active ones. -/
  | elsewhere (e : Event)
      (hentry : w'.server.clients.lookup sock = w.server.clients.lookup sock)
      (hout : w.server.isActive sock = false → w'.server.out sock = w.server.out sock)
      (hreceived : w'.received sock = w.received sock) (hheard : w'.heard sock = w.heard sock) :
      Concerns lib sock w w' e

theorem step_concerns {lib : JsonLib} {w w' : Watched} {e : Event} (sock : Sock)
    (hok : w.step lib e = .ok w') : Concerns lib sock w w' e := by
  cases e with
  | connect other life =>
    rw [step] at hok
    split at hok
    · rw [← Except.ok.inj hok]
      exact .elsewhere _ rfl (fun _ => rfl) rfl rfl
    rename_i hfree
    rw [← Except.ok.inj hok]
    simp only [StateServer.onNewConnection, if_neg hfree]
    by_cases hsock : sock = other
    · subst hsock
      exact .made life StateServer.lookup_setClient (Function.update_self ..)
        (Function.update_self ..) (Function.update_self ..)
    · exact .elsewhere _ (StateServer.lookup_setClient_ne hsock)
        (fun _ => Function.update_of_ne hsock _ _) (Function.update_of_ne hsock _ _)
        (Function.update_of_ne hsock _ _)
  | readable other data =>
    obtain ⟨hread, hreceived, hheard⟩ := step_readable_ok hok
    by_cases hsock : sock = other
    · subst hsock
      refine .read data hread ?_ ?_
      · rw [hreceived, Function.update_self]
      · rw [hheard, Function.update_self]
    · have honly := StateServer.only_onReadyRead hread
      refine .elsewhere _ (honly.lookup sock hsock) (fun _ => honly.out sock hsock) ?_ ?_
      · rw [hreceived, Function.update_of_ne hsock]
      · rw [hheard, Function.update_of_ne hsock]
  | disconnected other =>
    rw [← Except.ok.inj hok]
    have honly := StateServer.only_onDisconnected other w.server
    by_cases hsock : sock = other
    · subst hsock
      exact .ended (AList.lookup_erase sock _) rfl rfl rfl
    · exact .elsewhere _ (honly.lookup sock hsock) (fun _ => honly.out sock hsock) rfl rfl
  | snapshot snap =>
    obtain ⟨server, hsend, rfl⟩ := step_snapshot_ok hok
    have hann := StateServer.announced_broadcast hsend
    exact .elsewhere _ (by rw [hann.clients]) (hann.out sock) rfl rfl
  | announce hash path width height =>
    obtain ⟨server, hsend, rfl⟩ := step_announce_ok hok
    have hann := StateServer.announced_broadcastAvatar hsend
    exact .elsewhere _ (by rw [hann.clients]) (hann.out sock) rfl rfl
  | denylist isBlocked =>
    rw [← Except.ok.inj hok]
    exact .elsewhere _ rfl (fun _ => rfl) rfl rfl

/-! ## Laws -/

/-- A property `Q` of one connection, by what was received and heard, that every
    event keeps; `P` is what is left of it while a read is handled. `fresh` is a
    new connection, `taken` one frame of a read. -/
structure Law (lib : JsonLib) (sock : Sock)
    (P Q : Bytes → List Heard → StateServer → Prop) : Prop where
  fresh : ∀ s : StateServer, s.clients.lookup sock = some {} → s.out sock = [] → Q [] [] s
  /-- What happens elsewhere, and what is announced. -/
  congr : ∀ received heard (s s' : StateServer), s'.clients.lookup sock = s.clients.lookup sock →
    (s.isActive sock = false → s'.out sock = s.out sock) →
    Q received heard s → Q received heard s'
  weaken : ∀ received heard s, Q received heard s → P received heard s
  gone : ∀ received received' heard (s s' : StateServer), s'.clients.lookup sock = none →
    s'.out sock = s.out sock → P received heard s → Q received' heard s'
  data : ∀ received heard (s : StateServer) (c : StateServer.Client) bytes,
    s.clients.lookup sock = some c → P received heard s →
    P (received ++ bytes) heard (s.setClient sock { c with rbuf := c.rbuf ++ bytes })
  taken : ∀ received heard (s s' : StateServer) (c : StateServer.Client) f rest,
    s.clients.lookup sock = some c → tryDecodeFrame c.rbuf = .frame f rest →
    (s.setClient sock { c with rbuf := rest }).onFrame lib sock f = .ok s' →
    s'.clients.lookup sock = some (s.heard lib { c with rbuf := rest } f) →
    P received heard s → P received (heard ++ [⟨f, s.blocksHello lib f.payload⟩]) s'
  /-- The frames of the read are handled and the client stays. -/
  done : ∀ received heard (s : StateServer) (c : StateServer.Client),
    s.clients.lookup sock = some c → tryDecodeFrame c.rbuf = .incomplete →
    c.rbuf.length ≤ kMaxFrameLen → P received heard s → Q received heard s

variable {lib : JsonLib} {sock : Sock} {P Q : Bytes → List Heard → StateServer → Prop}
variable {w w' : Watched}

/-- The reads of the connection itself. -/
theorem Law.readable (hP : Law lib sock P Q) {data : Bytes} {received : Bytes}
    {heard : List Heard} {s s' : StateServer} (h : Q received heard s)
    (hok : s.onReadyRead lib sock data = .ok s') :
    Q (received ++ data)
      (heard ++ (s.taken lib sock data).map fun f => ⟨f, s.blocksHello lib f.payload⟩) s' := by
  cases hc : s.clients.lookup sock with
  | none =>
    rw [StateServer.onReadyRead_gone hc] at hok
    rw [StateServer.taken, hc, List.map_nil, List.append_nil, ← Except.ok.inj hok]
    exact hP.gone _ _ _ s s hc rfl (hP.weaken _ _ _ h)
  | some c =>
    obtain ⟨s₁, keep, hdrain, rfl⟩ := StateServer.onReadyRead_ok hc hok
    -- The denylist stays the same while the buffer is drained.
    let R (fs : List Frame) (s₁ : StateServer) : Prop := s₁.isBlocked = s.isBlocked ∧
      P (received ++ data) (heard ++ fs.map fun f => ⟨f, s.blocksHello lib f.payload⟩) s₁
    have hstart : R [] (s.setClient sock { c with rbuf := c.rbuf ++ data }) := by
      refine ⟨rfl, ?_⟩
      rw [List.map_nil, List.append_nil]
      exact hP.data _ _ _ _ _ hc (hP.weaken _ _ _ h)
    have hdrained : R (s.taken lib sock data) s₁ := by
      rw [StateServer.taken, hc]
      refine StateServer.drainFrames_invariant (P := R) ?_ [] hstart
        StateServer.lookup_setClient (Nat.lt_succ_self _) hdrain
      rintro fs s₂ c₂ f rest s₃ hc₂ hdec hframe hentry ⟨hblocked, hp⟩
      have honly := StateServer.only_onFrame StateServer.lookup_setClient hframe
      refine ⟨honly.isBlocked.trans hblocked, ?_⟩
      have hjudge : s₂.blocksHello lib f.payload = s.blocksHello lib f.payload := by
        rw [StateServer.blocksHello_congr hblocked]
      rw [List.map_append, ← List.append_assoc, List.map_singleton, ← hjudge]
      exact hP.taken _ _ _ _ _ _ _ hc₂ hdec hframe hentry hp
    obtain ⟨c', hend⟩ := StateServer.drainFrames_done StateServer.lookup_setClient
      (Nat.lt_succ_self _) hdrain
    split
    · obtain ⟨hidle, hroom⟩ := hend.kept ‹_›
      exact hP.done _ _ _ _ hend.entry hidle hroom hdrained.2
    · exact hP.gone _ _ _ s₁ _ (AList.lookup_erase sock _) rfl hdrained.2

/-- Every event keeps the law. -/
theorem Law.step (hP : Law lib sock P Q) {e : Event}
    (h : Q (w.received sock) (w.heard sock) w.server) (hok : w.step lib e = .ok w') :
    Q (w'.received sock) (w'.heard sock) w'.server := by
  cases step_concerns sock hok with
  | made life hentry hout hreceived hheard =>
    rw [hreceived, hheard]
    exact hP.fresh _ hentry hout
  | read data hread hreceived hheard =>
    rw [hreceived, hheard]
    exact hP.readable h hread
  | ended hentry hout hreceived hheard =>
    rw [hreceived, hheard]
    exact hP.gone _ _ _ w.server _ hentry hout (hP.weaken _ _ _ h)
  | elsewhere _ hentry hout hreceived hheard =>
    rw [hreceived, hheard]
    exact hP.congr _ _ w.server _ hentry hout h

/-- A law holds of every connection in every run. -/
theorem Law.run (hP : Law lib sock P Q) (es : List Event)
    (h : Q (w.received sock) (w.heard sock) w.server)
    (hrun : Machine.runM (Watched.step lib) w es = .ok w') :
    Q (w'.received sock) (w'.heard sock) w'.server :=
  Machine.runM_invariant (P := fun w => Q (w.received sock) (w.heard sock) w.server) es
    (fun _ _ _ _ h hok => hP.step h hok) h hrun

end Watched

end Choir
