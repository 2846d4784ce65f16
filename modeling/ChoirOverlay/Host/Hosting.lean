-- SUMMARY: The host with its reducer, its server and the clients, and the frames it hands to `encode_frame`.
import ChoirOverlay.Discord.Transport
import ChoirOverlay.Host.Held
import ChoirOverlay.Host.Receiving
import ChoirOverlay.Host.WireSize

/-!
# Hosting

Whatever changes the reducer is broadcast, whatever image is ready is
announced, and clients come, speak and go in between.
-/

namespace Choir

/-! ## Images -/

namespace AvatarCache

/-- `path_for`: an absolute name takes the place of the directory. -/
def pathFor (dir key : Bytes) : Bytes :=
  let name := key ++ ascii ".rgba"
  if name.head? = some 0x2F then name
  else if dir = [] ∨ dir.getLast? = some 0x2F then dir ++ name
  else dir ++ 0x2F :: name

/-- `PATH_MAX`: a path with its terminating byte is no longer. -/
def pathMax : Nat := 4096

/-- What `ready` is fired with. The file was found or written under this path,
so the system took the path. -/
structure Ready where
  dir : Bytes
  key : Bytes
  w : UInt32
  h : UInt32
  taken : (pathFor dir key).length < pathMax

def Ready.path (r : Ready) : Bytes := pathFor r.dir r.key

end AvatarCache

/-! ## Runs -/

structure Hosting where
  overlay : OverlayState
  watched : Watched

namespace Hosting

/-- What `main` has set up: the appearance is set before anyone listens. -/
def init (isBlocked : Option (Bytes → Bool)) (cfg : AppearanceConfig) : Hosting where
  overlay := OverlayState.after [.setConfig cfg]
  watched := .init isBlocked (OverlayState.after [.setConfig cfg]).snap

inductive Event where
  | input (a : OverlayInput)
  | ready (r : AvatarCache.Ready)
  | connect (sock : Sock) (life : Option Nat)
  | readable (sock : Sock) (data : Bytes)
  | disconnected (sock : Sock)
  | denylist (isBlocked : Option (Bytes → Bool))

def serve (lib : JsonLib) (e : Watched.Event) (s : Hosting) : Except Fault Hosting := do
  let watched ← s.watched.step lib e
  .ok { s with watched }

def step (lib : JsonLib) (s : Hosting) : Event → Except Fault Hosting
  | .input a =>
    let overlay := s.overlay.step a
    -- `on_change` fires with every change.
    if overlay.changes.length = s.overlay.changes.length then .ok { s with overlay }
    else { s with overlay }.serve lib (.snapshot overlay.snap)
  | .ready r => s.serve lib (.announce r.key r.path r.w r.h)
  | .connect sock life => s.serve lib (.connect sock life)
  | .readable sock data => s.serve lib (.readable sock data)
  | .disconnected sock => s.serve lib (.disconnected sock)
  | .denylist isBlocked => s.serve lib (.denylist isBlocked)

/-- The replies a read leads to, up to the dump that throws. -/
def repliesTo (lib : JsonLib) (c : StateServer.Client) (data : Bytes) (s : StateServer) :
    List (Option Frame) :=
  let rbuf := c.rbuf ++ data
  (StateServer.replies lib s (rbuf.length + 1) { c with rbuf }).takeWhile Option.isSome

/-- The frames an event makes the host hand to `encode_frame`. -/
inductive Hands (lib : JsonLib) (s : Hosting) : Event → Frame → Prop where
  /-- `broadcast`. -/
  | snapshot {a : OverlayInput} {sock : Sock} {text : Bytes}
      (hchange : (s.overlay.step a).changes.length ≠ s.overlay.changes.length)
      (hactive : s.watched.server.isActive sock = true)
      (htext : (s.overlay.step a).snap.toJsonStr lib = some text) :
      Hands lib s (.input a) ⟨.snapshot, text⟩
  /-- `broadcast_avatar`. -/
  | avatar {r : AvatarCache.Ready} {sock : Sock} {text : Bytes}
      (hactive : s.watched.server.isActive sock = true)
      (htext : StateServer.avatarPayload lib r.key r.path r.w r.h = some text) :
      Hands lib s (.ready r) ⟨.avatarReady, text⟩
  /-- `drain_frames`. -/
  | reply {sock : Sock} {data : Bytes} {c : StateServer.Client} {f : Frame}
      (hc : s.watched.server.clients.lookup sock = some c)
      (hf : some f ∈ repliesTo lib c data s.watched.server) :
      Hands lib s (.readable sock data) f

/-- A frame handed over somewhere in a run. -/
def HandsAlong (lib : JsonLib) (s : Hosting) (es : List Event) (f : Frame) : Prop :=
  ∃ pre e post t, es = pre ++ e :: post ∧ Machine.runM (step lib) s pre = .ok t ∧ t.Hands lib e f

/-- What the reducer is fed with in a run. -/
def inputs (es : List Event) : List OverlayInput :=
  es.filterMap fun
    | .input a => some a
    | _ => none

/-- An event of a message the transport accepts, or any config. -/
def Accepted (lib : JsonLib) : OverlayInput → Prop
  | .event _ ev => ∃ text : Bytes, text.length ≤ kMaxPayloadLen ∧ ParsedFrom lib text ev
  | .setConfig _ => True

end Hosting

/-! ## What the server keeps -/

namespace StateServer

variable {lib : JsonLib} {sock : Sock} {s s' : StateServer} {f : Frame}

/-- What is announced to clients stays. -/
structure Keeps (s s' : StateServer) : Prop where
  current : s'.current = s.current
  avatars : s'.avatars = s.avatars

theorem Keeps.refl (s : StateServer) : Keeps s s := ⟨rfl, rfl⟩

theorem Keeps.trans {s'' : StateServer} (h : Keeps s s') (h' : Keeps s' s'') : Keeps s s'' :=
  ⟨h'.current.trans h.current, h'.avatars.trans h.avatars⟩

theorem keeps_sendFrame (sock : Sock) (f : Frame) (s : StateServer) :
    Keeps s (s.sendFrame sock f) := by
  by_cases hlife : s.life sock = some 0
  · rw [sendFrame_dead hlife]
    exact ⟨rfl, rfl⟩
  · rw [sendFrame_live hlife]
    exact ⟨rfl, rfl⟩

theorem keeps_sendActive {socks : List Sock} (hok : s.sendActive f socks = .ok s') :
    Keeps s s' := by
  induction socks generalizing s with
  | nil =>
    obtain rfl : s = s' := Except.ok.inj hok
    exact .refl s
  | cons sock rest ih =>
    obtain ⟨c, s₁, -, rfl, -, hrest⟩ := sendActive_cons_ok hok
    refine Keeps.trans ?_ (ih hrest)
    split
    · exact keeps_sendFrame sock f s
    · exact .refl s

theorem keeps_onReadyRead {data : Bytes} (hok : s.onReadyRead lib sock data = .ok s') :
    Keeps s s' := by
  cases hc : s.clients.lookup sock with
  | none =>
    rw [onReadyRead_gone hc] at hok
    obtain rfl : s = s' := Except.ok.inj hok
    exact .refl s
  | some c =>
    obtain ⟨s₁, fs, rest, hdone, -, hend⟩ := onReadyRead_done hc hok
    have hkeeps : Keeps s s₁ := ⟨hdone.wrote.current, hdone.wrote.avatars⟩
    rcases hend with ⟨-, rfl⟩ | ⟨-, rfl⟩
    · exact hkeeps
    · exact hkeeps.trans ⟨rfl, rfl⟩

theorem broadcast_keeps {snap : Snapshot}
    (hok : (s.setSnapshot snap).broadcast lib snap = .ok s') :
    s'.current = snap ∧ s'.avatars = s.avatars := by
  obtain ⟨snapJson, -, hsend⟩ := broadcast_ok hok
  exact ⟨(keeps_sendActive hsend).current, (keeps_sendActive hsend).avatars⟩

theorem broadcastAvatar_keeps {hash path : Bytes} {w h : UInt32}
    (hok : s.broadcastAvatar lib hash path w h = .ok s') :
    s'.current = s.current ∧ s'.avatars = s.avatars.insert hash { path, w, h } := by
  obtain ⟨payload, -, hsend⟩ := broadcastAvatar_ok hok
  exact ⟨(keeps_sendActive hsend).current, (keeps_sendActive hsend).avatars⟩

/-- Where the payload of a reply comes from. -/
inductive Source (lib : JsonLib) (s : StateServer) : Bytes → Prop where
  | empty : Source lib s []
  | current {text : Bytes} (htext : s.current.toJsonStr lib = some text) : Source lib s text
  | avatar {hash : Bytes} {e : AvatarEntry} {text : Bytes} (he : s.avatars.lookup hash = some e)
      (htext : avatarPayload lib hash e.path e.w e.h = some text) : Source lib s text

theorem source_of_mem_answers {c : Client} {g : Frame} (h : some f ∈ s.answers lib c g) :
    Source lib s f.payload := by
  unfold answers at h
  cases htype : g.type with
  | hello =>
    simp only [htype] at h
    split at h
    · simp at h
    · unfold greeting at h
      split at h
      · obtain rfl : f = ⟨.disabled, []⟩ := by simpa using h
        exact .empty
      · rcases List.mem_cons.mp h with h | h
        · obtain ⟨text, htext, rfl⟩ := Option.map_eq_some_iff.mp h.symm
          exact .current htext
        · obtain ⟨⟨hash, e⟩, he, hreply⟩ := List.mem_map.mp h
          obtain ⟨text, htext, rfl⟩ := Option.map_eq_some_iff.mp hreply
          exact .avatar (AList.mem_lookup_iff.mpr he) htext
  | ping =>
    simp only [htype] at h
    obtain rfl : f = ⟨.pong, []⟩ := by simpa using h
    exact .empty
  | snapshot | avatarReady | disabled | pong | unknown => simp [htype] at h

theorem source_of_mem_replies {fuel : Nat} {c : Client} (h : some f ∈ replies lib s fuel c) :
    Source lib s f.payload := by
  induction fuel generalizing c with
  | zero => simp [replies] at h
  | succ fuel ih =>
    rw [replies] at h
    cases hdec : tryDecodeFrame c.rbuf with
    | corrupt | incomplete => simp [hdec] at h
    | frame g rest =>
      simp only [hdec, List.mem_append] at h
      exact h.elim source_of_mem_answers ih

/-! ## What the server writes -/

/-- What is put on the way to a socket are some of these replies. -/
def Adds (sock : Sock) (rs : List (Option Frame)) (s s' : StateServer) : Prop :=
  ∃ fs : List Frame, (∀ f ∈ fs, some f ∈ rs) ∧ s'.out sock = s.out sock ++ fs.flatMap encodeFrame

variable {rs rs' : List (Option Frame)}

theorem adds_nothing (hout : s'.out sock = s.out sock) : Adds sock rs s s' :=
  ⟨[], List.forall_mem_nil _, by rw [hout, List.flatMap_nil, List.append_nil]⟩

theorem Adds.append {s'' : StateServer} (h : Adds sock rs s s') (h' : Adds sock rs' s' s'') :
    Adds sock (rs ++ rs') s s'' := by
  obtain ⟨fs, hfs, hout⟩ := h
  obtain ⟨fs', hfs', hout'⟩ := h'
  refine ⟨fs ++ fs', fun f hf => ?_, ?_⟩
  · rcases List.mem_append.mp hf with hf | hf
    · exact List.mem_append_left _ (hfs f hf)
    · exact List.mem_append_right _ (hfs' f hf)
  · rw [hout', hout, List.append_assoc, List.flatMap_append]

theorem adds_sendFrame (sock : Sock) (f : Frame) (s : StateServer) :
    Adds sock [some f] s (s.sendFrame sock f) := by
  by_cases hlife : s.life sock = some 0
  · rw [sendFrame_dead hlife]
    exact adds_nothing rfl
  · refine ⟨[f], by simp, ?_⟩
    rw [sendFrame_live hlife, List.flatMap_singleton]
    exact Function.update_self ..

theorem adds_seedAvatars {entries : List (Sigma fun _ : Bytes => AvatarEntry)}
    (hok : s.seedAvatars lib sock entries = .ok s') :
    Adds sock (entries.map (avatarReply lib)) s s' := by
  induction entries generalizing s with
  | nil =>
    obtain rfl : s = s' := Except.ok.inj hok
    exact adds_nothing rfl
  | cons e rest ih =>
    obtain ⟨payload, hpayload, hrest⟩ := seedAvatars_cons_ok hok
    rw [List.map_cons, avatarReply, hpayload, ← List.singleton_append]
    exact (adds_sendFrame sock _ s).append (ih hrest)

theorem adds_seedClient {c : Client} (hinert : c.inert = false)
    (hok : s.seedClient lib sock = .ok s') : Adds sock (s.greeting lib c) s s' := by
  obtain ⟨snapJson, htext, hseed⟩ := seedClient_ok hok
  rw [greeting, hinert, if_neg Bool.false_ne_true, htext, Option.map_some, ← List.singleton_append]
  exact (adds_sendFrame sock _ s).append (adds_seedAvatars hseed)

theorem adds_onFrame {c : Client} (hc : s.clients.lookup sock = some c)
    (hok : s.onFrame lib sock f = .ok s') : Adds sock (s.answers lib c f) s s' := by
  rw [onFrame] at hok
  rw [answers]
  cases htype : f.type with
  | hello =>
    simp only [htype, handleHello, client_of_lookup hc, bind, Except.bind] at hok ⊢
    by_cases hclassified : (c.active || c.inert) = true
    · rw [if_pos hclassified] at hok
      obtain rfl : s = s' := Except.ok.inj hok
      exact adds_nothing rfl
    · rw [if_neg hclassified] at hok ⊢
      cases hinert : (s.classify lib c f.payload).inert with
      | true =>
        rw [if_pos hinert] at hok
        rw [greeting, if_pos hinert, ← Except.ok.inj hok]
        exact adds_sendFrame sock _ (s.setClient sock _)
      | false =>
        rw [if_neg (by simp [hinert])] at hok
        exact adds_seedClient (s := s.setClient sock _) hinert hok
  | ping =>
    simp only [htype] at hok ⊢
    rw [← Except.ok.inj hok]
    exact adds_sendFrame sock _ s
  | snapshot | avatarReady | disabled | pong | unknown =>
    simp only [htype] at hok
    obtain rfl : s = s' := Except.ok.inj hok
    exact adds_nothing rfl

/-- Where the loop returns, no dump has thrown. By induction on the fuel. -/
theorem adds_drainFrames {fuel : Nat} {c : Client} {keep : Bool}
    (hc : s.clients.lookup sock = some c) (hfuel : c.rbuf.length < fuel)
    (hok : s.drainFrames lib sock fuel = .ok (s', keep)) :
    Adds sock ((replies lib s fuel c).takeWhile Option.isSome) s s' := by
  induction fuel generalizing s c with
  | zero => omega
  | succ fuel ih =>
    rw [replies]
    cases hdec : tryDecodeFrame c.rbuf with
    | corrupt | incomplete =>
      obtain ⟨rfl, -, -⟩ := drainFrames_idle hc (by simp [hdec]) hok
      exact adds_nothing rfl
    | frame g rest =>
      have hlen := tryDecodeFrame_length hdec
      obtain ⟨s₁, hframe, hrest, -⟩ := drainFrames_frame hc hdec hok
      have hset : Wrote sock 0 s (s.setClient sock { c with rbuf := rest }) := setClient_wrote
      have hlookup : (s.setClient sock { c with rbuf := rest }).clients.lookup sock =
        some { c with rbuf := rest } := lookup_setClient
      have hheard : (s.setClient sock { c with rbuf := rest }).heard lib { c with rbuf := rest } g =
        s.heard lib { c with rbuf := rest } g := hset.heardAll_eq { c with rbuf := rest } [g]
      have hadds := adds_onFrame hlookup hframe
      obtain ⟨s₂, hwrote, hentry, hsends⟩ := onFrame_sends lib g hlookup
      rw [hframe] at hsends
      have halive : s₁.clients.lookup sock ≠ none := fun hgone => by
        rw [drainFrames_gone (by omega) hgone] at hrest
        cases hrest
      obtain ⟨hall, -, hclients, hsent⟩ := hsends.alive halive
      rw [hset.answers_eq] at hadds hall hsent
      rw [hheard, ← hclients] at hentry
      have hmore := ih hentry (by rw [heard_rbuf]; simp only; omega) hrest
      rw [((hset.trans hwrote).trans hsent).replies_eq] at hmore
      simp only
      rw [List.takeWhile_append_of_pos hall]
      exact hadds.append hmore

theorem adds_onReadyRead {data : Bytes} {c : Client} (hc : s.clients.lookup sock = some c)
    (hok : s.onReadyRead lib sock data = .ok s') :
    Adds sock ((replies lib s ((c.rbuf ++ data).length + 1)
      { c with rbuf := c.rbuf ++ data }).takeWhile Option.isSome) s s' := by
  have hset : Wrote sock 0 s (s.setClient sock { c with rbuf := c.rbuf ++ data }) := setClient_wrote
  obtain ⟨s₁, keep, hdrain, rfl⟩ := onReadyRead_ok hc hok
  have hadds := adds_drainFrames lookup_setClient (Nat.lt_succ_self (c.rbuf ++ data).length) hdrain
  rw [hset.replies_eq] at hadds
  cases keep with
  | true => exact hadds
  | false => exact hadds

/-- A broadcast that returns has written to every active client once. -/
theorem broadcast_sent {snap : Snapshot}
    (hok : (s.setSnapshot snap).broadcast lib snap = .ok s') :
    ∃ text, snap.toJsonStr lib = some text ∧ SentOnce ⟨.snapshot, text⟩ s s' := by
  obtain ⟨text, htext, hsend⟩ := broadcast_ok hok
  have honce := sentOnce_of_ok hsend
  exact ⟨text, htext, honce⟩

theorem broadcastAvatar_sent {hash path : Bytes} {w h : UInt32}
    (hok : s.broadcastAvatar lib hash path w h = .ok s') :
    ∃ text, avatarPayload lib hash path w h = some text ∧
      SentOnce ⟨.avatarReady, text⟩ s s' := by
  obtain ⟨text, htext, hsend⟩ := broadcastAvatar_ok hok
  have honce :=
    sentOnce_of_ok (s := { s with avatars := s.avatars.insert hash { path, w, h } }) hsend
  exact ⟨text, htext, honce⟩

end StateServer

namespace Watched

/-- The snapshot that is served after an event. -/
def Event.served (snap : Snapshot) : Event → Snapshot
  | .snapshot snap' => snap'
  | .connect .. | .readable .. | .disconnected _ | .announce .. | .denylist _ => snap

/-- The images that are replayed after an event. -/
def Event.replayed (avatars : AList fun _ : Bytes => StateServer.AvatarEntry) :
    Event → AList fun _ : Bytes => StateServer.AvatarEntry
  | .announce hash path w h => avatars.insert hash { path, w, h }
  | .connect .. | .readable .. | .disconnected _ | .snapshot _ | .denylist _ => avatars

theorem step_served {lib : JsonLib} {w w' : Watched} {e : Event} (hok : w.step lib e = .ok w') :
    w'.server.current = e.served w.server.current ∧
      w'.server.avatars = e.replayed w.server.avatars := by
  cases e with
  | connect sock life =>
    rw [step] at hok
    split at hok
    · rw [← Except.ok.inj hok]
      exact ⟨rfl, rfl⟩
    · rename_i hfree
      rw [← Except.ok.inj hok]
      simp only [StateServer.onNewConnection, if_neg hfree]
      exact ⟨rfl, rfl⟩
  | readable sock data =>
    obtain ⟨hread, -, -⟩ := step_readable_ok hok
    have hkeeps := StateServer.keeps_onReadyRead hread
    exact ⟨hkeeps.current, hkeeps.avatars⟩
  | snapshot snap =>
    obtain ⟨server, hsend, rfl⟩ := step_snapshot_ok hok
    exact StateServer.broadcast_keeps hsend
  | announce hash path width height =>
    obtain ⟨server, hsend, rfl⟩ := step_announce_ok hok
    exact StateServer.broadcastAvatar_keeps hsend
  | disconnected | denylist =>
    rw [← Except.ok.inj hok]
    exact ⟨rfl, rfl⟩

end Watched

/-! ## What the host keeps -/

namespace Hosting

variable {lib : JsonLib} {s t : Hosting} {e : Event} {es : List Event} {f : Frame} {sock : Sock}
variable {hist : List OverlayInput}

theorem inputs_append (es es' : List Event) : inputs (es ++ es') = inputs es ++ inputs es' :=
  List.filterMap_append

theorem serve_eq_ok {e : Watched.Event} :
    s.serve lib e = .ok t ↔
      ∃ watched, s.watched.step lib e = .ok watched ∧ t = { s with watched } := by
  unfold serve
  cases hstep : s.watched.step lib e with
  | error fault => simp [bind, Except.bind]
  | ok watched => simp [bind, Except.bind, eq_comm]

/-- What is put on the way to a socket are frames that are handed over. -/
def Writes (lib : JsonLib) (e : Event) (sock : Sock) (s t : Hosting) : Prop :=
  ∃ fs : List Frame, (∀ f ∈ fs, s.Hands lib e f) ∧
    t.watched.server.out sock = s.watched.server.out sock ++ fs.flatMap encodeFrame

theorem writes_nothing (hout : t.watched.server.out sock = s.watched.server.out sock) :
    Writes lib e sock s t :=
  ⟨[], List.forall_mem_nil _, by rw [hout, List.flatMap_nil, List.append_nil]⟩

theorem writes_once (hsent : s.watched.server.SentOnce f t.watched.server)
    (hhands : s.watched.server.isActive sock = true → s.Hands lib e f) :
    Writes lib e sock s t := by
  have hout := hsent sock
  split at hout
  · rename_i hact
    exact ⟨[f], by simpa using hhands hact.1, by rw [hout, List.flatMap_singleton]⟩
  · exact writes_nothing (by rw [hout, List.append_nil])

/-- No other bytes leave the host; a new connection starts with none. -/
theorem writes_step (hok : s.step lib e = .ok t) (sock : Sock) :
    t.watched.server.out sock = [] ∨ Writes lib e sock s t := by
  cases e with
  | input a =>
    refine .inr ?_
    rw [step] at hok
    split at hok
    · rw [← Except.ok.inj hok]
      exact writes_nothing rfl
    · rename_i hchange
      obtain ⟨watched, hsnap, rfl⟩ := serve_eq_ok.mp hok
      obtain ⟨server, hsend, rfl⟩ := Watched.step_snapshot_ok hsnap
      obtain ⟨text, htext, hsent⟩ := StateServer.broadcast_sent hsend
      exact writes_once hsent fun hact => .snapshot hchange hact htext
  | ready r =>
    refine .inr ?_
    obtain ⟨watched, hann, rfl⟩ := serve_eq_ok.mp hok
    obtain ⟨server, hsend, rfl⟩ := Watched.step_announce_ok hann
    obtain ⟨text, htext, hsent⟩ := StateServer.broadcastAvatar_sent hsend
    exact writes_once hsent fun hact => .avatar hact htext
  | readable other data =>
    refine .inr ?_
    obtain ⟨watched, hread, rfl⟩ := serve_eq_ok.mp hok
    obtain ⟨hserver, -, -⟩ := Watched.step_readable_ok hread
    by_cases hsock : sock = other
    · subst hsock
      cases hc : s.watched.server.clients.lookup sock with
      | none =>
        rw [StateServer.onReadyRead_gone hc] at hserver
        exact writes_nothing (congrArg (StateServer.out · sock) (Except.ok.inj hserver)).symm
      | some c =>
        obtain ⟨fs, hfs, hout⟩ := StateServer.adds_onReadyRead hc hserver
        exact ⟨fs, fun f hf => .reply hc (hfs f hf), hout⟩
    · exact writes_nothing ((StateServer.only_onReadyRead hserver).out sock hsock)
  | connect other life =>
    obtain ⟨watched, hmade, rfl⟩ := serve_eq_ok.mp hok
    rw [Watched.step] at hmade
    split at hmade
    · rw [← Except.ok.inj hmade]
      exact .inr (writes_nothing rfl)
    · rename_i hfree
      rw [← Except.ok.inj hmade]
      simp only [StateServer.onNewConnection, if_neg hfree]
      by_cases hsock : sock = other
      · subst hsock
        exact .inl (Function.update_self ..)
      · exact .inr (writes_nothing (Function.update_of_ne hsock _ _))
  | disconnected | denylist =>
    obtain ⟨watched, hstep, rfl⟩ := serve_eq_ok.mp hok
    rw [← Except.ok.inj hstep]
    exact .inr (writes_nothing rfl)

/-- The reducer has seen the history, the server serves what it holds, and the
images it replays were announced. -/
structure Follows (hist : List OverlayInput) (s : Hosting) : Prop where
  overlay : s.overlay = OverlayState.after hist
  current : s.watched.server.current = s.overlay.snap
  avatars : ∀ hash entry, s.watched.server.avatars.lookup hash = some entry →
    ∃ r : AvatarCache.Ready, r.key = hash ∧ entry = { path := r.path, w := r.w, h := r.h }

theorem follows_init (isBlocked : Option (Bytes → Bool)) (cfg : AppearanceConfig) :
    Follows [.setConfig cfg] (init isBlocked cfg) :=
  ⟨rfl, rfl, fun hash entry h => by cases h⟩

/-- An input is broadcast when it changes something; otherwise nothing happens. -/
theorem step_input (lib : JsonLib) (hs : Follows hist s) (a : OverlayInput) :
    if History.isNoOp hist a then s.step lib (.input a) = .ok s ∧ s.overlay.step a = s.overlay
    else s.step lib (.input a) =
      { s with overlay := s.overlay.step a }.serve lib (.snapshot (s.overlay.step a).snap) := by
  have heq := hs.overlay ▸ (after_describes hist).step_eq a
  cases hnoop : History.isNoOp hist a with
  | true =>
    simp only [hnoop, if_true] at heq ⊢
    simp only [step, heq, if_true, and_self]
  | false =>
    simp only [hnoop, Bool.false_eq_true, if_false] at heq ⊢
    have hlen : (s.overlay.step a).changes.length ≠ s.overlay.changes.length := by
      rw [heq.2, List.length_cons]
      omega
    simp only [step, if_neg hlen]

theorem Follows.serve (hs : Follows hist s) {e : Watched.Event} (hok : s.serve lib e = .ok t)
    (hcurrent : e.served s.overlay.snap = s.overlay.snap)
    (havatars : ∀ hash entry, (e.replayed s.watched.server.avatars).lookup hash = some entry →
      ∃ r : AvatarCache.Ready, r.key = hash ∧ entry = { path := r.path, w := r.w, h := r.h }) :
    Follows hist t := by
  obtain ⟨watched, hstep, rfl⟩ := serve_eq_ok.mp hok
  obtain ⟨hserved, hreplayed⟩ := Watched.step_served hstep
  exact ⟨hs.overlay, by rw [hserved, hs.current, hcurrent], by rw [hreplayed]; exact havatars⟩

theorem follows_step (hs : Follows hist s) (hok : s.step lib e = .ok t) :
    Follows (hist ++ inputs [e]) t := by
  cases e with
  | input a =>
    have hstep := step_input lib hs a
    have hafter : OverlayState.after (hist ++ [a]) = s.overlay.step a := by
      rw [after_concat, hs.overlay]
    show Follows (hist ++ [a]) t
    cases hnoop : History.isNoOp hist a with
    | true =>
      simp only [hnoop, if_true] at hstep
      obtain rfl : s = t := Except.ok.inj (hstep.1.symm.trans hok)
      exact ⟨(hafter.trans hstep.2).symm, hs.current, hs.avatars⟩
    | false =>
      simp only [hnoop, Bool.false_eq_true, if_false] at hstep
      obtain ⟨watched, hsnap, rfl⟩ := serve_eq_ok.mp (hstep.symm.trans hok)
      obtain ⟨hserved, hreplayed⟩ := Watched.step_served hsnap
      exact ⟨hafter.symm, hserved, by rw [hreplayed]; exact hs.avatars⟩
  | ready r =>
    show Follows (hist ++ []) t
    rw [List.append_nil]
    refine hs.serve hok rfl fun hash entry h => ?_
    by_cases hkey : hash = r.key
    · subst hkey
      rw [Watched.Event.replayed, AList.lookup_insert] at h
      exact ⟨r, rfl, (Option.some.inj h).symm⟩
    · rw [Watched.Event.replayed, AList.lookup_insert_ne hkey] at h
      exact hs.avatars hash entry h
  | connect | readable | disconnected | denylist =>
    show Follows (hist ++ []) t
    rw [List.append_nil]
    exact hs.serve hok rfl hs.avatars

theorem follows_run (hs : Follows hist s) (hrun : Machine.runM (step lib) s es = .ok t) :
    Follows (hist ++ inputs es) t := by
  induction es generalizing hist s with
  | nil =>
    obtain rfl : s = t := Except.ok.inj hrun
    show Follows (hist ++ []) s
    rwa [List.append_nil]
  | cons e es ih =>
    obtain ⟨s', hs', hrest⟩ := Machine.runM_cons_eq_ok.mp hrun
    have hfollows := ih (follows_step hs hs') hrest
    rwa [List.append_assoc, ← inputs_append, List.singleton_append] at hfollows

end Hosting

end Choir
