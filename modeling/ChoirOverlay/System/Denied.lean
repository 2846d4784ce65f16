-- SUMMARY: A process the denylist names is never shown anything, in every run.
import ChoirOverlay.Host.Hello
import ChoirOverlay.Layer.Gates
import ChoirOverlay.System.Deployment

/-!
# Denied processes

The Hello of a process comes first on each of its connections, so a process the
denylist names is refused before it is sent anything that could be drawn. It
stays an ordinary client in all other respects: it is read, answered and may
come back, and whatever the denylist is replaced by goes on naming it.
-/

namespace Choir

variable {lib : JsonLib} {proc : ProcSelf}

/-! ## One connection -/

namespace StateServer

variable {c : Client} {f : Frame} {rest tail : Bytes} {s s' : StateServer} {sock : Sock}

/-- The name of the process or an argument is blocked. -/
def Denies (proc : ProcSelf) (s : StateServer) : Prop :=
  s.blocks (selfExeName proc) = true ∨ ∃ arg ∈ selfArgv proc, s.blocks arg = true

theorem Denies.congr (h : s.Denies proc) (hblocked : s'.isBlocked = s.isBlocked) :
    s'.Denies proc := by
  have hsame (name : Bytes) : s'.blocks name = s.blocks name := by rw [blocks, hblocked, blocks]
  simpa only [Denies, hsame] using h

theorem Denies.blocksHello (h : s.Denies proc) {text : Bytes}
    (htext : helloPayload lib proc = some text) : s.blocksHello lib text = true := by
  rw [blocksHello_helloPayload s htext, Bool.or_eq_true, List.any_eq_true]
  exact h

/-- A client that has been refused, or whose Hello comes first of what it has
    sent. -/
structure Doomed (lib : JsonLib) (proc : ProcSelf) (c : Client) (tail : Bytes) : Prop where
  silent : c.active = false
  first : c.inert = true ∨ ∃ text more, helloPayload lib proc = some text ∧
    c.rbuf ++ tail = encodeFrame ⟨.hello, text⟩ ++ more

/-- The length of a Hello fits its field. -/
def HelloFits (lib : JsonLib) (proc : ProcSelf) : Prop :=
  ∀ text, helloPayload lib proc = some text → 1 + text.length < 2 ^ 32

/-- What it sends next leaves it refused, and brings it no snapshot. -/
theorem Doomed.next (h : Doomed lib proc c tail) (hfits : HelloFits lib proc)
    (hdenies : s.Denies proc) (hdec : tryDecodeFrame c.rbuf = .frame f rest) :
    Doomed lib proc (s.heard lib { c with rbuf := rest } f) tail ∧
      ∀ g, some g ∈ s.answers lib { c with rbuf := rest } f → g.type ≠ .snapshot := by
  obtain ⟨hsilent, hinert | ⟨text, more, htext, hbytes⟩⟩ := h
  · -- A refused client stays refused; only its Pings are answered.
    unfold heard answers
    cases f.type with
    | hello =>
      simp only [classify, hinert, Bool.or_true, if_true]
      exact ⟨⟨hsilent, .inl rfl⟩, by simp⟩
    | ping =>
      refine ⟨⟨hsilent, .inl hinert⟩, fun g hg => ?_⟩
      obtain rfl : g = ⟨.pong, []⟩ := by simpa using hg
      decide
    | snapshot | avatarReady | disabled | pong | unknown =>
      exact ⟨⟨hsilent, .inl hinert⟩, by simp⟩
  · rcases tryDecodeFrame_front (f := ⟨.hello, text⟩) rfl (hfits text htext) hbytes with
      hnone | hnone | ⟨rest', hsome, -⟩
    · rw [hnone] at hdec
      cases hdec
    · rw [hnone] at hdec
      cases hdec
    · obtain ⟨rfl, rfl⟩ := Decoded.frame.inj (hsome.symm.trans hdec)
      cases hinert : c.inert with
      | true =>
        simp only [heard, answers, classify, Bool.or_true, if_true]
        exact ⟨⟨hsilent, .inl rfl⟩, by simp⟩
      | false =>
        simp only [heard, answers, classify, greeting, hsilent, Bool.or_false, Bool.false_eq_true,
          if_false, hdenies.blocksHello htext, if_true]
        refine ⟨⟨rfl, .inl rfl⟩, fun g hg => ?_⟩
        obtain rfl : g = ⟨.disabled, []⟩ := by simpa using hg
        decide

theorem Doomed.replies (h : Doomed lib proc c tail) (hfits : HelloFits lib proc)
    (hdenies : s.Denies proc) {fuel : Nat} {g : Frame}
    (hg : some g ∈ StateServer.replies lib s fuel c) : g.type ≠ .snapshot := by
  induction fuel generalizing c with
  | zero => simp [StateServer.replies] at hg
  | succ fuel ih =>
    rw [StateServer.replies] at hg
    cases hdec : tryDecodeFrame c.rbuf with
    | corrupt | incomplete => simp [hdec] at hg
    | frame f rest =>
      obtain ⟨hnext, hplain⟩ := h.next hfits hdenies hdec
      simp only [hdec, List.mem_append] at hg
      exact hg.elim (hplain g) (ih hnext)

/-- By induction on the fuel. -/
theorem Doomed.split (h : Doomed lib proc c tail) (hfits : HelloFits lib proc)
    (hdenies : s.Denies proc) (fuel : Nat) :
    Doomed lib proc { s.heardAll lib c (frameCodec.split fuel c.rbuf).1 with
      rbuf := (frameCodec.split fuel c.rbuf).2 } tail := by
  induction fuel generalizing c with
  | zero => exact h
  | succ fuel ih =>
    cases hdec : tryDecodeFrame c.rbuf with
    | corrupt | incomplete =>
      rw [Deframe.Codec.split_of_none (frameCodec_next_eq_none.mpr (by simp [hdec]))]
      exact h
    | frame f rest =>
      obtain ⟨hnext, -⟩ := h.next hfits hdenies hdec
      have hrest := ih hnext
      rw [Deframe.Codec.split_of_some (frameCodec_next_of_frame hdec)]
      rw [heard_rbuf] at hrest
      have hsame : s.heardAll lib { s.heard lib c f with rbuf := rest }
          (frameCodec.split fuel rest).1 = { s.heardAll lib (s.heard lib c f)
            (frameCodec.split fuel rest).1 with rbuf := rest } := heardAll_with_rbuf _ _ _
      rw [heard_with_rbuf, hsame] at hrest
      exact hrest

/-- What is read goes into the buffer. -/
theorem Doomed.read_buffer {data : Bytes} (h : Doomed lib proc c (data ++ tail)) :
    Doomed lib proc { c with rbuf := c.rbuf ++ data } tail where
  silent := h.silent
  first := h.first.imp_right fun ⟨text, more, htext, hbytes⟩ =>
    ⟨text, more, htext, by rw [List.append_assoc, hbytes]⟩

/-- A read from such a client. -/
theorem Doomed.read {data : Bytes} (hc : s.clients.lookup sock = some c)
    (h : Doomed lib proc c (data ++ tail)) (hfits : HelloFits lib proc) (hdenies : s.Denies proc)
    (hok : s.onReadyRead lib sock data = .ok s') (hmem : sock ∈ s'.clients) :
    ∃ c', s'.clients.lookup sock = some c' ∧ Doomed lib proc c' tail := by
  obtain ⟨s₁, fs, rest, hdone, -, hend⟩ := onReadyRead_done hc hok
  rcases hend with ⟨hpull, rfl⟩ | ⟨-, rfl⟩
  · have hwhole : Doomed lib proc { c with rbuf := c.rbuf ++ data } tail := by
      refine ⟨h.silent, h.first.imp_right ?_⟩
      rintro ⟨text, more, htext, hbytes⟩
      exact ⟨text, more, htext, by rw [List.append_assoc, hbytes]⟩
    have hsplit := hwhole.split hfits hdenies ((c.rbuf ++ data).length + 1)
    rw [Deframe.Receiver.pull, Option.ite_none_right_eq_some] at hpull
    obtain ⟨-, hpull⟩ := hpull
    rw [Option.some.inj hpull, heardAll_with_rbuf] at hsplit
    exact ⟨_, hdone.entry, hsplit⟩
  · rw [← AList.lookup_isSome, onDisconnected, AList.lookup_erase] at hmem
    cases hmem

theorem Doomed.more (h : Doomed lib proc c tail) (more : Bytes) :
    Doomed lib proc c (tail ++ more) where
  silent := h.silent
  first := h.first.imp_right fun ⟨text, rest, htext, hbytes⟩ =>
    ⟨text, rest ++ more, htext, by rw [← List.append_assoc, hbytes, List.append_assoc]⟩

theorem doomed_hello {text : Bytes} (htext : helloPayload lib proc = some text) :
    Doomed lib proc {} (encodeFrame ⟨.hello, text⟩) :=
  ⟨rfl, .inr ⟨text, [], htext, (List.append_nil _).symm⟩⟩

/-- What the server makes of a socket; one that still waits is like new. -/
def entry (sock : Sock) (s : StateServer) : Client := (s.clients.lookup sock).getD {}

theorem entry_of_lookup (hc : s.clients.lookup sock = some c) : s.entry sock = c := by
  rw [entry, hc, Option.getD_some]

theorem entry_of_notMem (h : sock ∉ s.clients) : s.entry sock = {} := by
  rw [entry, AList.lookup_eq_none.mpr h, Option.getD_none]

theorem entry_congr (h : s'.clients.lookup sock = s.clients.lookup sock) :
    s'.entry sock = s.entry sock := by
  rw [entry, h, entry]

end StateServer

/-! ## The process -/

namespace StateClient

variable {c : StateClient}

theorem foldl_dispatch_self (frames : List Frame) :
    (frames.foldl (dispatch lib) c).self = c.self := by
  induction frames generalizing c with
  | nil => rfl
  | cons f frames ih =>
    rw [List.foldl_cons, ih, dispatch]
    cases f.type with
    | snapshot => cases Snapshot.fromJsonStr lib f.payload <;> rfl
    | avatarReady =>
      cases AvatarReq.fromJsonStr lib f.payload with
      | none => rfl
      | some req =>
        simp only
        split <;> rfl
    | _ => rfl

theorem takeFrames_self (r : FrameReader) : (c.takeFrames lib r).self = c.self := by
  rw [takeFrames]
  simp only
  split
  · exact foldl_dispatch_self _
  · exact foldl_dispatch_self _

theorem step_self (e : Event) : (c.step lib e).self = c.self := by
  unfold step
  split
  · rfl
  split
  · split
    · rfl
    · split <;> rfl
  · simp only
    split
    · exact takeFrames_self _
    · rfl
  all_goals rfl

/-- Frames without a snapshot leave what is shown. -/
theorem foldl_dispatch_unseen {frames : List Frame} (h : ∀ f ∈ frames, f.type ≠ .snapshot) :
    (frames.foldl (dispatch lib) c).latest = c.latest := by
  induction frames generalizing c with
  | nil => rfl
  | cons f frames ih =>
    rw [List.foldl_cons, ih fun g hg => h g (List.mem_cons_of_mem _ hg), dispatch]
    cases hf : f.type with
    | snapshot => exact absurd hf (h f List.mem_cons_self)
    | avatarReady =>
      cases AvatarReq.fromJsonStr lib f.payload with
      | none => rfl
      | some req =>
        simp only
        split <;> rfl
    | hello | disabled | ping | pong | unknown => rfl

/-- A connection that is there begins with the Hello. -/
theorem step_connected_out {written : Bool} (hconn : c.conn = none)
    (hnew : (c.step lib (.connected written)).conn ≠ none) :
    ∃ text, helloPayload lib c.self = some text ∧
      (c.step lib (.connected written)).out = encodeFrame ⟨.hello, text⟩ := by
  unfold step at hnew ⊢
  split at hnew
  · exact absurd hconn hnew
  rename_i hended
  rw [if_neg hended]
  simp only [hconn] at hnew ⊢
  cases htext : helloPayload lib c.self with
  | none =>
    simp only [htext] at hnew
    exact absurd rfl hnew
  | some text =>
    cases written with
    | false => simp [htext, hconn] at hnew
    | true => exact ⟨text, rfl, rfl⟩

end StateClient

/-! ## Every state of a run -/

namespace World

variable {w w' : World} {p : Nat} {sock : Sock}

/-- A socket waits once, is not taken while it waits, and is written to by its
    process only. -/
structure Queued (w : World) : Prop where
  once : w.pending.Nodup
  apart : ∀ sock ∈ w.pending, sock ∉ w.server.clients
  unsent : ∀ sock, w.nextSock ≤ sock → w.up sock = []

/-- What the server does with what a process has sent. -/
structure Upstream (lib : JsonLib) (proc : ProcSelf) (p : Nat) (w : World) : Prop where
  queued : w.Queued
  denies : w.server.Denies proc
  who : (w.procs p).self = proc
  doomed : ∀ sock, w.link p = some sock → sock ∈ w.pending ∨ sock ∈ w.server.clients →
    StateServer.Doomed lib proc (w.server.entry sock) (w.up sock)

/-- The process has been shown nothing, and nothing to show is on its way. -/
structure Unseen (p : Nat) (w : World) : Prop where
  latest : (w.procs p).latest = none
  flight : ∀ sock, w.link p = some sock →
    ∃ frames, w.Pipe p sock frames ∧ ∀ f ∈ frames, f.type ≠ .snapshot

/-- The server does not count the connection as active. -/
theorem Upstream.not_active (h : w.Upstream lib proc p) (hlink : w.link p = some sock) :
    w.server.isActive sock = false := by
  rw [← Bool.not_eq_true]
  intro hactive
  have hmem := StateServer.mem_keys_of_isActive hactive
  obtain ⟨c, hc⟩ := Option.isSome_iff_exists.mp (AList.lookup_isSome.mpr hmem)
  have hsilent := (h.doomed sock hlink (.inr hmem)).silent
  rw [StateServer.entry_of_lookup hc] at hsilent
  rw [StateServer.isActive, hc, Option.any_some, hsilent] at hactive
  cases hactive

theorem Upstream.said (h : w.Upstream lib proc p) (hfits : StateServer.HelloFits lib proc)
    (hlink : w.link p = some sock) {f : Frame} (hf : w.Said lib sock f) : f.type ≠ .snapshot := by
  cases hf with
  | broadcast hactive =>
    rw [h.not_active hlink] at hactive
    cases hactive
  | @reply c data fuel hc hdata hf =>
    obtain ⟨tail, htail⟩ := hdata
    have hdoomed := h.doomed sock hlink (.inr (StateServer.mem_of_lookup hc))
    rw [StateServer.entry_of_lookup hc, ← htail] at hdoomed
    exact hdoomed.read_buffer.replies hfits h.denies hf

theorem Unseen.moves (hu : w.Unseen p) (h : w.Upstream lib proc p)
    (hfits : StateServer.HelloFits lib proc) (hmoves : w.Moves lib w' p) : w'.Unseen p := by
  have hshown {c : StateClient} (hsame : (w'.procs p).shown = c.shown) :
      (w'.procs p).latest = c.latest := congrArg Prod.fst hsame
  cases hlink : w.link p with
  | none =>
    obtain ⟨hsame, hopens⟩ := hmoves.opens hlink
    refine ⟨(hshown hsame).trans hu.latest, fun sock hsock => ?_⟩
    rcases hopens with hnone | hpipe
    · exact absurd (hsock.symm.trans hnone) (by simp)
    · obtain rfl := Option.some.inj (hsock.symm.trans hpipe.link)
      exact ⟨[], hpipe, List.forall_mem_nil _⟩
  | some sock =>
    obtain ⟨frames, hpipe, hplain⟩ := hu.flight sock hlink
    rcases hmoves.flows sock frames hpipe with ⟨hnone, hsame⟩ | hflow
    · exact ⟨(hshown hsame).trans hu.latest, fun sock' hsock' =>
        absurd (hsock'.symm.trans hnone) (by simp)⟩
    · obtain ⟨taken, left, sent, rfl, hpipe', hsame, hsent⟩ := hflow
      refine ⟨(hshown hsame).trans ?_, fun sock' hsock' => ?_⟩
      · rw [StateClient.foldl_dispatch_unseen fun f hf => hplain f (List.mem_append_left _ hf)]
        exact hu.latest
      · obtain rfl := Option.some.inj (hsock'.symm.trans hpipe'.link)
        refine ⟨left ++ sent, hpipe', fun f hf => ?_⟩
        rcases List.mem_append.mp hf with hf | hf
        · exact hplain f (List.mem_append_right _ hf)
        · exact h.said hfits hlink (hsent f hf).2

/-! ### What reaches the server -/

/-- An operation of the host that leaves the other clients and the denylist as
    they are. -/
theorem Upstream.host {r : Except Fault StateServer} (h : w.Upstream lib proc p)
    (hok : ∀ s', r = .ok s' → s'.isBlocked = w.server.isBlocked ∧
      (∀ sock ∈ s'.clients, sock ∈ w.server.clients) ∧
      ∀ sock, w.link p = some sock → sock ∈ s'.clients →
        StateServer.Doomed lib proc (s'.entry sock) (w.up sock)) :
    (w.host r).Upstream lib proc p := by
  cases r with
  | error fault =>
    exact ⟨⟨h.queued.once, h.queued.apart, h.queued.unsent⟩, h.denies, h.who, nofun⟩
  | ok s' =>
    obtain ⟨hblocked, hkeys, hdoomed⟩ := hok s' rfl
    refine ⟨⟨h.queued.once, fun sock hs hc => h.queued.apart sock hs (hkeys sock hc),
      h.queued.unsent⟩, h.denies.congr hblocked, h.who, fun sock hlink hsock => ?_⟩
    by_cases hmem : sock ∈ s'.clients
    · exact hdoomed sock hlink hmem
    · have hwaits : sock ∈ w.pending := hsock.resolve_right hmem
      have hnew := h.doomed sock hlink (.inl hwaits)
      rw [StateServer.entry_of_notMem (h.queued.apart sock hwaits)] at hnew
      show StateServer.Doomed lib proc (s'.entry sock) (w.up sock)
      rwa [StateServer.entry_of_notMem hmem]

/-- Bytes are read off the way to the server. -/
theorem Upstream.arrive (h : w.Upstream lib proc p) (hfits : StateServer.HelloFits lib proc)
    (hw : w.Inv lib none) (sock : Sock) (n : Nat) :
    (w.arrive lib sock n).Upstream lib proc p := by
  unfold World.arrive
  split
  swap
  · exact h
  rename_i hmem
  obtain ⟨s', hok, hturn⟩ := StateServer.onReadyRead_turn sock ((w.up sock).take n) hw.sound
  have honly := StateServer.only_onReadyRead hok
  rw [hok]
  refine ⟨⟨h.queued.once, fun other hs hc => h.queued.apart other hs (hturn.serves.keys other hc),
    fun other hother => ?_⟩, h.denies.congr honly.isBlocked, h.who, fun other hlink hother => ?_⟩
  · show Function.update w.up sock _ other = []
    have hne : other ≠ sock := by
      rintro rfl
      exact Nat.not_lt.mpr hother (hw.taken other hmem)
    rw [Function.update_of_ne hne]
    exact h.queued.unsent other hother
  · show StateServer.Doomed lib proc (s'.entry other) (Function.update w.up sock _ other)
    by_cases hsock : other = sock
    · subst hsock
      have hc' : other ∈ s'.clients :=
        hother.resolve_left fun hwaits => h.queued.apart other hwaits hmem
      obtain ⟨c, hc⟩ := Option.isSome_iff_exists.mp (AList.lookup_isSome.mpr hmem)
      have hdoomed := h.doomed other hlink (.inr hmem)
      rw [StateServer.entry_of_lookup hc, ← List.take_append_drop n (w.up other)] at hdoomed
      obtain ⟨c', hentry, hleft⟩ :=
        StateServer.Doomed.read hc hdoomed hfits h.denies hok hc'
      rwa [StateServer.entry_of_lookup hentry, Function.update_self]
    · rw [StateServer.entry_congr (honly.lookup other hsock), Function.update_of_ne hsock]
      refine h.doomed other hlink (hother.imp_right fun hmem' => ?_)
      rwa [← AList.lookup_isSome, ← honly.lookup other hsock, AList.lookup_isSome]

/-- A process writes to its own socket. -/
theorem client_up (q : Nat) (e : StateClient.Event) (w : World) (sock : Sock) :
    (w.client lib q e).up sock = w.up sock ++
      if w.link q = some sock then ((w.procs q).step lib e).out else [] := by
  unfold World.client
  dsimp only
  cases hl : w.link q with
  | none => simp
  | some other =>
    by_cases hsame : other = sock
    · simp [hsame]
    · simp [hsame, Function.update_of_ne (Ne.symm hsame)]

theorem client_link {q : Nat} {e : StateClient.Event}
    (hlink : (w.client lib q e).link p = some sock) : w.link p = some sock := by
  by_cases hq : p = q
  · subst hq
    simp only [World.client] at hlink
    split at hlink
    · exact hlink
    · simp at hlink
  · rwa [(client_other hq e w).2] at hlink

theorem client_self (q : Nat) (e : StateClient.Event) (w : World) :
    ((w.client lib q e).procs p).self = (w.procs p).self := by
  by_cases hq : p = q
  · subst hq
    simp only [World.client, Function.update_self]
    exact StateClient.step_self e
  · rw [(client_other hq e w).1]

theorem Upstream.client {q : Nat} {e : StateClient.Event} (h : w.Upstream lib proc p)
    (hlinked : ∀ sock, w.link q = some sock → sock < w.nextSock) :
    (w.client lib q e).Upstream lib proc p := by
  refine ⟨⟨h.queued.once, h.queued.apart, fun sock hsock => ?_⟩, h.denies,
    (client_self q e w).trans h.who, fun sock hlink hsock => ?_⟩
  · have hno : w.link q ≠ some sock := fun hl => Nat.not_lt.mpr hsock (hlinked sock hl)
    rw [client_up, if_neg hno, List.append_nil]
    exact h.queued.unsent sock hsock
  · rw [client_up]
    exact (h.doomed sock (client_link hlink) hsock).more _

/-- A process opens its next connection: the Hello comes first on it. -/
theorem Upstream.connect (h : w.Upstream lib proc p) (hw : w.Inv lib none) (q : Nat)
    (written : Bool) : (w.connect lib q written).Upstream lib proc p := by
  unfold World.connect
  split
  · exact h
  rename_i hfree
  simp only [Bool.or_eq_true, not_or, Bool.not_eq_true, Option.isSome_eq_false_iff,
    Option.isNone_iff_eq_none] at hfree
  obtain ⟨hnone, -⟩ := hfree
  have hnew : w.nextSock ∉ w.server.clients := fun hmem => Nat.lt_irrefl _ (hw.taken _ hmem)
  refine ⟨⟨?_, fun sock hsock => ?_, fun sock hsock => ?_⟩, h.denies, ?_,
    fun sock hlink hsock => ?_⟩
  · show (w.pending ++ [w.nextSock]).Nodup
    rw [List.nodup_append_comm, List.singleton_append, List.nodup_cons]
    exact ⟨fun hmem => Nat.lt_irrefl _ (hw.queued _ hmem), h.queued.once⟩
  · rcases List.mem_append.mp hsock with hsock | hsock
    · exact h.queued.apart sock hsock
    · exact List.mem_singleton.mp hsock ▸ hnew
  · have hlt : w.nextSock < sock := hsock
    rw [client_up]
    show w.up sock ++ _ = []
    rw [h.queued.unsent sock (Nat.le_of_lt hlt), if_neg ?_, List.append_nil]
    show Function.update w.link q (some w.nextSock) q ≠ some sock
    rw [Function.update_self]
    exact fun heq => Nat.ne_of_lt hlt (Option.some.inj heq)
  · exact (client_self q _ _).trans h.who
  · have hl : Function.update w.link q (some w.nextSock) p = some sock := client_link hlink
    rw [client_up]
    show StateServer.Doomed lib proc (w.server.entry sock) (w.up sock ++ _)
    by_cases hq : p = q
    · subst hq
      obtain rfl : w.nextSock = sock := by simpa using hl
      have hconn := hw.unlinked p (by simp) hnone
      have hup : (({ w with
          link := Function.update w.link p (some w.nextSock)
          pending := w.pending ++ [w.nextSock]
          nextSock := w.nextSock + 1 } : World).procs p).step lib (.connected written) =
          (w.procs p).step lib (.connected written) := rfl
      have hlive : ((w.procs p).step lib (.connected written)).conn ≠ none := fun hdead => by
        rw [client_self_link_none (hup ▸ hdead)] at hlink
        cases hlink
      obtain ⟨text, htext, hout⟩ := StateClient.step_connected_out hconn hlive
      rw [h.queued.unsent _ (Nat.le_refl _), StateServer.entry_of_notMem hnew, hup, hout,
        if_pos hl, List.nil_append]
      exact StateServer.doomed_hello (h.who ▸ htext)
    · rw [Function.update_of_ne hq] at hl
      have hlt := hw.linked p sock hl
      refine (h.doomed sock hl (hsock.imp_left fun hwaits => ?_)).more _
      rcases List.mem_append.mp hwaits with hwaits | hwaits
      · exact hwaits
      · exact absurd (List.mem_singleton.mp hwaits) (Nat.ne_of_lt hlt)

theorem Upstream.accept (h : w.Upstream lib proc p) : w.accept.Upstream lib proc p := by
  unfold World.accept
  cases hq : w.pending with
  | nil => exact h
  | cons sock rest =>
    have hfree : sock ∉ w.server.clients := h.queued.apart sock (hq ▸ List.mem_cons_self)
    obtain ⟨hnot, honce⟩ := List.nodup_cons.mp (hq ▸ h.queued.once)
    have hentry (other : Sock) :
        (w.server.setClient sock {}).entry other = w.server.entry other := by
      by_cases hother : other = sock
      · subst hother
        rw [StateServer.entry_of_lookup StateServer.lookup_setClient,
          StateServer.entry_of_notMem hfree]
      · exact StateServer.entry_congr (StateServer.lookup_setClient_ne hother)
    simp only [StateServer.onNewConnection, if_neg hfree]
    refine ⟨⟨honce, fun other ho hc => ?_, h.queued.unsent⟩, h.denies, h.who,
      fun other hlink hother => ?_⟩
    · rcases (AList.mem_insert w.server.clients).mp hc with rfl | hc
      · exact hnot ho
      · exact h.queued.apart other (hq ▸ List.mem_cons_of_mem _ ho) hc
    · show StateServer.Doomed lib proc ((w.server.setClient sock {}).entry other) (w.up other)
      rw [hentry]
      refine h.doomed other hlink ?_
      rcases hother with hwaits | hc
      · exact .inl (hq ▸ List.mem_cons_of_mem _ hwaits)
      · rcases (AList.mem_insert w.server.clients).mp hc with rfl | hc
        · exact .inl (hq ▸ List.mem_cons_self)
        · exact .inr hc

theorem Upstream.announced {r : Except Fault StateServer} (h : w.Upstream lib proc p)
    (hok : ∀ s', r = .ok s' → StateServer.Announced w.server s') :
    (w.host r).Upstream lib proc p := by
  refine h.host fun s' hs' => ?_
  have hann := hok s' hs'
  refine ⟨hann.isBlocked, fun sock hsock => hann.clients ▸ hsock, fun sock hlink hsock => ?_⟩
  rw [StateServer.entry_congr (congrArg (AList.lookup sock) hann.clients)]
  exact h.doomed sock hlink (.inr (hann.clients ▸ hsock))

/-- What every event does to it. -/
theorem Upstream.step (h : w.Upstream lib proc p) (hfits : StateServer.HelloFits lib proc)
    (hw : w.Inv lib none) (e : Event) : (w.step lib e).Upstream lib proc p := by
  unfold World.step
  split
  · exact h
  cases e with
  | snapshot snap => exact h.announced fun s' => StateServer.announced_broadcast
  | announce hash path width height =>
    exact h.announced fun s' => StateServer.announced_broadcastAvatar
  | connect q written => exact h.connect hw q written
  | accept => exact h.accept
  | arrive sock n => exact h.arrive hfits hw sock n
  | disconnected sock =>
    have honly := StateServer.only_onDisconnected sock w.server
    refine Upstream.host (r := .ok (w.server.onDisconnected sock)) h fun s' hs' => ?_
    obtain rfl := Except.ok.inj hs'
    have hkept : ∀ other ∈ (w.server.onDisconnected sock).clients,
        other ≠ sock ∧ other ∈ w.server.clients := by
      intro other hother
      have hne : other ≠ sock := by
        rintro rfl
        rw [← AList.lookup_isSome, StateServer.onDisconnected, AList.lookup_erase] at hother
        cases hother
      rw [← AList.lookup_isSome, honly.lookup other hne, AList.lookup_isSome] at hother
      exact ⟨hne, hother⟩
    refine ⟨honly.isBlocked, fun other ho => (hkept other ho).2, fun other hlink ho => ?_⟩
    rw [StateServer.entry_congr (honly.lookup other (hkept other ho).1)]
    exact h.doomed other hlink (.inr (hkept other ho).2)
  | receive q n =>
    simp only [receive]
    split
    · exact h
    split
    · exact h
    · exact Upstream.client ⟨⟨h.queued.once, h.queued.apart, h.queued.unsent⟩, h.denies, h.who,
        h.doomed⟩ fun sock hl => hw.linked q sock hl
  | other q e =>
    simp only
    split
    · exact h
    · exact h
    · exact h.client fun sock hl => hw.linked q sock hl

end World

/-! ## Every run -/

namespace Deployment

variable {loc : Locale} {cfg : Config} {d : Deployment} {h : List OverlayInput} {es : List Event}
  {p : Nat}

/-- The name of the process or an argument is on the denylist. -/
def Denies (loc : Locale) (l : Denylist) (proc : ProcSelf) : Prop :=
  l.blocks loc (selfExeName proc) = true ∨ ∃ arg ∈ selfArgv proc, l.blocks loc arg = true

/-- A denylist that replaces the one in force names the process again. -/
def Event.KeepsDenied (loc : Locale) (proc : ProcSelf) : Event → Prop
  | .configChanged newcfg => Denies loc ⟨newcfg.denylist⟩ proc
  | .rpc .. | .world _ => True

/-- The process is denied, and has been shown nothing. -/
structure Denied (lib : JsonLib) (proc : ProcSelf) (p : Nat) (d : Deployment) : Prop where
  upstream : d.world.Upstream lib proc p
  unseen : d.world.Unseen p

theorem denied_init (procs : Nat → ProcSelf) (hdenies : Denies loc ⟨cfg.denylist⟩ (procs p)) :
    Denied lib (procs p) p (init loc cfg procs) where
  upstream := ⟨⟨.nil, nofun, fun _ _ => rfl⟩, hdenies, rfl, nofun⟩
  unseen := ⟨rfl, nofun⟩

theorem Denied.step {proc : ProcSelf} {e : Event} (hden : Denied lib proc p d)
    (hfits : StateServer.HelloFits lib proc) (hd : d.Inv lib h)
    (hserv : Servable lib (h ++ e.input?.toList)) (he : e.Modest lib)
    (hkeeps : e.KeepsDenied loc proc) : Denied lib proc p (d.step loc lib e) := by
  refine ⟨?_, hden.unseen.moves hden.upstream hfits (step_spec hd hserv he p).2⟩
  have hfeed (a : OverlayInput) : (d.feed lib a).world.Upstream lib proc p := by
    simp only [feed]
    split
    · exact hden.upstream
    · exact hden.upstream.step hfits hd.world (.snapshot _)
  unfold Deployment.step
  split
  · exact hden.upstream
  cases e with
  | rpc now ev => exact hfeed _
  | configChanged newcfg =>
    have hset := hfeed (.setConfig newcfg.appearance)
    simp only
    split
    · exact hset
    · exact ⟨⟨hset.queued.once, hset.queued.apart, hset.queued.unsent⟩, hkeeps, hset.who,
        hset.doomed⟩
  | world e =>
    have hstep := hden.upstream.step hfits hd.world e
    cases e with
    | snapshot snap => exact hden.upstream
    | announce | connect | accept | arrive | disconnected | receive | other => exact hstep

/-- By induction from the end of the run. -/
theorem run_denied (procs : Nat → ProcSelf) (hserv : Servable lib (history cfg es))
    (hes : ∀ e ∈ es, e.Modest lib) (hdenies : Denies loc ⟨cfg.denylist⟩ (procs p))
    (hkeeps : ∀ e ∈ es, e.KeepsDenied loc (procs p))
    (hfits : StateServer.HelloFits lib (procs p)) :
    Denied lib (procs p) p (Machine.run (Deployment.step loc lib) (init loc cfg procs) es) := by
  induction es using List.reverseRecOn with
  | nil => exact denied_init procs hdenies
  | append_singleton es e ih =>
    have hpre := hserv.of_front (history_front cfg (List.prefix_append es [e]))
    have hmodest : ∀ e ∈ es, e.Modest lib := fun e he => hes e (List.mem_append_left _ he)
    have hden := ih hpre hmodest fun e he => hkeeps e (List.mem_append_left _ he)
    have hd : (Machine.run (Deployment.step loc lib) (init loc cfg procs) es).Inv lib
        (history cfg es) := run_inv cfg procs hpre hmodest
    rw [Machine.run_append, Machine.run_cons, Machine.run_nil]
    rw [history_concat] at hserv
    exact hden.step hfits hd hserv (hes e (by simp)) (hkeeps e (by simp))

/-- A process with nothing to show passes its presents on as they come. -/
theorem hookCalls_unseen (env : PresentEnv) (queue : VkQueue) (info : Option PresentInfo)
    {l : Layer} (hcan : l.CanPresent) (hunseen : ∀ r ∈ env.records, r.client.latest = none) :
    Layer.hookCalls env queue info l = [.queuePresent info] := by
  have hcan₀ : Layer.CanPresent { l with calls := [] } := hcan
  have hidle : ∀ r ∈ env.records, r.Idle := fun r hr =>
    .inr (by rw [StateClient.gate, hunseen r hr])
  have hpassed : ({ l with calls := [] }.forward env info).1.calls = [.queuePresent info] :=
    Layer.forward_calls env info hcan₀
  obtain ⟨dd, hdd, -⟩ := hcan
  cases info with
  | none => simpa only [Layer.hookCalls, Layer.queuePresentKHR, hdd] using hpassed
  | some info =>
    have hsome : Layer.hookCalls env queue (some info) l = _ :=
      congrArg (fun r : Layer × VkResult => r.1.calls)
        (Layer.queuePresentKHR_some env queue info (l := { l with calls := [] }) hdd)
    rw [hsome]
    split
    · exact hpassed
    · exact Layer.overlayBlock_idle info hcan₀ hidle

/-- A process that every denylist in force names is sent no snapshot in any run,
    on however many connections it tries: none of them counts as active, and no
    frame on its way is one. So it is shown nothing, its gate stays closed, and
    what it presents goes down the chain as it came, whatever the state of the
    client at each of the recordings. -/
theorem denied_process_untouched (loc : Locale) (lib : JsonLib) (cfg : Config)
    (procs : Nat → ProcSelf) (es : List Event) (p : Nat) (hserv : Servable lib (history cfg es))
    (hes : ∀ e ∈ es, e.Modest lib) (hdenies : Denies loc ⟨cfg.denylist⟩ (procs p))
    (hkeeps : ∀ e ∈ es, e.KeepsDenied loc (procs p))
    (hfits : StateServer.HelloFits lib (procs p)) :
    let world (pre : List Event) :=
      (Machine.run (Deployment.step loc lib) (init loc cfg procs) pre).world
    (∀ pre, pre <+: es →
      (∀ sock, (world pre).link p = some sock → (world pre).server.isActive sock = false ∧
        ∃ frames, (world pre).Pipe p sock frames ∧ ∀ f ∈ frames, f.type ≠ .snapshot) ∧
      ((world pre).procs p).latest = none ∧ ((world pre).procs p).gate = false) ∧
    ∀ (env : PresentEnv) (queue : VkQueue) (info : Option PresentInfo) (l : Layer),
      l.CanPresent →
      (∀ r ∈ env.records, ∃ pre, pre <+: es ∧ r.client = (world pre).procs p) →
      Layer.hookCalls env queue info l = [.queuePresent info] := by
  intro world
  have hdenied (pre : List Event) (hpre : pre <+: es) : Denied lib (procs p) p
      (Machine.run (Deployment.step loc lib) (init loc cfg procs) pre) :=
    run_denied procs (hserv.of_front (history_front cfg hpre)) (fun e he =>
      hes e (hpre.subset he)) hdenies (fun e he => hkeeps e (hpre.subset he)) hfits
  have hunseen (pre : List Event) (hpre : pre <+: es) : ((world pre).procs p).latest = none :=
    (hdenied pre hpre).unseen.latest
  refine ⟨fun pre hpre => ⟨fun sock hlink => ⟨(hdenied pre hpre).upstream.not_active hlink,
    (hdenied pre hpre).unseen.flight sock hlink⟩, hunseen pre hpre, ?_⟩,
    fun env queue info l hcan hrecords => ?_⟩
  · rw [StateClient.gate, hunseen pre hpre]
  · refine hookCalls_unseen env queue info hcan fun r hr => ?_
    obtain ⟨pre, hpre, hclient⟩ := hrecords r hr
    rw [hclient]
    exact hunseen pre hpre

/-- Steam joins a session and is shown nothing of it. -/
theorem denied_process_untouched_steam :
    let d := Machine.run (Deployment.step .posix compactJson)
      (init .posix { denylist := Denylist.defaults } fun _ => { comm := some (ascii "steam") })
      joining
    (d.world.procs 0).latest = none ∧
      Layer.hookCalls { records := [{ client := d.world.procs 0 }] } 0
          (some Layer.twoWindowsPresent) Layer.twoWindows =
        [.queuePresent (some Layer.twoWindowsPresent)] := by
  have hall := denied_process_untouched .posix compactJson { denylist := Denylist.defaults }
    (fun _ => { comm := some (ascii "steam") }) joining 0 joining_servable joining_modest
    (.inl (by decide +kernel)) (by simp [joining, Event.KeepsDenied])
    (by unfold StateServer.HelloFits; decide +kernel)
  refine ⟨(hall.1 joining (List.prefix_refl _)).2.1, hall.2 _ 0 _ Layer.twoWindows ⟨_, rfl, rfl⟩ ?_⟩
  simpa using ⟨joining, List.prefix_refl _, rfl⟩

end Deployment

end Choir
