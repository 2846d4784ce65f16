-- SUMMARY: A client that has read all it was sent shows the server's state, in every run.
import ChoirOverlay.Json.Text
import ChoirOverlay.System.Replica
import ChoirOverlay.System.World

/-!
# Clients in step

What a process has read and what is still on its way to it add up to the
state of the server (`Delivers`). Every event keeps that, so a process that has
read everything shows it.
-/

namespace Choir

variable {lib : JsonLib}

/-! ## One connection -/

/-- The process has a live connection, and once it has taken the frames that are
    on their way an active client shows the server's state. -/
def Delivers (lib : JsonLib) (s : StateServer) (sock : Sock) (c : StateClient) : Prop :=
  c.ended = false ∧ ∃ r frames, c.conn = some r ∧ Carries r (s.out sock) frames ∧
    (s.isActive sock = true → (frames.foldl (Replica.see lib) c.replica).Shows s)

namespace Delivers

variable {s s' : StateServer} {sock : Sock} {c c' : StateClient}

/-- The server sends what it has to. -/
theorem serves (h : Delivers lib s sock c) (hs : StateServer.Serves lib s s') :
    Delivers lib s' sock c := by
  obtain ⟨hended, r, frames, hconn, hcarries, hshows⟩ := h
  obtain ⟨sent, hsent⟩ := hs.feeds sock
  refine ⟨hended, r, frames ++ sent, hconn, ?_, fun hact => ?_⟩
  · rw [hsent.out]
    exact hcarries.send hsent.small
  · rw [List.foldl_append]
    exact hsent.shows hact _ hshows

/-- Nothing happens on this connection. -/
theorem quiet (h : Delivers lib s sock c) (hout : s'.out sock = s.out sock)
    (hact : s'.isActive sock = true → s.isActive sock = true) (hcur : s'.current = s.current)
    (havatars : s'.avatars = s.avatars) : Delivers lib s' sock c := by
  obtain ⟨hended, r, frames, hconn, hcarries, hshows⟩ := h
  refine ⟨hended, r, frames, hconn, hout ▸ hcarries, fun hact' => ?_⟩
  exact ⟨hcur ▸ (hshows (hact hact')).latest, havatars ▸ (hshows (hact hact')).avatars⟩

/-- Of the process only its connection and what it has taken matter. -/
theorem congr (h : Delivers lib s sock c) (hended : c'.ended = c.ended) (hconn : c'.conn = c.conn)
    (hrep : c'.replica = c.replica) : Delivers lib s sock c' := by
  rw [Delivers, hended, hconn, hrep]
  exact h

end Delivers

/-! ## Steps of a process -/

namespace StateClient

variable {s : StateServer} {sock : Sock} {c : StateClient} {r : FrameReader}
variable {frames : List Frame}

theorem foldl_dispatch_ended (frames : List Frame) :
    (frames.foldl (dispatch lib) c).ended = c.ended := by
  induction frames generalizing c with
  | nil => rfl
  | cons f frames ih =>
    rw [List.foldl_cons, ih, dispatch]
    cases f.type with
    | snapshot => cases Snapshot.fromJsonStr lib f.payload <;> rfl
    | avatarReady =>
      cases AvatarReq.fromJsonStr lib f.payload with
      | none => rfl
      | some req =>
        simp only
        split <;> rfl
    | _ => rfl

/-- Frames that are taken off the way have been seen. -/
theorem takeFrames_delivers (hended : c.ended = false)
    (hdrain : ∃ left, frames = (r.drain (r.buf.length + 1)).1 ++ left ∧
      Carries (r.drain (r.buf.length + 1)).2 (s.out sock) left)
    (hshows : s.isActive sock = true → (frames.foldl (Replica.see lib) c.replica).Shows s) :
    Delivers lib s sock (c.takeFrames lib r) := by
  obtain ⟨left, hframes, hcarries⟩ := hdrain
  rw [takeFrames]
  simp only [hcarries.sound, Bool.false_eq_true, if_false]
  refine ⟨(foldl_dispatch_ended _).trans hended, _, left, rfl, hcarries, fun hact => ?_⟩
  have hrep := foldl_dispatch_replica lib c (r.drain (r.buf.length + 1)).1
  have hseen := hshows hact
  rw [hframes, List.foldl_append, ← hrep] at hseen
  exact hseen

/-- What a read may bring besides data leaves the connection as it is or ends
    it, and so does everything else that may happen to it. -/
theorem step_local (h : Delivers lib s sock c) {e : Event}
    (hdata : ∀ b bytes, e ≠ .readable (.data (b :: bytes))) :
    (c.step lib e).conn = none ∨ Delivers lib s sock (c.step lib e) := by
  have hsame := h
  obtain ⟨hended, r, frames, hconn, hcarries, hshows⟩ := h
  have hagain : Delivers lib s sock (c.takeFrames lib r) :=
    takeFrames_delivers hended
      (Carries.drain (Nat.lt_succ_self _) hcarries.small hcarries.bytes hcarries.sound) hshows
  simp only [step, hended, Bool.false_eq_true, if_false, hconn]
  cases e with
  | refused => exact .inr hsame
  | connected written => exact .inr hsame
  | readable read =>
    cases read with
    | data bytes =>
      cases bytes with
      | nil =>
        left
        simp [FrameReader.feed, hcarries.sound, hangUp]
      | cons b bytes => exact absurd rfl (hdata b bytes)
    | interrupted | wouldBlock =>
      right
      simpa [FrameReader.feed, hcarries.sound] using hagain
    | error =>
      left
      simp [FrameReader.feed, hcarries.sound, hangUp]
  | pollError => exact .inl rfl
  | stop => exact .inl rfl

theorem step_unconnected (hconn : c.conn = none) {e : Event}
    (he : ∀ written, e ≠ .connected written) : (c.step lib e).conn = none := by
  unfold step
  split
  · exact hconn
  · rw [hconn]
    cases e with
    | connected written => exact absurd rfl (he written)
    | stop => rfl
    | refused => exact hconn
    | readable read => exact hconn
    | pollError => exact hconn

/-- The process reads the next bytes on their way. -/
theorem step_receive {wire : Bytes} {n : Nat} (hended : c.ended = false) (hconn : c.conn = some r)
    (hcarries : Carries r wire frames) (hn : n ≤ kReadLen) (hne : wire.take n ≠ [])
    (hout : s.out sock = wire.drop n)
    (hshows : s.isActive sock = true → (frames.foldl (Replica.see lib) c.replica).Shows s) :
    Delivers lib s sock (c.step lib (.readable (.data (wire.take n)))) := by
  obtain ⟨r', hfeed, hdrain⟩ := hcarries.feed hn hne
  simp only [step, hended, Bool.false_eq_true, if_false, hconn, hfeed, if_true]
  exact takeFrames_delivers hended (hout ▸ hdrain) hshows

/-- A new connection carries nothing yet. -/
theorem step_connected {written : Bool} (hended : c.ended = false) (hconn : c.conn = none)
    (hout : s.out sock = []) (hact : s.isActive sock = false) :
    (c.step lib (.connected written)).conn = none ∨
      Delivers lib s sock (c.step lib (.connected written)) := by
  simp only [step, hended, Bool.false_eq_true, if_false, hconn]
  cases helloPayload lib c.self with
  | none => exact .inl rfl
  | some payload =>
    cases written with
    | false => exact .inl hconn
    | true =>
      refine .inr ⟨rfl, {}, [], rfl, hout ▸ Carries.empty, fun h => ?_⟩
      rw [hact] at h
      cases h

end StateClient

/-! ## Every state of a run -/

namespace World

/-- What holds of server, processes and sockets, but for a process in the middle
    of a step. -/
structure Inv (lib : JsonLib) (busy : Option Nat) (w : World) : Prop where
  sound : w.server.Sound lib
  delivers : ∀ p sock, some p ≠ busy → w.link p = some sock →
    Delivers lib w.server sock (w.procs p)
  unlinked : ∀ p, some p ≠ busy → w.link p = none → (w.procs p).conn = none
  linked : ∀ p sock, w.link p = some sock → sock < w.nextSock
  apart : ∀ p q sock, w.link p = some sock → w.link q = some sock → p = q
  taken : ∀ sock ∈ w.server.clients, sock < w.nextSock
  queued : ∀ sock ∈ w.pending, sock < w.nextSock
  fresh : ∀ sock, w.nextSock ≤ sock → w.server.out sock = []
  alive : ∀ p sock, w.link p = some sock → w.crashed = false

variable {w : World} {p : Nat}

/-- The invariant in the middle of a step. -/
theorem Inv.during (h : w.Inv lib none) : w.Inv lib (some p) :=
  { h with
    delivers := fun q sock _ => h.delivers q sock (by simp)
    unlinked := fun q _ => h.unlinked q (by simp) }

/-- A process ends its step. -/
theorem inv_client (h : w.Inv lib (some p)) {e : StateClient.Event}
    (hlinked : ∀ sock, w.link p = some sock → ((w.procs p).step lib e).conn = none ∨
      Delivers lib w.server sock ((w.procs p).step lib e))
    (hunlinked : w.link p = none → ((w.procs p).step lib e).conn = none) :
    (w.client lib p e).Inv lib none := by
  have hne : ∀ q, q ≠ p → some q ≠ some p := fun q hq heq => hq (Option.some.inj heq)
  -- The process keeps its link exactly while its connection is live.
  have hlink : ∀ q sock, (w.client lib p e).link q = some sock →
      w.link q = some sock ∧ (q = p → ((w.procs p).step lib e).conn ≠ none) := by
    intro q sock hq
    simp only [client] at hq
    split at hq
    · rename_i hsome
      exact ⟨hq, fun _ hnone => by simp [hnone] at hsome⟩
    · by_cases hqp : q = p
      · subst hqp
        simp at hq
      · rw [Function.update_of_ne hqp] at hq
        exact ⟨hq, fun heq => absurd heq hqp⟩
  refine ⟨h.sound, fun q sock _ hq => ?_, fun q _ hq => ?_, fun q sock hq => ?_,
    fun q q' sock hq hq' => ?_, h.taken, h.queued, h.fresh, fun q sock hq => ?_⟩
  · obtain ⟨hold, hconn⟩ := hlink q sock hq
    by_cases hqp : q = p
    · subst hqp
      have hd := (hlinked sock hold).resolve_left (hconn rfl)
      refine hd.congr ?_ ?_ ?_ <;> simp [client, StateClient.replica]
    · refine (h.delivers q sock (hne q hqp) hold).congr ?_ ?_ ?_ <;> simp [client, hqp]
  · by_cases hqp : q = p
    · subst hqp
      simp only [client, Function.update_self] at hq ⊢
      by_cases hsome : ((w.procs q).step lib e).conn.isSome = true
      · rw [if_pos hsome] at hq
        exact hunlinked hq
      · simpa using hsome
    · have hold : w.link q = none := by
        simp only [client] at hq
        split at hq
        · exact hq
        · rwa [Function.update_of_ne hqp] at hq
      simpa [client, hqp] using h.unlinked q (hne q hqp) hold
  · exact h.linked q sock (hlink q sock hq).1
  · exact h.apart q q' sock (hlink q sock hq).1 (hlink q' sock hq').1
  · exact h.alive q sock (hlink q sock hq).1

/-- An operation of the host that keeps clients in step, or takes it down. -/
theorem inv_host {r : Except Fault StateServer} (h : w.Inv lib none)
    (hok : ∀ s', r = .ok s' → s'.Sound lib ∧ StateServer.Serves lib w.server s') :
    (w.host r).Inv lib none := by
  cases r with
  | error fault =>
    exact ⟨h.sound, fun _ _ _ hq => (Option.some_ne_none _ hq.symm).elim, fun _ _ _ => rfl,
      fun _ _ hq => (Option.some_ne_none _ hq.symm).elim,
      fun _ _ _ hq => (Option.some_ne_none _ hq.symm).elim, h.taken, h.queued, h.fresh,
      fun _ _ hq => (Option.some_ne_none _ hq.symm).elim⟩
  | ok s' =>
    obtain ⟨hsound, hserves⟩ := hok s' rfl
    refine ⟨hsound, fun p sock hp hl => (h.delivers p sock hp hl).serves hserves, h.unlinked,
      h.linked, h.apart, fun sock hsock => h.taken sock (hserves.keys sock hsock), h.queued,
      fun sock hsock => ?_, h.alive⟩
    obtain ⟨frames, hfeeds⟩ := hserves.feeds sock
    have hno : sock ∉ w.server.clients := fun hmem => Nat.not_lt.mpr hsock (h.taken sock hmem)
    show s'.out sock = []
    rw [hfeeds.out, hfeeds.known hno, h.fresh sock hsock]
    rfl

theorem inv_receive (h : w.Inv lib none) (p n : Nat) : (w.receive lib p n).Inv lib none := by
  unfold receive
  cases hl : w.link p with
  | none => exact h
  | some sock =>
    simp only
    split
    · exact h
    rename_i hne
    obtain ⟨hended, r, frames, hconn, hcarries, hshows⟩ := h.delivers p sock (by simp) hl
    refine inv_client ?_ (fun sock' hl' => ?_) fun hnone => ?_
    · -- The bytes are off the way; only this process reads this socket.
      refine ⟨h.sound.congr h.sound.life rfl rfl, fun q sock' hq hl' => ?_,
        fun q _ => h.unlinked q (by simp), h.linked, h.apart, h.taken, h.queued,
        fun sock' hfresh => ?_, h.alive⟩
      · have hsock : sock' ≠ sock := by
          rintro rfl
          exact hq (congrArg some (h.apart q p sock' hl' hl))
        exact (h.delivers q sock' (by simp) hl').quiet (Function.update_of_ne hsock _ _) id rfl rfl
      · have hsock : sock' ≠ sock := by
          rintro rfl
          exact Nat.not_lt.mpr hfresh (h.linked p sock' hl)
        exact (Function.update_of_ne hsock _ _).trans (h.fresh sock' hfresh)
    · obtain rfl : sock = sock' := Option.some.inj (hl.symm.trans hl')
      refine .inr (StateClient.step_receive hended hconn hcarries (Nat.min_le_right ..) hne
        (Function.update_self ..) fun hact => ?_)
      exact ⟨(hshows hact).latest, (hshows hact).avatars⟩
    · exact absurd (hl.symm.trans hnone) (by simp)

theorem inv_connect (h : w.Inv lib none) (hup : w.crashed = false) (p : Nat) (written : Bool) :
    (w.connect lib p written).Inv lib none := by
  unfold connect
  split
  · exact h
  rename_i hfree
  simp only [Bool.or_eq_true, not_or, Bool.not_eq_true, Option.isSome_eq_false_iff,
    Option.isNone_iff_eq_none] at hfree
  obtain ⟨hnone, hended⟩ := hfree
  have hlink : ∀ q sock, Function.update w.link p (some w.nextSock) q = some sock →
      (q = p ∧ sock = w.nextSock) ∨ (q ≠ p ∧ w.link q = some sock) := by
    intro q sock hq
    by_cases hqp : q = p
    · subst hqp
      rw [Function.update_self] at hq
      exact .inl ⟨rfl, (Option.some.inj hq).symm⟩
    · rw [Function.update_of_ne hqp] at hq
      exact .inr ⟨hqp, hq⟩
  have hnew : w.server.isActive w.nextSock = false := by
    cases hact : w.server.isActive w.nextSock with
    | false => rfl
    | true => exact absurd (h.taken _ (StateServer.mem_keys_of_isActive hact)) (Nat.lt_irrefl _)
  have hconn := h.unlinked p (by simp) hnone
  refine inv_client ?_ (fun sock hl => ?_) fun hl => ?_
  · refine ⟨h.sound, fun q sock hq hl => ?_, fun q hq hl => ?_, fun q sock hl => ?_,
      fun q q' sock hl hl' => ?_, fun sock hsock => Nat.lt_succ_of_lt (h.taken sock hsock),
      fun sock hsock => ?_, fun sock hsock => h.fresh sock (Nat.le_of_succ_le hsock),
      fun _ _ _ => hup⟩
    · rcases hlink q sock hl with ⟨rfl, -⟩ | ⟨-, hold⟩
      · exact absurd rfl hq
      · exact h.delivers q sock (by simp) hold
    · have hqp : q ≠ p := fun heq => hq (congrArg some heq)
      exact h.unlinked q (by simp) ((Function.update_of_ne hqp _ _).symm.trans hl)
    · rcases hlink q sock hl with ⟨-, rfl⟩ | ⟨-, hold⟩
      · exact Nat.lt_succ_self _
      · exact Nat.lt_succ_of_lt (h.linked q sock hold)
    · rcases hlink q sock hl with ⟨rfl, rfl⟩ | ⟨-, hold⟩
      · rcases hlink q' _ hl' with ⟨rfl, -⟩ | ⟨-, hold'⟩
        · rfl
        · exact absurd (h.linked q' _ hold') (Nat.lt_irrefl _)
      · rcases hlink q' sock hl' with ⟨-, rfl⟩ | ⟨-, hold'⟩
        · exact absurd (h.linked q _ hold) (Nat.lt_irrefl _)
        · exact h.apart q q' sock hold hold'
    · rcases List.mem_append.mp hsock with hsock | hsock
      · exact Nat.lt_succ_of_lt (h.queued sock hsock)
      · obtain rfl := List.mem_singleton.mp hsock
        exact Nat.lt_succ_self _
  · obtain rfl : w.nextSock = sock := by simpa using hl
    exact StateClient.step_connected hended hconn (h.fresh _ (Nat.le_refl _)) hnew
  · simp at hl

theorem inv_accept (h : w.Inv lib none) : w.accept.Inv lib none := by
  unfold accept
  cases hq : w.pending with
  | nil => exact h
  | cons sock rest =>
    have hqueued : ∀ other ∈ rest, other < w.nextSock := fun other ho =>
      h.queued other (hq ▸ List.mem_cons_of_mem _ ho)
    simp only [StateServer.onNewConnection]
    split
    · exact { h with queued := hqueued }
    -- A connection that is taken is not active yet.
    have hact : ∀ other, (w.server.setClient sock {}).isActive other = true →
        w.server.isActive other = true := by
      intro other hother
      by_cases hsock : other = sock
      · subst hsock
        rw [StateServer.isActive, StateServer.lookup_setClient] at hother
        cases hother
      · rwa [StateServer.isActive, StateServer.lookup_setClient_ne hsock] at hother
    exact
      { h with
        sound := h.sound.congr h.sound.life rfl rfl
        delivers := fun p other hp hl => (h.delivers p other hp hl).quiet rfl (hact other) rfl rfl
        taken := fun other ho => by
          rcases (AList.mem_insert w.server.clients).mp ho with rfl | ho
          · exact h.queued other (hq ▸ List.mem_cons_self)
          · exact h.taken other ho
        queued := hqueued }

/-- An event whose snapshot comes back from its text, and whose frame is well
    below the bound. -/
def Event.Modest (lib : JsonLib) : Event → Prop
  | .snapshot snap => snap.Servable lib
  | .announce hash path w h => ∀ text, StateServer.avatarPayload lib hash path w h = some text →
    Frame.Small ⟨.avatarReady, text⟩
  | .connect .. | .accept | .arrive .. | .disconnected _ | .receive .. | .other .. => True

theorem inv_step (h : w.Inv lib none) (e : Event) (he : e.Modest lib) :
    (w.step lib e).Inv lib none := by
  unfold step
  split
  · exact h
  rename_i hup
  cases e with
  | snapshot snap =>
    obtain ⟨s', hok, hsound, hserves, -⟩ := StateServer.broadcast_serves h.sound he
    refine inv_host h fun s'' hs'' => ?_
    obtain rfl := Except.ok.inj (hok.symm.trans hs'')
    exact ⟨hsound, hserves⟩
  | announce hash path width height =>
    refine inv_host h fun s' hs' => ?_
    obtain ⟨hsound, hserves, -⟩ := StateServer.broadcastAvatar_serves h.sound he hs'
    exact ⟨hsound, hserves⟩
  | connect p written => exact inv_connect h (by simpa using hup) p written
  | accept => exact inv_accept h
  | arrive sock n =>
    simp only [arrive]
    split
    · obtain ⟨s', hok, hturn⟩ :=
        StateServer.onReadyRead_turn sock ((w.up sock).take n) h.sound
      refine inv_host { h with } fun s'' hs'' => ?_
      obtain rfl := Except.ok.inj (hok.symm.trans hs'')
      exact ⟨hturn.sound, hturn.serves⟩
    · exact h
  | disconnected sock =>
    have hturn := StateServer.turn_onDisconnected sock h.sound
    exact inv_host (r := .ok (w.server.onDisconnected sock)) h fun s' hs' =>
      Except.ok.inj hs' ▸ ⟨hturn.sound, hturn.serves⟩
  | receive p n => exact inv_receive h p n
  | other p e =>
    simp only
    split
    · exact h
    · exact h
    rename_i hconnected hdata
    refine inv_client h.during (fun sock hl => ?_) fun hnone => ?_
    · exact StateClient.step_local (h.delivers p sock (by simp) hl) hdata
    · exact StateClient.step_unconnected (h.unlinked p (by simp) hnone) hconnected

theorem inv_init (isBlocked : Option (Bytes → Bool)) {snap : Snapshot} (hsnap : snap.Servable lib)
    (procs : Nat → ProcSelf) : (init isBlocked snap procs).Inv lib none where
  sound := ⟨fun _ => rfl, hsnap, fun hash entry h => by simp [init] at h⟩
  delivers _ _ _ hl := (Option.some_ne_none _ hl.symm).elim
  unlinked _ _ _ := rfl
  linked _ _ hl := (Option.some_ne_none _ hl.symm).elim
  apart _ _ _ hl := (Option.some_ne_none _ hl.symm).elim
  taken _ h := by simp [init] at h
  queued _ h := by simp [init] at h
  fresh _ _ := rfl
  alive _ _ hl := (Option.some_ne_none _ hl.symm).elim

/-! ## Announcements -/

/-- The server keeps the latest announcement of every hash. -/
theorem step_avatars (h : w.Inv lib none) (e : Event) (he : e.Modest lib)
    (hup : (w.step lib e).crashed = false) (hash : Bytes) :
    (w.step lib e).server.avatars.lookup hash =
      e.announces hash (w.server.avatars.lookup hash) := by
  unfold step at hup ⊢
  split at hup
  · rename_i hdown
    rw [hdown] at hup
    cases hup
  rename_i hup'
  rw [if_neg hup']
  cases e with
  | snapshot snap =>
    obtain ⟨s', hok, -, -, -, havatars⟩ := StateServer.broadcast_serves h.sound he
    have hok' : (w.server.setSnapshot snap).broadcast lib snap = .ok s' := hok
    simp only [hok', host, havatars, Event.announces]
  | announce key path width height =>
    simp only at hup ⊢
    cases hr : w.server.broadcastAvatar lib key path width height with
    | error fault => simp [hr, host] at hup
    | ok s' =>
      obtain ⟨-, -, havatars⟩ := StateServer.broadcastAvatar_serves h.sound he hr
      simp only [host, havatars, Event.announces]
      split
      · rename_i hkey
        rw [hkey, AList.lookup_insert]
      · rename_i hkey
        exact AList.lookup_insert_ne fun heq => hkey heq.symm
  | connect p written =>
    simp only [connect]
    split <;> rfl
  | accept =>
    simp only [accept]
    split
    · rfl
    · simp only [StateServer.onNewConnection]
      split <;> rfl
  | arrive sock n =>
    simp only [arrive]
    split
    · obtain ⟨s', hok, hturn⟩ :=
        StateServer.onReadyRead_turn sock ((w.up sock).take n) h.sound
      simp only [hok, host, hturn.avatars, Event.announces]
    · rfl
  | disconnected sock => rfl
  | receive p n =>
    simp only [receive]
    split
    · rfl
    · split <;> rfl
  | other p e =>
    simp only
    split <;> rfl

theorem run_crashed (hdown : w.crashed = true) (es : List Event) :
    Machine.run (step lib) w es = w := by
  induction es with
  | nil => rfl
  | cons e es ih =>
    have hstep : w.step lib e = w := by simp only [step, hdown, if_true]
    rw [Machine.run_cons, hstep, ih]

theorem run_avatars (h : w.Inv lib none) {es : List Event} (hes : ∀ e ∈ es, e.Modest lib)
    (hup : (Machine.run (step lib) w es).crashed = false) (hash : Bytes) :
    (Machine.run (step lib) w es).server.avatars.lookup hash =
      es.foldl (Event.announces hash) (w.server.avatars.lookup hash) := by
  induction es generalizing w with
  | nil => rfl
  | cons e es ih =>
    have he := hes e List.mem_cons_self
    have hstep : (w.step lib e).crashed = false := by
      cases hdown : (w.step lib e).crashed with
      | false => rfl
      | true =>
        rw [Machine.run_cons, run_crashed hdown, hdown] at hup
        cases hup
    rw [Machine.run_cons, ih (inv_step h e he) (fun e he => hes e (List.mem_cons_of_mem _ he)) hup,
      step_avatars h e he hstep, List.foldl_cons]

/-! ## Runs -/

/-- An active client that has read all it was sent shows the server's snapshot
    and, of every hash, the latest announcement, unless that has no path. -/
theorem run_synced (lib : JsonLib) (isBlocked : Option (Bytes → Bool)) (snap : Snapshot)
    (procs : Nat → ProcSelf) (es : List Event) (hsnap : snap.Servable lib)
    (hes : ∀ e ∈ es, e.Modest lib) :
    let w := Machine.run (step lib) (init isBlocked snap procs) es
    ∀ p sock, w.link p = some sock → w.server.isActive sock = true → w.server.out sock = [] →
      (w.procs p).latest = some w.server.current ∧
      ∀ hash entry, lastAnnounced hash es = some entry → hash ≠ [] → entry.path ≠ [] →
        (w.procs p).avatarFor hash = some ⟨hash, entry.path, entry.w, entry.h⟩ := by
  intro w p sock hlink hactive hout
  have hinit := inv_init isBlocked hsnap procs
  have hinv : (Machine.run (step lib) (init isBlocked snap procs) es).Inv lib none :=
    (Machine.along_of_forall hes).invariant (P := fun w : World => w.Inv lib none)
      (fun _ e h he => inv_step h e he) hinit
  obtain ⟨-, r, frames, -, hcarries, hshows⟩ := hinv.delivers p sock (by simp) hlink
  rw [hout] at hcarries
  obtain rfl := hcarries.consumed
  have hshow := hshows hactive
  refine ⟨hshow.latest, fun hash entry hentry hhash hpath => ?_⟩
  refine hshow.avatars hash entry ?_ hhash hpath
  exact (run_avatars hinit hes (hinv.alive p sock hlink) hash).trans hentry

/-- A process connects, is seeded, and hears of one more avatar. -/
theorem run_synced_joiner :
    let es : List Event :=
      [.snapshot { inVoice := true }, .connect 0 true, .accept, .arrive 0 1000, .receive 0 7,
        .receive 0 4096, .announce (ascii "h") (ascii "p") 64 64, .receive 0 4096]
    let w := Machine.run (step compactJson) (init none {} fun _ => {}) es
    (w.procs 0).latest = some w.server.current ∧
      ∀ hash entry, lastAnnounced hash es = some entry → hash ≠ [] → entry.path ≠ [] →
        (w.procs 0).avatarFor hash = some ⟨hash, entry.path, entry.w, entry.h⟩ := by
  intro es
  have hsmall : ∀ type text, MsgType.ofByte type.toByte = type → text.length ≤ 1000 →
      Frame.Small ⟨type, text⟩ := by
    intro type text hknown hlen
    refine ⟨hknown, ?_⟩
    rw [length_encodeFrame]
    exact Nat.le_trans (Nat.add_le_add_right (Nat.add_le_add_left hlen 5) _) (by decide)
  have hservable : ∀ inVoice, Snapshot.Servable compactJson { inVoice } := by
    intro inVoice
    have hlen : ∀ text ∈ Snapshot.toJsonStr compactJson { inVoice }, text.length ≤ 1000 := by
      cases inVoice <;> decide +kernel
    refine ⟨⟨JsonText.text (Snapshot.toJson { inVoice }), ?_, ?_⟩, fun text htext =>
      hsmall _ _ rfl (hlen text htext)⟩ <;> cases inVoice <;> decide +kernel
  have havatar : ∀ text ∈ StateServer.avatarPayload compactJson (ascii "h") (ascii "p") 64 64,
      text.length ≤ 1000 := by
    decide +kernel
  refine run_synced compactJson none {} (fun _ => {}) es (hservable false) ?_ 0 0
    (by decide +kernel) (by decide +kernel) (by decide +kernel)
  simp only [es, List.forall_mem_cons, Event.Modest, true_and, List.not_mem_nil, false_implies,
    implies_true, and_true]
  exact ⟨hservable true, fun text htext => hsmall _ _ rfl (havatar text htext)⟩

/-- A process that connects after an announcement without a path is not told of
    the path announced before. -/
theorem pathless_announcement_hides :
    let es : List Event :=
      [.announce (ascii "h") (ascii "p") 64 64, .announce (ascii "h") [] 64 64, .connect 0 true,
        .accept, .arrive 0 1000, .receive 0 4096]
    let w := Machine.run (step compactJson) (init none {} fun _ => {}) es
    w.link 0 = some 0 ∧ w.server.isActive 0 = true ∧ w.server.out 0 = [] ∧
      (w.procs 0).avatarFor (ascii "h") = none := by
  decide +kernel

end World

end Choir
