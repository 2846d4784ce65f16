-- SUMMARY: When the client has logged in, on its current connection, before it acts as a logged-in client.
import ChoirOverlay.Host.Peer
import ChoirOverlay.Machine.Log
import Mathlib.Tactic.ByContra

/-!
# Login order

A logged-in client has received, on its connection and in this order, `READY`,
an `AUTHORIZE` reply whose code was exchanged, and an `AUTHENTICATE` reply
that is no error. Three handlers act without: a channel select is obeyed in
every state, it goes on after its writes have taken the connection down, and
an `AUTHENTICATE` reply is taken for an answer before anything was asked.
-/

namespace Choir

/-! ## The steps of a login -/

def Arrival.isReady : Arrival → Bool
  | .ready => true
  | _ => false

def Arrival.isAuthorizeReply : Arrival → Bool
  | .authorizeReply _ => true
  | _ => false

/-- An `AUTHENTICATE` reply that is no error. -/
def Arrival.accepts : Arrival → Bool
  | .authenticateReply frame => frame.strOr "evt" != ascii "ERROR"
  | _ => false

/-- A message was received on the connection. -/
def Obs.receivedOn (lib : JsonLib) (c : Conn) (test : Arrival → Bool) : Obs → Bool
  | .received c' op payload => c' == c && test (arrival lib op payload)
  | _ => false

/-- A code that came on the connection was exchanged. -/
def Obs.exchangedOn (c : Conn) : Obs → Bool
  | .exchanged c' _ tok => c' == some c && tok.ok
  | _ => false

/-- `READY`, and then an `AUTHORIZE` reply whose code was exchanged. -/
def Exchanged (lib : JsonLib) (c : Conn) (log : List Obs) : Prop :=
  Log.saw [Obs.exchangedOn c, Obs.receivedOn lib c Arrival.isAuthorizeReply,
    Obs.receivedOn lib c Arrival.isReady] log = true

/-- The whole login. -/
def Authenticated (lib : JsonLib) (c : Conn) (log : List Obs) : Prop :=
  Log.saw [Obs.receivedOn lib c Arrival.accepts, Obs.exchangedOn c,
    Obs.receivedOn lib c Arrival.isAuthorizeReply, Obs.receivedOn lib c Arrival.isReady] log = true

instance (lib : JsonLib) (c : Conn) (log : List Obs) : Decidable (Exchanged lib c log) :=
  inferInstanceAs (Decidable (_ = true))

instance (lib : JsonLib) (c : Conn) (log : List Obs) : Decidable (Authenticated lib c log) :=
  inferInstanceAs (Decidable (_ = true))

/-- A command only a logged-in client sends. -/
def Json.privileged (j : Json) : Bool :=
  j.strOr "cmd" == ascii "SUBSCRIBE" || j.strOr "cmd" == ascii "UNSUBSCRIBE" ||
    j.strOr "cmd" == ascii "GET_SELECTED_VOICE_CHANNEL"

/-- The entry respects the login order: `Ready` and `InChannel` are entered,
    and privileged commands written, on a connection with a whole login. -/
def Obs.InOrder (lib : JsonLib) (past : List Obs) : Obs → Prop
  | .entered c s =>
    s = .ready ∨ s = .inChannel → ∃ c' ∈ c, Authenticated lib c' past
  | .wrote c _ _ (.text j) _ => j.privileged = true → Authenticated lib c past
  | _ => True

instance (lib : JsonLib) (past : List Obs) : (o : Obs) → Decidable (o.InOrder lib past)
  | .entered none s =>
    decidable_of_iff (¬ (s = .ready ∨ s = .inChannel)) (by simp [Obs.InOrder])
  | .entered (some c) s =>
    decidable_of_iff (s = .ready ∨ s = .inChannel → Authenticated lib c past)
      (by simp [Obs.InOrder])
  | .wrote _ _ _ (.text _) _ => inferInstanceAs (Decidable (_ → _))
  | .wrote _ _ _ (.raw _) _ => .isTrue trivial
  | .opened _ | .closed _ | .received _ _ _ | .exchanged _ _ _ | .returned _ => .isTrue trivial

/-- The arrivals that keep the order, on connection `c`: a channel select comes
    after the login and its writes go through, and an `AUTHENTICATE` reply
    comes after the exchange. -/
def Arrival.KeepsOrder (lib : JsonLib) (h : Host) (c : Conn) (env : MsgEnv) : Arrival → Prop
  | .authenticateReply frame =>
    h.state = .authorizing → frame.strOr "evt" ≠ ascii "ERROR" → Exchanged lib c h.log
  | .selectedReply frame =>
    (h.state = .ready ∨ h.state = .inChannel) →
      (parseSelectedVoiceChannel frame).inChannel = true →
        env.Allows (h.selectCommands (parseSelectedVoiceChannel frame).channelId).length
  | .event ev =>
    ev.kind = .channelSelect →
      Authenticated lib c h.log ∧ env.Allows (h.selectCommands ev.channelId).length
  | _ => True

instance (lib : JsonLib) (h : Host) (c : Conn) (env : MsgEnv) :
    (a : Arrival) → Decidable (a.KeepsOrder lib h c env)
  | .authenticateReply _ => inferInstanceAs (Decidable (_ → ¬ _ → _))
  | .selectedReply _ => inferInstanceAs (Decidable (_ → _ → _))
  | .event _ => inferInstanceAs (Decidable (_ → _ ∧ _))
  | .ping | .ignored | .ready | .authorizeReply _ => .isTrue trivial

namespace Host

def KeepsOrder (lib : JsonLib) (h : Host) : Step → Prop
  | .deliver op payload _ env => ∀ c ∈ h.fd, (arrival lib op payload).KeepsOrder lib h c env
  | _ => True

instance (lib : JsonLib) (h : Host) : (s : Step) → Decidable (h.KeepsOrder lib s)
  | .deliver op payload _ env =>
    match hfd : h.fd with
    | none => .isTrue (by simp [KeepsOrder, hfd])
    | some c =>
      decidable_of_iff ((arrival lib op payload).KeepsOrder lib h c env) (by simp [KeepsOrder, hfd])
  | .act _ | .enter _ | .reconnect _ | .fill _ | .lost | .leave => .isTrue trivial

/-! ## Operations that log nobody in -/

/-- From `h` to `g` the log grows and stays in order, and the client keeps its
    connection and its state unless it is disconnected or connecting anew. -/
structure Orderly (lib : JsonLib) (h g : Host) : Prop where
  log : h.log <:+ g.log
  state : (g.fd = h.fd ∧ g.state = h.state) ∨ g.state = .disconnected ∨ g.state = .connecting
  each : Log.Each (Obs.InOrder lib) h.log → Log.Each (Obs.InOrder lib) g.log

variable {lib : JsonLib} {h g : Host}

theorem Orderly.refl (h : Host) : Orderly lib h h := ⟨List.suffix_refl _, .inl ⟨rfl, rfl⟩, id⟩

theorem Orderly.trans {h₁ h₂ h₃ : Host} (h₁₂ : Orderly lib h₁ h₂) (h₂₃ : Orderly lib h₂ h₃) :
    Orderly lib h₁ h₃ where
  log := h₁₂.log.trans h₂₃.log
  state := by
    rcases h₂₃.state with ⟨hfd, hs⟩ | hs
    · rw [hfd, hs]
      exact h₁₂.state
    · exact .inr hs
  each := h₂₃.each ∘ h₁₂.each

/-- An operation that only touches other fields. -/
theorem Orderly.of_eq (hfd : g.fd = h.fd) (hs : g.state = h.state) (hlog : g.log = h.log) :
    Orderly lib h g where
  log := hlog ▸ List.suffix_refl _
  state := .inl ⟨hfd, hs⟩
  each := by rw [hlog]; exact id

/-- An entry that is in order wherever it stands. -/
theorem orderly_record {o : Obs} (ho : o.InOrder lib h.log) : Orderly lib h (h.record o) where
  log := List.suffix_cons o h.log
  state := .inl ⟨rfl, rfl⟩
  each := fun he => ⟨ho, he⟩

theorem orderly_setState {s : ConnectionState} (hs : s = .disconnected ∨ s = .connecting) :
    Orderly lib h (h.setState s) where
  log := (stable_log h.log).setState (List.suffix_refl _)
  state := .inr (by simpa using hs)
  each he := by
    rw [setState_log]
    split
    · exact he
    · refine ⟨?_, he⟩
      rcases hs with rfl | rfl <;> simp [Obs.InOrder]

/-- Closing before the state changes to `Disconnected`. -/
theorem orderly_close_setState (hlog : g.log = h.close.log) :
    Orderly lib h (g.setState .disconnected) where
  log := by
    refine (stable_log h.log).setState ?_
    rw [hlog]
    exact (stable_log h.log).close (List.suffix_refl _)
  state := .inr (.inl (setState_state ..))
  each he := by
    have hclose : Log.Each (Obs.InOrder lib) g.log := by
      rw [hlog]
      cases hfd : h.fd with
      | none => rwa [close_of_none h hfd]
      | some c =>
        rw [close_log h hfd]
        exact ⟨trivial, he⟩
    exact (orderly_setState (h := g) (.inl rfl)).each hclose

theorem orderly_handleClosed : Orderly lib h h.handleClosed := by
  cases hfd : h.fd with
  | none =>
    rw [handleClosed_of_none h hfd]
    exact .refl h
  | some c =>
    have hclosed : Orderly lib h (h.close.clearChannelState.setState .disconnected) :=
      orderly_close_setState rfl
    have hdown := handleClosed_link h (by simp [hfd])
    have hlog : h.handleClosed.log = (h.close.clearChannelState.setState .disconnected).log := by
      unfold handleClosed
      rw [hfd, setState_log]
      exact (onClosed_log _).trans (setState_log ..)
    exact ⟨hlog ▸ hclosed.log, .inr (.inl (congrArg (fun l => l.2.1) hdown)),
      fun he => hlog ▸ hclosed.each he⟩

theorem orderly_abandon : Orderly lib h h.abandon :=
  orderly_close_setState (scheduleReconnect_log h.close)

/-- A frame that the connection may carry. -/
theorem orderly_sendRaw {op : Int} {payload : Payload}
    (ho : ∀ c ok, h.fd = some c → (Obs.wrote c h.state op payload ok).InOrder lib h.log) :
    Orderly lib h (h.sendRaw op payload) := by
  cases hfd : h.fd with
  | none =>
    rw [sendRaw_of_none _ _ _ hfd]
    exact .refl h
  | some c =>
    have hwrote (ok : Bool) : Orderly lib h
        (({ h with transport := { h.transport with verdicts := h.transport.verdicts.drop 1 } } :
          Host).record (.wrote c h.state op payload ok)) :=
      { orderly_record (ho c ok hfd) with }
    by_cases hw : h.transport.Allows 1
    · rw [sendRaw_of_allows _ _ _ hfd hw]
      exact hwrote true
    · rw [sendRaw_of_not_allows _ _ _ hfd hw]
      exact (hwrote false).trans orderly_handleClosed

theorem orderly_command {build : Bytes → Json}
    (ho : ∀ c nonce, h.fd = some c → (build nonce).privileged = true → Authenticated lib c h.log) :
    Orderly lib h (h.command build) := by
  rw [command_eq]
  refine (Orderly.of_eq (h := h) (g := h.drawn) rfl rfl rfl).trans
    (orderly_sendRaw fun c _ hfd => ?_)
  exact ho c h.nextNonce hfd

/-- Commands of a logged-in client. -/
theorem orderly_commands {bs : List (Bytes → Json)}
    (ho : ∀ c, h.fd = some c → Authenticated lib c h.log) : Orderly lib h (h.commands bs) := by
  induction bs generalizing h with
  | nil => exact .refl h
  | cons b bs ih =>
    have hb : Orderly lib h (h.command b) := orderly_command fun c _ hfd _ => ho c hfd
    refine hb.trans (ih fun c hfd => ?_)
    have hlink := h.command_link b
    have hback : h.fd = some c := by
      split at hlink
      · rw [← hfd]
        exact (congrArg Prod.fst hlink).symm
      · cases hfd.symm.trans (congrArg Prod.fst hlink)
    exact Log.saw_of_suffix (ho c hback) hb.log

theorem handshake_unprivileged (cfg : RpcConfig) : (handshake cfg).privileged = false := by
  rw [Json.privileged, handshake_cmd]
  decide

theorem buildAuthorize_unprivileged (scopes : List Bytes) (clientId nonce : Bytes) :
    (buildAuthorize scopes clientId nonce).privileged = false := by
  rw [Json.privileged, buildAuthorize_cmd]
  decide

theorem buildAuthenticate_unprivileged (token nonce : Bytes) :
    (buildAuthenticate token nonce).privileged = false := by
  rw [Json.privileged, buildAuthenticate_cmd]
  decide

theorem orderly_connect (lib : JsonLib) (probe : Nat → Bool) :
    Log.Each (Obs.InOrder lib) h.log → Log.Each (Obs.InOrder lib) (h.connect probe).1.log := by
  intro he
  rcases h.connect_log probe with ⟨-, hlog⟩ | ⟨c, hlog⟩
  · rwa [hlog]
  · rw [hlog]
    exact ⟨trivial, he⟩

theorem orderly_tryConnect (probe : Nat → Bool) : Orderly lib h (h.tryConnect probe) := by
  have hlink := h.tryConnect_link probe
  have heach := orderly_connect (h := h.attempting) lib probe
  refine ⟨(stable_log h.log).tryConnect (List.suffix_refl _), ?_, fun he => ?_⟩
  · cases hc : h.reached probe with
    | none =>
      rw [hc] at hlink
      have hfd : h.fd = none := by
        unfold reached at hc
        split at hc
        · cases hc
        · assumption
      exact .inl ⟨(congrArg Prod.fst hlink).trans hfd.symm, congrArg (fun l => l.2.1) hlink⟩
    | some c =>
      rw [hc] at hlink
      have hstate : (h.tryConnect probe).state = (h.tryConnect probe).link.2.1 := rfl
      rw [hstate, hlink]
      simp only
      split
      · exact .inr (.inr rfl)
      · exact .inr (.inl rfl)
  · obtain ⟨c, -, hstep⟩ | ⟨-, hstep⟩ := tryConnect_cases h probe
    · rw [hstep]
      refine (orderly_sendRaw fun c ok _ => ?_).each ?_
      · exact fun hp => absurd hp (by simp [handshake_unprivileged])
      · exact (orderly_setState (.inr rfl)).each (heach he)
    · rw [hstep, scheduleReconnect_log]
      exact heach he

theorem orderly_act (a : Act) : Orderly lib h (h.act a) := by
  cases a with
  | start env =>
    have hstart : Orderly lib h (h.start env) :=
      { orderly_tryConnect (h := { h.under env.toConduct with
          stopped := false, reconnectPending := false }) env.probe with }
    exact hstart.trans (orderly_record (by trivial))
  | stop =>
    have hstop : Orderly lib h h.stop :=
      { orderly_close_setState (h := { h with
          stopped := true, reconnectPending := false, subscribedChannel := [] }) rfl with }
    exact hstop.trans (orderly_record (by trivial))
  | poll => exact orderly_record (by trivial)
  | configure cfg => exact .of_eq rfl rfl rfl

theorem orderly_acts (as : List Act) : Orderly lib h (h.acts as) :=
  acts_induct (fun a _ hg => hg.trans (orderly_act a)) (.refl h) as

theorem orderly_exchanged (frame : Json) (env : MsgEnv) :
    Orderly lib h (h.exchanged lib frame env) :=
  ((orderly_acts env.duringExchange).trans
    (.of_eq (g := (h.acts env.duringExchange).under env.resumed) rfl rfl rfl)).trans
      (orderly_record (by trivial))

theorem orderly_onEvent {wallMs : Int} {during : List Act} {ev : RpcEvent} :
    Orderly lib h (h.onEvent wallMs during ev) := by
  unfold onEvent
  simp only
  split
  · exact { orderly_acts (h := { h with overlay := h.overlay.apply wallMs ev }) during with }
  · exact .of_eq rfl rfl rfl

theorem orderly_seedStates (env : MsgEnv) (states : List VoiceState) (during : List (List Act)) :
    Orderly lib h (h.seedStates env states during) :=
  seedStates_induct (fun _ _ _ hg => hg.trans orderly_onEvent) (.refl h) states during

/-! ## What the state says of the log -/

/-- An authorizing client has received `READY` on its connection, and one past
    that has its whole login there. -/
structure LoggedIn (lib : JsonLib) (h : Host) : Prop where
  each : Log.Each (Obs.InOrder lib) h.log
  authorizing : h.state = .authorizing →
    ∃ c, h.fd = some c ∧ Log.saw [Obs.receivedOn lib c Arrival.isReady] h.log = true
  past : h.state = .ready ∨ h.state = .inChannel →
    ∀ c, h.fd = some c → Authenticated lib c h.log

theorem LoggedIn.orderly (hl : LoggedIn lib h) (ho : Orderly lib h g) : LoggedIn lib g where
  each := ho.each hl.each
  authorizing hs := by
    rcases ho.state with ⟨hfd, hst⟩ | hst | hst
    · obtain ⟨c, hc, hsaw⟩ := hl.authorizing (hst ▸ hs)
      exact ⟨c, hfd.trans hc, Log.saw_of_suffix hsaw ho.log⟩
    · cases hst.symm.trans hs
    · cases hst.symm.trans hs
  past hs c hc := by
    rcases ho.state with ⟨hfd, hst⟩ | hst | hst
    · exact Log.saw_of_suffix (hl.past (hst ▸ hs) c (hfd ▸ hc)) ho.log
    · rw [hst] at hs
      simp at hs
    · rw [hst] at hs
      simp at hs

/-- The client enters a state of a logged-in client. -/
theorem LoggedIn.setState {s : ConnectionState} {c : Conn} (hl : LoggedIn lib h)
    (hs : s = .ready ∨ s = .inChannel) (hfd : h.fd = some c) (ha : Authenticated lib c h.log) :
    LoggedIn lib (h.setState s) where
  each := by
    rw [setState_log]
    split
    · exact hl.each
    · exact ⟨fun _ => ⟨c, hfd, ha⟩, hl.each⟩
  authorizing hst := by
    rw [setState_state] at hst
    rcases hs with rfl | rfl <;> cases hst
  past _ c' hc' := by
    rw [setState_fd, hfd] at hc'
    obtain rfl : c = c' := by simpa using hc'
    exact Log.saw_of_suffix ha ((stable_log h.log).setState (List.suffix_refl _))

/-- A channel select of a logged-in client, whose writes go through. -/
theorem LoggedIn.channelSelect {id : Bytes} {c : Conn} (hl : LoggedIn lib h) (hfd : h.fd = some c)
    (ha : Authenticated lib c h.log)
    (hw : h.transport.Allows (h.selectCommands id).length) :
    LoggedIn lib (h.handleChannelSelect id) := by
  have hcommands : Orderly lib h (h.commands (h.selectCommands id)) :=
    orderly_commands fun c' hc' => by
      obtain rfl : c = c' := by simpa using hfd.symm.trans hc'
      exact ha
  have hlink := h.commands_link (h.selectCommands id)
  rw [if_pos (.inr hw)] at hlink
  rw [handleChannelSelect_eq]
  refine LoggedIn.setState (c := c)
    (hl.orderly (hcommands.trans
      (.of_eq (g := { h.commands _ with subscribedChannel := id }) rfl rfl rfl)))
    ?_ ((congrArg Prod.fst hlink).trans hfd) (Log.saw_of_suffix ha hcommands.log)
  split
  · exact .inl rfl
  · exact .inr rfl

/-! ## Messages -/

/-- A message that keeps the order, as it is handled: it stands on top of the
    log. -/
theorem loggedIn_handle {op : Int} {payload : Bytes} {env : MsgEnv} {c : Conn} (past : List Obs)
    {a : Arrival} (ha : arrival lib op payload = a) (hl : LoggedIn lib h) (hfd : h.fd = some c)
    (htop : h.log = .received c op payload :: past) (hw : ∀ n, h.transport.Allows n ↔ env.Allows n)
    (hgood : a.KeepsOrder lib { h with log := past } c env) :
    LoggedIn lib (h.handle lib payload env a) := by
  have hon (test : Arrival → Bool) (ht : test a = true) :
      (Obs.received c op payload).receivedOn lib c test = true := by
    simp [Obs.receivedOn, ha, ht]
  have hhandles := handles lib payload env a h
  generalize h.handle lib payload env a = g at hhandles ⊢
  cases hhandles with
  | answers => exact hl.orderly (orderly_sendRaw fun _ _ _ => trivial)
  | ignores | strayCode | strayLogin | stays => exact hl
  | greets =>
    have hsaw : Log.saw [Obs.receivedOn lib c Arrival.isReady] h.log = true := by
      rw [htop]
      exact Log.saw_cons_of_test (hon Arrival.isReady rfl) Log.saw_nil
    have hset : LoggedIn lib (h.setState .authorizing) := by
      refine ⟨?_, fun _ => ⟨c, by rw [setState_fd, hfd], ?_⟩, fun hs => ?_⟩
      · rw [setState_log]
        split
        · exact hl.each
        · exact ⟨by simp [Obs.InOrder], hl.each⟩
      · exact Log.saw_of_suffix hsaw ((stable_log h.log).setState (List.suffix_refl _))
      · rw [setState_state] at hs
        simp at hs
    refine hset.orderly (orderly_command fun _ nonce _ hp => ?_)
    exact absurd hp (by simp [buildAuthorize_unprivileged])
  | noCode | rejected => exact hl.orderly orderly_abandon
  | granted =>
    refine (hl.orderly (orderly_exchanged ..)).orderly (orderly_command fun _ nonce _ hp => ?_)
    exact absurd hp (by simp [buildAuthenticate_unprivileged])
  | refused => exact (hl.orderly (orderly_exchanged ..)).orderly orderly_abandon
  | accepted hs herr =>
    have hauth : Authenticated lib c h.log := by
      rw [htop]
      exact Log.saw_cons_of_test (hon Arrival.accepts (by simpa [Arrival.accepts] using herr))
        (hgood hs herr)
    have hready := hl.setState (s := .ready) (.inl rfl) hfd hauth
    exact hready.orderly (orderly_commands (hready.past (.inl (setState_state ..))))
  | @enters frame hs hin =>
    have hevent : Orderly lib h (h.onEvent env.wallMs []
        { kind := .channelSelect, channelId := (parseSelectedVoiceChannel frame).channelId }) :=
      orderly_onEvent
    exact ((hl.orderly hevent).channelSelect hfd (hl.past hs c hfd)
      ((hw _).mpr (hgood hs hin))).orderly (orderly_seedStates ..)
  | @selects ev hk =>
    obtain ⟨hauth, hallow⟩ := hgood hk
    have hev : h.onEvent env.wallMs (env.duringFetch.headD []) ev =
        { h with overlay := h.overlay.apply env.wallMs ev } := by
      simp only [onEvent, fetchesImages, hk, Bool.false_eq_true, if_false]
    rw [hev]
    refine LoggedIn.channelSelect (hl.orderly (.of_eq rfl rfl rfl)) hfd ?_ ((hw _).mpr hallow)
    change Authenticated lib c h.log
    rw [htop]
    exact Log.saw_cons hauth
  | reports => exact hl.orderly orderly_onEvent

theorem loggedIn_step (s : Step) (hl : LoggedIn lib h) (hgood : h.KeepsOrder lib s) :
    LoggedIn lib (h.step lib s) := by
  cases s with
  | act a => exact hl.orderly (orderly_act a)
  | enter k => exact hl.orderly (.of_eq rfl rfl rfl)
  | reconnect probe => exact hl.orderly (orderly_tryConnect probe)
  | fill rbuf => exact hl.orderly (.of_eq rfl rfl rfl)
  | lost => exact hl.orderly orderly_handleClosed
  | deliver op payload rest env =>
    unfold step
    cases hfd : h.fd with
    | none => exact hl
    | some c =>
      simp only [dispatch_eq]
      have hrecv : LoggedIn lib ((h.setRbuf rest).receiving c op payload env) :=
        hl.orderly ((Orderly.of_eq (h := h) (g := (h.setRbuf rest).under env.toConduct)
          rfl rfl rfl).trans (orderly_record (o := .received c op payload) trivial))
      refine loggedIn_handle h.log rfl hrecv hfd rfl (fun n => Iff.rfl) ?_
      exact hgood c hfd
  | leave =>
    exact hl.orderly ((Orderly.of_eq (h := h) (g := h.guard false) rfl rfl rfl).trans
      (orderly_record (o := .returned (h.guard false).view) trivial))

/-- In a run whose messages all keep the order, the client enters `Ready` and
    `InChannel`, and writes its commands, only after the whole login on its
    current connection. -/
theorem run_in_order (lib : JsonLib) (cfg : RpcConfig) (appearance : AppearanceConfig)
    (nonceSeed : Bytes) (cs : List Call)
    (hgood : Machine.Along (step lib) (KeepsOrder lib) (init cfg appearance nonceSeed)
      (steps lib (init cfg appearance nonceSeed) cs)) :
    Log.Each (Obs.InOrder lib)
      (Machine.run (exec lib) (init cfg appearance nonceSeed) cs).log := by
  have hinit : LoggedIn lib (init cfg appearance nonceSeed) :=
    ⟨trivial, fun hs => by simp [init] at hs, fun hs => by simp [init] at hs⟩
  rw [run_exec]
  exact (hgood.invariant (fun h s => loggedIn_step s) hinit).each

theorem run_in_order_session :
    Log.Each (Obs.InOrder compactJson) (Machine.run (exec compactJson) (init {} {} [])
      (login ++ [deliver (peerSelected (ascii "1") [ascii "u"]) {},
        deliver (peerChannelSelect (ascii "2")) {}, .stop])).log :=
  run_in_order compactJson {} {} [] _ (by decide +kernel)

/-- A channel select right after the connection is obeyed. -/
theorem channelSelect_unauthenticated :
    ¬ Log.Each (Obs.InOrder compactJson) (Machine.run (exec compactJson) (init {} {} [])
      [.start {}, deliver (peerChannelSelect (ascii "1")) {}]).log := by
  decide +kernel

end Host

end Choir
