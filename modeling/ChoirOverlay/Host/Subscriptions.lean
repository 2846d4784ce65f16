-- SUMMARY: The subscriptions that the commands on a connection amount to are those of the subscribed channel.
import ChoirOverlay.Host.Peer
import ChoirOverlay.Machine.Log
import ChoirOverlay.Machine.Topics

/-!
# Channel subscriptions

The client keeps the name of one channel; which events the peer sends it
follows from the commands written so far. A channel select drops the old
channel's events before it asks for the new one's, so the commands never amount
to two channels, and a lost connection takes its subscriptions with it. Only a
`start` on a live connection forgets a channel without dropping it.
-/

namespace Choir

open Topics

/-- The channel-scoped subscription that a value asks for, when it is such a
    command. -/
def channelCommand? (j : Json) : Option (Command Bytes Bytes) :=
  let cmd := j.strOr "cmd"
  if cmd = ascii "SUBSCRIBE" ∨ cmd = ascii "UNSUBSCRIBE" then
    match (j.objOrEmpty "args").find? "channel_id" with
    | some (.str id) =>
      some { subscribe := cmd = ascii "SUBSCRIBE", event := j.strOr "evt", topic := id }
    | _ => none
  else none

/-- The command that went out on `c` with an entry. -/
def Obs.channelCommand? (c : Conn) : Obs → Option (Command Bytes Bytes)
  | .wrote c' _ op (.text j) true =>
    if c' = c ∧ op = kOpFrame then Choir.channelCommand? j else none
  | _ => none

/-- The subscriptions that the commands written on `c` amount to. -/
def subscriptions (c : Conn) : List Obs → Finset (Bytes × Bytes)
  | [] => ∅
  | o :: past =>
    match o.channelCommand? c with
    | some cmd => cmd.apply (subscriptions c past)
    | none => subscriptions c past

def channelEvents : List Bytes := Host.kChannelEvents.map ascii

/-- The events of a channel; none when there is no channel. -/
def channelScope (id : Bytes) : Finset (Bytes × Bytes) :=
  if id = [] then ∅ else scope channelEvents id

/-- At no point were there subscriptions for two channels. -/
def OneChannel (log : List Obs) : Prop :=
  Log.Each (fun past o => ∀ c, OneTopic (subscriptions c (o :: past))) log

/-! ## Commands -/

theorem channelCommand?_subscribe (evt : String) (id nonce : Bytes) :
    channelCommand? (buildSubscribe evt (Host.channelArgs id) nonce) =
      some { subscribe := true, event := ascii evt, topic := id } := by
  have hevt : (ascii "evt" == ascii "args") = false := by decide
  have hevt' : (ascii "evt" == ascii "cmd") = false := by decide
  unfold channelCommand?
  rw [buildSubscribe_cmd]
  simp [buildSubscribe, Host.channelArgs, Json.objOrEmpty, Json.strOr, Json.find?,
    List.lookup_cons, hevt, hevt']

theorem channelCommand?_unsubscribe (evt : String) (id nonce : Bytes) :
    channelCommand? (buildUnsubscribe evt (Host.channelArgs id) nonce) =
      some { subscribe := false, event := ascii evt, topic := id } := by
  have hevt : (ascii "evt" == ascii "args") = false := by decide
  have hevt' : (ascii "evt" == ascii "cmd") = false := by decide
  have hcmd : ascii "UNSUBSCRIBE" ≠ ascii "SUBSCRIBE" := by decide
  unfold channelCommand?
  rw [buildUnsubscribe_cmd]
  simp [buildUnsubscribe, Host.channelArgs, Json.objOrEmpty, Json.strOr, Json.find?,
    List.lookup_cons, hevt, hevt', hcmd]

/-- A subscription without a channel is not channel-scoped. -/
theorem channelCommand?_unscoped (evt : String) (nonce : Bytes) :
    channelCommand? (buildSubscribe evt (.obj []) nonce) = none := by
  unfold channelCommand?
  rw [buildSubscribe_cmd]
  simp [buildSubscribe, Json.objOrEmpty, Json.find?]

theorem channelCommand?_of_cmd {j : Json}
    (hcmd : j.strOr "cmd" ≠ ascii "SUBSCRIBE" ∧ j.strOr "cmd" ≠ ascii "UNSUBSCRIBE") :
    channelCommand? j = none := by
  unfold channelCommand?
  exact if_neg (not_or.mpr hcmd)

/-! ## Entries -/

section Entries

variable {c : Conn} {o : Obs} {past : List Obs}

/-- An entry that is no command on any connection. -/
def Obs.Quiet (o : Obs) : Prop := ∀ c, o.channelCommand? c = none

theorem subscriptions_of_none (ho : o.channelCommand? c = none) :
    subscriptions c (o :: past) = subscriptions c past := by
  simp only [subscriptions, ho]

theorem subscriptions_of_some {cmd : Command Bytes Bytes} (ho : o.channelCommand? c = some cmd) :
    subscriptions c (o :: past) = cmd.apply (subscriptions c past) := by
  simp only [subscriptions, ho]

theorem Obs.quiet_unsent (c : Conn) (s : ConnectionState) (op : Int) (payload : Payload) :
    (Obs.wrote c s op payload false).Quiet := by
  intro c'
  cases payload <;> rfl

theorem Obs.quiet_raw (c : Conn) (s : ConnectionState) (op : Int) (bytes : Bytes) (ok : Bool) :
    (Obs.wrote c s op (.raw bytes) ok).Quiet := by
  intro c'
  cases ok <;> rfl

theorem Obs.quiet_text {j : Json} (hj : Choir.channelCommand? j = none) (c : Conn)
    (s : ConnectionState) (op : Int) (ok : Bool) : (Obs.wrote c s op (.text j) ok).Quiet := by
  intro c'
  cases ok with
  | false => rfl
  | true =>
    simp only [Obs.channelCommand?, hj]
    split <;> rfl

/-- A command is one on its own connection only. -/
theorem Obs.channelCommand?_wrote (c c' : Conn) (s : ConnectionState) (j : Json) :
    (Obs.wrote c s kOpFrame (.text j) true).channelCommand? c' =
      if c = c' then Choir.channelCommand? j else none := by
  simp only [Obs.channelCommand?, and_true]

end Entries

namespace Host

/-! ## Starts -/

/-- No `start` on a live connection. -/
def startsFresh (h : Host) : Act → Prop
  | .start _ => h.fd = none
  | _ => True

instance (h : Host) : (a : Act) → Decidable (h.startsFresh a)
  | .start _ => inferInstanceAs (Decidable (_ = _))
  | .stop | .poll | .configure _ => .isTrue trivial

/-! ## The ledger -/

/-- The log holds one channel at a time on each connection, and nothing of a
    connection to come. -/
structure Ledger (h : Host) : Prop where
  below : ∀ c, h.fd = some c → c < h.transport.opened
  fresh : ∀ c, h.transport.opened ≤ c → subscriptions c h.log = ∅
  single : OneChannel h.log

variable {h g : Host}

theorem Ledger.congr (hl : h.Ledger) (ht : g.transport = h.transport) (hlog : g.log = h.log) :
    g.Ledger := by
  refine ⟨fun c hc => ?_, fun c hc => ?_, hlog ▸ hl.single⟩
  · rw [ht]
    exact hl.below c ((congrArg IpcTransport.fd ht).symm.trans hc)
  · rw [hlog]
    exact hl.fresh c (ht ▸ hc)

theorem oneTopic_of_oneChannel {log : List Obs} (hone : OneChannel log) (c : Conn) :
    OneTopic (subscriptions c log) := by
  cases log with
  | nil =>
    have hempty : Within ([] : Bytes) (subscriptions c []) := within_empty
    exact hempty.oneTopic
  | cons o past => exact hone.1 c

theorem Ledger.record {o : Obs} (hl : h.Ledger) (ho : o.Quiet) : (h.record o).Ledger := by
  refine ⟨hl.below, fun c hc => ?_, fun c => ?_, hl.single⟩
  · exact (subscriptions_of_none (ho c)).trans (hl.fresh c hc)
  · rw [subscriptions_of_none (ho c)]
    exact oneTopic_of_oneChannel hl.single c

theorem Ledger.setState (hl : h.Ledger) (s : ConnectionState) : (h.setState s).Ledger := by
  unfold Host.setState
  split
  · exact hl
  · exact (hl.congr (g := { h with state := s }) rfl rfl).record fun _ => rfl

theorem Ledger.scheduleReconnect (hl : h.Ledger) : h.scheduleReconnect.Ledger := by
  unfold Host.scheduleReconnect
  split
  · exact hl
  · exact hl.congr rfl rfl

theorem Ledger.shut (hl : h.Ledger) : Ledger { h with transport := h.transport.shut } :=
  ⟨nofun, hl.fresh, hl.single⟩

theorem Ledger.close (hl : h.Ledger) : h.close.Ledger := by
  unfold Host.close
  split
  · exact hl
  · exact hl.shut.record fun _ => rfl

theorem Ledger.handleClosed (hl : h.Ledger) : h.handleClosed.Ledger := by
  unfold Host.handleClosed onClosed
  split
  · exact hl
  · have hdown : (h.close.clearChannelState.setState .disconnected).Ledger :=
      (hl.close.congr (g := h.close.clearChannelState) rfl rfl).setState _
    simp only
    split
    · exact hdown
    · exact hdown.scheduleReconnect

/-- A frame was handed to the socket, whatever became of it. -/
def spent (h : Host) : Host :=
  { h with transport := { h.transport with verdicts := h.transport.verdicts.drop 1 } }

theorem Ledger.spent (hl : h.Ledger) : h.spent.Ledger := ⟨hl.below, hl.fresh, hl.single⟩

/-! ## In step -/

/-- The subscriptions on the connection are those of the subscribed channel,
    and a reconnect is pending only without a connection. -/
structure Tracked (h : Host) : Prop extends Ledger h where
  exact : ∀ c, h.fd = some c → subscriptions c h.log = channelScope h.subscribedChannel
  idle : h.reconnectPending = true → h.fd = none

theorem Ledger.tracked (hl : h.Ledger) (hfd : h.fd = none) : h.Tracked := by
  refine ⟨hl, fun c hc => ?_, fun _ => hfd⟩
  rw [hfd] at hc
  cases hc

theorem Tracked.congr (ht : h.Tracked) (htransport : g.transport = h.transport)
    (hlog : g.log = h.log) (hsub : g.subscribedChannel = h.subscribedChannel)
    (hpending : g.reconnectPending = h.reconnectPending) : g.Tracked := by
  have hfd : g.fd = h.fd := congrArg IpcTransport.fd htransport
  refine ⟨ht.toLedger.congr htransport hlog, fun c hc => ?_, fun hp => ?_⟩
  · rw [hlog, hsub]
    exact ht.exact c (hfd.symm.trans hc)
  · exact hfd.trans (ht.idle (hpending.symm.trans hp))

theorem Tracked.record {o : Obs} (ht : h.Tracked) (ho : o.Quiet) : (h.record o).Tracked := by
  refine ⟨ht.toLedger.record ho, fun c hc => ?_, ht.idle⟩
  exact (subscriptions_of_none (ho c)).trans (ht.exact c hc)

theorem Tracked.setState (ht : h.Tracked) (s : ConnectionState) : (h.setState s).Tracked := by
  unfold Host.setState
  split
  · exact ht
  · exact (ht.congr (g := { h with state := s }) rfl rfl rfl rfl).record fun _ => rfl

theorem Tracked.under {k : Conduct} (ht : h.Tracked) : (h.under k).Tracked :=
  ⟨⟨ht.below, ht.fresh, ht.single⟩, ht.exact, ht.idle⟩

theorem Ledger.handleClosed_tracked (hl : h.Ledger) : h.handleClosed.Tracked :=
  hl.handleClosed.tracked (handleClosed_fd h)

/-- A failed login step leaves no connection. -/
theorem Ledger.abandon_tracked (hl : h.Ledger) : h.abandon.Tracked := by
  refine (hl.close.scheduleReconnect.setState .disconnected).tracked ?_
  rw [setState_fd, scheduleReconnect_fd, close_fd]

/-- A frame that is no command. -/
theorem Tracked.sendRaw {op : Int} {payload : Payload} (ht : h.Tracked)
    (hquiet : ∀ c s ok, (Obs.wrote c s op payload ok).Quiet) : (h.sendRaw op payload).Tracked := by
  cases hfd : h.fd with
  | none =>
    rw [sendRaw_of_none h op payload hfd]
    exact ht
  | some c =>
    by_cases hw : h.transport.Allows 1
    · rw [sendRaw_of_allows h op payload hfd hw]
      have hspent : h.spent.Tracked := ⟨ht.toLedger.spent, ht.exact, ht.idle⟩
      exact hspent.record (hquiet c h.state true)
    · rw [sendRaw_of_not_allows h op payload hfd hw]
      exact (ht.toLedger.spent.record (hquiet c h.state false)).handleClosed_tracked

/-- A build whose values are not channel-scoped. -/
def Unscoped (build : Bytes → Json) : Prop := ∀ nonce, channelCommand? (build nonce) = none

theorem Tracked.command {build : Bytes → Json} (ht : h.Tracked) (hb : Unscoped build) :
    (h.command build).Tracked := by
  refine Tracked.sendRaw (ht.congr (g := h.drawn) rfl rfl rfl rfl) ?_
  intro c s ok
  exact Obs.quiet_text (hb h.nextNonce) c s kOpFrame ok

theorem Tracked.commands {bs : List (Bytes → Json)} (ht : h.Tracked)
    (hbs : ∀ build ∈ bs, Unscoped build) : (h.commands bs).Tracked :=
  commands_induct (fun b hmem _ hg => Tracked.command hg (hbs b hmem)) ht

/-! ## Channel select -/

/-- What a build asks for, under any nonce. -/
def Builds (build : Bytes → Json) (cmd : Command Bytes Bytes) : Prop :=
  ∀ nonce, channelCommand? (build nonce) = some cmd

theorem builds_subscribe (id : Bytes) :
    List.Forall₂ Builds (kChannelEvents.map fun evt => buildSubscribe evt (channelArgs id))
      (batch true channelEvents id) := by
  simp only [channelEvents, batch, List.map_map, List.forall₂_map_left_iff,
    List.forall₂_map_right_iff, List.forall₂_same]
  intro evt _ nonce
  exact channelCommand?_subscribe evt id nonce

theorem builds_unsubscribe (id : Bytes) :
    List.Forall₂ Builds (kChannelEvents.map fun evt => buildUnsubscribe evt (channelArgs id))
      (batch false channelEvents id) := by
  simp only [channelEvents, batch, List.map_map, List.forall₂_map_left_iff,
    List.forall₂_map_right_iff, List.forall₂_same]
  intro evt _ nonce
  exact channelCommand?_unsubscribe evt id nonce

/-- The subscriptions on `c` are `table`, unless the connection was lost. -/
structure Holds (c : Conn) (table : Finset (Bytes × Bytes)) (h : Host) : Prop extends Ledger h where
  held : h.fd = none ∨ h.fd = some c ∧ subscriptions c h.log = table
  idle : h.reconnectPending = true → h.fd = none

variable {c : Conn} {id : Bytes} {table : Finset (Bytes × Bytes)}

theorem Tracked.holds (ht : h.Tracked) (hfd : h.fd = none ∨ h.fd = some c) :
    h.Holds c (channelScope h.subscribedChannel) :=
  ⟨ht.toLedger, hfd.imp_right fun hfd => ⟨hfd, ht.exact c hfd⟩, ht.idle⟩

/-- The channel is taken on once the connection holds its subscriptions. -/
theorem Holds.tracked (hh : h.Holds c (channelScope id)) :
    Tracked { h with subscribedChannel := id } := by
  refine ⟨hh.toLedger.congr rfl rfl, fun c' hc' => ?_, hh.idle⟩
  rcases hh.held with hfd | ⟨hfd, hsubs⟩
  · exact nomatch hfd.symm.trans hc'
  · obtain rfl : c = c' := Option.some.inj (hfd.symm.trans hc')
    exact hsubs

theorem Ledger.holds_of_none (hl : h.Ledger) (hfd : h.fd = none) : h.Holds c table :=
  ⟨hl, .inl hfd, fun _ => hfd⟩

/-- A command for the one channel of the connection is added to its table. -/
theorem Holds.command {build : Bytes → Json} {cmd : Command Bytes Bytes} (hh : h.Holds c table)
    (hb : Builds build cmd) (hcmd : cmd.topic = id) (hin : Within id table) :
    (h.command build).Holds c (cmd.apply table) := by
  have hdrawn : h.drawn.Ledger := hh.toLedger.congr rfl rfl
  rw [command_eq]
  rcases hh.held with hfd | ⟨hfd, hsubs⟩
  · rw [sendRaw_of_none h.drawn _ _ hfd]
    exact hdrawn.holds_of_none hfd
  by_cases hw : h.transport.Allows 1
  · rw [sendRaw_of_allows h.drawn _ _ hfd hw]
    have hentry : ∀ c', (Obs.wrote c h.state kOpFrame (.text (build h.nextNonce)) true
        ).channelCommand? c' = if c = c' then some cmd else none := by
      intro c'
      rw [Obs.channelCommand?_wrote, hb h.nextNonce]
    have hthis : subscriptions c (.wrote c h.state kOpFrame (.text (build h.nextNonce)) true ::
        h.log) = cmd.apply table :=
      hsubs ▸ subscriptions_of_some ((hentry c).trans (if_pos rfl))
    have hother : ∀ c', c ≠ c' → subscriptions c' (.wrote c h.state kOpFrame
        (.text (build h.nextNonce)) true :: h.log) = subscriptions c' h.log := fun c' hne =>
      subscriptions_of_none ((hentry c').trans (if_neg hne))
    refine ⟨⟨hdrawn.below, fun c' hc' => ?_, fun c' => ?_, hh.single⟩, .inr ⟨hfd, hthis⟩, hh.idle⟩
    · have hlt := hh.below c hfd
      exact (hother c' (Nat.ne_of_lt (Nat.lt_of_lt_of_le hlt hc'))).trans (hh.fresh c' hc')
    · by_cases hc : c = c'
      · subst hc
        exact hthis ▸ (hin.apply hcmd).oneTopic
      · exact (hother c' hc) ▸ oneTopic_of_oneChannel hh.single c'
  · rw [sendRaw_of_not_allows h.drawn _ _ hfd hw]
    have hquiet := Obs.quiet_unsent c h.state kOpFrame (.text (build h.nextNonce))
    exact (hdrawn.spent.record hquiet).handleClosed.holds_of_none (handleClosed_fd _)

/-- So are the commands of a batch. -/
theorem Holds.commands {bs : List (Bytes → Json)} {cmds : List (Command Bytes Bytes)}
    (hh : h.Holds c table) (hbs : List.Forall₂ Builds bs cmds)
    (hcmds : ∀ cmd ∈ cmds, cmd.topic = id) (hin : Within id table) :
    (h.commands bs).Holds c (after cmds table) := by
  induction hbs generalizing h table with
  | nil => exact hh
  | @cons b cmd bs cmds hb _ ih =>
    have htopic := hcmds cmd List.mem_cons_self
    rw [commands_cons, after_cons]
    refine ih (hh.command hb htopic hin) (fun cmd hmem => ?_) (hin.apply htopic)
    exact hcmds cmd (List.mem_cons_of_mem _ hmem)

theorem channelScope_nil : channelScope [] = ∅ := if_pos rfl

theorem channelScope_of_ne (hid : id ≠ []) : channelScope id = scope channelEvents id := if_neg hid

/-- The commands of a channel select drop the old channel's subscriptions and
    make the new one's. -/
theorem Holds.select (hh : h.Holds c (channelScope h.subscribedChannel)) :
    (h.commands (h.selectCommands id)).Holds c (channelScope id) := by
  unfold selectCommands
  by_cases hsame : id = h.subscribedChannel
  · rw [if_pos hsame, hsame]
    exact hh
  rw [if_neg hsame, commands_append]
  have hdropped : (h.commands (if h.subscribedChannel ≠ [] then
      kChannelEvents.map fun evt => buildUnsubscribe evt (channelArgs h.subscribedChannel)
      else [])).Holds c ∅ := by
    by_cases hsub : h.subscribedChannel = []
    · rw [if_neg (not_not.mpr hsub)]
      rwa [hsub, channelScope_nil] at hh
    · rw [if_pos hsub]
      rw [channelScope_of_ne hsub] at hh
      have hafter := hh.commands (builds_unsubscribe h.subscribedChannel) (fun _ => batch_topic)
        (within_scope _)
      rwa [after_batch_unsubscribe, Finset.sdiff_self] at hafter
  by_cases hid : id = []
  · rw [if_neg (not_not.mpr hid), hid, channelScope_nil]
    exact hdropped
  · rw [if_pos hid, channelScope_of_ne hid]
    have hafter := hdropped.commands (builds_subscribe id) (fun _ => batch_topic) within_empty
    rwa [after_batch_subscribe, Finset.empty_union] at hafter

theorem Tracked.handleChannelSelect (ht : h.Tracked) (id : Bytes) :
    (h.handleChannelSelect id).Tracked := by
  rw [handleChannelSelect_eq]
  refine Tracked.setState ?_ _
  cases hfd : h.fd with
  | none => exact (ht.holds (c := 0) (.inl hfd)).select.tracked
  | some c => exact (ht.holds (.inr hfd)).select.tracked

/-! ## Connecting -/

/-- A new connection has no subscriptions. -/
theorem Ledger.connect_tracked (hl : h.Ledger) (hfd : h.fd = none) (hsub : h.subscribedChannel = [])
    (hpending : h.reconnectPending = false) (probe : Nat → Bool) : (h.connect probe).1.Tracked := by
  have hfd' : h.transport.fd = none := hfd
  have hno : ¬ h.reconnectPending = true := by rw [hpending]; nofun
  unfold Host.connect fd IpcTransport.connect
  cases (List.range 10).any probe with
  | false => simpa [hfd'] using (hl.tracked hfd).congr (g := h) rfl rfl rfl rfl
  | true =>
    have hup : Tracked { h with transport := { h.transport with
        fd := some h.transport.opened, rbuf := [], opened := h.transport.opened + 1 } } := by
      refine ⟨⟨fun c hc => ?_, fun c hc => hl.fresh c (Nat.le_of_succ_le hc), hl.single⟩,
        fun c hc => ?_, fun hp => absurd hp hno⟩
      · obtain rfl := Option.some.inj hc
        exact Nat.lt_succ_self _
      · obtain rfl := Option.some.inj hc
        exact (hl.fresh _ (Nat.le_refl _)).trans (hsub ▸ channelScope_nil.symm)
    simpa [hfd'] using hup.record (o := .opened h.transport.opened) fun _ => rfl

theorem quiet_handshake (cfg : RpcConfig) (c : Conn) (s : ConnectionState) (ok : Bool) :
    (Obs.wrote c s kOpHandshake (.text (handshake cfg)) ok).Quiet := by
  refine Obs.quiet_text (channelCommand?_of_cmd ?_) c s kOpHandshake ok
  rw [handshake_cmd]
  exact ⟨by decide, by decide⟩

theorem Ledger.tryConnect (hl : h.Ledger) (hfd : h.fd = none) (probe : Nat → Bool) :
    (h.tryConnect probe).Tracked := by
  have hl₀ : h.attempting.Ledger := hl.congr rfl rfl
  have ht : (h.attempting.connect probe).1.Tracked := hl₀.connect_tracked hfd rfl rfl probe
  rcases h.tryConnect_cases probe with ⟨c, -, heq⟩ | ⟨hdown, heq⟩
  · rw [heq]
    exact (ht.setState .connecting).sendRaw (quiet_handshake _)
  · rw [heq]
    refine ht.toLedger.scheduleReconnect.tracked ?_
    rw [scheduleReconnect_fd, hdown]

/-! ## Nested calls -/

theorem Tracked.act {a : Act} (ht : h.Tracked) (hfresh : h.startsFresh a) : (h.act a).Tracked := by
  cases a with
  | start env =>
    have hl : Ledger { h.under env.toConduct with stopped := false, reconnectPending := false } :=
      ⟨ht.below, ht.fresh, ht.single⟩
    exact (hl.tryConnect hfresh env.probe).record fun _ => rfl
  | stop =>
    have hl : Ledger ({ h with stopped := true, reconnectPending := false } : Host
        ).clearChannelState := ht.toLedger.congr rfl rfl
    refine Tracked.record ((hl.close.tracked ?_).setState .disconnected) fun _ => rfl
    exact close_fd _
  | poll => exact ht.record fun _ => rfl
  | configure cfg => exact ht.congr rfl rfl rfl rfl

theorem Tracked.acts {as : List Act} (ht : h.Tracked) (hfresh : ActsMeet startsFresh h as) :
    (h.acts as).Tracked :=
  Machine.Along.invariant (fun _ _ ht hfresh => Tracked.act ht hfresh) hfresh ht

theorem Tracked.onEvent {wallMs : Int} {during : List Act} {ev : RpcEvent} (ht : h.Tracked)
    (hfresh : EventMeets startsFresh wallMs during ev h) :
    (h.onEvent wallMs during ev).Tracked := by
  have happly : Tracked { h with overlay := h.overlay.apply wallMs ev } :=
    ht.congr rfl rfl rfl rfl
  unfold Host.onEvent
  simp only
  split
  · exact happly.acts (hfresh ‹_›)
  · exact happly

theorem Tracked.seedStates {env : MsgEnv} {states : List VoiceState} {during : List (List Act)}
    (ht : h.Tracked) (hfresh : SeedMeets startsFresh env states during h) :
    (h.seedStates env states during).Tracked := by
  induction states generalizing during h with
  | nil => exact ht
  | cons v states ih => exact ih (ht.onEvent hfresh.1) hfresh.2

/-! ## Messages -/

theorem unscoped_of_cmd {build : Bytes → Json} {cmd : String}
    (hcmd : ∀ nonce, (build nonce).strOr "cmd" = ascii cmd)
    (hne : ascii cmd ≠ ascii "SUBSCRIBE" ∧ ascii cmd ≠ ascii "UNSUBSCRIBE") : Unscoped build := by
  intro nonce
  apply channelCommand?_of_cmd
  rw [hcmd]
  exact hne

theorem Tracked.exchanged {lib : JsonLib} {frame : Json} {env : MsgEnv} (ht : h.Tracked)
    (hfresh : ActsMeet startsFresh h env.duringExchange) : (h.exchanged lib frame env).Tracked :=
  (ht.acts hfresh).under.record fun _ => rfl

theorem Tracked.handle {lib : JsonLib} {payload : Bytes} {env : MsgEnv} {a : Arrival}
    (ht : h.Tracked) (hfresh : ArrivalMeets startsFresh env h a) :
    (h.handle lib payload env a).Tracked := by
  have hhandles := handles lib payload env a h
  generalize h.handle lib payload env a = g at hhandles ⊢
  cases hhandles with
  | answers => exact ht.sendRaw fun c s ok => Obs.quiet_raw c s kOpPong payload ok
  | ignores | strayCode | strayLogin | stays => exact ht
  | greets =>
    exact (ht.setState .authorizing).command
      (unscoped_of_cmd (fun _ => buildAuthorize_cmd ..) ⟨by decide, by decide⟩)
  | noCode | rejected => exact ht.toLedger.abandon_tracked
  | granted hs hcode =>
    exact (ht.exchanged (hfresh hs hcode)).command
      (unscoped_of_cmd (fun _ => buildAuthenticate_cmd ..) ⟨by decide, by decide⟩)
  | refused hs hcode => exact (ht.exchanged (hfresh hs hcode)).toLedger.abandon_tracked
  | accepted =>
    refine (ht.setState .ready).commands ?_
    simp only [List.forall_mem_cons, List.not_mem_nil, false_implies, implies_true, and_true]
    exact ⟨channelCommand?_unscoped _, channelCommand?_unscoped _,
      unscoped_of_cmd (fun _ => buildGetSelectedVoiceChannel_cmd _) ⟨by decide, by decide⟩⟩
  | @enters frame hs hin hother =>
    have hentered : (h.onEvent env.wallMs []
        { kind := .channelSelect, channelId := (parseSelectedVoiceChannel frame).channelId }
        ).Tracked := ht.onEvent nofun
    exact (hentered.handleChannelSelect _).seedStates (hfresh hs hin hother)
  | selects => exact (ht.onEvent hfresh).handleChannelSelect _
  | reports => exact ht.onEvent hfresh

/-! ## Runs -/

theorem Tracked.step {lib : JsonLib} {s : Step} (ht : h.Tracked)
    (hfresh : StepMeets startsFresh lib h s) (hdue : h.WhenDue s) : (h.step lib s).Tracked := by
  cases s with
  | act a => exact ht.act hfresh
  | enter k => exact ht.under.congr (g := (h.under k).guard true) rfl rfl rfl rfl
  | reconnect probe =>
    -- a pending reconnect means that there is no connection
    have hpending : h.reconnectPending = true := by
      have := hdue
      simp only [WhenDue, reconnectDue, Bool.and_eq_true] at this
      exact this.1.1
    exact ht.toLedger.tryConnect (ht.idle hpending) probe
  | fill rbuf => exact ⟨⟨ht.below, ht.fresh, ht.single⟩, ht.exact, ht.idle⟩
  | lost => exact ht.toLedger.handleClosed_tracked
  | deliver op payload rest env =>
    unfold Host.step
    cases hfd : h.fd with
    | none => exact ht
    | some c =>
      simp only [dispatch_eq]
      have hreceiving : ((h.setRbuf rest).receiving c op payload env).Tracked :=
        Tracked.record ⟨⟨ht.below, ht.fresh, ht.single⟩, ht.exact, ht.idle⟩ fun _ => rfl
      exact hreceiving.handle (hfresh c hfd)
  | leave => exact Tracked.record (ht.congr (g := h.guard false) rfl rfl rfl rfl) fun _ => rfl

theorem tracked_init (cfg : RpcConfig) (appearance : AppearanceConfig) (nonceSeed : Bytes) :
    (init cfg appearance nonceSeed).Tracked :=
  Ledger.tracked ⟨nofun, fun _ _ => rfl, trivial⟩ rfl

/-- In a run that never starts on a live connection, the commands written on
    the open connection amount to the subscribed channel's events after every
    step, and never to those of two channels. -/
theorem run_subscriptions (lib : JsonLib) (cfg : RpcConfig) (appearance : AppearanceConfig)
    (nonceSeed : Bytes) (cs : List Call)
    (hfresh : Machine.Along (step lib) (StepMeets startsFresh lib) (init cfg appearance nonceSeed)
      (steps lib (init cfg appearance nonceSeed) cs)) :
    (∀ pre, pre <+: steps lib (init cfg appearance nonceSeed) cs →
      ∀ c, (Machine.run (step lib) (init cfg appearance nonceSeed) pre).fd = some c →
        subscriptions c (Machine.run (step lib) (init cfg appearance nonceSeed) pre).log =
          channelScope
            (Machine.run (step lib) (init cfg appearance nonceSeed) pre).subscribedChannel) ∧
      OneChannel (Machine.run (exec lib) (init cfg appearance nonceSeed) cs).log := by
  have hgood := hfresh.and (whenDue_steps lib (init cfg appearance nonceSeed) cs)
  have htracked : ∀ pre, pre <+: steps lib (init cfg appearance nonceSeed) cs →
      (Machine.run (step lib) (init cfg appearance nonceSeed) pre).Tracked := fun pre hpre =>
    (hgood.of_prefix hpre).invariant (fun _ _ ht hstep => Tracked.step ht hstep.1 hstep.2)
      (tracked_init cfg appearance nonceSeed)
  refine ⟨fun pre hpre => (htracked pre hpre).exact, ?_⟩
  rw [run_exec]
  exact (htracked _ (List.prefix_refl _)).single

/-- A session that switches channels. -/
theorem run_subscriptions_switch :
    subscriptions 0 (Machine.run (exec compactJson) (init {} {} [])
        (login ++ [deliver (peerChannelSelect (ascii "1")) {},
          deliver (peerChannelSelect (ascii "2")) {}])).log = channelScope (ascii "2") ∧
      OneChannel (Machine.run (exec compactJson) (init {} {} [])
        (login ++ [deliver (peerChannelSelect (ascii "1")) {},
          deliver (peerChannelSelect (ascii "2")) {}])).log := by
  have hrun := run_subscriptions compactJson {} {} []
    (login ++ [deliver (peerChannelSelect (ascii "1")) {},
      deliver (peerChannelSelect (ascii "2")) {}]) (by decide +kernel)
  refine ⟨?_, hrun.2⟩
  have hlast := hrun.1 _ (List.prefix_refl _) 0
  rw [← run_exec] at hlast
  have hsub : (Machine.run (exec compactJson) (init {} {} []) (login ++
      [deliver (peerChannelSelect (ascii "1")) {}, deliver (peerChannelSelect (ascii "2")) {}]
      )).subscribedChannel = ascii "2" := by decide +kernel
  rw [hsub] at hlast
  exact hlast (by decide +kernel)

end Host

end Choir
