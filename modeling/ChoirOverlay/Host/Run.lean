-- SUMMARY: Runs of the host: the arrivals it tells apart, the steps its calls are made of, and what no step can break.
import ChoirOverlay.Host.RpcFacts
import ChoirOverlay.Machine.Run

/-!
# Runs of the host

A public call is a sequence of steps, each of which is one operation of the
client: a call from outside, a connection attempt, a lost connection, one
message. A law about all runs is proved step by step and then holds for all
sequences of calls (`run_exec`).
-/

namespace Choir

/-! ## Arrivals -/

/-- A message as the client understands it. -/
inductive Arrival where
  | ping
  | ignored
  | ready
  | authorizeReply (frame : Json)
  | authenticateReply (frame : Json)
  | selectedReply (frame : Json)
  | event (ev : RpcEvent)

/-- What `on_message` makes of a parsed message. -/
def Arrival.ofJson (op : Int) (j : Json) : Arrival :=
  if op ≠ kOpFrame then .ignored
  else if ¬ j.isObject then .ignored
  else if j.strOr "cmd" = ascii "AUTHORIZE" then .authorizeReply j
  else if j.strOr "cmd" = ascii "AUTHENTICATE" then .authenticateReply j
  else if j.strOr "cmd" = ascii "GET_SELECTED_VOICE_CHANNEL" then .selectedReply j
  else if j.strOr "cmd" = ascii "DISPATCH" then
    if j.strOr "evt" = ascii "READY" then .ready
    else match parseEvent j with
      | some ev => .event ev
      | none => .ignored
  else .ignored

/-- What the transport and the client make of a message. -/
def arrival (lib : JsonLib) (op : Int) (payload : Bytes) : Arrival :=
  if op = kOpPing then .ping
  else match lib.parse payload with
    | some j => .ofJson op j
    | none => .ignored

theorem arrival_ping (lib : JsonLib) {op : Int} {payload : Bytes} (hop : op = kOpPing) :
    arrival lib op payload = .ping := if_pos hop

theorem arrival_ne_ping (lib : JsonLib) {op : Int} {payload : Bytes} (hop : op ≠ kOpPing) :
    arrival lib op payload ≠ .ping := by
  unfold arrival
  rw [if_neg hop]
  cases lib.parse payload with
  | none => exact Arrival.noConfusion
  | some j =>
    simp only [Arrival.ofJson]
    split_ifs
    all_goals first | exact Arrival.noConfusion | cases parseEvent j <;> exact Arrival.noConfusion

/-! ## Entries and commands -/

/-- Entries that nothing but the client's own course depends on. -/
def Obs.Inert : Obs → Prop
  | .entered .. | .exchanged .. | .returned _ => True
  | .opened _ | .closed _ | .received .. | .wrote .. => False

/-- The commands the client sends. -/
inductive ClientCommand : (Bytes → Json) → Prop where
  | authorize (scopes : List Bytes) (clientId : Bytes) :
      ClientCommand (buildAuthorize scopes clientId)
  | authenticate (token : Bytes) : ClientCommand (buildAuthenticate token)
  | subscribe (evt : String) (args : Json) : ClientCommand (buildSubscribe evt args)
  | unsubscribe (evt : String) (args : Json) : ClientCommand (buildUnsubscribe evt args)
  | selected : ClientCommand buildGetSelectedVoiceChannel

namespace Host

/-- The handler of an arrival. -/
def handle (lib : JsonLib) (payload : Bytes) (env : MsgEnv) (a : Arrival) (h : Host) : Host :=
  match a with
  | .ping => h.sendRaw kOpPong (.raw payload)
  | .ignored => h
  | .ready => h.onReady
  | .authorizeReply frame => h.handleAuthorizeResponse lib frame env
  | .authenticateReply frame => h.handleAuthenticateResponse frame
  | .selectedReply frame => h.handleSelectedVoiceChannel frame env
  | .event ev => h.onRpcEvent ev env

theorem onMessage_eq (lib : JsonLib) (op : Int) (j : Json) (payload : Bytes) (env : MsgEnv)
    (h : Host) : h.onMessage lib op j env = h.handle lib payload env (.ofJson op j) := by
  unfold onMessage Arrival.ofJson
  simp only
  split_ifs <;> first | rfl | (cases parseEvent j <;> rfl)

/-- The state in which a message is handled. -/
def receiving (c : Conn) (op : Int) (payload : Bytes) (env : MsgEnv) (h : Host) : Host :=
  (h.under env.toConduct).record (.received c op payload)

theorem dispatch_eq (lib : JsonLib) (c : Conn) (op : Int) (payload : Bytes) (env : MsgEnv)
    (h : Host) :
    h.dispatch lib c op payload env =
      (h.receiving c op payload env).handle lib payload env (arrival lib op payload) := by
  unfold dispatch arrival
  simp only
  by_cases hop : op = kOpPing
  · simp only [if_pos hop, handle]
    rfl
  · simp only [if_neg hop]
    cases lib.parse payload with
    | none => rfl
    | some j => exact onMessage_eq lib op j payload env _

/-! ## What a handler can do -/

/-- The client back from the token exchange, its outcome in the log. -/
def exchanged (lib : JsonLib) (frame : Json) (env : MsgEnv) (h : Host) : Host :=
  ((h.acts env.duringExchange).under env.resumed).record
    (.exchanged h.fd (((frame.find? "data").getD (.obj [])).strOr "code")
      (exchangeCode lib env.response))

/-- What the handler of an arrival makes of the client, by the branch it takes. -/
inductive Handles (lib : JsonLib) (payload : Bytes) (env : MsgEnv) (h : Host) :
    Arrival → Host → Prop where
  | answers : Handles lib payload env h .ping (h.sendRaw kOpPong (.raw payload))
  | ignores : Handles lib payload env h .ignored h
  | greets : Handles lib payload env h .ready h.onReady
  | strayCode {frame : Json} (hs : h.state ≠ .authorizing) :
      Handles lib payload env h (.authorizeReply frame) h
  | noCode {frame : Json} (hs : h.state = .authorizing)
      (hcode : ((frame.find? "data").getD (.obj [])).strOr "code" = []) :
      Handles lib payload env h (.authorizeReply frame) h.abandon
  | granted {frame : Json} (hs : h.state = .authorizing)
      (hcode : ((frame.find? "data").getD (.obj [])).strOr "code" ≠ [])
      (hok : (exchangeCode lib env.response).ok = true) :
      Handles lib payload env h (.authorizeReply frame)
        ((h.exchanged lib frame env).command
          (buildAuthenticate (exchangeCode lib env.response).accessToken))
  | refused {frame : Json} (hs : h.state = .authorizing)
      (hcode : ((frame.find? "data").getD (.obj [])).strOr "code" ≠ [])
      (hok : (exchangeCode lib env.response).ok = false) :
      Handles lib payload env h (.authorizeReply frame) (h.exchanged lib frame env).abandon
  | strayLogin {frame : Json} (hs : h.state ≠ .authorizing) :
      Handles lib payload env h (.authenticateReply frame) h
  | rejected {frame : Json} (hs : h.state = .authorizing)
      (herr : frame.strOr "evt" = ascii "ERROR") :
      Handles lib payload env h (.authenticateReply frame) h.abandon
  | accepted {frame : Json} (hs : h.state = .authorizing)
      (herr : frame.strOr "evt" ≠ ascii "ERROR") :
      Handles lib payload env h (.authenticateReply frame)
        ((h.setState .ready).commands
          [buildSubscribe "VOICE_CHANNEL_SELECT" (.obj []),
            buildSubscribe "NOTIFICATION_CREATE" (.obj []), buildGetSelectedVoiceChannel])
  | stays {frame : Json}
      (hstay : (h.state ≠ .ready ∧ h.state ≠ .inChannel) ∨
        (parseSelectedVoiceChannel frame).inChannel = false ∨
        (parseSelectedVoiceChannel frame).channelId = h.subscribedChannel) :
      Handles lib payload env h (.selectedReply frame) h
  | enters {frame : Json} (hs : h.state = .ready ∨ h.state = .inChannel)
      (hin : (parseSelectedVoiceChannel frame).inChannel = true)
      (hother : (parseSelectedVoiceChannel frame).channelId ≠ h.subscribedChannel) :
      Handles lib payload env h (.selectedReply frame)
        (seedStates env (parseSelectedVoiceChannel frame).states env.duringFetch
          ((h.onEvent env.wallMs []
            { kind := .channelSelect, channelId := (parseSelectedVoiceChannel frame).channelId }
            ).handleChannelSelect (parseSelectedVoiceChannel frame).channelId))
  | selects {ev : RpcEvent} (hk : ev.kind = .channelSelect) :
      Handles lib payload env h (.event ev)
        ((h.onEvent env.wallMs (env.duringFetch.headD []) ev).handleChannelSelect ev.channelId)
  | reports {ev : RpcEvent} (hk : ev.kind ≠ .channelSelect) :
      Handles lib payload env h (.event ev)
        (h.onEvent env.wallMs (env.duringFetch.headD []) ev)

/-- Every handler takes one of the branches. -/
theorem handles (lib : JsonLib) (payload : Bytes) (env : MsgEnv) (a : Arrival) (h : Host) :
    Handles lib payload env h a (h.handle lib payload env a) := by
  cases a with
  | ping => exact .answers
  | ignored => exact .ignores
  | ready => exact .greets
  | authorizeReply frame =>
    unfold handle handleAuthorizeResponse
    simp only
    split
    · exact .strayCode ‹_›
    rename_i hs
    split
    · exact .noCode (not_not.mp hs) ‹_›
    cases hok : (exchangeCode lib env.response).ok with
    | true => exact .granted (not_not.mp hs) ‹_› hok
    | false => exact .refused (not_not.mp hs) ‹_› hok
  | authenticateReply frame =>
    unfold handle handleAuthenticateResponse
    simp only
    split
    · exact .strayLogin ‹_›
    rename_i hs
    split
    · exact .rejected (not_not.mp hs) ‹_›
    · exact .accepted (not_not.mp hs) ‹_›
  | selectedReply frame =>
    unfold handle handleSelectedVoiceChannel
    simp only
    split
    · exact .stays (.inl ‹_›)
    rename_i hs
    split
    · exact .stays (.inr (.inl ((Bool.not_eq_true _).mp ‹_›)))
    rename_i hin
    split
    · exact .stays (.inr (.inr ‹_›))
    · exact .enters (Decidable.or_iff_not_not_and_not.mpr hs) (not_not.mp hin) ‹_›
  | event ev =>
    unfold handle onRpcEvent
    simp only
    split
    · exact .selects ‹_›
    · exact .reports ‹_›

/-! ## What holds of every host

A property that each operation of the client keeps as a whole is kept by everything the
client does. Where it is one of the transport, the reducer and the log alone, it is enough
that the primitive operations keep it. -/

/-- A property that the loss of a connection keeps. -/
structure Closable (P : Host → Prop) : Prop where
  /-- The property looks at nothing else. -/
  congr : ∀ h g : Host, g.transport = h.transport → g.overlay = h.overlay → g.log = h.log →
    g.cfg = h.cfg → P h → P g
  inert : ∀ (o : Obs) (h : Host), o.Inert → P h → P (h.record o)
  close : ∀ h : Host, P h → P h.close

namespace Closable

variable {P : Host → Prop} (hP : Closable P)

include hP

theorem setState {s : ConnectionState} {h : Host} (hh : P h) : P (h.setState s) := by
  unfold Host.setState
  split
  · exact hh
  · exact hP.inert _ _ trivial (hP.congr h _ rfl rfl rfl rfl hh)

theorem scheduleReconnect {h : Host} (hh : P h) : P h.scheduleReconnect := by
  unfold Host.scheduleReconnect
  split
  · exact hh
  · exact hP.congr h _ rfl rfl rfl rfl hh

theorem onClosed {h : Host} (hh : P h) : P h.onClosed := by
  have hdown : P (h.clearChannelState.setState .disconnected) :=
    hP.setState (hP.congr h _ rfl rfl rfl rfl hh)
  unfold Host.onClosed
  simp only
  split
  · exact hdown
  · exact hP.scheduleReconnect hdown

theorem handleClosed {h : Host} (hh : P h) : P h.handleClosed := by
  unfold Host.handleClosed
  split
  · exact hh
  · exact hP.onClosed (hP.close h hh)

theorem abandon {h : Host} (hh : P h) : P h.abandon :=
  hP.setState (hP.scheduleReconnect (hP.close h hh))

end Closable

/-- A property that each operation keeps. -/
structure Operable (P : Host → Prop) : Prop extends Closable P where
  under : ∀ (k : Conduct) (h : Host), P h → P (h.under k)
  received : ∀ (c : Conn) (op : Int) (payload : Bytes) (h : Host), h.fd = some c → op ≠ kOpPing →
    P h → P (h.record (.received c op payload))
  /-- A PING, and its PONG. -/
  ping : ∀ (c : Conn) (payload : Bytes) (h : Host), h.fd = some c → P h →
    P ((h.record (.received c kOpPing payload)).sendRaw kOpPong (.raw payload))
  command : ∀ (b : Bytes → Json) (h : Host), ClientCommand b → P h → P (h.command b)
  tryConnect : ∀ (probe : Nat → Bool) (h : Host), P h → P (h.tryConnect probe)
  apply : ∀ (now : Int) (ev : RpcEvent) (h : Host), P h →
    P { h with overlay := h.overlay.apply now ev }
  setConfig : ∀ (cfg : AppearanceConfig) (h : Host), P h →
    P { h with overlay := h.overlay.setConfig cfg }

theorem command_of_mem_select {id : Bytes} {h : Host} :
    ∀ b ∈ h.selectCommands id, ClientCommand b := by
  intro b hb
  unfold selectCommands at hb
  split at hb
  · cases hb
  rcases List.mem_append.mp hb with hb | hb
  all_goals
    split at hb
    · obtain ⟨evt, -, rfl⟩ := List.mem_map.mp hb
      first | exact .unsubscribe .. | exact .subscribe ..
    · cases hb

namespace Operable

variable {P : Host → Prop} (hP : Operable P)

include hP

theorem commands {bs : List (Bytes → Json)} (hbs : ∀ b ∈ bs, ClientCommand b) {h : Host}
    (hh : P h) : P (h.commands bs) :=
  commands_induct (fun b hb h hh => hP.command b h (hbs b hb) hh) hh

theorem act {a : Act} {h : Host} (hh : P h) : P (h.act a) := by
  cases a with
  | start env =>
    have hstart := hP.congr (h.under env.toConduct)
      { h.under env.toConduct with stopped := false, reconnectPending := false } rfl rfl rfl rfl
      (hP.under _ _ hh)
    exact hP.inert _ _ trivial (hP.tryConnect env.probe _ hstart)
  | stop =>
    refine hP.inert _ _ trivial (hP.setState (hP.close _ ?_))
    exact hP.congr h _ rfl rfl rfl rfl hh
  | poll => exact hP.inert _ _ trivial hh
  | configure cfg => exact hP.setConfig cfg h hh

theorem acts (as : List Act) {h : Host} (hh : P h) : P (h.acts as) :=
  acts_induct (fun _ _ hh => hP.act hh) hh as

theorem onEvent {wallMs : Int} {during : List Act} {ev : RpcEvent} {h : Host} (hh : P h) :
    P (h.onEvent wallMs during ev) := by
  unfold Host.onEvent
  simp only
  split
  · exact hP.acts _ (hP.apply _ _ _ hh)
  · exact hP.apply _ _ _ hh

theorem handleChannelSelect {id : Bytes} {h : Host} (hh : P h) : P (h.handleChannelSelect id) := by
  rw [handleChannelSelect_eq]
  exact hP.setState (hP.congr (h.commands _) _ rfl rfl rfl rfl
    (hP.commands command_of_mem_select hh))

theorem seedStates {env : MsgEnv} {states : List VoiceState} {during : List (List Act)} {h : Host}
    (hh : P h) : P (h.seedStates env states during) :=
  seedStates_induct (fun _ _ _ hh => hP.onEvent hh) hh states during

theorem exchanged (lib : JsonLib) (frame : Json) (env : MsgEnv) {h : Host} (hh : P h) :
    P (h.exchanged lib frame env) :=
  hP.inert _ _ trivial (hP.under env.resumed _ (hP.acts env.duringExchange hh))

theorem handle {lib : JsonLib} {payload : Bytes} {env : MsgEnv} {a : Arrival} {h : Host}
    (ha : a ≠ .ping) (hh : P h) : P (h.handle lib payload env a) := by
  have hhandles := handles lib payload env a h
  generalize h.handle lib payload env a = g at hhandles ⊢
  cases hhandles with
  | answers => exact absurd rfl ha
  | ignores | strayCode | strayLogin | stays => exact hh
  | greets => exact hP.command _ _ (.authorize ..) (hP.setState hh)
  | noCode | rejected => exact hP.abandon hh
  | granted => exact hP.command _ _ (.authenticate _) (hP.exchanged lib _ env hh)
  | refused => exact hP.abandon (hP.exchanged lib _ env hh)
  | accepted =>
    refine hP.commands ?_ (hP.setState hh)
    simp only [List.mem_cons, List.not_mem_nil, or_false]
    rintro b (rfl | rfl | rfl)
    · exact .subscribe ..
    · exact .subscribe ..
    · exact .selected
  | enters => exact hP.seedStates (hP.handleChannelSelect (hP.onEvent hh))
  | selects => exact hP.handleChannelSelect (hP.onEvent hh)
  | reports => exact hP.onEvent hh

theorem dispatch (lib : JsonLib) {c : Conn} (op : Int) (payload : Bytes) (env : MsgEnv) {h : Host}
    (hc : h.fd = some c) (hh : P h) : P (h.dispatch lib c op payload env) := by
  have hunder := hP.under env.toConduct h hh
  rw [dispatch_eq]
  by_cases hop : op = kOpPing
  · rw [arrival_ping lib hop, hop]
    exact hP.ping c payload _ hc hunder
  · exact hP.handle (arrival_ne_ping lib hop) (hP.received c op payload _ hc hop hunder)

end Operable

/-- A property of the transport, the reducer and the log that the primitive operations keep. -/
structure Stable (P : Host → Prop) : Prop where
  /-- The property looks at nothing else. -/
  congr : ∀ h g : Host, g.transport = h.transport → g.overlay = h.overlay → g.log = h.log →
    P h → P g
  record : ∀ (o : Obs) (h : Host), P h → P (h.record o)
  under : ∀ (k : Conduct) (h : Host), P h → P (h.under k)
  shut : ∀ h : Host, P h → P { h with transport := h.transport.shut }
  written : ∀ h : Host, P h → P { h with transport := h.transport.writeFrame.2 }
  connect : ∀ (probe : Nat → Bool) (h : Host), P h → P (h.connect probe).1
  apply : ∀ (now : Int) (ev : RpcEvent) (h : Host), P h →
    P { h with overlay := h.overlay.apply now ev }
  setConfig : ∀ (cfg : AppearanceConfig) (h : Host), P h →
    P { h with overlay := h.overlay.setConfig cfg }

namespace Stable

variable {P : Host → Prop} (hP : Stable P)

include hP

theorem close {h : Host} (hh : P h) : P h.close := by
  unfold Host.close
  split
  · exact hh
  · exact hP.record _ _ (hP.shut _ hh)

theorem closable : Closable P where
  congr h g ht ho hl _ := hP.congr h g ht ho hl
  inert o h _ := hP.record o h
  close _ := hP.close

theorem setState {s : ConnectionState} {h : Host} (hh : P h) : P (h.setState s) :=
  hP.closable.setState hh

theorem handleClosed {h : Host} (hh : P h) : P h.handleClosed := hP.closable.handleClosed hh

theorem sendRaw {op : Int} {payload : Payload} {h : Host} (hh : P h) :
    P (h.sendRaw op payload) := by
  unfold Host.sendRaw
  split
  · exact hh
  · simp only
    split
    · exact hP.record _ _ (hP.written _ hh)
    · exact hP.handleClosed (hP.record _ _ (hP.written _ hh))

theorem tryConnect {probe : Nat → Bool} {h : Host} (hh : P h) : P (h.tryConnect probe) := by
  have hconn : P (h.attempting.connect probe).1 :=
    hP.connect probe h.attempting (hP.congr h _ rfl rfl rfl hh)
  obtain ⟨c, -, hstep⟩ | ⟨-, hstep⟩ := tryConnect_cases h probe
  · rw [hstep]
    exact hP.sendRaw (hP.setState hconn)
  · rw [hstep]
    exact hP.closable.scheduleReconnect hconn

theorem operable : Operable P where
  toClosable := hP.closable
  under := hP.under
  received c op payload h _ _ := hP.record (.received c op payload) h
  ping _ _ h _ hh := hP.sendRaw (hP.record _ h hh)
  command _ h _ hh := hP.sendRaw (hP.congr h _ rfl rfl rfl hh)
  tryConnect _ _ := hP.tryConnect
  apply := hP.apply
  setConfig := hP.setConfig

theorem act {a : Act} {h : Host} (hh : P h) : P (h.act a) := hP.operable.act hh

theorem onEvent {wallMs : Int} {during : List Act} {ev : RpcEvent} {h : Host} (hh : P h) :
    P (h.onEvent wallMs during ev) := hP.operable.onEvent hh

theorem handleChannelSelect {id : Bytes} {h : Host} (hh : P h) : P (h.handleChannelSelect id) :=
  hP.operable.handleChannelSelect hh

theorem dispatch (lib : JsonLib) (c : Conn) (op : Int) (payload : Bytes) (env : MsgEnv) {h : Host}
    (hh : P h) : P (h.dispatch lib c op payload env) := by
  have hreceiving : P (h.receiving c op payload env) := hP.record _ _ (hP.under _ _ hh)
  rw [dispatch_eq]
  by_cases hop : op = kOpPing
  · rw [arrival_ping lib hop]
    exact hP.sendRaw hreceiving
  · exact hP.operable.handle (arrival_ne_ping lib hop) hreceiving

end Stable

/-- The log only grows. -/
theorem stable_log (log : List Obs) : Stable fun h => log <:+ h.log where
  congr _ _ _ _ hl h := by rw [hl]; exact h
  record o _ h := h.trans (List.suffix_cons o _)
  under _ _ h := h
  shut _ h := h
  written _ h := h
  connect probe h hs := by
    rcases h.connect_log probe with ⟨-, hlog⟩ | ⟨c, hlog⟩
    · rwa [hlog]
    · rw [hlog]
      exact hs.trans (List.suffix_cons _ _)
  apply _ _ _ h := h
  setConfig _ _ h := h

/-! ## The dispatch loop ends -/

/-- Nothing adds to the receive buffer while a message is handled. -/
theorem stable_rbuf (n : Nat) : Stable fun h => h.transport.rbuf.length ≤ n where
  congr h g ht _ _ hh := by rw [ht]; exact hh
  record _ _ hh := hh
  under _ _ hh := hh
  shut _ _ := Nat.zero_le n
  written h hh := by
    rw [IpcTransport.writeFrame_snd]
    exact hh
  connect probe h hh := by
    have ht : (h.connect probe).1.transport = (h.transport.connect probe).1 := by
      unfold connect; simp only; split <;> rfl
    rw [ht]
    unfold IpcTransport.connect
    split
    · exact hh
    · split
      · exact Nat.zero_le n
      · exact hh
  apply _ _ _ hh := hh
  setConfig _ _ hh := hh

/-- With fuel for the bytes of the buffer, the loop ends for one of its own
    reasons: no connection, or no complete message. -/
theorem drain_done (lib : JsonLib) {fuel : Nat} (msgs : List MsgEnv) {h : Host}
    (hfuel : h.transport.rbuf.length < fuel) :
    (h.drain lib fuel msgs).fd = none ∨
      IpcTransport.peelOne (h.drain lib fuel msgs).transport.rbuf = .incomplete := by
  induction fuel generalizing h msgs with
  | zero => omega
  | succ fuel ih =>
    unfold drain
    split
    · exact .inl ‹_›
    · rename_i c hfd
      split
      · exact .inr ‹_›
      · refine .inl ?_
        exact congrArg Prod.fst (handleClosed_link h (by rw [hfd]; exact Option.some_ne_none c))
      · rename_i op payload rest hpeel
        have hrest := IpcTransport.peelOne_length hpeel
        apply ih
        have := (stable_rbuf rest.length).dispatch lib c op payload (msgs.headD {})
          (h := h.setRbuf rest) (Nat.le_refl _)
        simp only [kHeaderLen] at hrest
        omega

/-! ## Steps -/

/-- One operation of the client. -/
inductive Step where
  | act (a : Act)
  /-- A `poll` begins. -/
  | enter (k : Conduct)
  | reconnect (probe : Nat → Bool)
  | fill (rbuf : Bytes)
  | lost
  | deliver (op : Int) (payload rest : Bytes) (env : MsgEnv)
  /-- A `poll` returns. -/
  | leave

def step (lib : JsonLib) (h : Host) : Step → Host
  | .act a => h.act a
  | .enter k => (h.under k).guard true
  | .reconnect probe => h.tryConnect probe
  | .fill rbuf => h.setRbuf rbuf
  | .lost => h.handleClosed
  | .deliver op payload rest env =>
    match h.fd with
    | none => h
    | some c => (h.setRbuf rest).dispatch lib c op payload env
  | .leave => (h.guard false).returned

/-- The steps of the dispatch loop. -/
def drainSteps (lib : JsonLib) : Nat → List MsgEnv → Host → List Step
  | 0, _, _ => []
  | fuel + 1, msgs, h =>
    match h.fd with
    | none => []
    | some c =>
      match IpcTransport.peelOne h.transport.rbuf with
      | .incomplete => []
      | .corrupt => [.lost]
      | .message op payload rest =>
        .deliver op payload rest (msgs.headD {}) ::
          drainSteps lib fuel msgs.tail ((h.setRbuf rest).dispatch lib c op payload (msgs.headD {}))

def pumpSteps (lib : JsonLib) (reads : List ReadResult) (msgs : List MsgEnv) (h : Host) :
    List Step :=
  match h.fd with
  | none => []
  | some _ =>
    match IpcTransport.fill h.transport.rbuf reads with
    | none => [.lost]
    | some rbuf => .fill rbuf :: drainSteps lib (rbuf.length + 1) msgs (h.setRbuf rbuf)

def pollSteps (lib : JsonLib) (env : PollEnv) (h : Host) : List Step :=
  if h.inPoll then [.act .poll]
  else
    let h₁ := h.step lib (.enter env.toConduct)
    let h₂ := if h₁.reconnectDue then h₁.tryConnect env.probe else h₁
    .enter env.toConduct ::
      ((if h₁.reconnectDue then [.reconnect env.probe] else []) ++
        pumpSteps lib env.reads env.msgs h₂ ++ [.leave])

variable (lib : JsonLib)

theorem run_drainSteps (fuel : Nat) (msgs : List MsgEnv) (h : Host) :
    Machine.run (step lib) h (drainSteps lib fuel msgs h) = h.drain lib fuel msgs := by
  induction fuel generalizing h msgs with
  | zero => rfl
  | succ fuel ih =>
    unfold drainSteps drain
    cases hfd : h.fd with
    | none => rfl
    | some c =>
      simp only
      cases IpcTransport.peelOne h.transport.rbuf with
      | incomplete => rfl
      | corrupt => rfl
      | message op payload rest =>
        simp only [Machine.run_cons, step, hfd]
        exact ih _ _

theorem run_pumpSteps (reads : List ReadResult) (msgs : List MsgEnv) (h : Host) :
    Machine.run (step lib) h (pumpSteps lib reads msgs h) = h.pumpTransport lib reads msgs := by
  unfold pumpSteps pumpTransport
  cases hfd : h.fd with
  | none => rfl
  | some c =>
    simp only
    cases IpcTransport.fill h.transport.rbuf reads with
    | none => rfl
    | some rbuf => exact run_drainSteps lib _ _ _

/-! ## Nested calls

The calls that run inside the event loops of a step. -/

section Nested

/-- Each call meets `good` in the state it finds. -/
def ActsMeet (good : Host → Act → Prop) (h : Host) (as : List Act) : Prop :=
  Machine.Along (fun h a => h.act a) good h as

/-- So does each that runs during the fetches of an event. -/
def EventMeets (good : Host → Act → Prop) (wallMs : Int) (during : List Act) (ev : RpcEvent)
    (h : Host) : Prop :=
  fetchesImages ev = true → ActsMeet good { h with overlay := h.overlay.apply wallMs ev } during

def SeedMeets (good : Host → Act → Prop) (env : MsgEnv) :
    List VoiceState → List (List Act) → Host → Prop
  | [], _, _ => True
  | v :: states, during, h =>
    EventMeets good env.wallMs (during.headD []) { kind := .voiceCreate, voice := v } h ∧
      SeedMeets good env states during.tail
        (h.onEvent env.wallMs (during.headD []) { kind := .voiceCreate, voice := v })

def SelectedMeets (good : Host → Act → Prop) (sel : SelectedChannel) (env : MsgEnv) (h : Host) :
    Prop :=
  sel.inChannel = true → sel.channelId ≠ h.subscribedChannel →
    SeedMeets good env sel.states env.duringFetch
      ((h.onEvent env.wallMs [] { kind := .channelSelect, channelId := sel.channelId }
        ).handleChannelSelect sel.channelId)

def ArrivalMeets (good : Host → Act → Prop) (env : MsgEnv) (h : Host) : Arrival → Prop
  | .authorizeReply frame =>
    h.state = .authorizing → ((frame.find? "data").getD (.obj [])).strOr "code" ≠ [] →
      ActsMeet good h env.duringExchange
  | .selectedReply frame =>
    h.state = .ready ∨ h.state = .inChannel →
      SelectedMeets good (parseSelectedVoiceChannel frame) env h
  | .event ev => EventMeets good env.wallMs (env.duringFetch.headD []) ev h
  | .ping | .ignored | .ready | .authenticateReply _ => True

/-- Every call of a step, nested or not, meets `good` in the state it finds. -/
def StepMeets (good : Host → Act → Prop) (lib : JsonLib) (h : Host) : Step → Prop
  | .act a => good h a
  | .deliver op payload rest env =>
    ∀ c ∈ h.fd, ArrivalMeets good env ((h.setRbuf rest).receiving c op payload env)
      (arrival lib op payload)
  | .enter _ | .reconnect _ | .fill _ | .lost | .leave => True

variable {good : Host → Act → Prop} [∀ h a, Decidable (good h a)]

instance (h : Host) (as : List Act) : Decidable (ActsMeet good h as) :=
  inferInstanceAs (Decidable (Machine.Along _ _ _ _))

instance (wallMs : Int) (during : List Act) (ev : RpcEvent) (h : Host) :
    Decidable (EventMeets good wallMs during ev h) := inferInstanceAs (Decidable (_ → _))

instance decidableSeedMeets (env : MsgEnv) :
    (states : List VoiceState) → (during : List (List Act)) → (h : Host) →
      Decidable (SeedMeets good env states during h)
  | [], _, _ => .isTrue trivial
  | v :: states, during, h =>
    have := decidableSeedMeets env states during.tail
      (h.onEvent env.wallMs (during.headD []) { kind := .voiceCreate, voice := v })
    inferInstanceAs (Decidable (_ ∧ _))

instance (sel : SelectedChannel) (env : MsgEnv) (h : Host) :
    Decidable (SelectedMeets good sel env h) := inferInstanceAs (Decidable (_ → _ → _))

instance (env : MsgEnv) (h : Host) : (a : Arrival) → Decidable (ArrivalMeets good env h a)
  | .authorizeReply _ => inferInstanceAs (Decidable (_ → _ → _))
  | .selectedReply _ => inferInstanceAs (Decidable (_ → _))
  | .event _ => inferInstanceAs (Decidable (EventMeets ..))
  | .ping | .ignored | .ready | .authenticateReply _ => .isTrue trivial

instance (lib : JsonLib) (h : Host) : (s : Step) → Decidable (StepMeets good lib h s)
  | .act a => inferInstanceAs (Decidable (good h a))
  | .deliver _ _ _ _ => inferInstanceAs (Decidable (∀ c ∈ h.fd, _))
  | .enter _ | .reconnect _ | .fill _ | .lost | .leave => .isTrue trivial

end Nested

/-! ## Calls -/

/-- A call that `main`'s event loop makes. -/
inductive Call where
  | start (env : ConnectEnv)
  | stop
  | poll (env : PollEnv)
  | configure (cfg : AppearanceConfig)

def exec (h : Host) : Call → Host
  | .start env => h.act (.start env)
  | .stop => h.act .stop
  | .poll env => (h.poll lib env).returned
  | .configure cfg => h.act (.configure cfg)

def callSteps (h : Host) : Call → List Step
  | .start env => [.act (.start env)]
  | .stop => [.act .stop]
  | .poll env => pollSteps lib env h
  | .configure cfg => [.act (.configure cfg)]

/-- A call is the run of its steps. -/
theorem run_callSteps (h : Host) (c : Call) :
    Machine.run (step lib) h (callSteps lib h c) = h.exec lib c := by
  cases c with
  | start env => rfl
  | stop => rfl
  | configure cfg => rfl
  | poll env =>
    simp only [callSteps, exec, pollSteps, poll]
    by_cases hin : h.inPoll
    · rw [if_pos hin, if_pos hin]
      rfl
    · rw [if_neg hin, if_neg hin, Machine.run_cons, Machine.run_append, Machine.run_append]
      cases hdue : ((h.under env.toConduct).guard true).reconnectDue <;>
        simp [hdue, step, run_pumpSteps]

/-- The steps of a sequence of calls. -/
def steps : Host → List Call → List Step
  | _, [] => []
  | h, c :: cs => callSteps lib h c ++ steps (h.exec lib c) cs

/-- A sequence of calls is the run of its steps. -/
theorem run_exec (h : Host) (cs : List Call) :
    Machine.run (exec lib) h cs = Machine.run (step lib) h (steps lib h cs) := by
  induction cs generalizing h with
  | nil => rfl
  | cons c cs ih => rw [Machine.run_cons, steps, Machine.run_append, run_callSteps, ih]

theorem steps_append (h : Host) (cs cs' : List Call) :
    steps lib h (cs ++ cs') = steps lib h cs ++ steps lib (Machine.run (exec lib) h cs) cs' := by
  induction cs generalizing h with
  | nil => rfl
  | cons c cs ih => rw [List.cons_append, steps, ih, steps, List.append_assoc, Machine.run_cons]

/-! ## What a poll is made of -/

/-- The steps of a poll: it starts and stops nothing, and reconnects only when
    that is due. -/
def Polls (h : Host) : Step → Prop
  | .act .poll => True
  | .act (.start _) | .act .stop | .act (.configure _) => False
  | .reconnect _ => h.reconnectDue = true
  | .enter _ | .fill _ | .lost | .deliver .. | .leave => True

theorem polls_drainSteps (fuel : Nat) (msgs : List MsgEnv) (h : Host) :
    Machine.Along (step lib) Polls h (drainSteps lib fuel msgs h) := by
  induction fuel generalizing msgs h with
  | zero => trivial
  | succ fuel ih =>
    unfold drainSteps
    cases hfd : h.fd with
    | none => trivial
    | some c =>
      simp only
      cases IpcTransport.peelOne h.transport.rbuf with
      | incomplete => trivial
      | corrupt => exact ⟨trivial, trivial⟩
      | message op payload rest =>
        refine ⟨trivial, ?_⟩
        simp only [step, hfd]
        exact ih _ _

theorem polls_pumpSteps (reads : List ReadResult) (msgs : List MsgEnv) (h : Host) :
    Machine.Along (step lib) Polls h (pumpSteps lib reads msgs h) := by
  unfold pumpSteps
  split
  · trivial
  split
  · exact ⟨trivial, trivial⟩
  · exact ⟨trivial, polls_drainSteps lib _ _ _⟩

theorem polls_pollSteps (env : PollEnv) (h : Host) :
    Machine.Along (step lib) Polls h (pollSteps lib env h) := by
  unfold pollSteps
  split
  · exact ⟨trivial, trivial⟩
  refine ⟨trivial, ?_⟩
  rw [Machine.along_append, Machine.along_append]
  by_cases hdue : (h.step lib (.enter env.toConduct)).reconnectDue = true
  · rw [if_pos hdue, if_pos hdue]
    exact ⟨⟨⟨hdue, trivial⟩, polls_pumpSteps lib _ _ _⟩, trivial, trivial⟩
  · rw [if_neg hdue, if_neg hdue]
    exact ⟨⟨trivial, polls_pumpSteps lib _ _ _⟩, trivial, trivial⟩

/-- A reconnect is attempted only when it is due. -/
def WhenDue (h : Host) : Step → Prop
  | .reconnect _ => h.reconnectDue = true
  | .act _ | .enter _ | .fill _ | .lost | .deliver .. | .leave => True

theorem Polls.whenDue {h : Host} {s : Step} (hp : h.Polls s) : h.WhenDue s := by
  cases s with
  | reconnect probe => exact hp
  | act _ | enter _ | fill _ | lost | deliver _ _ _ _ | leave => trivial

theorem whenDue_steps (h : Host) (cs : List Call) :
    Machine.Along (step lib) WhenDue h (steps lib h cs) := by
  induction cs generalizing h with
  | nil => trivial
  | cons c cs ih =>
    rw [steps, Machine.along_append, run_callSteps]
    refine ⟨?_, ih _⟩
    cases c with
    | poll env => exact (polls_pollSteps lib env h).imp fun _ _ => Polls.whenDue
    | start _ | stop | configure _ => exact ⟨trivial, trivial⟩

/-! ## Views -/

/-- The property holds now and held at the return of every call so far. -/
def Upholds (P : View → Prop) (h : Host) : Prop := P h.view ∧ ∀ v ∈ h.views, P v

variable {lib} {P : View → Prop} {h : Host}

theorem Upholds.returned (hh : h.Upholds P) : h.returned.Upholds P := by
  refine ⟨hh.1, fun v hv => ?_⟩
  rcases List.mem_cons.mp (show v ∈ h.view :: h.views from hv) with rfl | hv
  · exact hh.1
  · exact hh.2 v hv

/-- An operation during which no call returns. -/
theorem Upholds.of_views {g : Host} (hh : h.Upholds P) (hviews : g.views = h.views)
    (hv : P g.view) : g.Upholds P := by
  refine ⟨hv, ?_⟩
  rw [hviews]
  exact hh.2

end Host

end Choir
