-- SUMMARY: The RPC client as main wires it to the reducer: its state machine, its handlers and its public calls.
import ChoirOverlay.Discord.Oauth
import ChoirOverlay.Discord.Transport
import ChoirOverlay.Host.OverlayState

/-!
# RpcClient

A `Host` is the client together with the reducer that `main` connects to it,
and with a log of what the peer and the callers see. Everything the code asks
of its surroundings is an input: which sockets accept, what the reads and
writes return, what the clocks read, how the token endpoint answers, and which
calls run inside the two nested event loops (the token exchange and the image
fetches). Each string the client sends comes from parsed JSON or from the
configuration, so `dump` does not throw in it and the log keeps the values.
-/

namespace Choir

inductive ConnectionState where
  | disconnected | connecting | authorizing | ready | inChannel
  deriving DecidableEq, Repr

structure RpcConfig where
  clientId : Bytes := []
  scopes : List Bytes := [ascii "rpc", ascii "rpc.notifications.read", ascii "messages.read"]
  reconnectDelayMs : Int := 3000

structure RpcClient where
  cfg : RpcConfig := {}
  transport : IpcTransport := {}
  state : ConnectionState := .disconnected
  subscribedChannel : Bytes := []
  stopped : Bool := false
  reconnectPending : Bool := false
  reconnectAtMs : Int := 0
  inPoll : Bool := false

/-- What a frame carries: a value that `send` dumps, or bytes sent as they are. -/
inductive Payload where
  | text (j : Json)
  | raw (bytes : Bytes)

/-- What can be read off the client and the reducer between two calls. -/
structure View where
  state : ConnectionState
  subscribedChannel : Bytes
  connected : Bool
  snap : Snapshot

/-- An entry of the log. -/
inductive Obs where
  | opened (c : Conn)
  | closed (c : Conn)
  | received (c : Conn) (op : Int) (payload : Bytes)
  /-- A frame was written in a state of the client; `ok` tells whether it went out. -/
  | wrote (c : Conn) (state : ConnectionState) (op : Int) (payload : Payload) (ok : Bool)
  /-- The code of an `AUTHORIZE` reply that came on `c` was exchanged. -/
  | exchanged (c : Option Conn) (code : Bytes) (tok : TokenResult)
  /-- The state handler was fired. -/
  | entered (c : Option Conn) (state : ConnectionState)
  /-- A public call returned. -/
  | returned (view : View)

structure Host extends RpcClient where
  overlay : OverlayState := {}
  /-- What `now_ms` reads. -/
  clock : Int := 0
  /-- The seed and the counter of `next_nonce`. -/
  nonceSeed : Bytes := []
  nonces : UInt64 := 0
  /-- Newest first. -/
  log : List Obs := []

/-! ## Inputs -/

/-- What the clock reads and what becomes of the coming frame writes. -/
structure Conduct where
  now : Int := 0
  writes : List Bool := []

/-- The next `n` frame writes all go through. -/
def Conduct.Allows (k : Conduct) (n : Nat) : Prop := ∀ ok ∈ k.writes.take n, ok = true

instance (k : Conduct) (n : Nat) : Decidable (k.Allows n) :=
  inferInstanceAs (Decidable (∀ ok ∈ k.writes.take n, ok = true))

structure ConnectEnv extends Conduct where
  /-- Which of `discord-ipc-0` to `discord-ipc-9` accepts. -/
  probe : Nat → Bool := fun _ => true

/-- A call from a nested event loop or from `main`'s own. -/
inductive Act where
  | start (env : ConnectEnv)
  | stop
  /-- The timer's `poll`, in a nested loop, where the guard turns it away. -/
  | poll
  | configure (cfg : AppearanceConfig)

/-- The surroundings of a message. -/
structure MsgEnv extends Conduct where
  /-- The wall clock, in milliseconds. -/
  wallMs : Int := 0
  /-- The answer of the token endpoint, what ran while waiting for it, and the
      conduct from then on. -/
  response : HttpResponse := {}
  duringExchange : List Act := []
  resumed : Conduct := {}
  /-- What ran during the image fetches of each event the message leads to. -/
  duringFetch : List (List Act) := []

structure PollEnv extends ConnectEnv where
  reads : List ReadResult := []
  msgs : List MsgEnv := []

namespace Host

/-! ## The transport and its handlers -/

def fd (h : Host) : Option Conn := h.transport.fd

def record (o : Obs) (h : Host) : Host := { h with log := o :: h.log }

def under (k : Conduct) (h : Host) : Host :=
  { h with clock := k.now, transport := { h.transport with verdicts := k.writes } }

def setState (s : ConnectionState) (h : Host) : Host :=
  if h.state = s then h else { h with state := s }.record (.entered h.fd s)

def clearChannelState (h : Host) : Host := { h with subscribedChannel := [] }

def scheduleReconnect (h : Host) : Host :=
  if h.stopped then h
  else { h with reconnectPending := true, reconnectAtMs := h.clock + h.cfg.reconnectDelayMs }

def onClosed (h : Host) : Host :=
  let h := h.clearChannelState.setState .disconnected
  if h.stopped then h else h.scheduleReconnect

/-- `IpcTransport::close`, which does not tell the client. -/
def close (h : Host) : Host :=
  match h.fd with
  | none => h
  | some c => { h with transport := h.transport.shut }.record (.closed c)

/-- `IpcTransport::handle_closed`, which does. -/
def handleClosed (h : Host) : Host :=
  match h.fd with
  | none => h
  | some _ => h.close.onClosed

def connect (probe : Nat → Bool) (h : Host) : Host × Bool :=
  let (transport, ok) := h.transport.connect probe
  let h' := { h with transport }
  (if h.fd = none ∧ ok then h'.record (.opened h.transport.opened) else h', ok)

/-- `send_raw`; nobody acts on its result. -/
def sendRaw (op : Int) (payload : Payload) (h : Host) : Host :=
  match h.fd with
  | none => h
  | some c =>
    let (ok, transport) := h.transport.writeFrame
    let h := { h with transport }.record (.wrote c h.state op payload ok)
    if ok then h else h.handleClosed

def send (op : Int) (payload : Json) (h : Host) : Host := h.sendRaw op (.text payload)

/-! ## Commands -/

def nextNonce (h : Host) : Bytes := h.nonceSeed ++ ascii "-" ++ natDecimal h.nonces.toNat

/-- Build a command, which draws a nonce, and send it. -/
def command (build : Bytes → Json) (h : Host) : Host :=
  { h with nonces := h.nonces + 1 }.send kOpFrame (build h.nextNonce)

def commands (builds : List (Bytes → Json)) (h : Host) : Host :=
  builds.foldl (fun h b => h.command b) h

def kChannelEvents : List String :=
  ["VOICE_STATE_CREATE", "VOICE_STATE_UPDATE", "VOICE_STATE_DELETE",
   "SPEAKING_START", "SPEAKING_STOP"]

def channelArgs (channelId : Bytes) : Json := .obj [(ascii "channel_id", .str channelId)]

def subscribeChannel (channelId : Bytes) (h : Host) : Host :=
  h.commands (kChannelEvents.map fun evt => buildSubscribe evt (channelArgs channelId))

def unsubscribeChannel (channelId : Bytes) (h : Host) : Host :=
  h.commands (kChannelEvents.map fun evt => buildUnsubscribe evt (channelArgs channelId))

/-! ## Connecting -/

def handshake (cfg : RpcConfig) : Json :=
  .obj [(ascii "client_id", .str cfg.clientId), (ascii "v", .int 1)]

def tryConnect (probe : Nat → Bool) (h : Host) : Host :=
  let (h, ok) := { h with reconnectPending := false }.clearChannelState.connect probe
  if ok then (h.setState .connecting).send kOpHandshake (handshake h.cfg)
  else h.scheduleReconnect

def start (env : ConnectEnv) (h : Host) : Host :=
  { h.under env.toConduct with stopped := false, reconnectPending := false }.tryConnect env.probe

def stop (h : Host) : Host :=
  { h with stopped := true, reconnectPending := false }.clearChannelState.close.setState
    .disconnected

def view (h : Host) : View where
  state := h.state
  subscribedChannel := h.subscribedChannel
  connected := h.fd.isSome
  snap := h.overlay.snap

/-- A public call returns. -/
def returned (h : Host) : Host := h.record (.returned h.view)

def act : Act → Host → Host
  | .start env, h => (h.start env).returned
  | .stop, h => h.stop.returned
  | .poll, h => h.returned
  | .configure cfg, h => { h with overlay := h.overlay.setConfig cfg }

def acts (as : List Act) (h : Host) : Host := as.foldl (fun h a => h.act a) h

/-! ## Events -/

/-- Whether `main`'s handler asks the avatar cache for images on an event. The
    text of a notification may hold emoji. -/
def fetchesImages (ev : RpcEvent) : Bool :=
  match ev.kind with
  | .voiceCreate | .voiceUpdate => !ev.voice.avatarHash.isEmpty
  | .notification => true
  | _ => false

/-- The event handler of `main`; `during` is what runs in the event loop of the
    fetches. -/
def onEvent (wallMs : Int) (during : List Act) (ev : RpcEvent) (h : Host) : Host :=
  let h := { h with overlay := h.overlay.apply wallMs ev }
  if fetchesImages ev then h.acts during else h

def handleChannelSelect (channelId : Bytes) (h : Host) : Host :=
  if channelId = [] then
    let h :=
      if h.subscribedChannel ≠ [] then
        (h.unsubscribeChannel h.subscribedChannel).clearChannelState
      else h
    h.setState .ready
  else if channelId = h.subscribedChannel then h.setState .inChannel
  else
    let h :=
      if h.subscribedChannel ≠ [] then h.unsubscribeChannel h.subscribedChannel else h
    let h := h.subscribeChannel channelId
    { h with subscribedChannel := channelId }.setState .inChannel

/-! ## Messages -/

/-- Drop the connection after a failed login step. -/
def abandon (h : Host) : Host := h.close.scheduleReconnect.setState .disconnected

def handleAuthorizeResponse (lib : JsonLib) (frame : Json) (env : MsgEnv) (h : Host) : Host :=
  if h.state ≠ .authorizing then h
  else
    let code := ((frame.find? "data").getD (.obj [])).strOr "code"
    if code = [] then h.abandon
    else
      let tok := exchangeCode lib env.response
      let h := ((h.acts env.duringExchange).under env.resumed).record (.exchanged h.fd code tok)
      if tok.ok then h.command (buildAuthenticate tok.accessToken) else h.abandon

def handleAuthenticateResponse (frame : Json) (h : Host) : Host :=
  if h.state ≠ .authorizing then h
  else if frame.strOr "evt" = ascii "ERROR" then h.abandon
  else
    (h.setState .ready).commands
      [buildSubscribe "VOICE_CHANNEL_SELECT" (.obj []),
       buildSubscribe "NOTIFICATION_CREATE" (.obj []),
       buildGetSelectedVoiceChannel]

/-- The users of a reply, each an event of its own. -/
def seedStates (env : MsgEnv) : List VoiceState → List (List Act) → Host → Host
  | [], _, h => h
  | v :: states, during, h =>
    seedStates env states during.tail
      (h.onEvent env.wallMs (during.headD []) { kind := .voiceCreate, voice := v })

def handleSelectedVoiceChannel (frame : Json) (env : MsgEnv) (h : Host) : Host :=
  if h.state ≠ .ready ∧ h.state ≠ .inChannel then h
  else
    let sel := parseSelectedVoiceChannel frame
    if ¬ sel.inChannel then h
    else if sel.channelId = h.subscribedChannel then h
    else
      let h := h.onEvent env.wallMs [] { kind := .channelSelect, channelId := sel.channelId }
      seedStates env sel.states env.duringFetch (h.handleChannelSelect sel.channelId)

def onReady (h : Host) : Host :=
  (h.setState .authorizing).command (buildAuthorize h.cfg.scopes h.cfg.clientId)

def onRpcEvent (ev : RpcEvent) (env : MsgEnv) (h : Host) : Host :=
  let h := h.onEvent env.wallMs (env.duringFetch.headD []) ev
  if ev.kind = .channelSelect then h.handleChannelSelect ev.channelId else h

def onMessage (lib : JsonLib) (op : Int) (j : Json) (env : MsgEnv) (h : Host) : Host :=
  if op ≠ kOpFrame then h
  else if ¬ j.isObject then h
  else
    let cmd := j.strOr "cmd"
    if cmd = ascii "AUTHORIZE" then h.handleAuthorizeResponse lib j env
    else if cmd = ascii "AUTHENTICATE" then h.handleAuthenticateResponse j
    else if cmd = ascii "GET_SELECTED_VOICE_CHANNEL" then h.handleSelectedVoiceChannel j env
    else if cmd = ascii "DISPATCH" then
      if j.strOr "evt" = ascii "READY" then h.onReady
      else match parseEvent j with
        | some ev => h.onRpcEvent ev env
        | none => h
    else h

/-! ## Polling -/

/-- A message peeled off connection `c`. -/
def dispatch (lib : JsonLib) (c : Conn) (op : Int) (payload : Bytes) (env : MsgEnv) (h : Host) :
    Host :=
  let h := (h.under env.toConduct).record (.received c op payload)
  if op = kOpPing then h.sendRaw kOpPong (.raw payload)
  else match lib.parse payload with
    | some j => h.onMessage lib op j env
    | none => h

def setRbuf (rbuf : Bytes) (h : Host) : Host :=
  { h with transport := { h.transport with rbuf } }

/-- The loop that peels and dispatches, for at most `fuel` messages. -/
def drain (lib : JsonLib) : Nat → List MsgEnv → Host → Host
  | 0, _, h => h
  | fuel + 1, msgs, h =>
    match h.fd with
    | none => h
    | some c =>
      match IpcTransport.peelOne h.transport.rbuf with
      | .incomplete => h
      | .corrupt => h.handleClosed
      | .message op payload rest =>
        drain lib fuel msgs.tail ((h.setRbuf rest).dispatch lib c op payload (msgs.headD {}))

/-- `IpcTransport::poll`. Each message takes a header off the buffer, and no
    handler adds to it. -/
def pumpTransport (lib : JsonLib) (reads : List ReadResult) (msgs : List MsgEnv) (h : Host) :
    Host :=
  match h.fd with
  | none => h
  | some _ =>
    match IpcTransport.fill h.transport.rbuf reads with
    | none => h.handleClosed
    | some rbuf => drain lib (rbuf.length + 1) msgs (h.setRbuf rbuf)

def reconnectDue (h : Host) : Bool :=
  h.reconnectPending && !h.stopped && decide (h.reconnectAtMs ≤ h.clock)

/-- Raise or lower the re-entrancy guard. -/
def guard (inPoll : Bool) (h : Host) : Host := { h with inPoll }

def poll (lib : JsonLib) (env : PollEnv) (h : Host) : Host :=
  if h.inPoll then h
  else
    let h := (h.under env.toConduct).guard true
    let h := if h.reconnectDue then h.tryConnect env.probe else h
    (h.pumpTransport lib env.reads env.msgs).guard false

/-- What `main` has set up when its event loop starts. -/
def init (cfg : RpcConfig) (appearance : AppearanceConfig) (nonceSeed : Bytes) : Host where
  cfg := cfg
  overlay := OverlayState.setConfig appearance {}
  nonceSeed := nonceSeed

end Host

end Choir
