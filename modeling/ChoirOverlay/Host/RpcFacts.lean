-- SUMMARY: What each operation of the RPC client does to its connection, state and subscription, to the reducer and to the log.
import ChoirOverlay.Host.RpcClient
import Mathlib.Tactic.Common

/-!
# Facts about the RPC client

One lemma for each operation. The connection, the state and the subscribed
channel change together, so they are read off as one value, the `link`.
-/

namespace Choir

namespace Host

/-- The connection, the state and the subscribed channel. -/
def link (h : Host) : Option Conn × ConnectionState × Bytes := (h.fd, h.state, h.subscribedChannel)

/-- The link after the connection was lost. -/
def down : Option Conn × ConnectionState × Bytes := (none, .disconnected, [])

/-- The views at the returns of the public calls so far, newest first. -/
def views (h : Host) : List View :=
  h.log.filterMap fun | .returned v => some v | _ => none

/-! ## Primitives -/

section Primitives

variable (h : Host)

@[simp] theorem record_link (o : Obs) : (h.record o).link = h.link := rfl
@[simp] theorem record_fd (o : Obs) : (h.record o).fd = h.fd := rfl
@[simp] theorem record_subscribedChannel (o : Obs) :
    (h.record o).subscribedChannel = h.subscribedChannel := rfl
@[simp] theorem record_state (o : Obs) : (h.record o).state = h.state := rfl
@[simp] theorem record_transport (o : Obs) : (h.record o).transport = h.transport := rfl
@[simp] theorem record_overlay (o : Obs) : (h.record o).overlay = h.overlay := rfl
@[simp] theorem record_log (o : Obs) : (h.record o).log = o :: h.log := rfl

@[simp] theorem under_link (k : Conduct) : (h.under k).link = h.link := rfl
@[simp] theorem under_fd (k : Conduct) : (h.under k).fd = h.fd := rfl
@[simp] theorem under_state (k : Conduct) : (h.under k).state = h.state := rfl
@[simp] theorem under_verdicts (k : Conduct) : (h.under k).transport.verdicts = k.writes := rfl
@[simp] theorem under_overlay (k : Conduct) : (h.under k).overlay = h.overlay := rfl
@[simp] theorem under_log (k : Conduct) : (h.under k).log = h.log := rfl
@[simp] theorem under_views (k : Conduct) : (h.under k).views = h.views := rfl

@[simp] theorem setRbuf_link (rbuf : Bytes) : (h.setRbuf rbuf).link = h.link := rfl
@[simp] theorem setRbuf_fd (rbuf : Bytes) : (h.setRbuf rbuf).fd = h.fd := rfl
@[simp] theorem setRbuf_overlay (rbuf : Bytes) : (h.setRbuf rbuf).overlay = h.overlay := rfl
@[simp] theorem setRbuf_log (rbuf : Bytes) : (h.setRbuf rbuf).log = h.log := rfl
@[simp] theorem setRbuf_views (rbuf : Bytes) : (h.setRbuf rbuf).views = h.views := rfl

@[simp] theorem clearChannelState_link :
    h.clearChannelState.link = (h.fd, h.state, []) := rfl
@[simp] theorem clearChannelState_fd : h.clearChannelState.fd = h.fd := rfl
@[simp] theorem clearChannelState_state : h.clearChannelState.state = h.state := rfl
@[simp] theorem clearChannelState_overlay : h.clearChannelState.overlay = h.overlay := rfl
@[simp] theorem clearChannelState_log : h.clearChannelState.log = h.log := rfl
@[simp] theorem clearChannelState_views : h.clearChannelState.views = h.views := rfl

@[simp] theorem scheduleReconnect_link : h.scheduleReconnect.link = h.link := by
  unfold scheduleReconnect; split <;> rfl

@[simp] theorem scheduleReconnect_fd : h.scheduleReconnect.fd = h.fd := by
  unfold scheduleReconnect; split <;> rfl

@[simp] theorem scheduleReconnect_state : h.scheduleReconnect.state = h.state := by
  unfold scheduleReconnect; split <;> rfl

@[simp] theorem scheduleReconnect_overlay : h.scheduleReconnect.overlay = h.overlay := by
  unfold scheduleReconnect; split <;> rfl

@[simp] theorem scheduleReconnect_log : h.scheduleReconnect.log = h.log := by
  unfold scheduleReconnect; split <;> rfl

@[simp] theorem scheduleReconnect_views : h.scheduleReconnect.views = h.views := by
  unfold views; rw [scheduleReconnect_log]

theorem setState_link (s : ConnectionState) :
    (h.setState s).link = (h.fd, s, h.subscribedChannel) := by
  unfold setState
  split
  · rename_i heq
    rw [link, heq]
  · rfl

@[simp] theorem setState_fd (s : ConnectionState) : (h.setState s).fd = h.fd := by
  unfold setState; split <;> rfl

@[simp] theorem setState_state (s : ConnectionState) : (h.setState s).state = s := by
  unfold setState; split <;> simp_all [record]

@[simp] theorem setState_transport (s : ConnectionState) :
    (h.setState s).transport = h.transport := by
  unfold setState; split <;> rfl

@[simp] theorem setState_overlay (s : ConnectionState) : (h.setState s).overlay = h.overlay := by
  unfold setState; split <;> rfl

theorem setState_log (s : ConnectionState) :
    (h.setState s).log = if h.state = s then h.log else .entered h.fd s :: h.log := by
  unfold setState; split <;> rfl

@[simp] theorem setState_views (s : ConnectionState) : (h.setState s).views = h.views := by
  unfold setState; split <;> rfl

theorem close_link : h.close.link = (none, h.state, h.subscribedChannel) := by
  unfold close
  split
  · rename_i hfd
    rw [link, hfd]
  · rfl

@[simp] theorem close_fd : h.close.fd = none := congrArg Prod.fst h.close_link
@[simp] theorem close_state : h.close.state = h.state :=
  congrArg (fun l => l.2.1) h.close_link
@[simp] theorem close_overlay : h.close.overlay = h.overlay := by
  unfold close; split <;> rfl

@[simp] theorem close_views : h.close.views = h.views := by
  unfold close; split <;> rfl

theorem close_of_none (hfd : h.fd = none) : h.close = h := by
  unfold close; rw [hfd]

theorem close_log {c : Conn} (hfd : h.fd = some c) : h.close.log = .closed c :: h.log := by
  unfold close; rw [hfd]; rfl

theorem onClosed_link : h.onClosed.link = (h.fd, .disconnected, []) := by
  unfold onClosed
  simp only
  split
  · rw [setState_link]; rfl
  · rw [scheduleReconnect_link, setState_link]; rfl

@[simp] theorem onClosed_overlay : h.onClosed.overlay = h.overlay := by
  unfold onClosed; simp only; split <;> simp

@[simp] theorem onClosed_views : h.onClosed.views = h.views := by
  unfold onClosed; simp only; split <;> simp

theorem onClosed_log : h.onClosed.log = (h.setState .disconnected).log := by
  unfold onClosed
  simp only
  split
  · rw [setState_log, setState_log]; rfl
  · rw [scheduleReconnect_log, setState_log, setState_log]; rfl

theorem handleClosed_link (hfd : h.fd ≠ none) : h.handleClosed.link = down := by
  unfold handleClosed
  split
  · exact absurd ‹_› hfd
  · simp [onClosed_link, down]

@[simp] theorem handleClosed_overlay : h.handleClosed.overlay = h.overlay := by
  unfold handleClosed; split <;> simp

@[simp] theorem handleClosed_views : h.handleClosed.views = h.views := by
  unfold handleClosed; split <;> simp

theorem handleClosed_of_none (hfd : h.fd = none) : h.handleClosed = h := by
  unfold handleClosed; rw [hfd]

theorem handleClosed_fd : h.handleClosed.fd = none := by
  cases hfd : h.fd with
  | none => rw [handleClosed_of_none h hfd, hfd]
  | some c => exact congrArg Prod.fst (handleClosed_link h (by rw [hfd]; nofun))

end Primitives

/-! ## Writing -/

section Writing

variable (h : Host)

theorem sendRaw_of_none (op : Int) (payload : Payload) (hfd : h.fd = none) :
    h.sendRaw op payload = h := by
  unfold sendRaw; rw [hfd]

/-- A frame that goes out costs one verdict and leaves an entry. -/
theorem sendRaw_of_allows (op : Int) (payload : Payload) {c : Conn} (hfd : h.fd = some c)
    (hw : h.transport.Allows 1) :
    h.sendRaw op payload =
      { h with transport := { h.transport with verdicts := h.transport.verdicts.drop 1 } }.record
        (.wrote c h.state op payload true) := by
  have hok := h.transport.writeFrame_fst.mpr hw
  have hsnd := h.transport.writeFrame_snd
  unfold sendRaw
  rw [hfd]
  generalize h.transport.writeFrame = w at hok hsnd
  obtain ⟨ok, t⟩ := w
  simp only at hok hsnd
  simp [hok, hsnd]

/-- A frame that does not go out takes the connection down. -/
theorem sendRaw_of_not_allows (op : Int) (payload : Payload) {c : Conn} (hfd : h.fd = some c)
    (hw : ¬ h.transport.Allows 1) :
    h.sendRaw op payload =
      ({ h with transport := { h.transport with verdicts := h.transport.verdicts.drop 1 } }.record
        (.wrote c h.state op payload false)).handleClosed := by
  have hok := mt h.transport.writeFrame_fst.mp hw
  have hsnd := h.transport.writeFrame_snd
  unfold sendRaw
  rw [hfd]
  generalize h.transport.writeFrame = w at hok hsnd
  obtain ⟨ok, t⟩ := w
  simp only [Bool.not_eq_true] at hok hsnd
  simp [hok, hsnd]

theorem sendRaw_link (op : Int) (payload : Payload) :
    (h.sendRaw op payload).link =
      if h.fd = none ∨ h.transport.Allows 1 then h.link else down := by
  cases hfd : h.fd with
  | none => simp [sendRaw_of_none _ _ _ hfd]
  | some c =>
    by_cases hw : h.transport.Allows 1
    · rw [sendRaw_of_allows _ _ _ hfd hw, if_pos (.inr hw)]
      rfl
    · rw [sendRaw_of_not_allows _ _ _ hfd hw, if_neg (by simp [hw])]
      exact handleClosed_link _ (by rw [record_fd]; exact fun he => by cases hfd.symm.trans he)

@[simp] theorem sendRaw_overlay (op : Int) (payload : Payload) :
    (h.sendRaw op payload).overlay = h.overlay := by
  cases hfd : h.fd with
  | none => rw [sendRaw_of_none _ _ _ hfd]
  | some c =>
    by_cases hw : h.transport.Allows 1
    · rw [sendRaw_of_allows _ _ _ hfd hw]; rfl
    · rw [sendRaw_of_not_allows _ _ _ hfd hw]; simp

@[simp] theorem sendRaw_views (op : Int) (payload : Payload) :
    (h.sendRaw op payload).views = h.views := by
  cases hfd : h.fd with
  | none => rw [sendRaw_of_none _ _ _ hfd]
  | some c =>
    by_cases hw : h.transport.Allows 1
    · rw [sendRaw_of_allows _ _ _ hfd hw]; rfl
    · rw [sendRaw_of_not_allows _ _ _ hfd hw, handleClosed_views]; rfl

/-- The state in which `command` sends. -/
def drawn (h : Host) : Host := { h with nonces := h.nonces + 1 }

@[simp] theorem drawn_link : h.drawn.link = h.link := rfl
@[simp] theorem drawn_fd : h.drawn.fd = h.fd := rfl
@[simp] theorem drawn_state : h.drawn.state = h.state := rfl
@[simp] theorem drawn_transport : h.drawn.transport = h.transport := rfl
@[simp] theorem drawn_overlay : h.drawn.overlay = h.overlay := rfl
@[simp] theorem drawn_log : h.drawn.log = h.log := rfl
@[simp] theorem drawn_views : h.drawn.views = h.views := rfl

theorem command_eq (build : Bytes → Json) :
    h.command build = h.drawn.sendRaw kOpFrame (.text (build h.nextNonce)) := rfl

theorem command_link (build : Bytes → Json) :
    (h.command build).link = if h.fd = none ∨ h.transport.Allows 1 then h.link else down := by
  rw [command_eq, sendRaw_link]
  rfl

@[simp] theorem command_overlay (build : Bytes → Json) :
    (h.command build).overlay = h.overlay := by
  rw [command_eq]; simp

@[simp] theorem command_views (build : Bytes → Json) : (h.command build).views = h.views := by
  rw [command_eq]; simp

@[simp] theorem commands_nil : h.commands [] = h := rfl
@[simp] theorem commands_cons (b : Bytes → Json) (bs : List (Bytes → Json)) :
    h.commands (b :: bs) = (h.command b).commands bs := rfl

theorem commands_append (bs bs' : List (Bytes → Json)) :
    h.commands (bs ++ bs') = (h.commands bs).commands bs' := List.foldl_append ..

/-- What each command keeps the commands keep. -/
theorem commands_induct {P : Host → Prop} {bs : List (Bytes → Json)}
    (hcommand : ∀ b ∈ bs, ∀ h : Host, P h → P (h.command b)) {h : Host} (hh : P h) :
    P (h.commands bs) :=
  List.foldlRecOn bs _ hh fun h hh b hb => hcommand b hb h hh

/-- Commands go out together or take the connection down together. -/
theorem commands_link (bs : List (Bytes → Json)) :
    (h.commands bs).link =
      if h.fd = none ∨ h.transport.Allows bs.length then h.link else down := by
  induction bs generalizing h with
  | nil => simp
  | cons b bs ih =>
    rw [commands_cons, ih]
    have hlink := h.command_link b
    have hfst : (h.command b).fd = (h.command b).link.1 := rfl
    cases hfd : h.fd with
    | none =>
      rw [if_pos (.inl hfd)] at hlink
      have : (h.command b).fd = none := by rw [hfst, hlink]; exact hfd
      simp [this, hlink]
    | some c =>
      by_cases hw : h.transport.Allows 1
      · rw [if_pos (.inr hw)] at hlink
        have hdrop : (h.command b).transport.verdicts = h.transport.verdicts.drop 1 := by
          rw [command_eq, sendRaw_of_allows _ _ _ (by simpa using hfd) (by simpa using hw)]
          rfl
        have hsome : (h.command b).fd = some c := by rw [hfst, hlink]; exact hfd
        have hallows : h.transport.Allows (bs.length + 1) ↔
            (h.command b).transport.Allows bs.length := by
          rw [Nat.add_comm, IpcTransport.allows_add, and_iff_right hw]
          simp only [IpcTransport.Allows, hdrop]
        simp [hsome, hlink, hallows]
      · rw [if_neg (by simp [hfd, hw])] at hlink
        have hnone : (h.command b).fd = none := by rw [hfst, hlink]; rfl
        have hmore : ¬ h.transport.Allows (bs.length + 1) := by
          rw [Nat.add_comm, IpcTransport.allows_add]
          exact fun hand => hw hand.1
        simp [hnone, hlink, hmore]

@[simp] theorem commands_overlay (bs : List (Bytes → Json)) :
    (h.commands bs).overlay = h.overlay :=
  commands_induct (P := fun g => g.overlay = h.overlay)
    (fun b _ g hg => (command_overlay g b).trans hg) rfl

@[simp] theorem commands_views (bs : List (Bytes → Json)) : (h.commands bs).views = h.views :=
  commands_induct (P := fun g => g.views = h.views)
    (fun b _ g hg => (command_views g b).trans hg) rfl

end Writing

/-! ## Channel select -/

section ChannelSelect

variable (h : Host) (id : Bytes)

/-- The commands a channel select sends: the old channel's subscriptions are
    dropped, the new one's are made. -/
def selectCommands : List (Bytes → Json) :=
  if id = h.subscribedChannel then []
  else
    (if h.subscribedChannel ≠ [] then
      kChannelEvents.map fun evt => buildUnsubscribe evt (channelArgs h.subscribedChannel)
    else []) ++
    (if id ≠ [] then kChannelEvents.map fun evt => buildSubscribe evt (channelArgs id) else [])

/-- A channel select sends its commands, and then takes on the channel and the
    state, whatever became of them. -/
theorem handleChannelSelect_eq :
    h.handleChannelSelect id =
      { h.commands (h.selectCommands id) with subscribedChannel := id }.setState
        (if id = [] then .ready else .inChannel) := by
  unfold handleChannelSelect selectCommands unsubscribeChannel subscribeChannel
  by_cases hid : id = []
  · by_cases hsub : h.subscribedChannel = []
    · have hsame : { h with subscribedChannel := ([] : Bytes) } = h := by rw [← hsub]
      simp [hid, hsub, hsame]
    · have hne : ¬ ([] : Bytes) = h.subscribedChannel := fun he => hsub he.symm
      simp [hid, hsub, hne, clearChannelState]
  · by_cases heq : id = h.subscribedChannel
    · subst heq
      simp [hid]
    · by_cases hsub : h.subscribedChannel = []
      · simp [hid, hsub]
      · simp [hid, heq, hsub, commands_append]

theorem handleChannelSelect_link :
    (h.handleChannelSelect id).link =
      (if h.fd = none ∨ h.transport.Allows (h.selectCommands id).length then h.fd else none,
        if id = [] then .ready else .inChannel, id) := by
  rw [handleChannelSelect_eq, setState_link]
  have hfd : (h.commands (h.selectCommands id)).fd = _ :=
    congrArg Prod.fst (h.commands_link (h.selectCommands id))
  have hthis : ({ h.commands (h.selectCommands id) with subscribedChannel := id } : Host).fd =
      (h.commands (h.selectCommands id)).fd := rfl
  rw [hthis, hfd]
  split <;> rfl

@[simp] theorem handleChannelSelect_overlay : (h.handleChannelSelect id).overlay = h.overlay := by
  rw [handleChannelSelect_eq, setState_overlay]
  exact h.commands_overlay _

@[simp] theorem handleChannelSelect_views : (h.handleChannelSelect id).views = h.views := by
  rw [handleChannelSelect_eq, setState_views]
  exact h.commands_views _

end ChannelSelect

/-! ## Connecting -/

section Connecting

variable (h : Host) (probe : Nat → Bool)

/-- The connection that `connect` leaves the client with. -/
def reached : Option Conn :=
  match h.fd with
  | some c => some c
  | none => if (List.range 10).any probe then some h.transport.opened else none

theorem connect_snd : (h.connect probe).2 = (h.reached probe).isSome := by
  unfold connect reached fd IpcTransport.connect
  cases h.transport.fd with
  | some c => rfl
  | none => cases (List.range 10).any probe <;> simp

theorem connect_link :
    (h.connect probe).1.link = (h.reached probe, h.state, h.subscribedChannel) := by
  unfold connect reached fd IpcTransport.connect
  cases hfd : h.transport.fd with
  | some c => simp [link, fd, hfd]
  | none => cases (List.range 10).any probe <;> simp [link, fd, hfd]

@[simp] theorem connect_state : (h.connect probe).1.state = h.state :=
  congrArg (fun l => l.2.1) (h.connect_link probe)

theorem connect_verdicts :
    (h.connect probe).1.transport.verdicts = h.transport.verdicts := by
  unfold connect fd IpcTransport.connect
  cases hfd : h.transport.fd with
  | some c => simp
  | none => cases (List.range 10).any probe <;> simp

/-- `connect` opens a connection or changes nothing of note. -/
theorem connect_log :
    ((h.connect probe).1.fd = h.fd ∧ (h.connect probe).1.log = h.log) ∨
      ∃ c, (h.connect probe).1.log = .opened c :: h.log := by
  unfold connect fd IpcTransport.connect
  cases hfd : h.transport.fd with
  | some c => exact .inl (by simp [hfd])
  | none => cases (List.range 10).any probe <;> simp [hfd]

@[simp] theorem connect_overlay : (h.connect probe).1.overlay = h.overlay := by
  unfold connect; simp only; split <;> rfl

@[simp] theorem connect_views : (h.connect probe).1.views = h.views := by
  unfold connect; simp only; split <;> rfl

/-- The state in which `tryConnect` asks for a connection. -/
def attempting (h : Host) : Host := { h with reconnectPending := false, subscribedChannel := [] }

/-- `tryConnect` announces itself on a connection, or plans the next attempt. -/
theorem tryConnect_cases :
    (∃ c, (h.attempting.connect probe).1.fd = some c ∧
      h.tryConnect probe = ((h.attempting.connect probe).1.setState .connecting).send kOpHandshake
        (handshake (h.attempting.connect probe).1.cfg)) ∨
    ((h.attempting.connect probe).1.fd = none ∧
      h.tryConnect probe = (h.attempting.connect probe).1.scheduleReconnect) := by
  have hok : (h.attempting.connect probe).2 = ((h.attempting.connect probe).1.fd).isSome := by
    rw [connect_snd]
    exact congrArg Option.isSome (congrArg Prod.fst (h.attempting.connect_link probe)).symm
  have heq : h.tryConnect probe =
      if (h.attempting.connect probe).2 then
        ((h.attempting.connect probe).1.setState .connecting).send kOpHandshake
          (handshake (h.attempting.connect probe).1.cfg)
      else (h.attempting.connect probe).1.scheduleReconnect := rfl
  rw [heq, hok]
  cases (h.attempting.connect probe).1.fd with
  | none => exact .inr ⟨rfl, rfl⟩
  | some c => exact .inl ⟨c, rfl, rfl⟩

/-- A connection attempt fails and leaves the state alone, or comes up and
    announces itself, or comes up and is lost again. -/
theorem tryConnect_link :
    (h.tryConnect probe).link =
      match h.reached probe with
      | none => (none, h.state, [])
      | some c => if h.transport.Allows 1 then (some c, .connecting, []) else down := by
  have hlink : (h.attempting.connect probe).1.link = (h.reached probe, h.state, []) :=
    h.attempting.connect_link probe
  have hverdicts : (h.attempting.connect probe).1.transport.verdicts = h.transport.verdicts :=
    h.attempting.connect_verdicts probe
  have hreached : (h.attempting.connect probe).1.fd = h.reached probe := congrArg Prod.fst hlink
  obtain ⟨c, hfd, hstep⟩ | ⟨hfd, hstep⟩ := tryConnect_cases h probe
  · have hsub : (h.attempting.connect probe).1.subscribedChannel = [] :=
      congrArg (fun l => l.2.2) hlink
    have hallows : ((h.attempting.connect probe).1.setState .connecting).transport.Allows 1 ↔
        h.transport.Allows 1 := by
      rw [setState_transport, IpcTransport.Allows, IpcTransport.Allows, hverdicts]
    rw [hstep, send, sendRaw_link, setState_link, setState_fd, hsub, ← hreached, hfd]
    simp only [hallows, reduceCtorEq, false_or]
  · rw [hstep, scheduleReconnect_link, hlink, ← hreached, hfd]

@[simp] theorem tryConnect_overlay : (h.tryConnect probe).overlay = h.overlay := by
  unfold tryConnect send; simp only; split <;> simp

@[simp] theorem tryConnect_views : (h.tryConnect probe).views = h.views := by
  unfold tryConnect send; simp only; split <;> simp <;> rfl

theorem start_link (env : ConnectEnv) :
    (h.start env).link =
      match h.reached env.probe with
      | none => (none, h.state, [])
      | some c => if env.Allows 1 then (some c, .connecting, []) else down :=
  tryConnect_link _ _

@[simp] theorem start_overlay (env : ConnectEnv) : (h.start env).overlay = h.overlay :=
  tryConnect_overlay _ _

@[simp] theorem start_views (env : ConnectEnv) : (h.start env).views = h.views :=
  tryConnect_views _ _

@[simp] theorem stop_link : h.stop.link = down := by
  unfold stop
  rw [setState_link]
  simp [down, show ∀ h : Host, h.close.subscribedChannel = h.subscribedChannel from
    fun h => congrArg (fun l => l.2.2) h.close_link, clearChannelState]

@[simp] theorem stop_overlay : h.stop.overlay = h.overlay := by
  unfold stop; simp

@[simp] theorem stop_views : h.stop.views = h.views := by
  unfold stop; simp; rfl

end Connecting

/-! ## Login -/

theorem handshake_cmd (cfg : RpcConfig) : (handshake cfg).strOr "cmd" = [] := by
  have h₁ : (ascii "cmd" == ascii "client_id") = false := by decide
  have h₂ : (ascii "cmd" == ascii "v") = false := by decide
  simp [handshake, Json.strOr, Json.find?, List.lookup_cons, h₁, h₂]

theorem onReady_link (h : Host) :
    h.onReady.link =
      if h.fd = none ∨ h.transport.Allows 1 then (h.fd, .authorizing, h.subscribedChannel)
      else down := by
  rw [onReady, command_link, setState_fd, setState_transport, setState_link]

theorem abandon_link (h : Host) : h.abandon.link = (none, .disconnected, h.subscribedChannel) := by
  rw [abandon, setState_link, scheduleReconnect_fd, close_fd]
  have hsub := congrArg (fun l => l.2.2) ((scheduleReconnect_link h.close).trans h.close_link)
  rw [show h.close.scheduleReconnect.subscribedChannel = h.subscribedChannel from hsub]

@[simp] theorem onReady_overlay (h : Host) : h.onReady.overlay = h.overlay := by
  rw [onReady, command_overlay, setState_overlay]

@[simp] theorem abandon_overlay (h : Host) : h.abandon.overlay = h.overlay := by
  rw [abandon, setState_overlay, scheduleReconnect_overlay, close_overlay]

@[simp] theorem onReady_views (h : Host) : h.onReady.views = h.views := by
  rw [onReady, command_views, setState_views]

@[simp] theorem abandon_views (h : Host) : h.abandon.views = h.views := by
  rw [abandon, setState_views, scheduleReconnect_views, close_views]

/-! ## Nested calls -/

/-- What each call keeps the nested calls keep. -/
theorem acts_induct {P : Host → Prop} (hact : ∀ (a : Act) (h : Host), P h → P (h.act a))
    {h : Host} (hh : P h) (as : List Act) : P (h.acts as) :=
  List.foldlRecOn as _ hh fun h hh a _ => hact a h hh

/-- What each event keeps the users of a reply keep. -/
theorem seedStates_induct {P : Host → Prop} {env : MsgEnv}
    (hevent : ∀ (during : List Act) (v : VoiceState) (h : Host), P h →
      P (h.onEvent env.wallMs during { kind := .voiceCreate, voice := v }))
    {h : Host} (hh : P h) (states : List VoiceState) (during : List (List Act)) :
    P (h.seedStates env states during) := by
  induction states generalizing during h with
  | nil => exact hh
  | cons v states ih => exact ih (hevent (during.headD []) v h hh) during.tail

end Host

end Choir
