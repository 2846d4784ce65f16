-- SUMMARY: A client that was started and not stopped has a connection or a pending reconnect.
import ChoirOverlay.Host.Peer

/-!
# Reconnecting

There are many ways to lose the connection: a socket that does not accept, a
frame that does not go out, the end of the stream, a corrupt header, a login
step that fails. All of them end in `schedule_reconnect`, which sets the time
of the next attempt from the clock, so without a connection an attempt is
always pending and never too far off. Only a start and a due reconnect make an
attempt.
-/

namespace Choir

namespace Host

/-- Nothing runs inside the messages. -/
def Step.Flat : Step → Prop
  | .deliver _ _ _ env => env.duringExchange = [] ∧ ∀ as ∈ env.duringFetch, as = []
  | .act _ | .enter _ | .reconnect _ | .fill _ | .lost | .leave => True

instance : (s : Step) → Decidable s.Flat
  | .deliver _ _ _ env => inferInstanceAs (Decidable (env.duringExchange = [] ∧ _))
  | .act _ | .enter _ | .reconnect _ | .fill _ | .lost | .leave => .isTrue trivial

/-- The clock does not go back. -/
def Forward (lib : JsonLib) (h : Host) (s : Step) : Prop := h.clock ≤ (h.step lib s).clock

instance (lib : JsonLib) (h : Host) (s : Step) : Decidable (h.Forward lib s) :=
  inferInstanceAs (Decidable (_ ≤ _))

/-- Whether the last start or stop was a start, after one more call. -/
def startedAfter (before : Bool) : Call → Bool
  | .start _ => true
  | .stop => false
  | .poll _ | .configure _ => before

def started (cs : List Call) : Bool := cs.foldl startedAfter false

/-- A reconnect is pending, at most the delay away. -/
def Awaits (h : Host) : Prop :=
  h.reconnectPending = true ∧ h.reconnectAtMs ≤ h.clock + h.cfg.reconnectDelayMs

/-- Connections are made by a start, which ends a stop, and by a reconnect whose
    time has come on a client that is not stopped; no other step opens one. -/
def AttemptsInTime (lib : JsonLib) (h : Host) : Step → Prop
  | .act (.start _) => True
  | .reconnect _ => h.stopped = false ∧ h.reconnectAtMs ≤ h.clock
  | s => (h.step lib s).transport.opened = h.transport.opened

/-! ## Losing the connection -/

/-- A client that is not stopped has a connection or awaits one. -/
structure Live (h : Host) : Prop where
  stopped : h.stopped = false
  awaits : h.fd = none → h.Awaits

variable {h g k : Host}

theorem Live.of_some {c : Conn} (hs : h.stopped = false) (hfd : h.fd = some c) : h.Live := by
  refine ⟨hs, fun hnone => ?_⟩
  rw [hfd] at hnone
  cases hnone

theorem live_scheduleReconnect (hs : h.stopped = false) : h.scheduleReconnect.Live := by
  have hrun : ¬ h.stopped = true := by rw [hs]; nofun
  unfold scheduleReconnect
  rw [if_neg hrun]
  exact ⟨hs, fun _ => ⟨rfl, Int.le_refl _⟩⟩

/-- An operation that starts, stops and opens nothing, and that does not leave
    the client without a reconnect. -/
structure Persists (h g : Host) : Prop where
  stopped : g.stopped = h.stopped
  opened : g.transport.opened = h.transport.opened
  live : h.Live → g.Live

theorem Persists.refl (h : Host) : Persists h h := ⟨rfl, rfl, id⟩

theorem Persists.trans (hg : Persists h g) (hk : Persists g k) : Persists h k :=
  ⟨hk.stopped.trans hg.stopped, hk.opened.trans hg.opened, fun hl => hk.live (hg.live hl)⟩

theorem persists_record (o : Obs) : Persists h (h.record o) :=
  ⟨rfl, rfl, fun hl => ⟨hl.stopped, hl.awaits⟩⟩

theorem persists_setState (s : ConnectionState) : Persists h (h.setState s) := by
  unfold setState
  split
  · exact .refl h
  · exact ⟨rfl, rfl, fun hl => ⟨hl.stopped, hl.awaits⟩⟩

theorem close_stopped (h : Host) : h.close.stopped = h.stopped := by
  unfold close
  split <;> rfl

theorem close_opened (h : Host) : h.close.transport.opened = h.transport.opened := by
  unfold close
  split <;> rfl

theorem scheduleReconnect_transport (h : Host) : h.scheduleReconnect.transport = h.transport := by
  unfold scheduleReconnect
  split <;> rfl

theorem scheduleReconnect_stopped (h : Host) : h.scheduleReconnect.stopped = h.stopped := by
  unfold scheduleReconnect
  split <;> rfl

/-- A lost connection is followed by a reconnect. -/
theorem persists_handleClosed : Persists h h.handleClosed := by
  unfold handleClosed onClosed
  split
  · exact .refl h
  have hdown := persists_setState (h := h.close.clearChannelState) .disconnected
  have hstopped := hdown.stopped.trans (close_stopped h)
  have hopened := hdown.opened.trans (close_opened h)
  simp only
  split
  · rename_i hs
    refine ⟨hstopped, hopened, fun hl => ?_⟩
    rw [hstopped, hl.stopped] at hs
    cases hs
  · refine ⟨(scheduleReconnect_stopped _).trans hstopped, ?_, fun hl => ?_⟩
    · rw [scheduleReconnect_transport]
      exact hopened
    · exact live_scheduleReconnect (hstopped.trans hl.stopped)

theorem persists_sendRaw (op : Int) (payload : Payload) : Persists h (h.sendRaw op payload) := by
  cases hfd : h.fd with
  | none =>
    rw [sendRaw_of_none h op payload hfd]
    exact .refl h
  | some c =>
    by_cases hw : h.transport.Allows 1
    · rw [sendRaw_of_allows h op payload hfd hw]
      exact ⟨rfl, rfl, fun hl => ⟨hl.stopped, hl.awaits⟩⟩
    · rw [sendRaw_of_not_allows h op payload hfd hw]
      refine Persists.trans ?_ persists_handleClosed
      exact ⟨rfl, rfl, fun hl => ⟨hl.stopped, hl.awaits⟩⟩

theorem persists_command (build : Bytes → Json) : Persists h (h.command build) := by
  have hdrawn : Persists h h.drawn := ⟨rfl, rfl, fun hl => ⟨hl.stopped, hl.awaits⟩⟩
  exact hdrawn.trans (persists_sendRaw ..)

theorem persists_commands (bs : List (Bytes → Json)) : Persists h (h.commands bs) :=
  commands_induct (fun b _ _ hg => hg.trans (persists_command b)) (.refl h)

/-- So is a failed login step. -/
theorem persists_abandon : Persists h h.abandon := by
  have hdown := persists_setState (h := h.close.scheduleReconnect) .disconnected
  have hstopped := (scheduleReconnect_stopped h.close).trans (close_stopped h)
  refine ⟨hdown.stopped.trans hstopped, hdown.opened.trans ?_, fun hl => hdown.live ?_⟩
  · rw [scheduleReconnect_transport, close_opened]
  · exact live_scheduleReconnect ((close_stopped h).trans hl.stopped)

/-! ## Messages -/

theorem persists_handleChannelSelect (id : Bytes) : Persists h (h.handleChannelSelect id) := by
  rw [handleChannelSelect_eq]
  refine Persists.trans ?_ (persists_setState _)
  have hcommands := persists_commands (h := h) (h.selectCommands id)
  exact ⟨hcommands.stopped, hcommands.opened, fun hl =>
    ⟨(hcommands.live hl).stopped, (hcommands.live hl).awaits⟩⟩

/-- Without nested calls an event reaches the reducer only. -/
theorem persists_onEvent (wallMs : Int) (ev : RpcEvent) : Persists h (h.onEvent wallMs [] ev) := by
  have hev : h.onEvent wallMs [] ev = { h with overlay := h.overlay.apply wallMs ev } := ite_self _
  rw [hev]
  exact ⟨rfl, rfl, fun hl => ⟨hl.stopped, hl.awaits⟩⟩

theorem headD_of_flat {during : List (List Act)} (hflat : ∀ as ∈ during, as = []) :
    during.headD [] = [] := by
  cases during with
  | nil => rfl
  | cons as during => exact hflat as List.mem_cons_self

theorem persists_seedStates {env : MsgEnv} {states : List VoiceState} {during : List (List Act)}
    (hflat : ∀ as ∈ during, as = []) : Persists h (h.seedStates env states during) := by
  induction states generalizing during h with
  | nil => exact .refl h
  | cons v states ih =>
    rw [seedStates, headD_of_flat hflat]
    exact (persists_onEvent ..).trans (ih fun as hmem => hflat as (List.mem_of_mem_tail hmem))

/-- Changing the clock where there is a connection. -/
theorem persists_under {c : Conn} (k : Conduct) (hfd : h.fd = some c) : Persists h (h.under k) :=
  ⟨rfl, rfl, fun hl => .of_some hl.stopped hfd⟩

theorem persists_exchanged {lib : JsonLib} {frame : Json} {env : MsgEnv} {c : Conn}
    (hfd : h.fd = some c) (hexchange : env.duringExchange = []) :
    Persists h (h.exchanged lib frame env) := by
  unfold exchanged
  rw [hexchange]
  exact (persists_under env.resumed hfd).trans (persists_record _)

theorem persists_handle {lib : JsonLib} {payload : Bytes} {env : MsgEnv} {a : Arrival} {c : Conn}
    (hfd : h.fd = some c) (hexchange : env.duringExchange = [])
    (hfetch : ∀ as ∈ env.duringFetch, as = []) : Persists h (h.handle lib payload env a) := by
  have hhandles := handles lib payload env a h
  generalize h.handle lib payload env a = g at hhandles ⊢
  cases hhandles with
  | answers => exact persists_sendRaw ..
  | ignores | strayCode | strayLogin | stays => exact .refl h
  | greets => exact (persists_setState .authorizing).trans (persists_command _)
  | noCode | rejected => exact persists_abandon
  | granted => exact (persists_exchanged hfd hexchange).trans (persists_command _)
  | refused => exact (persists_exchanged hfd hexchange).trans persists_abandon
  | accepted => exact (persists_setState .ready).trans (persists_commands _)
  | enters =>
    exact ((persists_onEvent ..).trans (persists_handleChannelSelect _)).trans
      (persists_seedStates hfetch)
  | selects =>
    rw [headD_of_flat hfetch]
    exact (persists_onEvent ..).trans (persists_handleChannelSelect _)
  | reports =>
    rw [headD_of_flat hfetch]
    exact persists_onEvent ..

theorem persists_deliver (lib : JsonLib) (op : Int) (payload rest : Bytes) {env : MsgEnv}
    (hflat : (Step.deliver op payload rest env).Flat) :
    Persists h (h.step lib (.deliver op payload rest env)) := by
  unfold step
  cases hfd : h.fd with
  | none => exact .refl h
  | some c =>
    simp only [dispatch_eq]
    have hreceiving : Persists h ((h.setRbuf rest).receiving c op payload env) :=
      ⟨rfl, rfl, fun hl => .of_some hl.stopped hfd⟩
    exact hreceiving.trans (persists_handle hfd hflat.1 hflat.2)

/-! ## Attempts -/

theorem connect_stopped (h : Host) (probe : Nat → Bool) :
    (h.connect probe).1.stopped = h.stopped := by
  unfold connect
  simp only
  split <;> rfl

/-- An attempt ends with a connection or with the next attempt pending. -/
theorem live_tryConnect (hs : h.stopped = false) (probe : Nat → Bool) :
    (h.tryConnect probe).Live := by
  have hstopped : (h.attempting.connect probe).1.stopped = false :=
    (connect_stopped _ _).trans hs
  rcases h.tryConnect_cases probe with ⟨c, hup, heq⟩ | ⟨-, heq⟩
  · rw [heq]
    exact ((persists_setState .connecting).trans (persists_sendRaw ..)).live
      (.of_some hstopped hup)
  · rw [heq]
    exact live_scheduleReconnect hstopped

theorem live_start (env : ConnectEnv) : (h.act (.start env)).Live :=
  (persists_record _).live (live_tryConnect rfl env.probe)

/-- A step of a poll. -/
theorem live_step {lib : JsonLib} {s : Step} (hl : h.Live) (hpolls : h.Polls s) (hflat : s.Flat)
    (hclock : h.Forward lib s) : (h.step lib s).Live := by
  cases s with
  | act a =>
    cases a with
    | poll => exact (persists_record _).live hl
    | start _ | stop | configure _ => exact hpolls.elim
  | enter k =>
    refine ⟨hl.stopped, fun hfd => ?_⟩
    obtain ⟨hpending, hat⟩ := hl.awaits hfd
    have hlater : h.clock ≤ k.now := hclock
    exact ⟨hpending, Int.le_trans hat (Int.add_le_add_right hlater _)⟩
  | reconnect probe => exact live_tryConnect hl.stopped probe
  | fill rbuf => exact ⟨hl.stopped, hl.awaits⟩
  | lost => exact persists_handleClosed.live hl
  | deliver op payload rest env => exact (persists_deliver lib op payload rest hflat).live hl
  | leave => exact (persists_record _).live ⟨hl.stopped, hl.awaits⟩

theorem stop_opened (h : Host) : h.stop.transport.opened = h.transport.opened := by
  unfold stop
  rw [setState_transport, close_opened]
  rfl

theorem attemptsInTime_step {lib : JsonLib} {s : Step} (hdue : h.WhenDue s) (hflat : s.Flat) :
    h.AttemptsInTime lib s := by
  cases s with
  | act a =>
    cases a with
    | start env => trivial
    | stop => exact stop_opened h
    | poll => rfl
    | configure cfg => rfl
  | enter k => rfl
  | reconnect probe =>
    have hall : (h.reconnectPending && !h.stopped && decide (h.reconnectAtMs ≤ h.clock)) = true :=
      hdue
    simp only [Bool.and_eq_true, Bool.not_eq_true', decide_eq_true_eq] at hall
    exact ⟨hall.1.2, hall.2⟩
  | fill rbuf => rfl
  | lost => exact (persists_handleClosed (h := h)).opened
  | deliver op payload rest env => exact (persists_deliver lib op payload rest hflat).opened
  | leave => rfl

/-! ## Runs -/

/-- A started client stays live until it is stopped. -/
theorem live_run {lib : JsonLib} {cs : List Call} {before : Bool}
    (hgood : Machine.Along (step lib) (fun h s => s.Flat ∧ h.Forward lib s) h (steps lib h cs))
    (hl : before = true → h.Live) (hstarted : cs.foldl startedAfter before = true) :
    (Machine.run (exec lib) h cs).Live := by
  induction cs generalizing h before with
  | nil => exact hl hstarted
  | cons c cs ih =>
    rw [steps, Machine.along_append, run_callSteps] at hgood
    refine ih hgood.2 (fun hnow => ?_) hstarted
    cases c with
    | start env => exact live_start env
    | stop => cases hnow
    | configure cfg => exact ⟨(hl hnow).stopped, (hl hnow).awaits⟩
    | poll env =>
      rw [← run_callSteps]
      exact ((polls_pollSteps lib env h).and hgood.1).invariant
        (fun h s hl hs => live_step hl hs.1 hs.2.1 hs.2.2) (hl hnow)

/-- In a run from any state, without nested calls and with a clock that does not
    go back, a client whose last start or stop was a start has a connection or a
    reconnect pending, no later than the delay from now, whenever a call
    returns; and it attempts a connection only when started or when the
    reconnect is due. -/
theorem run_reconnects (lib : JsonLib) (h : Host) (cs : List Call)
    (hflat : ∀ s ∈ steps lib h cs, s.Flat)
    (hclock : Machine.Along (step lib) (Forward lib) h (steps lib h cs)) :
    (∀ pre, pre <+: cs → started pre = true → (Machine.run (exec lib) h pre).fd = none →
        (Machine.run (exec lib) h pre).Awaits) ∧
      Machine.Along (step lib) (AttemptsInTime lib) h (steps lib h cs) := by
  have hflat : Machine.Along (step lib) (fun _ => Step.Flat) h (steps lib h cs) :=
    Machine.along_of_forall hflat
  constructor
  · rintro pre ⟨post, rfl⟩ hstarted hfd
    rw [steps_append] at hflat hclock
    have hgood := ((Machine.along_append h _ _).mp hflat).1.and
      ((Machine.along_append h _ _).mp hclock).1
    exact (live_run hgood (fun hno : false = true => nomatch hno) hstarted).awaits hfd
  · exact ((whenDue_steps lib h cs).and hflat).imp fun h s hs => attemptsInTime_step hs.1 hs.2

/-- No socket accepts at the start; when the reconnect is due one does, but the
    answer to `READY` does not go out. -/
theorem run_reconnects_refused :
    let h : Host := { init {} {} [] with clock := 5 }
    let cs : List Call :=
      [.start { now := 10, probe := fun _ => false }, .poll { now := 3000 }, .poll { now := 3010 },
       .poll {
        now := 3020
        reads := [.data (IpcTransport.frame kOpFrame (JsonText.text peerReady))]
        msgs := [{ now := 3021, writes := [false] }] }]
    (Machine.run (exec compactJson) h cs).fd = none ∧
      (Machine.run (exec compactJson) h cs).reconnectAtMs = 6021 ∧
      (Machine.run (exec compactJson) h cs).Awaits := by
  have hdown : (Machine.run (exec compactJson) { init {} {} [] with clock := 5 }
      [.start { now := 10, probe := fun _ => false }, .poll { now := 3000 }, .poll { now := 3010 },
       .poll {
        now := 3020
        reads := [.data (IpcTransport.frame kOpFrame (JsonText.text peerReady))]
        msgs := [{ now := 3021, writes := [false] }] }]).fd = none := by decide +kernel
  refine ⟨hdown, by decide +kernel, ?_⟩
  exact (run_reconnects compactJson _ _ (by decide +kernel) (by decide +kernel)).1 _
    (List.prefix_refl _) rfl hdown

end Host

end Choir
