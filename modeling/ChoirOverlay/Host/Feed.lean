-- SUMMARY: The events each message feeds to the reducer, and that nothing else reaches its roster.
import ChoirOverlay.Host.Run

/-!
# What the reducer is fed

The roster and the channel on show follow from the events fed to the reducer:
one for an event of the peer, and for a query reply that enters a channel the
channel select and the users of the reply. Nothing else the client does, and no
call that runs while images are fetched, reaches them.
-/

namespace Choir

namespace Host

/-- The events that the handler of an arrival feeds to the reducer. -/
def feeds (h : Host) : Arrival → List RpcEvent
  | .event ev => [ev]
  | .selectedReply frame =>
    let sel := parseSelectedVoiceChannel frame
    if h.state ≠ .ready ∧ h.state ≠ .inChannel then []
    else if ¬ sel.inChannel then []
    else if sel.channelId = h.subscribedChannel then []
    else
      { kind := .channelSelect, channelId := sel.channelId } :: OverlayState.creates sel.states
  | .ping | .ignored | .ready | .authorizeReply _ | .authenticateReply _ => []

variable {h : Host}

theorem act_voice (a : Act) : (h.act a).overlay.voice = h.overlay.voice := by
  cases a with
  | start env => exact congrArg OverlayState.voice (start_overlay h env)
  | stop => exact congrArg OverlayState.voice (stop_overlay h)
  | poll => rfl
  | configure cfg => rfl

theorem acts_voice (as : List Act) : (h.acts as).overlay.voice = h.overlay.voice :=
  acts_induct (P := fun g => g.overlay.voice = h.overlay.voice)
    (fun a _ hg => (act_voice a).trans hg) rfl as

theorem onEvent_voice (wallMs : Int) (during : List Act) (ev : RpcEvent) :
    (h.onEvent wallMs during ev).overlay.voice = (h.overlay.apply wallMs ev).voice := by
  unfold onEvent
  simp only
  split
  · exact acts_voice during
  · rfl

theorem seedStates_voice (env : MsgEnv) (states : List VoiceState) (during : List (List Act)) :
    (h.seedStates env states during).overlay.voice =
      (h.overlay.applyAll (OverlayState.creates states)).voice := by
  induction states generalizing during h with
  | nil => rfl
  | cons v states ih =>
    rw [seedStates, ih, OverlayState.applyAll_creates_cons]
    apply OverlayState.voice_applyAll
    rw [onEvent_voice]
    exact OverlayState.voice_apply rfl env.wallMs 0 _

/-- An arrival brings the reducer its feeds. -/
theorem handle_voice (lib : JsonLib) (payload : Bytes) (env : MsgEnv) (a : Arrival) :
    (h.handle lib payload env a).overlay.voice = (h.overlay.applyAll (h.feeds a)).voice := by
  have hhandles := handles lib payload env a h
  generalize h.handle lib payload env a = g at hhandles ⊢
  cases hhandles with
  | answers => exact congrArg OverlayState.voice (sendRaw_overlay ..)
  | ignores | strayCode | strayLogin => rfl
  | greets => exact congrArg OverlayState.voice (onReady_overlay h)
  | noCode | rejected => exact congrArg OverlayState.voice (abandon_overlay h)
  | granted => exact (congrArg OverlayState.voice (command_overlay ..)).trans (acts_voice _)
  | refused => exact (congrArg OverlayState.voice (abandon_overlay _)).trans (acts_voice _)
  | accepted =>
    rw [commands_overlay, setState_overlay]
    rfl
  | @stays frame hstay =>
    have hfeeds : h.feeds (.selectedReply frame) = [] := by
      simp only [feeds]
      rcases hstay with hs | hin | hsame
      · rw [if_pos hs]
      · simp [hin]
      · simp [hsame]
    rw [hfeeds]
    rfl
  | enters hs hin hother =>
    simp only [feeds]
    rw [if_neg (Decidable.or_iff_not_not_and_not.mp hs), if_neg (not_not.mpr hin), if_neg hother,
      seedStates_voice, OverlayState.applyAll_cons]
    apply OverlayState.voice_applyAll
    rw [handleChannelSelect_overlay, onEvent_voice]
    exact OverlayState.voice_apply rfl env.wallMs 0 _
  | selects =>
    rw [handleChannelSelect_overlay, onEvent_voice]
    exact OverlayState.voice_apply rfl env.wallMs 0 _
  | reports =>
    rw [onEvent_voice]
    exact OverlayState.voice_apply rfl env.wallMs 0 _

/-- Only a message reaches the roster. -/
theorem step_voice (lib : JsonLib) (s : Step)
    (hs : ∀ op payload rest env, s ≠ .deliver op payload rest env) :
    (h.step lib s).overlay.voice = h.overlay.voice := by
  cases s with
  | act a => exact act_voice a
  | enter k => rfl
  | reconnect probe => exact congrArg OverlayState.voice (tryConnect_overlay h probe)
  | fill rbuf => rfl
  | lost => exact congrArg OverlayState.voice (handleClosed_overlay h)
  | deliver op payload rest env => exact absurd rfl (hs op payload rest env)
  | leave => rfl

theorem deliver_voice {c : Conn} (hfd : h.fd = some c) (lib : JsonLib) (op : Int)
    (payload rest : Bytes) (env : MsgEnv) :
    (h.step lib (.deliver op payload rest env)).overlay.voice =
      (h.overlay.applyAll (h.feeds (arrival lib op payload))).voice := by
  unfold step
  simp only [hfd, dispatch_eq]
  rw [handle_voice]
  rfl

end Host

end Choir
