-- SUMMARY: What the reply to GET_SELECTED_VOICE_CHANNEL leaves on show, from any state the host can reach.
import ChoirOverlay.Host.Feed
import ChoirOverlay.Host.Peer

/-!
# The reply to `GET_SELECTED_VOICE_CHANNEL`

The reply is ignored when it names the subscribed channel or none, so what it
says is on show afterwards only where it was already. Every other reply sets
the channel and the roster.
-/

namespace Choir

/-- The snapshot shows what the reply says: the channel it names, with every
    user it lists. -/
def OverlayState.Shows (s : OverlayState) (sel : SelectedChannel) : Prop :=
  s.snap.inVoice = sel.inChannel ∧
    (sel.inChannel = true →
      s.snap.channelName = sel.channelId ∧ ∀ v ∈ sel.states, v.userId ∈ s.roster)

instance (s : OverlayState) (sel : SelectedChannel) : Decidable (s.Shows sel) :=
  inferInstanceAs (Decidable (_ ∧ (_ → _ ∧ _)))

namespace Host

/-- The reply changes what is on show, or agrees with it: a channel that is
    subscribed has all the users listed, and there is no voice session when the
    reply names no channel. -/
def Settles (h : Host) (sel : SelectedChannel) : Prop :=
  (sel.inChannel = true → sel.channelId = h.subscribedChannel →
    ∀ v ∈ sel.states, v.userId ∈ h.overlay.roster) ∧
    (sel.inChannel = false → h.overlay.snap.inVoice = false)

instance (h : Host) (sel : SelectedChannel) : Decidable (h.Settles sel) :=
  inferInstanceAs (Decidable ((_ → _ → _) ∧ (_ → _)))

variable {h h' : Host}

/-! ## A subscribed channel is on show -/

def Shown (h : Host) : Prop :=
  h.subscribedChannel ≠ [] →
    h.overlay.snap.inVoice = true ∧ h.overlay.snap.channelName = h.subscribedChannel

/-- No channel is entered, and none taken off show. -/
structure Steady (h h' : Host) : Prop where
  inVoice : h'.overlay.snap.inVoice = h.overlay.snap.inVoice
  channelName : h'.overlay.snap.channelName = h.overlay.snap.channelName
  subscribed : h'.subscribedChannel = h.subscribedChannel ∨ h'.subscribedChannel = []

theorem Steady.refl (h : Host) : Steady h h := ⟨rfl, rfl, .inl rfl⟩

theorem Steady.trans {h₁ h₂ h₃ : Host} (h₁₂ : Steady h₁ h₂) (h₂₃ : Steady h₂ h₃) :
    Steady h₁ h₃ where
  inVoice := h₂₃.inVoice.trans h₁₂.inVoice
  channelName := h₂₃.channelName.trans h₁₂.channelName
  subscribed := by
    rcases h₂₃.subscribed with heq | heq
    · rw [heq]
      exact h₁₂.subscribed
    · exact .inr heq

theorem Steady.shown (hst : Steady h h') (hs : h.Shown) : h'.Shown := by
  intro hsub
  rcases hst.subscribed with heq | heq
  · rw [hst.inVoice, hst.channelName, heq]
    exact hs (heq ▸ hsub)
  · exact absurd heq hsub

/-- An operation that leaves the reducer alone. -/
theorem Steady.of_link (hov : h'.overlay = h.overlay)
    (hlink : h'.link.2.2 = h.subscribedChannel ∨ h'.link.2.2 = []) : Steady h h' where
  inVoice := by rw [hov]
  channelName := by rw [hov]
  subscribed := hlink

theorem steady_sendRaw (op : Int) (payload : Payload) : Steady h (h.sendRaw op payload) := by
  refine .of_link (sendRaw_overlay ..) ?_
  rw [sendRaw_link]
  split
  · exact .inl rfl
  · exact .inr rfl

theorem steady_commands (bs : List (Bytes → Json)) : Steady h (h.commands bs) := by
  refine .of_link (commands_overlay ..) ?_
  rw [commands_link]
  split
  · exact .inl rfl
  · exact .inr rfl

theorem steady_setState (s : ConnectionState) : Steady h (h.setState s) := by
  refine .of_link (setState_overlay ..) ?_
  rw [setState_link]
  exact .inl rfl

theorem steady_abandon : Steady h h.abandon := by
  refine .of_link (abandon_overlay ..) ?_
  rw [abandon_link]
  exact .inl rfl

theorem steady_handleClosed : Steady h h.handleClosed := by
  cases hfd : h.fd with
  | none =>
    rw [handleClosed_of_none h hfd]
    exact .refl h
  | some c =>
    refine .of_link (handleClosed_overlay h) ?_
    rw [handleClosed_link h (by simp [hfd])]
    exact .inr rfl

theorem steady_tryConnect (probe : Nat → Bool) : Steady h (h.tryConnect probe) := by
  refine .of_link (tryConnect_overlay ..) ?_
  rw [tryConnect_link]
  refine .inr ?_
  split
  · rfl
  · split <;> rfl

theorem steady_act (a : Act) : Steady h (h.act a) := by
  cases a with
  | start env =>
    refine .of_link (start_overlay h env) (.inr ?_)
    rw [show (h.act (.start env)).link = (h.start env).link from rfl, start_link]
    split
    · rfl
    · split <;> rfl
  | stop => exact .of_link (stop_overlay h) (.inr (congrArg (fun l => l.2.2) (stop_link h)))
  | poll => exact ⟨rfl, rfl, .inl rfl⟩
  | configure cfg => exact ⟨rfl, rfl, .inl rfl⟩

theorem steady_acts (as : List Act) : Steady h (h.acts as) :=
  acts_induct (fun a _ hg => hg.trans (steady_act a)) (.refl h) as

theorem steady_exchanged (lib : JsonLib) (frame : Json) (env : MsgEnv) :
    Steady h (h.exchanged lib frame env) :=
  { (steady_acts env.duringExchange : Steady h _) with }

theorem steady_onEvent {wallMs : Int} {during : List Act} {ev : RpcEvent}
    (hk : ev.kind ≠ .channelSelect) : Steady h (h.onEvent wallMs during ev) := by
  obtain ⟨hvoice, hname⟩ := OverlayState.apply_channel wallMs h.overlay hk
  have happly : Steady h { h with overlay := h.overlay.apply wallMs ev } :=
    ⟨hvoice, hname, .inl rfl⟩
  unfold onEvent
  simp only
  split
  · exact happly.trans (steady_acts during)
  · exact happly

theorem steady_seedStates (env : MsgEnv) (states : List VoiceState) (during : List (List Act)) :
    Steady h (h.seedStates env states during) :=
  seedStates_induct (fun _ _ _ hg => hg.trans (steady_onEvent (by simp))) (.refl h) states during

/-- A channel select puts the channel it subscribes to on show. -/
theorem channelSelect_shown (wallMs : Int) (during : List Act) (ev : RpcEvent)
    (hk : ev.kind = .channelSelect) :
    ((h.onEvent wallMs during ev).handleChannelSelect ev.channelId).overlay.snap.inVoice =
        !ev.channelId.isEmpty ∧
      ((h.onEvent wallMs during ev).handleChannelSelect ev.channelId).overlay.snap.channelName =
        ev.channelId ∧
      ((h.onEvent wallMs during ev).handleChannelSelect ev.channelId).subscribedChannel =
        ev.channelId := by
  have hover : (h.onEvent wallMs during ev).overlay = h.overlay.apply wallMs ev := by
    simp only [onEvent, fetchesImages, hk, Bool.false_eq_true, if_false]
  have hsub := congrArg (fun l => l.2.2)
    ((h.onEvent wallMs during ev).handleChannelSelect_link ev.channelId)
  rw [handleChannelSelect_overlay, hover]
  refine ⟨?_, ?_, hsub⟩ <;> simp only [OverlayState.apply, hk] <;> rfl

theorem shown_channelSelect (wallMs : Int) (during : List Act) (ev : RpcEvent)
    (hk : ev.kind = .channelSelect) :
    ((h.onEvent wallMs during ev).handleChannelSelect ev.channelId).Shown := by
  obtain ⟨hvoice, hname, hsub⟩ := channelSelect_shown (h := h) wallMs during ev hk
  intro hne
  rw [hsub] at hne ⊢
  refine ⟨?_, hname⟩
  rw [hvoice]
  simpa using hne

theorem shown_handle {lib : JsonLib} {payload : Bytes} {env : MsgEnv} (a : Arrival)
    (hs : h.Shown) : (h.handle lib payload env a).Shown := by
  have hhandles := handles lib payload env a h
  generalize h.handle lib payload env a = g at hhandles ⊢
  cases hhandles with
  | answers => exact (steady_sendRaw ..).shown hs
  | ignores | strayCode | strayLogin | stays => exact hs
  | greets => exact ((steady_setState .authorizing).trans (steady_commands [_])).shown hs
  | noCode | rejected => exact steady_abandon.shown hs
  | granted => exact ((steady_exchanged ..).trans (steady_commands [_])).shown hs
  | refused => exact ((steady_exchanged ..).trans steady_abandon).shown hs
  | accepted => exact ((steady_setState .ready).trans (steady_commands _)).shown hs
  | enters =>
    exact (steady_seedStates ..).shown (shown_channelSelect (h := h) env.wallMs []
      { kind := .channelSelect, channelId := _ } rfl)
  | selects hk => exact shown_channelSelect _ _ _ hk
  | reports hk => exact (steady_onEvent hk).shown hs

theorem shown_step (lib : JsonLib) (h : Host) (s : Step) (hs : h.Shown) : (h.step lib s).Shown := by
  cases s with
  | act a => exact (steady_act a).shown hs
  | enter k => exact hs
  | reconnect probe => exact (steady_tryConnect probe).shown hs
  | fill rbuf => exact hs
  | lost => exact steady_handleClosed.shown hs
  | deliver op payload rest env =>
    unfold step
    cases hfd : h.fd with
    | none => exact hs
    | some c =>
      simp only [dispatch_eq]
      exact shown_handle _ hs
  | leave => exact hs

/-! ## The roster's index -/

theorem stable_indexed : Stable fun h => h.overlay.Indexed where
  congr _ _ _ ho _ hi := by rw [ho]; exact hi
  record _ _ hi := hi
  under _ _ hi := hi
  shut _ hi := hi
  written _ hi := hi
  connect probe h hi := by rw [connect_overlay]; exact hi
  apply now ev _ hi := hi.apply now ev
  setConfig _ _ hi := hi

theorem indexed_step (lib : JsonLib) (h : Host) (s : Step) (hi : h.overlay.Indexed) :
    (h.step lib s).overlay.Indexed := by
  cases s with
  | act a => exact stable_indexed.act hi
  | enter k => exact hi
  | reconnect probe => exact stable_indexed.tryConnect hi
  | fill rbuf => exact hi
  | lost => exact stable_indexed.handleClosed hi
  | deliver op payload rest env =>
    unfold step
    cases hfd : h.fd with
    | none => exact hi
    | some c => exact stable_indexed.dispatch lib c op payload env (h := h.setRbuf rest) hi
  | leave => exact hi

/-! ## Seeding the roster -/

/-- Seeding adds the users of the reply to the roster, and nobody else. -/
theorem mem_roster_seedStates {env : MsgEnv} {states : List VoiceState}
    {during : List (List Act)} (hi : h.overlay.Indexed) (u : Bytes) :
    u ∈ (h.seedStates env states during).overlay.roster ↔
      u ∈ h.overlay.roster ∨ ∃ v ∈ states, v.userId = u := by
  rw [OverlayState.roster_of_voice (seedStates_voice env states during)]
  exact hi.mem_roster_creates states u

/-! ## The reply -/

/-- The handler, in a state with a logged-in client. -/
theorem handleSelectedVoiceChannel_shows {frame : Json} {env : MsgEnv}
    (hs : h.state = .ready ∨ h.state = .inChannel) (hshown : h.Shown) (hi : h.overlay.Indexed) :
    (h.handleSelectedVoiceChannel frame env).overlay.Shows (parseSelectedVoiceChannel frame) ↔
      h.Settles (parseSelectedVoiceChannel frame) := by
  have hnamed := parseSelectedVoiceChannel_inChannel frame
  unfold handleSelectedVoiceChannel
  simp only
  generalize parseSelectedVoiceChannel frame = sel at hnamed ⊢
  have hgate : ¬ (h.state ≠ .ready ∧ h.state ≠ .inChannel) := by
    rintro ⟨hr, hc⟩
    rcases hs with hs | hs
    · exact hr hs
    · exact hc hs
  rw [if_neg hgate]
  cases hin : sel.inChannel with
  | false => simp [OverlayState.Shows, Settles, hin]
  | true =>
    have hid : sel.channelId ≠ [] := hnamed.mp hin
    by_cases hsub : sel.channelId = h.subscribedChannel
    · -- the reply is ignored, and its channel is on show already
      obtain ⟨hvoice, hname⟩ := hshown (hsub ▸ hid)
      simp [OverlayState.Shows, Settles, hin, hsub, hvoice, hname]
    · -- the reply goes the way of a channel select
      have hsettles : h.Settles sel := by simp [Settles, hin, hsub]
      refine iff_of_true ?_ hsettles
      obtain ⟨hvoice, hname, -⟩ := channelSelect_shown (h := h) env.wallMs []
        { kind := .channelSelect, channelId := sel.channelId } rfl
      have hindexed : ((h.onEvent env.wallMs [] { kind := .channelSelect, channelId := sel.channelId
          }).handleChannelSelect sel.channelId).overlay.Indexed :=
        stable_indexed.handleChannelSelect (stable_indexed.onEvent hi)
      have hsteady := steady_seedStates (h := (h.onEvent env.wallMs []
        { kind := .channelSelect, channelId := sel.channelId }).handleChannelSelect sel.channelId)
        env sel.states env.duringFetch
      rw [if_neg (by simp), if_neg hsub]
      refine ⟨?_, fun _ => ⟨hsteady.channelName.trans hname, fun v hv => ?_⟩⟩
      · rw [hsteady.inVoice, hvoice, hin]
        simpa using hid
      · exact (mem_roster_seedStates hindexed v.userId).mpr (.inr ⟨v, hv, rfl⟩)

/-- From every state the host can reach, a reply to a logged-in client is on
    show after its message exactly when it settles what is shown. -/
theorem selectedReply_shown_iff (lib : JsonLib) (cfg : RpcConfig) (appearance : AppearanceConfig)
    (nonceSeed : Bytes) (ss : List Step) (op : Int) (payload rest : Bytes) (env : MsgEnv)
    (frame : Json) (harr : arrival lib op payload = .selectedReply frame) (h : Host)
    (hreach : h = Machine.run (step lib) (init cfg appearance nonceSeed) ss)
    (hs : h.state = .ready ∨ h.state = .inChannel) (hfd : h.fd ≠ none) :
    (h.step lib (.deliver op payload rest env)).overlay.Shows (parseSelectedVoiceChannel frame) ↔
      h.Settles (parseSelectedVoiceChannel frame) := by
  have hshown : h.Shown := by
    rw [hreach]
    exact Machine.run_invariant (shown_step lib) (fun hne => absurd rfl hne) ss
  have hindexed : h.overlay.Indexed := by
    rw [hreach]
    exact Machine.run_invariant (P := fun h : Host => h.overlay.Indexed) (indexed_step lib)
      OverlayState.indexed_init ss
  obtain ⟨c, hc⟩ := Option.ne_none_iff_exists'.mp hfd
  unfold step
  simp only [hc, dispatch_eq, harr]
  exact handleSelectedVoiceChannel_shows (h := (h.setRbuf rest).receiving c op payload env) hs
    hshown hindexed

/-- After the login a reply with one user puts its channel and that user on
    show. -/
theorem selectedReply_shown_after_login :
    let h := Machine.run (step compactJson) (init {} {} [])
      (steps compactJson (init {} {} []) login)
    (h.step compactJson (.deliver kOpFrame (JsonText.text (peerSelected (ascii "1") [ascii "u"]))
        [] {})).overlay.Shows (parseSelectedVoiceChannel (peerSelected (ascii "1") [ascii "u"])) ↔
      h.Settles (parseSelectedVoiceChannel (peerSelected (ascii "1") [ascii "u"])) :=
  selectedReply_shown_iff compactJson {} {} [] _ kOpFrame _ [] {} _
    ((arrival_dump compactJson (by decide +kernel) (by decide +kernel)).trans (ofJson_selected _ _))
    _ rfl (by decide +kernel) (by decide +kernel)

/-- A channel select that overtakes the reply leaves the users in the channel
    off the roster. -/
theorem selectedReply_overtaken_not_shown :
    let h := Machine.run (exec compactJson) (init {} {} [])
      (login ++ [deliver (peerChannelSelect (ascii "1")) {}])
    h.state = .inChannel ∧
      ¬ (h.exec compactJson (deliver (peerSelected (ascii "1") [ascii "u"]) {})).overlay.Shows
        (parseSelectedVoiceChannel (peerSelected (ascii "1") [ascii "u"])) := by
  decide +kernel

end Host

end Choir
