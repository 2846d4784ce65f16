-- SUMMARY: When the roster shown to the games is the one of the client's voice session.
import ChoirOverlay.Host.Peer
import Mathlib.Tactic.ByContra

/-!
# The client's channel and the reducer's

The reducer learns of the voice session from events only. A channel select
brings both to the same channel. Nothing tells the reducer when the client
loses its session: a stop, a start, a reconnect, a lost connection or a
`READY` in a channel leave it showing the old one.
-/

namespace Choir

/-- The reducer shows a voice session when the client is in a channel, and it
    shows that channel. -/
def View.Agrees (v : View) : Prop :=
  (v.state ≠ .inChannel → v.snap.inVoice = false ∧ v.snap.participants = []) ∧
    (v.state = .inChannel → v.snap.inVoice = true ∧ v.snap.channelName = v.subscribedChannel)

instance (v : View) : Decidable v.Agrees := inferInstanceAs (Decidable (_ ∧ _))

/-- A call that neither starts nor stops the client. -/
def Act.Quiet : Act → Prop
  | .start _ | .stop => False
  | .poll | .configure _ => True

instance : (a : Act) → Decidable a.Quiet
  | .start _ | .stop => .isFalse id
  | .poll | .configure _ => .isTrue trivial

/-- Nothing starts or stops the client during the image fetches for the users
    of a reply. -/
def QuietSeed : List VoiceState → List (List Act) → Prop
  | [], _ => True
  | v :: states, during =>
    (v.avatarHash ≠ [] → ∀ a ∈ during.headD [], a.Quiet) ∧ QuietSeed states during.tail

instance decidableQuietSeed :
    (states : List VoiceState) → (during : List (List Act)) → Decidable (QuietSeed states during)
  | [], _ => .isTrue trivial
  | _ :: states, during =>
    have := decidableQuietSeed states during.tail
    inferInstanceAs (Decidable (_ ∧ _))

def RpcEvent.isVoice (ev : RpcEvent) : Bool :=
  ev.kind = .voiceCreate || ev.kind = .voiceUpdate

/-- The arrivals that keep the two in step. In a channel: no `READY`, no
    failing answer to a ping, no start or stop during a fetch. Outside: no
    voice state. -/
def Arrival.KeepsAgreement (h : Host) (env : MsgEnv) : Arrival → Prop
  | .ping => h.state = .inChannel → env.Allows 1
  | .ready => h.state ≠ .inChannel
  | .selectedReply frame =>
    (h.state = .ready ∨ h.state = .inChannel) →
      (parseSelectedVoiceChannel frame).inChannel = true →
        (parseSelectedVoiceChannel frame).channelId ≠ h.subscribedChannel →
          QuietSeed (parseSelectedVoiceChannel frame).states env.duringFetch
  | .event ev =>
    (ev.isVoice = true → h.state = .inChannel) ∧
      (h.state = .inChannel → Host.fetchesImages ev = true →
        ∀ a ∈ env.duringFetch.headD [], a.Quiet)
  | _ => True

instance (h : Host) (env : MsgEnv) : (a : Arrival) → Decidable (a.KeepsAgreement h env)
  | .ping => inferInstanceAs (Decidable (_ → _))
  | .ready => inferInstanceAs (Decidable (¬ _))
  | .selectedReply _ => inferInstanceAs (Decidable (_ → _ → _ → _))
  | .event _ => inferInstanceAs (Decidable (_ ∧ _))
  | .ignored | .authorizeReply _ | .authenticateReply _ => .isTrue trivial

namespace Host

/-- The steps that keep the two in step: in a channel, no start, no stop, no
    reconnect and no lost connection. -/
def KeepsAgreement (lib : JsonLib) (h : Host) : Step → Prop
  | .act a => h.state = .inChannel → a.Quiet
  | .reconnect _ => h.state ≠ .inChannel
  | .lost => h.state ≠ .inChannel
  | .deliver op payload _ env => (arrival lib op payload).KeepsAgreement h env
  | _ => True

instance (lib : JsonLib) (h : Host) : (s : Step) → Decidable (h.KeepsAgreement lib s)
  | .act _ => inferInstanceAs (Decidable (_ → _))
  | .reconnect _ | .lost => inferInstanceAs (Decidable (¬ _))
  | .deliver op payload _ env =>
    inferInstanceAs (Decidable ((arrival lib op payload).KeepsAgreement h env))
  | .enter _ | .fill _ | .leave => .isTrue trivial

variable {h g : Host}

/-! ## Outside a channel -/

/-- The reducer shows no session. -/
def Silent (h : Host) : Prop := h.overlay.snap.inVoice = false ∧ h.overlay.snap.participants = []

theorem agrees_of_silent (hs : h.state ≠ .inChannel) (hq : h.Silent) : h.view.Agrees :=
  ⟨fun _ => hq, fun he => absurd he hs⟩

theorem Silent.congr (hq : h.Silent) (ho : g.overlay = h.overlay) : g.Silent := by
  unfold Silent
  rw [ho]
  exact hq

/-- Outside a channel and with nothing shown. -/
def Out (h : Host) : Prop := h.state ≠ .inChannel ∧ h.Silent

theorem Out.agrees (ho : h.Out) : h.view.Agrees := agrees_of_silent ho.1 ho.2

theorem Out.of_link (hq : h.Silent) (hov : g.overlay = h.overlay)
    (hs : g.link.2.1 ≠ .inChannel) : g.Out := ⟨hs, hq.congr hov⟩

/-- A connection attempt does not enter a channel. -/
theorem tryConnect_state (probe : Nat → Bool) (hs : h.state ≠ .inChannel) :
    (h.tryConnect probe).link.2.1 ≠ .inChannel := by
  rw [tryConnect_link]
  split
  · exact hs
  · split <;> simp [down]

theorem Out.act {a : Act} (ho : h.Out) : (h.act a).Out := by
  cases a with
  | start env =>
    exact Out.of_link (g := (h.start env).returned) ho.2 (start_overlay h env)
      (tryConnect_state (h := { h.under env.toConduct with
        stopped := false, reconnectPending := false }) env.probe ho.1)
  | stop =>
    refine Out.of_link (g := h.stop.returned) ho.2 (stop_overlay h) ?_
    rw [show h.stop.returned.link = down from stop_link h]
    simp [down]
  | poll => exact ho
  | configure cfg => exact ho

theorem Out.acts (as : List Act) (ho : h.Out) : (h.acts as).Out :=
  acts_induct (fun _ _ hg => Out.act hg) ho as

/-- Calls that return outside a channel, with nothing shown. -/
theorem Out.upholds_acts (as : List Act) (ho : h.Out) (hh : h.Upholds View.Agrees) :
    (h.acts as).Upholds View.Agrees := by
  induction as generalizing h with
  | nil => exact hh
  | cons a as ih =>
    refine ih ho.act ?_
    have hnext := (ho.act (a := a)).agrees
    cases a with
    | start env => exact (hh.of_views (g := h.start env) (start_views h env) hnext).returned
    | stop => exact (hh.of_views (g := h.stop) (stop_views h) hnext).returned
    | poll => exact hh.returned
    | configure cfg => exact hh.of_views rfl hnext

theorem Out.commands (bs : List (Bytes → Json)) (ho : h.Out) : (h.commands bs).Out := by
  refine Out.of_link ho.2 (commands_overlay h bs) ?_
  rw [commands_link]
  split
  · exact ho.1
  · simp [down]

theorem Out.abandon (ho : h.Out) : h.abandon.Out := by
  refine Out.of_link ho.2 (abandon_overlay h) ?_
  rw [abandon_link]
  simp

/-! ## In a channel -/

/-- The client is in a channel and the reducer shows it. -/
def In (h : Host) : Prop :=
  h.state = .inChannel ∧ h.overlay.snap.inVoice = true ∧
    h.overlay.snap.channelName = h.subscribedChannel

theorem In.agrees (hi : h.In) : h.view.Agrees := ⟨fun hs => absurd hi.1 hs, fun _ => hi.2⟩

theorem in_or_out (ha : h.view.Agrees) : h.In ∨ h.Out := by
  by_cases hs : h.state = .inChannel
  · exact .inl ⟨hs, ha.2 hs⟩
  · exact .inr ⟨hs, ha.1 hs⟩

theorem In.act {a : Act} (hi : h.In) (hq : a.Quiet) : (h.act a).In := by
  cases a with
  | start env => exact hq.elim
  | stop => exact hq.elim
  | poll => exact hi
  | configure cfg => exact hi

theorem In.upholds_acts (as : List Act) (hi : h.In) (hh : h.Upholds View.Agrees)
    (hq : ∀ a ∈ as, a.Quiet) : (h.acts as).In ∧ (h.acts as).Upholds View.Agrees := by
  induction as generalizing h with
  | nil => exact ⟨hi, hh⟩
  | cons a as ih =>
    have hqa := hq a List.mem_cons_self
    refine ih (hi.act hqa) ?_ fun b hb => hq b (List.mem_cons_of_mem a hb)
    cases a with
    | start env => exact hqa.elim
    | stop => exact hqa.elim
    | poll => exact hh.returned
    | configure cfg => exact hh.of_views rfl hi.agrees

/-- Every event but a channel select, in a channel. -/
theorem In.upholds_onEvent (wallMs : Int) {during : List Act} (ev : RpcEvent) (hi : h.In)
    (hh : h.Upholds View.Agrees) (hk : ev.kind ≠ .channelSelect)
    (hq : fetchesImages ev = true → ∀ a ∈ during, a.Quiet) :
    (h.onEvent wallMs during ev).In ∧ (h.onEvent wallMs during ev).Upholds View.Agrees := by
  obtain ⟨hvoice, hname⟩ := OverlayState.apply_channel wallMs h.overlay hk
  have happly : ({ h with overlay := h.overlay.apply wallMs ev } : Host).In :=
    ⟨hi.1, hvoice.trans hi.2.1, hname.trans hi.2.2⟩
  have hupholds := hh.of_views (g := { h with overlay := h.overlay.apply wallMs ev }) rfl
    happly.agrees
  unfold onEvent
  simp only
  split
  · exact happly.upholds_acts _ hupholds (hq ‹_›)
  · exact ⟨happly, hupholds⟩

theorem In.upholds_seedStates {env : MsgEnv} {states : List VoiceState}
    {during : List (List Act)} (hi : h.In) (hh : h.Upholds View.Agrees)
    (hq : QuietSeed states during) :
    (h.seedStates env states during).Upholds View.Agrees := by
  induction states generalizing during h with
  | nil => exact hh
  | cons v states ih =>
    obtain ⟨hin, hupholds⟩ := hi.upholds_onEvent env.wallMs
      { kind := .voiceCreate, voice := v } hh (by simp)
      (fun hf => hq.1 (by simpa [fetchesImages] using hf))
    exact ih hin hupholds hq.2

/-- Every event but a channel select and the voice states, outside a channel. -/
theorem Out.upholds_onEvent {wallMs : Int} {during : List Act} {ev : RpcEvent} (ho : h.Out)
    (hh : h.Upholds View.Agrees) (hk : ev.kind ≠ .channelSelect) (hv : ev.isVoice = false) :
    (h.onEvent wallMs during ev).Upholds View.Agrees := by
  have hvoice := (OverlayState.apply_channel wallMs h.overlay hk).1
  have hnil := OverlayState.apply_participants_nil wallMs ev
    (by simpa [RpcEvent.isVoice] using hv) ho.2.2
  have happly : ({ h with overlay := h.overlay.apply wallMs ev } : Host).Out :=
    ⟨ho.1, hvoice.trans ho.2.1, hnil⟩
  have hupholds := hh.of_views (g := { h with overlay := h.overlay.apply wallMs ev }) rfl
    happly.agrees
  unfold onEvent
  simp only
  split
  · exact happly.upholds_acts _ hupholds
  · exact hupholds

/-- A channel select brings both to the same channel, whatever becomes of its
    writes. -/
theorem channelSelect_agrees (wallMs : Int) (during : List Act) (ev : RpcEvent)
    (hk : ev.kind = .channelSelect) :
    ((h.onEvent wallMs during ev).handleChannelSelect ev.channelId).view.Agrees := by
  have hev : h.onEvent wallMs during ev =
      { h with
        overlay := h.overlay.apply wallMs
          { kind := .channelSelect, channelId := ev.channelId } } := by
    simp only [onEvent, fetchesImages, hk, OverlayState.apply, Bool.false_eq_true, if_false]
  have hover : (h.onEvent wallMs during ev).overlay =
      h.overlay.apply wallMs { kind := .channelSelect, channelId := ev.channelId } := by rw [hev]
  have hlink := (h.onEvent wallMs during ev).handleChannelSelect_link ev.channelId
  have hover' := (h.onEvent wallMs during ev).handleChannelSelect_overlay ev.channelId
  generalize (h.onEvent wallMs during ev).handleChannelSelect ev.channelId = g at hlink hover'
  have hstate : g.state = if ev.channelId = [] then .ready else .inChannel :=
    congrArg (fun l => l.2.1) hlink
  have hsub : g.subscribedChannel = ev.channelId := congrArg (fun l => l.2.2) hlink
  obtain ⟨hvoice, hname, hnil⟩ := OverlayState.apply_channelSelect wallMs ev.channelId h.overlay
  simp only [View.Agrees, view, hstate, hsub, hover', hover, hvoice, hname, hnil]
  by_cases hid : ev.channelId = [] <;> simp [hid]

/-! ## Messages -/

theorem out_of_authorizing (ha : h.view.Agrees) (hs : h.state = .authorizing) : h.Out :=
  (in_or_out ha).resolve_left fun hi => by cases hs.symm.trans hi.1

theorem Out.upholds_exchanged (ho : h.Out) (lib : JsonLib) (frame : Json) (env : MsgEnv)
    (hh : h.Upholds View.Agrees) :
    (h.exchanged lib frame env).Out ∧ (h.exchanged lib frame env).Upholds View.Agrees :=
  ⟨ho.acts env.duringExchange, ho.upholds_acts env.duringExchange hh⟩

theorem agrees_handle {lib : JsonLib} {payload : Bytes} {env : MsgEnv} {a : Arrival}
    (hh : h.Upholds View.Agrees) (hw : ∀ n, h.transport.Allows n ↔ env.Allows n)
    (hgood : a.KeepsAgreement h env) : (h.handle lib payload env a).Upholds View.Agrees := by
  have hhandles := handles lib payload env a h
  generalize h.handle lib payload env a = g at hhandles ⊢
  cases hhandles with
  | answers =>
    refine hh.of_views (sendRaw_views ..) ?_
    rcases in_or_out hh.1 with hi | ho
    · have hlink : (h.sendRaw kOpPong (.raw payload)).link = h.link := by
        rw [sendRaw_link, if_pos (.inr ((hw 1).mpr (hgood hi.1)))]
      refine In.agrees ⟨(congrArg (fun l => l.2.1) hlink).trans hi.1, ?_, ?_⟩
      · rw [sendRaw_overlay]
        exact hi.2.1
      · rw [sendRaw_overlay]
        exact hi.2.2.trans (congrArg (fun l => l.2.2) hlink).symm
    · refine (Out.of_link ho.2 (sendRaw_overlay ..) ?_).agrees
      rw [sendRaw_link]
      split
      · exact ho.1
      · simp [down]
  | ignores | strayCode | strayLogin | stays => exact hh
  | greets =>
    have ho := (in_or_out hh.1).resolve_left fun hi => hgood hi.1
    refine hh.of_views (onReady_views h) (Out.agrees (Out.of_link ho.2 (onReady_overlay h) ?_))
    rw [onReady_link]
    split <;> simp [down]
  | noCode hs | rejected hs =>
    exact hh.of_views (abandon_views h) (out_of_authorizing hh.1 hs).abandon.agrees
  | granted hs =>
    obtain ⟨hout, hback⟩ := (out_of_authorizing hh.1 hs).upholds_exchanged lib _ env hh
    exact hback.of_views (command_views ..) (hout.commands [_]).agrees
  | refused hs =>
    obtain ⟨hout, hback⟩ := (out_of_authorizing hh.1 hs).upholds_exchanged lib _ env hh
    exact hback.of_views (abandon_views _) hout.abandon.agrees
  | accepted hs =>
    have ho := out_of_authorizing hh.1 hs
    refine hh.of_views ((commands_views ..).trans (setState_views ..)) ?_
    refine (Out.commands _ ⟨?_, ho.2.congr (setState_overlay ..)⟩).agrees
    simp
  | @enters frame hs hin hother =>
    have hagrees := channelSelect_agrees (h := h) env.wallMs []
      { kind := .channelSelect, channelId := (parseSelectedVoiceChannel frame).channelId } rfl
    have hstate := congrArg (fun l => l.2.1) (handleChannelSelect_link
      (h.onEvent env.wallMs []
        { kind := .channelSelect, channelId := (parseSelectedVoiceChannel frame).channelId })
      (parseSelectedVoiceChannel frame).channelId)
    rw [if_neg ((parseSelectedVoiceChannel_inChannel frame).mp hin)] at hstate
    have hi := (in_or_out hagrees).resolve_right fun ho => ho.1 hstate
    refine hi.upholds_seedStates (hh.of_views ?_ hagrees) (hgood hs hin hother)
    rw [handleChannelSelect_views]
    rfl
  | selects hk =>
    refine hh.of_views ?_ (channelSelect_agrees _ _ _ hk)
    rw [handleChannelSelect_views]
    simp only [onEvent, fetchesImages, hk, Bool.false_eq_true, if_false]
    rfl
  | reports hk =>
    rcases in_or_out hh.1 with hi | ho
    · exact (hi.upholds_onEvent _ _ hh hk (hgood.2 hi.1)).2
    · refine ho.upholds_onEvent hh hk ?_
      by_contra hv
      exact ho.1 (hgood.1 (by simpa using hv))

theorem agrees_step {lib : JsonLib} (s : Step) (hh : h.Upholds View.Agrees)
    (hgood : h.KeepsAgreement lib s) : (h.step lib s).Upholds View.Agrees := by
  cases s with
  | act a =>
    rcases in_or_out hh.1 with hi | ho
    · exact (hi.upholds_acts [a] hh (by simpa using hgood hi.1)).2
    · exact ho.upholds_acts [a] hh
  | enter k => exact hh.of_views rfl hh.1
  | reconnect probe =>
    have ho := (in_or_out hh.1).resolve_left fun hi => hgood hi.1
    exact hh.of_views (tryConnect_views h probe)
      (Out.of_link ho.2 (tryConnect_overlay h probe) (tryConnect_state probe ho.1)).agrees
  | fill rbuf => exact hh.of_views rfl hh.1
  | lost =>
    have ho := (in_or_out hh.1).resolve_left fun hi => hgood hi.1
    refine Upholds.of_views (g := h.handleClosed) hh (handleClosed_views h)
      (Out.of_link ho.2 (handleClosed_overlay h) ?_).agrees
    cases hfd : h.fd with
    | none =>
      rw [handleClosed_of_none h hfd]
      exact ho.1
    | some c =>
      rw [handleClosed_link h (by simp [hfd])]
      simp [down]
  | deliver op payload rest env =>
    unfold step
    cases hfd : h.fd with
    | none => exact hh
    | some c =>
      simp only [dispatch_eq]
      exact agrees_handle (hh.of_views rfl hh.1) (fun n => Iff.rfl) hgood
  | leave => exact Upholds.returned (hh.of_views (g := h.guard false) rfl hh.1)

/-- In a run whose steps all keep the client and the reducer in step, they
    agree whenever a call returns. -/
theorem run_views_agree (lib : JsonLib) (cfg : RpcConfig) (appearance : AppearanceConfig)
    (nonceSeed : Bytes) (cs : List Call)
    (hgood : Machine.Along (step lib) (KeepsAgreement lib) (init cfg appearance nonceSeed)
      (steps lib (init cfg appearance nonceSeed) cs)) :
    ∀ v ∈ (Machine.run (exec lib) (init cfg appearance nonceSeed) cs).views, v.Agrees := by
  have hinit : (init cfg appearance nonceSeed).Upholds View.Agrees :=
    ⟨agrees_of_silent (by simp [init]) ⟨rfl, rfl⟩, fun v hv => by cases hv⟩
  rw [run_exec]
  exact (hgood.invariant (fun h s => agrees_step s) hinit).2

/-- A session that enters a channel and leaves it before it stops. -/
theorem run_views_agree_session :
    let h := Machine.run (exec compactJson) (init {} {} [])
      (login ++ [deliver (peerSelected (ascii "1") [ascii "u"]) {},
        deliver (peerChannelSelect []) {}, .stop])
    (∃ v ∈ h.views, v.state = .inChannel) ∧ ∀ v ∈ h.views, v.Agrees :=
  ⟨by decide +kernel, run_views_agree compactJson {} {} [] _ (by decide +kernel)⟩

/-- After a stop in a channel the reducer still shows it. -/
theorem stop_inChannel_disagrees :
    ¬ ∀ v ∈ (Machine.run (exec compactJson) (init {} {} [])
        (login ++ [deliver (peerSelected (ascii "1") [ascii "u"]) {}, .stop])).views,
      v.Agrees := by
  decide +kernel

end Host

end Choir
