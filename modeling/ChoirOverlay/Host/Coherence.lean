-- SUMMARY: When the client's state agrees with its connection and its subscription.
import ChoirOverlay.Host.Peer

/-!
# The client's state, its connection and its subscription

Between calls, a client that is not disconnected should have a connection, and
a client in a channel a subscription. Two handlers break this: `READY` keeps
the subscription of an earlier channel, and a channel select goes on after a
failed write has taken the connection down.
-/

namespace Choir

/-- The state is `Disconnected` without a connection, and only then; it is
    `InChannel` with a subscription, and only then. -/
def View.Coherent (v : View) : Prop :=
  (v.state = .disconnected ↔ v.connected = false) ∧
    (v.subscribedChannel ≠ [] ↔ v.state = .inChannel)

instance (v : View) : Decidable v.Coherent := inferInstanceAs (Decidable (_ ∧ _))

/-- The arrivals that keep the client coherent: no `READY` while subscribed,
    unless its answer fails, and no failed write during a channel select. -/
def Arrival.KeepsCoherent (h : Host) (env : MsgEnv) : Arrival → Prop
  | .ready => h.subscribedChannel = [] ∨ ¬ env.Allows 1
  | .selectedReply frame =>
    (h.state = .ready ∨ h.state = .inChannel) →
      (parseSelectedVoiceChannel frame).inChannel = true →
        env.Allows (h.selectCommands (parseSelectedVoiceChannel frame).channelId).length
  | .event ev => ev.kind = .channelSelect → env.Allows (h.selectCommands ev.channelId).length
  | _ => True

instance (h : Host) (env : MsgEnv) : (a : Arrival) → Decidable (a.KeepsCoherent h env)
  | .ready => inferInstanceAs (Decidable (_ ∨ _))
  | .selectedReply _ => inferInstanceAs (Decidable (_ → _ → _))
  | .event _ => inferInstanceAs (Decidable (_ → _))
  | .ping | .ignored | .authorizeReply _ | .authenticateReply _ => .isTrue trivial

namespace Host

def KeepsCoherent (lib : JsonLib) (h : Host) : Step → Prop
  | .deliver op payload _ env => (arrival lib op payload).KeepsCoherent h env
  | _ => True

instance (lib : JsonLib) (h : Host) : (s : Step) → Decidable (h.KeepsCoherent lib s)
  | .deliver op payload _ env =>
    inferInstanceAs (Decidable ((arrival lib op payload).KeepsCoherent h env))
  | .act _ | .enter _ | .reconnect _ | .fill _ | .lost | .leave => .isTrue trivial

/-! ## Links -/

/-- `View.Coherent` of a link. -/
def CoherentLink (l : Option Conn × ConnectionState × Bytes) : Prop :=
  (l.2.1 = .disconnected ↔ l.1 = none) ∧ (l.2.2 ≠ [] ↔ l.2.1 = .inChannel)

theorem view_coherent (h : Host) : h.view.Coherent ↔ CoherentLink h.link := by
  simp only [View.Coherent, CoherentLink, view, link, Option.isSome_eq_false_iff,
    Option.isNone_iff_eq_none]

theorem coherentLink_down : CoherentLink down := by simp [CoherentLink, down]

theorem coherentLink_connecting (c : Conn) : CoherentLink (some c, .connecting, []) := by
  simp [CoherentLink]

variable {h : Host}

/-- A coherent client that is in no channel has no subscription. -/
theorem CoherentLink.unsubscribed (hc : CoherentLink h.link) (hs : h.state ≠ .inChannel) :
    h.subscribedChannel = [] := by
  by_contra hsub
  exact hs (hc.2.mp hsub)

theorem coherentLink_commands (bs : List (Bytes → Json)) (hc : CoherentLink h.link) :
    CoherentLink (h.commands bs).link := by
  rw [commands_link]
  split
  · exact hc
  · exact coherentLink_down

theorem coherentLink_tryConnect (probe : Nat → Bool) (hc : CoherentLink h.link) :
    CoherentLink (h.tryConnect probe).link := by
  rw [tryConnect_link]
  split
  · rename_i hr
    have hfd : h.fd = none := by
      unfold reached at hr
      split at hr
      · cases hr
      · assumption
    have hs : h.state = .disconnected := hc.1.mpr hfd
    simp [CoherentLink, hs]
  · split
    · exact coherentLink_connecting _
    · exact coherentLink_down

theorem coherentLink_abandon (hsub : h.subscribedChannel = []) : CoherentLink h.abandon.link := by
  rw [abandon_link, hsub]
  exact coherentLink_down

/-- A channel select whose writes go through. -/
theorem coherentLink_channelSelect {id : Bytes} {c : Conn} (hfd : h.fd = some c)
    (hw : h.transport.Allows (h.selectCommands id).length) :
    CoherentLink (h.handleChannelSelect id).link := by
  rw [handleChannelSelect_link, if_pos (.inr hw), hfd]
  by_cases hid : id = [] <;> simp [CoherentLink, hid]

/-! ## Nested calls -/

theorem coherent_of_link {g : Host} (hh : h.Upholds View.Coherent) (hviews : g.views = h.views)
    (hc : CoherentLink g.link) : g.Upholds View.Coherent :=
  hh.of_views hviews ((view_coherent g).mpr hc)

theorem coherent_act (a : Act) (hh : h.Upholds View.Coherent) :
    (h.act a).Upholds View.Coherent := by
  have hc := (view_coherent h).mp hh.1
  cases a with
  | start env =>
    refine Upholds.returned (coherent_of_link hh (start_views h env) ?_)
    exact coherentLink_tryConnect (h := { h.under env.toConduct with
      stopped := false, reconnectPending := false }) env.probe hc
  | stop =>
    refine Upholds.returned (coherent_of_link hh (stop_views h) ?_)
    rw [stop_link]
    exact coherentLink_down
  | poll => exact hh.returned
  | configure cfg => exact coherent_of_link hh rfl hc

theorem coherent_acts (as : List Act) (hh : h.Upholds View.Coherent) :
    (h.acts as).Upholds View.Coherent :=
  acts_induct (fun a _ hg => coherent_act a hg) hh as

theorem coherent_exchanged (lib : JsonLib) (frame : Json) (env : MsgEnv)
    (hh : h.Upholds View.Coherent) : (h.exchanged lib frame env).Upholds View.Coherent :=
  have hacts := coherent_acts env.duringExchange hh
  coherent_of_link hacts rfl ((view_coherent _).mp hacts.1)

/-- Nested calls make no subscription. -/
theorem acts_unsubscribed (as : List Act) (hsub : h.subscribedChannel = []) :
    (h.acts as).subscribedChannel = [] := by
  refine acts_induct (P := fun g => g.subscribedChannel = []) (fun a g hg => ?_) hsub as
  cases a with
  | start env =>
    have hlink := start_link g env
    have hsame : (g.act (.start env)).subscribedChannel = (g.start env).link.2.2 := rfl
    rw [hsame, hlink]
    split
    · rfl
    · split <;> rfl
  | stop => exact congrArg (fun l => l.2.2) (stop_link g)
  | poll => exact hg
  | configure cfg => exact hg

theorem coherent_onEvent {wallMs : Int} {during : List Act} {ev : RpcEvent}
    (hh : h.Upholds View.Coherent) : (h.onEvent wallMs during ev).Upholds View.Coherent := by
  have happly : ({ h with overlay := h.overlay.apply wallMs ev } : Host).Upholds View.Coherent :=
    coherent_of_link hh rfl ((view_coherent h).mp hh.1)
  unfold onEvent
  simp only
  split
  · exact coherent_acts during happly
  · exact happly

theorem coherent_seedStates {env : MsgEnv} {states : List VoiceState} {during : List (List Act)}
    (hh : h.Upholds View.Coherent) : (h.seedStates env states during).Upholds View.Coherent :=
  seedStates_induct (fun _ _ _ hg => coherent_onEvent hg) hh states during

/-! ## Messages -/

/-- A message that keeps the client coherent, on a live connection. -/
theorem coherent_handle {lib : JsonLib} {payload : Bytes} {env : MsgEnv} {a : Arrival} {c : Conn}
    (hh : h.Upholds View.Coherent) (hfd : h.fd = some c)
    (hw : ∀ n, h.transport.Allows n ↔ env.Allows n) (hgood : a.KeepsCoherent h env) :
    (h.handle lib payload env a).Upholds View.Coherent := by
  have hc := (view_coherent h).mp hh.1
  have hhandles := handles lib payload env a h
  generalize h.handle lib payload env a = g at hhandles ⊢
  cases hhandles with
  | answers =>
    refine coherent_of_link hh (sendRaw_views ..) ?_
    rw [sendRaw_link]
    split
    · exact hc
    · exact coherentLink_down
  | ignores | strayCode | strayLogin | stays => exact hh
  | greets =>
    refine coherent_of_link hh (onReady_views h) ?_
    rw [onReady_link, hfd]
    split
    · rename_i hallow
      have hsub : h.subscribedChannel = [] := by
        rcases hgood with hsub | hno
        · exact hsub
        · exact absurd ((hw 1).mp (by simpa using hallow)) hno
      simp [CoherentLink, hsub]
    · exact coherentLink_down
  | noCode hs | rejected hs =>
    exact coherent_of_link hh (abandon_views h)
      (coherentLink_abandon (hc.unsubscribed (by simp [hs])))
  | @granted frame =>
    have hback := coherent_exchanged lib frame env hh
    exact coherent_of_link hback (command_views ..)
      (coherentLink_commands [_] ((view_coherent _).mp hback.1))
  | refused hs =>
    refine coherent_of_link (coherent_exchanged lib _ env hh) (abandon_views _)
      (coherentLink_abandon ?_)
    exact acts_unsubscribed env.duringExchange (hc.unsubscribed (by simp [hs]))
  | accepted hs =>
    have hsub : h.subscribedChannel = [] := hc.unsubscribed (by simp [hs])
    refine coherent_of_link hh ((commands_views ..).trans (setState_views ..)) ?_
    apply coherentLink_commands
    rw [setState_link, hfd, hsub]
    simp [CoherentLink]
  | enters hs hin =>
    apply coherent_seedStates
    refine coherent_of_link hh ?_ ?_
    · rw [handleChannelSelect_views]
      rfl
    · exact coherentLink_channelSelect (h := { h with overlay := _ }) hfd
        ((hw _).mpr (hgood hs hin))
  | @selects ev hk =>
    have hfetch : fetchesImages ev = false := by simp [fetchesImages, hk]
    refine coherent_of_link hh ?_ ?_
    · rw [handleChannelSelect_views]
      simp only [onEvent, hfetch, Bool.false_eq_true, if_false]
      rfl
    · simp only [onEvent, hfetch, Bool.false_eq_true, if_false]
      exact coherentLink_channelSelect (h := { h with overlay := _ }) hfd ((hw _).mpr (hgood hk))
  | reports => exact coherent_onEvent hh

/-- A good step keeps the client coherent. -/
theorem coherent_step {lib : JsonLib} (s : Step) (hh : h.Upholds View.Coherent)
    (hgood : h.KeepsCoherent lib s) : (h.step lib s).Upholds View.Coherent := by
  have hc := (view_coherent h).mp hh.1
  cases s with
  | act a => exact coherent_act a hh
  | enter k => exact coherent_of_link hh rfl hc
  | reconnect probe =>
    exact coherent_of_link hh (tryConnect_views h probe) (coherentLink_tryConnect probe hc)
  | fill rbuf => exact coherent_of_link hh rfl hc
  | lost =>
    refine coherent_of_link hh (handleClosed_views h) ?_
    rw [step]
    cases hfd : h.fd with
    | none => rwa [handleClosed_of_none h hfd]
    | some c =>
      rw [handleClosed_link h (by simp [hfd])]
      exact coherentLink_down
  | deliver op payload rest env =>
    unfold step
    cases hfd : h.fd with
    | none => exact hh
    | some c =>
      simp only [dispatch_eq]
      refine coherent_handle ?_ hfd (fun n => Iff.rfl) hgood
      exact coherent_of_link hh rfl hc
  | leave => exact Upholds.returned (coherent_of_link (g := h.guard false) hh rfl hc)

theorem coherent_init (cfg : RpcConfig) (appearance : AppearanceConfig) (nonceSeed : Bytes) :
    (init cfg appearance nonceSeed).Upholds View.Coherent := by
  refine ⟨?_, fun v hv => by cases hv⟩
  rw [view_coherent]
  exact coherentLink_down

/-- In a run whose messages all keep the client coherent, it is coherent
    whenever a call returns. -/
theorem run_views_coherent (lib : JsonLib) (cfg : RpcConfig) (appearance : AppearanceConfig)
    (nonceSeed : Bytes) (cs : List Call)
    (hgood : Machine.Along (step lib) (KeepsCoherent lib) (init cfg appearance nonceSeed)
      (steps lib (init cfg appearance nonceSeed) cs)) :
    ∀ v ∈ (Machine.run (exec lib) (init cfg appearance nonceSeed) cs).views, v.Coherent := by
  rw [run_exec]
  exact (hgood.invariant (fun h s => coherent_step s) (coherent_init cfg appearance nonceSeed)).2

/-- A session that changes channels and leaves before it stops. -/
theorem run_views_coherent_session :
    let h := Machine.run (exec compactJson) (init {} {} [])
      (login ++ [deliver (peerChannelSelect (ascii "1")) {},
        deliver (peerChannelSelect (ascii "2")) {}, deliver (peerChannelSelect []) {}, .stop])
    (∃ v ∈ h.views, v.state = .inChannel) ∧ ∀ v ∈ h.views, v.Coherent :=
  ⟨by decide +kernel, run_views_coherent compactJson {} {} [] _ (by decide +kernel)⟩

/-- A channel select whose first write fails leaves the client in a channel
    without a connection. -/
theorem channelSelect_lost_incoherent :
    ¬ ∀ v ∈ (Machine.run (exec compactJson) (init {} {} [])
        [.start {}, deliver (peerChannelSelect (ascii "1")) { writes := [false] }]).views,
      v.Coherent := by
  decide +kernel

end Host

end Choir
