-- SUMMARY: What a message that enters a channel does about the members already in it.
import ChoirOverlay.Host.Feed
import ChoirOverlay.Host.SelectedReply

/-!
# Entering a channel

A fresh subscription does not replay the members of a channel, so whoever was
there first shows up only when the message that enters the channel lists them,
or when the client asks for them. A query reply lists them. A channel select
clears the roster, lists nobody and asks for nothing, also when it names the
channel the client is in.
-/

namespace Choir

/-- A `GET_SELECTED_VOICE_CHANNEL` was written, or tried to. -/
def Obs.isQuery : Obs → Bool
  | .wrote _ _ _ (.text j) _ => decide (j.strOr "cmd" = ascii "GET_SELECTED_VOICE_CHANNEL")
  | _ => false

/-- How often the client asked for the channel and its members. -/
def queries (log : List Obs) : Nat := log.countP Obs.isQuery

namespace Host

/-- The handler of the arrival clears the roster and enters a channel. -/
def Enters (h : Host) (a : Arrival) : Prop :=
  ∃ ev ∈ h.feeds a, ev.kind = .channelSelect ∧ ev.channelId ≠ []

instance (h : Host) (a : Arrival) : Decidable (h.Enters a) :=
  inferInstanceAs (Decidable (∃ ev ∈ h.feeds a, _))

variable {h : Host}

/-- Only two kinds of messages enter a channel. -/
theorem Enters.cases {a : Arrival} (he : h.Enters a) :
    (∃ ev, a = .event ev ∧ ev.kind = .channelSelect) ∨
      ∃ frame, a = .selectedReply frame ∧
        h.feeds a =
          { kind := .channelSelect, channelId := (parseSelectedVoiceChannel frame).channelId } ::
            OverlayState.creates (parseSelectedVoiceChannel frame).states := by
  obtain ⟨ev, hmem, hkind, -⟩ := he
  cases a with
  | event ev' =>
    obtain rfl := List.mem_singleton.mp hmem
    exact .inl ⟨ev, rfl, hkind⟩
  | selectedReply frame =>
    refine .inr ⟨frame, rfl, ?_⟩
    unfold feeds at hmem ⊢
    simp only at hmem ⊢
    split at hmem
    · cases hmem
    split at hmem
    · cases hmem
    split at hmem
    · cases hmem
    rw [if_neg ‹_›, if_neg ‹_›, if_neg ‹_›]
  | ping | ignored | ready | authorizeReply _ | authenticateReply _ => cases hmem

/-! ## Queries -/

theorem setState_queries (s : ConnectionState) : queries (h.setState s).log = queries h.log := by
  rw [setState_log]
  split <;> rfl

theorem handleClosed_queries : queries h.handleClosed.log = queries h.log := by
  unfold handleClosed
  cases hfd : h.fd with
  | none => rfl
  | some c =>
    simp only [onClosed_log, setState_queries, close_log h hfd]
    rfl

theorem command_queries {build : Bytes → Json}
    (hb : ∀ nonce, (build nonce).strOr "cmd" ≠ ascii "GET_SELECTED_VOICE_CHANNEL") :
    queries (h.command build).log = queries h.log := by
  have hentry : ∀ c ok, (Obs.wrote c h.state kOpFrame (.text (build h.nextNonce)) ok).isQuery =
      false := fun c ok => decide_eq_false (hb h.nextNonce)
  rw [command_eq]
  cases hfd : h.fd with
  | none => rw [sendRaw_of_none h.drawn _ _ hfd, drawn_log]
  | some c =>
    by_cases hw : h.transport.Allows 1
    · rw [sendRaw_of_allows h.drawn _ _ hfd hw]
      exact List.countP_cons_of_neg (by simp [hentry])
    · rw [sendRaw_of_not_allows h.drawn _ _ hfd hw, handleClosed_queries]
      exact List.countP_cons_of_neg (by simp [hentry])

theorem commands_queries {bs : List (Bytes → Json)}
    (hbs : ∀ build ∈ bs, ∀ nonce, (build nonce).strOr "cmd" ≠ ascii "GET_SELECTED_VOICE_CHANNEL") :
    queries (h.commands bs).log = queries h.log :=
  commands_induct (P := fun g => queries g.log = queries h.log)
    (fun b hmem _ hg => (command_queries (hbs b hmem)).trans hg) rfl

/-- A channel select subscribes, and asks for nothing. -/
theorem handleChannelSelect_queries (id : Bytes) :
    queries (h.handleChannelSelect id).log = queries h.log := by
  rw [handleChannelSelect_eq, setState_queries]
  refine commands_queries fun build hmem nonce => ?_
  have hsub : ascii "SUBSCRIBE" ≠ ascii "GET_SELECTED_VOICE_CHANNEL" := by decide
  have hunsub : ascii "UNSUBSCRIBE" ≠ ascii "GET_SELECTED_VOICE_CHANNEL" := by decide
  unfold selectCommands at hmem
  split at hmem
  · cases hmem
  rcases List.mem_append.mp hmem with hmem | hmem
  · split at hmem
    · obtain ⟨evt, -, rfl⟩ := List.mem_map.mp hmem
      rwa [buildUnsubscribe_cmd]
    · cases hmem
  · split at hmem
    · obtain ⟨evt, -, rfl⟩ := List.mem_map.mp hmem
      rwa [buildSubscribe_cmd]
    · cases hmem

/-! ## Members -/

/-- A channel select clears the roster and asks for nothing. -/
theorem onRpcEvent_select {ev : RpcEvent} (env : MsgEnv) (hk : ev.kind = .channelSelect) :
    (h.onRpcEvent ev env).overlay.roster = [] ∧
      queries (h.onRpcEvent ev env).log = queries h.log := by
  have hev : h.onEvent env.wallMs (env.duringFetch.headD []) ev =
      { h with overlay := h.overlay.apply env.wallMs ev } := by
    simp only [onEvent, fetchesImages, hk, Bool.false_eq_true, if_false]
  unfold onRpcEvent
  simp only
  rw [if_pos hk, handleChannelSelect_overlay, handleChannelSelect_queries, hev]
  refine ⟨?_, rfl⟩
  rw [OverlayState.roster_apply, hk]

/-- From every state the host can reach, a message that enters a channel shows
    the members already in it, or asks for them, exactly when it is the query
    reply that lists them or there are none. -/
theorem entered_seeded_iff (lib : JsonLib) (cfg : RpcConfig) (appearance : AppearanceConfig)
    (nonceSeed : Bytes) (ss : List Step) (op : Int) (payload rest : Bytes) (env : MsgEnv) (h : Host)
    (hreach : h = Machine.run (step lib) (init cfg appearance nonceSeed) ss) (hfd : h.fd ≠ none)
    (henters : h.Enters (arrival lib op payload)) (members : List VoiceState)
    (hlisted : ∀ frame, arrival lib op payload = .selectedReply frame →
      (parseSelectedVoiceChannel frame).states = members) :
    ((∀ v ∈ members, v.userId ∈ (h.step lib (.deliver op payload rest env)).overlay.roster) ∨
        queries h.log < queries (h.step lib (.deliver op payload rest env)).log) ↔
      (∃ frame, arrival lib op payload = .selectedReply frame) ∨ members = [] := by
  have hindexed : h.overlay.Indexed := by
    rw [hreach]
    exact Machine.run_invariant (P := fun h : Host => h.overlay.Indexed) (indexed_step lib)
      OverlayState.indexed_init ss
  obtain ⟨c, hc⟩ := Option.ne_none_iff_exists'.mp hfd
  rcases henters.cases with ⟨ev, harr, hkind⟩ | ⟨frame, harr, hfeeds⟩
  · -- a channel select: the roster is empty and nothing was asked
    have hstep : h.step lib (.deliver op payload rest env) =
        ((h.setRbuf rest).receiving c op payload env).onRpcEvent ev env := by
      unfold step
      simp only [hc, dispatch_eq, harr]
      rfl
    obtain ⟨hroster, hqueries⟩ := onRpcEvent_select
      (h := (h.setRbuf rest).receiving c op payload env) env hkind
    have hsame : queries ((h.setRbuf rest).receiving c op payload env).log = queries h.log := rfl
    rw [hstep, hroster, hqueries, hsame, harr]
    simp [List.eq_nil_iff_forall_not_mem]
  · -- a query reply: its users are on the roster
    refine iff_of_true (.inl fun v hv => ?_) (.inl ⟨frame, harr⟩)
    have hvoice := deliver_voice hc lib op payload rest env
    rw [hfeeds, OverlayState.applyAll_cons] at hvoice
    rw [OverlayState.roster_of_voice hvoice, (hindexed.apply 0 _).mem_roster_creates]
    exact .inr ⟨v, hlisted frame harr ▸ hv, rfl⟩

/-- After the login, the reply that lists one member. -/
theorem entered_seeded_reply :
    let h := Machine.run (step compactJson) (init {} {} [])
      (steps compactJson (init {} {} []) login)
    let members := (parseSelectedVoiceChannel (peerSelected (ascii "1") [ascii "u"])).states
    let h' := h.step compactJson
      (.deliver kOpFrame (JsonText.text (peerSelected (ascii "1") [ascii "u"])) [] {})
    ((∀ v ∈ members, v.userId ∈ h'.overlay.roster) ∨ queries h.log < queries h'.log) ↔
      (∃ frame, arrival compactJson kOpFrame
        (JsonText.text (peerSelected (ascii "1") [ascii "u"])) = .selectedReply frame) ∨
        members = [] := by
  have harr : arrival compactJson kOpFrame (JsonText.text (peerSelected (ascii "1") [ascii "u"])) =
      .selectedReply (peerSelected (ascii "1") [ascii "u"]) :=
    (arrival_dump compactJson (by decide +kernel) (by decide +kernel)).trans (ofJson_selected _ _)
  refine entered_seeded_iff compactJson {} {} [] _ kOpFrame _ [] {} _ rfl (by decide +kernel)
    ?_ _ ?_
  · rw [harr]
    decide +kernel
  · intro frame hframe
    rw [harr] at hframe
    exact congrArg (fun a => match a with
      | .selectedReply f => (parseSelectedVoiceChannel f).states
      | _ => []) hframe.symm

/-- After the login, a channel select into a channel with a member. -/
theorem channelSelect_not_seeded :
    let h := Machine.run (exec compactJson) (init {} {} []) login
    let payload := JsonText.text (peerChannelSelect (ascii "1"))
    let h' := h.step compactJson (.deliver kOpFrame payload [] {})
    let members : List VoiceState := [{ userId := ascii "u" }]
    h.fd ≠ none ∧ h.Enters (arrival compactJson kOpFrame payload) ∧
      ¬ ((∀ v ∈ members, v.userId ∈ h'.overlay.roster) ∨ queries h.log < queries h'.log) := by
  decide +kernel

/-! ## Entering the same channel -/

/-- The client has nothing to do. -/
theorem handleChannelSelect_same {id : Bytes} (hid : id ≠ []) (hstate : h.state = .inChannel)
    (hsub : h.subscribedChannel = id) : h.handleChannelSelect id = h := by
  unfold handleChannelSelect
  rw [if_neg hid, if_pos hsub.symm]
  exact if_pos hstate

/-- In every state of a client in a channel, a channel select that names the
    channel again leaves the roster as it was exactly when it was empty, and
    writes nothing. -/
theorem reaffirmed_roster_iff (lib : JsonLib) (h : Host) (c : Conn) (id : Bytes) (op : Int)
    (payload rest : Bytes) (env : MsgEnv) (hfd : h.fd = some c) (hstate : h.state = .inChannel)
    (hid : id ≠ []) (hsub : h.subscribedChannel = id)
    (harr : arrival lib op payload = .event { kind := .channelSelect, channelId := id }) :
    ((h.step lib (.deliver op payload rest env)).overlay.snap.participants =
        h.overlay.snap.participants ↔ h.overlay.snap.participants = []) ∧
      (h.step lib (.deliver op payload rest env)).log = .received c op payload :: h.log := by
  constructor
  · have hvoice := deliver_voice hfd lib op payload rest env
    rw [harr] at hvoice
    have hcleared : (h.step lib (.deliver op payload rest env)).overlay.snap.participants = [] :=
      congrArg (fun v => v.2.2.1) hvoice
    rw [hcleared]
    exact eq_comm
  · unfold step
    simp only [hfd, dispatch_eq, harr]
    unfold handle onRpcEvent
    simp only [if_true]
    refine (congrArg Host.log (handleChannelSelect_same hid ?_ ?_)).trans rfl
    · exact hstate
    · exact hsub

/-- The client is told again of the channel whose member it shows. -/
theorem reaffirmed_roster_member :
    let h := Machine.run (exec compactJson) (init {} {} [])
      (login ++ [deliver (peerSelected (ascii "1") [ascii "u"]) {}])
    let h' := h.step compactJson
      (.deliver kOpFrame (JsonText.text (peerChannelSelect (ascii "1"))) [] {})
    (h'.overlay.snap.participants = h.overlay.snap.participants ↔
        h.overlay.snap.participants = []) ∧
      h'.log = .received 0 kOpFrame (JsonText.text (peerChannelSelect (ascii "1"))) :: h.log :=
  reaffirmed_roster_iff compactJson _ 0 (ascii "1") kOpFrame _ [] {} (by decide +kernel)
    (by decide +kernel) (by decide +kernel) (by decide +kernel)
    ((arrival_dump compactJson (by decide +kernel) (by decide +kernel)).trans
      (ofJson_channelSelect _))

/-- The roster is cleared. -/
theorem reaffirmed_member_dropped :
    let h := Machine.run (exec compactJson) (init {} {} [])
      (login ++ [deliver (peerSelected (ascii "1") [ascii "u"]) {}])
    let h' := h.exec compactJson (deliver (peerChannelSelect (ascii "1")) {})
    h.state = .inChannel ∧ h.subscribedChannel = ascii "1" ∧ h.overlay.roster = [ascii "u"] ∧
      h'.overlay.roster = [] := by
  decide +kernel

end Host

end Choir
