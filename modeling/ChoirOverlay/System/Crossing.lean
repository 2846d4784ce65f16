-- SUMMARY: The host and its peer over FIFO pipes: whose voice events the roster is made of when messages cross.
import ChoirOverlay.Host.Feed
import ChoirOverlay.Host.SelectedReply
import ChoirOverlay.Host.Subscriptions
import ChoirOverlay.Host.VoiceSession

/-!
# Crossing messages

The peer reads the client's commands in the order they were written and sends
the events of a channel while its table has them. Voice events carry no
channel, so the reducer takes an event of the channel just left, which was
already on its way, for one of the channel it has entered.
-/

namespace Choir

open Topics

/-- A message of the peer, with the channel it is emitted for when it is a
    voice or speaking event. -/
structure Mail where
  op : Int
  payload : Bytes
  channel : Bytes := []
  deriving DecidableEq

/-- The name under which an event of a channel is subscribed to. -/
def RpcEvent.Kind.channelEvent? : RpcEvent.Kind → Option Bytes
  | .voiceCreate => some (ascii "VOICE_STATE_CREATE")
  | .voiceUpdate => some (ascii "VOICE_STATE_UPDATE")
  | .voiceDelete => some (ascii "VOICE_STATE_DELETE")
  | .speakingStart => some (ascii "SPEAKING_START")
  | .speakingStop => some (ascii "SPEAKING_STOP")
  | .channelSelect | .notification => none

/-- The commands written on `c`, in the order in which the peer reads them. -/
def channelCommands (c : Conn) (log : List Obs) : List (Command Bytes Bytes) :=
  (log.filterMap (·.channelCommand? c)).reverse

/-- The host, its peer and what is on the way between them. -/
structure Wire where
  host : Host
  /-- How many of the commands on a connection the peer has processed. -/
  processed : Conn → Nat := fun _ => 0
  /-- The messages on a connection that the host has not handled. -/
  inFlight : Conn → List Mail := fun _ => []
  /-- All messages of the peer, newest first. -/
  emitted : List Mail := []

namespace Wire

inductive Event where
  /-- A step of the host without a message. -/
  | own (s : Host.Step)
  /-- The host handles the next message on its connection. -/
  | handle (rest : Bytes) (env : MsgEnv)
  /-- The peer processes the next command on `c`. -/
  | process (c : Conn)
  | emit (c : Conn) (m : Mail)

variable (lib : JsonLib)

/-- The subscriptions on `c` as the peer has them. -/
def table (w : Wire) (c : Conn) : Finset (Bytes × Bytes) :=
  after ((channelCommands c w.host.log).take (w.processed c)) ∅

/-- The event a message carries that is subject to a subscription. -/
def channelEvent? (m : Mail) : Option Bytes :=
  match arrival lib m.op m.payload with
  | .event ev => ev.kind.channelEvent?
  | _ => none

/-- The peer emits a channel's events while its table has them, and everything
    else at any time. -/
def mayEmit (w : Wire) (c : Conn) (m : Mail) : Bool :=
  match channelEvent? lib m with
  | some evt => decide ((evt, m.channel) ∈ w.table c)
  | none => true

/-- The message that the host handles next. -/
def next? (w : Wire) : Option (Conn × Mail) :=
  w.host.fd.bind fun c => (w.inFlight c).head?.map fun m => (c, m)

def step (w : Wire) : Event → Wire
  | .own s =>
    match s with
    | .deliver _ _ _ _ => w
    | s => { w with host := w.host.step lib s }
  | .handle rest env =>
    match w.next? with
    | some (c, m) =>
      { w with
        host := w.host.step lib (.deliver m.op m.payload rest env)
        inFlight := Function.update w.inFlight c (w.inFlight c).tail }
    | none => w
  | .process c =>
    if w.processed c < (channelCommands c w.host.log).length then
      { w with processed := Function.update w.processed c (w.processed c + 1) }
    else w
  | .emit c m =>
    if w.mayEmit lib c m then
      { w with
        inFlight := Function.update w.inFlight c (w.inFlight c ++ [m])
        emitted := m :: w.emitted }
    else w

/-! ## What is shown -/

/-- A voice event for channel `id` about user `u`, or a query reply that lists
    `u` in it. -/
def Names (m : Mail) (id u : Bytes) : Prop :=
  match arrival lib m.op m.payload with
  | .event ev => ev.isVoice = true ∧ m.channel = id ∧ ev.voice.userId = u
  | .selectedReply frame =>
    (parseSelectedVoiceChannel frame).channelId = id ∧
      ∃ v ∈ (parseSelectedVoiceChannel frame).states, v.userId = u
  | _ => False

/-- A speaking event for channel `id` about user `u`. -/
def Speaks (m : Mail) (id u : Bytes) : Prop :=
  match arrival lib m.op m.payload with
  | .event ev =>
    (ev.kind = .speakingStart ∨ ev.kind = .speakingStop) ∧ m.channel = id ∧ ev.userId = u
  | _ => False

/-- A query reply, which clears the roster and fills it anew. -/
def Refills (m : Mail) : Prop := ∃ frame, arrival lib m.op m.payload = .selectedReply frame

/-- The channel the snapshot names; none is named outside a voice session. -/
def named (w : Wire) : Bytes := w.host.overlay.snap.channelName

/-- Everybody on the roster of a channel was named for that channel. -/
def Lawful (w : Wire) : Prop :=
  w.named ≠ [] → ∀ u ∈ w.host.overlay.roster, ∃ m ∈ w.emitted, Names lib m w.named u

/-- The flags of those who stay in a channel change on its speaking events
    only. -/
def KeepsFlags (w : Wire) (e : Event) : Prop :=
  w.named ≠ [] → (w.step lib e).named = w.named →
    ∀ u b b', (u, b) ∈ w.host.overlay.flags → (u, b') ∈ (w.step lib e).host.overlay.flags →
      b ≠ b' →
        ∃ rest env c m, e = .handle rest env ∧ w.next? = some (c, m) ∧
          (Speaks lib m w.named u ∨ Refills lib m)

/-- A message in time: a voice state or speaking event that the host handles
    while a channel is named was emitted for that channel. -/
def Mail.InTime (m : Mail) (named : Bytes) : Prop :=
  match arrival lib m.op m.payload with
  | .event ev =>
    ev.isVoice = true ∨ ev.kind = .speakingStart ∨ ev.kind = .speakingStop →
      named ≠ [] → m.channel = named
  | _ => True

def InTime (w : Wire) : Event → Prop
  | .handle _ _ => ∀ p ∈ w.next?, Mail.InTime lib p.2 w.named
  | .own _ | .process _ | .emit _ _ => True

instance (m : Mail) (id u : Bytes) : Decidable (Names lib m id u) := by
  unfold Names
  cases arrival lib m.op m.payload <;> infer_instance

instance (w : Wire) : Decidable (w.Lawful lib) :=
  inferInstanceAs (Decidable (_ → ∀ u ∈ w.host.overlay.roster, ∃ m ∈ w.emitted, _))

instance (m : Mail) (named : Bytes) : Decidable (Mail.InTime lib m named) := by
  unfold Mail.InTime
  cases arrival lib m.op m.payload <;> infer_instance

instance (w : Wire) : (e : Event) → Decidable (w.InTime lib e)
  | .handle _ _ => inferInstanceAs (Decidable (∀ p ∈ w.next?, _))
  | .own _ | .process _ | .emit _ _ => .isTrue trivial

variable {lib} {w w' : Wire} {c : Conn} {m : Mail}

/-! ## Steps -/

/-- What every state of a run has: a message on its way was emitted. -/
structure Tidy (w : Wire) : Prop where
  indexed : w.host.overlay.Indexed
  sent : ∀ c, ∀ m ∈ w.inFlight c, m ∈ w.emitted

theorem next?_eq_some (h : w.next? = some (c, m)) :
    w.host.fd = some c ∧ m ∈ w.inFlight c := by
  unfold next? at h
  cases hfd : w.host.fd with
  | none => simp [hfd] at h
  | some c' =>
    cases hhead : (w.inFlight c').head? with
    | none => simp [hfd, hhead] at h
    | some m' =>
      simp only [hfd, hhead, Option.bind_some, Option.map_some, Option.some.injEq,
        Prod.mk.injEq] at h
      obtain ⟨rfl, rfl⟩ := h
      exact ⟨rfl, List.mem_of_mem_head? hhead⟩

theorem tidy_step (e : Event) (ht : w.Tidy) : (w.step lib e).Tidy := by
  cases e with
  | own s =>
    unfold step
    cases s with
    | deliver op payload rest env => exact ht
    | act _ | enter _ | reconnect _ | fill _ | lost | leave =>
      exact ⟨Host.indexed_step lib w.host _ ht.indexed, ht.sent⟩
  | handle rest env =>
    unfold step
    cases hnext : w.next? with
    | none => simpa [hnext] using ht
    | some p =>
      obtain ⟨c, m⟩ := p
      refine ⟨Host.indexed_step lib w.host _ ht.indexed, fun c' m' hm' => ht.sent c' m' ?_⟩
      simp only [Function.update_apply] at hm'
      split at hm'
      · rename_i hc
        exact hc ▸ List.mem_of_mem_tail hm'
      · exact hm'
  | process c =>
    unfold step
    simp only
    split
    · exact ⟨ht.indexed, ht.sent⟩
    · exact ht
  | emit c m =>
    unfold step
    simp only
    split
    · refine ⟨ht.indexed, fun c' m' hm' => ?_⟩
      simp only [Function.update_apply] at hm'
      split at hm'
      · rcases List.mem_append.mp hm' with hold | hnew
        · rename_i hc
          exact List.mem_cons_of_mem m (ht.sent c' m' (hc ▸ hold))
        · exact List.mem_singleton.mp hnew ▸ List.mem_cons_self
      · exact List.mem_cons_of_mem m (ht.sent c' m' hm')
    · exact ht

/-- Where the reducer stands still, so does the law. -/
theorem Lawful.congr (hl : w.Lawful lib) (hvoice : w'.host.overlay.voice = w.host.overlay.voice)
    (hemitted : w.emitted ⊆ w'.emitted) : w'.Lawful lib := by
  have hname : w'.named = w.named := OverlayState.channelName_of_voice hvoice
  intro hne u hu
  rw [OverlayState.roster_of_voice hvoice] at hu
  obtain ⟨m, hm, hnames⟩ := hl (hname ▸ hne) u hu
  exact ⟨m, hemitted hm, hname.symm ▸ hnames⟩

/-- An event that is handled in time keeps the law. -/
theorem Lawful.event {ev : RpcEvent} (hl : w.Lawful lib) (hi : w.host.overlay.Indexed)
    (harr : arrival lib m.op m.payload = .event ev) (hm : m ∈ w.emitted)
    (htime : Mail.InTime lib m w.named) (hemitted : w'.emitted = w.emitted)
    (hvoice : w'.host.overlay.voice = (w.host.overlay.apply 0 ev).voice) : w'.Lawful lib := by
  have hroster := OverlayState.roster_of_voice hvoice
  intro hne u hu
  by_cases hselect : ev.kind = .channelSelect
  · rw [hroster, OverlayState.roster_apply, hselect] at hu
    cases hu
  have hname : w'.named = w.named :=
    (OverlayState.channelName_of_voice hvoice).trans (OverlayState.apply_channel 0 _ hselect).2
  rw [hname, hemitted]
  rw [hname] at hne
  rw [hroster] at hu
  by_cases hv : ev.isVoice = true
  · have hkind : ev.kind = .voiceCreate ∨ ev.kind = .voiceUpdate := by
      simpa [RpcEvent.isVoice] using hv
    rcases (OverlayState.mem_roster_voice hi 0 hkind u).mp hu with hold | rfl
    · exact hl hne u hold
    · refine ⟨m, hm, ?_⟩
      simp only [Mail.InTime, harr] at htime
      simp only [Names, harr]
      exact ⟨hv, htime (.inl hv) hne, trivial⟩
  · have hkind : ev.kind ≠ .voiceCreate ∧ ev.kind ≠ .voiceUpdate := by
      simpa [RpcEvent.isVoice] using hv
    exact hl hne u (OverlayState.mem_of_mem_roster_apply 0 hkind hu)

/-- A query reply that enters a channel fills the roster with the users it
    lists. -/
theorem Lawful.refill {frame : Json} (hl : w.Lawful lib) (hi : w.host.overlay.Indexed)
    (harr : arrival lib m.op m.payload = .selectedReply frame) (hm : m ∈ w.emitted)
    (hemitted : w'.emitted = w.emitted)
    (hvoice : w'.host.overlay.voice =
      (w.host.overlay.applyAll (w.host.feeds (.selectedReply frame))).voice) : w'.Lawful lib := by
  have hignored : w'.host.overlay.voice = w.host.overlay.voice → w'.Lawful lib := fun hsame =>
    hl.congr hsame (hemitted ▸ List.Subset.refl _)
  unfold Host.feeds at hvoice
  simp only at hvoice
  split at hvoice
  · exact hignored hvoice
  split at hvoice
  · exact hignored hvoice
  split at hvoice
  · exact hignored hvoice
  rw [OverlayState.applyAll_cons] at hvoice
  intro _ u hu
  have hname : w'.named = (parseSelectedVoiceChannel frame).channelId :=
    (OverlayState.channelName_of_voice hvoice).trans
      (OverlayState.applyAll_creates_channelName ..)
  rw [OverlayState.roster_of_voice hvoice, (hi.apply 0 _).mem_roster_creates] at hu
  rcases hu with hnone | hlisted
  · cases hnone
  · refine ⟨m, hemitted ▸ hm, ?_⟩
    simp only [Names, harr, hname]
    exact ⟨trivial, hlisted⟩

theorem lawful_step {e : Event} (ht : w.Tidy) (hl : w.Lawful lib) (htime : w.InTime lib e) :
    (w.step lib e).Lawful lib := by
  cases e with
  | own s =>
    unfold step
    cases s with
    | deliver op payload rest env => exact hl
    | act _ | enter _ | reconnect _ | fill _ | lost | leave =>
      exact hl.congr (Host.step_voice lib _ (by simp)) (List.Subset.refl _)
  | handle rest env =>
    unfold step
    cases hnext : w.next? with
    | none => simpa [hnext] using hl
    | some p =>
      obtain ⟨c, m⟩ := p
      obtain ⟨hfd, hflight⟩ := next?_eq_some hnext
      have hm := ht.sent c m hflight
      have hvoice := Host.deliver_voice hfd lib m.op m.payload rest env
      simp only
      cases harr : arrival lib m.op m.payload with
      | event ev =>
        rw [harr] at hvoice
        exact hl.event ht.indexed harr hm (htime (c, m) hnext) rfl hvoice
      | selectedReply frame =>
        rw [harr] at hvoice
        exact hl.refill ht.indexed harr hm rfl hvoice
      | ping | ignored | ready | authorizeReply _ | authenticateReply _ =>
        rw [harr] at hvoice
        exact hl.congr hvoice (List.Subset.refl _)
  | process c =>
    unfold step
    simp only
    split
    · exact hl.congr rfl (List.Subset.refl _)
    · exact hl
  | emit c m =>
    unfold step
    simp only
    split
    · exact hl.congr rfl (List.subset_cons_self m w.emitted)
    · exact hl

/-! ## Flags -/

/-- Where the reducer stands still, no flag changes. -/
theorem flag_of_voice (ht : w.Tidy) (hvoice : w'.host.overlay.voice = w.host.overlay.voice)
    {u : Bytes} {b b' : Bool} (hb : (u, b) ∈ w.host.overlay.flags)
    (hb' : (u, b') ∈ w'.host.overlay.flags) : b = b' := by
  rw [OverlayState.flags_of_voice hvoice] at hb'
  exact ht.indexed.flag_unique hb hb'

theorem keepsFlags_step {e : Event} (ht : w.Tidy) (htime : w.InTime lib e) :
    w.KeepsFlags lib e := by
  intro hne _ u b b' hb hb' hflag
  have hstill : (w.step lib e).host.overlay.voice ≠ w.host.overlay.voice := fun hvoice =>
    hflag (flag_of_voice ht hvoice hb hb')
  cases e with
  | own s =>
    refine absurd ?_ hstill
    unfold step
    cases s with
    | deliver op payload rest env => rfl
    | act _ | enter _ | reconnect _ | fill _ | lost | leave => exact Host.step_voice lib _ (by simp)
  | process c =>
    refine absurd ?_ hstill
    unfold step
    simp only
    split <;> rfl
  | emit c m =>
    refine absurd ?_ hstill
    unfold step
    simp only
    split <;> rfl
  | handle rest env =>
    cases hnext : w.next? with
    | none => exact absurd (by simp only [step, hnext]) hstill
    | some p =>
      obtain ⟨c, m⟩ := p
      have hvoice : (w.step lib (.handle rest env)).host.overlay.voice =
          (w.host.overlay.applyAll (w.host.feeds (arrival lib m.op m.payload))).voice := by
        simp only [step, hnext]
        exact Host.deliver_voice (next?_eq_some hnext).1 lib m.op m.payload rest env
      refine ⟨rest, env, c, m, rfl, rfl, ?_⟩
      cases harr : arrival lib m.op m.payload with
      | event ev =>
        rw [harr] at hvoice
        rw [OverlayState.flags_of_voice hvoice] at hb'
        obtain ⟨hkind, huser⟩ := ht.indexed.flag_apply 0 ev hb hb' hflag
        have hthis := htime (c, m) hnext
        simp only [Mail.InTime, harr] at hthis
        refine .inl ?_
        simp only [Speaks, harr]
        exact ⟨hkind, hthis (.inr hkind) hne, huser⟩
      | selectedReply frame => exact .inr ⟨frame, harr⟩
      | ping | ignored | ready | authorizeReply _ | authenticateReply _ =>
        rw [harr] at hvoice
        exact absurd hvoice hstill

/-! ## Runs -/

/-- The host at its start, and nothing on the way. -/
def init (cfg : RpcConfig) (appearance : AppearanceConfig) (nonceSeed : Bytes) : Wire where
  host := Host.init cfg appearance nonceSeed

theorem tidy_init (cfg : RpcConfig) (appearance : AppearanceConfig) (nonceSeed : Bytes) :
    (init cfg appearance nonceSeed).Tidy :=
  ⟨OverlayState.indexed_init, fun _ _ hm => nomatch hm⟩

/-- In a run where every voice state and speaking event is handled in time,
    everybody on a channel's roster was named for it, and the flags of those in
    it change on its speaking events only. -/
theorem run_lawful (lib : JsonLib) (cfg : RpcConfig) (appearance : AppearanceConfig)
    (nonceSeed : Bytes) (es : List Event)
    (htime : Machine.Along (step lib) (InTime lib) (init cfg appearance nonceSeed) es) :
    (∀ pre, pre <+: es → (Machine.run (step lib) (init cfg appearance nonceSeed) pre).Lawful lib) ∧
      Machine.Along (step lib) (KeepsFlags lib) (init cfg appearance nonceSeed) es := by
  have hinit := tidy_init cfg appearance nonceSeed
  have hlawful : (init cfg appearance nonceSeed).Lawful lib := fun hne => absurd rfl hne
  constructor
  · intro pre hpre
    exact ((htime.of_prefix hpre).invariant (P := fun w => w.Tidy ∧ w.Lawful lib)
      (fun w e hw htime => ⟨tidy_step e hw.1, lawful_step hw.1 hw.2 htime⟩) ⟨hinit, hlawful⟩).2
  · exact htime.imp_of_invariant (fun w e hw _ => tidy_step e hw)
      (fun w e hw htime => keepsFlags_step hw htime) hinit

/-- The peer's message and a `poll` that handles the next one. -/
def emits (j : Json) (channel : Bytes) : Event :=
  .emit 0 { op := kOpFrame, payload := JsonText.text j, channel }

def polls (env : MsgEnv) : List Event := [.own (.enter {}), .handle [] env, .own .leave]

/-- A login, a channel and the peer's processing of its subscriptions. -/
def subscribed (id : Bytes) : List Event :=
  .own (.act (.start {})) ::
    (emits peerReady [] :: polls {}) ++
    (emits (peerAuthorize (ascii "code")) [] ::
      polls { response := Host.tokenReply (ascii "token") }) ++
    (emits peerAuthenticate [] :: polls {}) ++
    (emits (peerChannelSelect id) [] :: polls {}) ++
    List.replicate 5 (.process 0)

/-- A user who joins the channel. -/
theorem run_lawful_joined :
    let w := Machine.run (step compactJson) (init {} {} []) (subscribed (ascii "1") ++
      emits (peerDispatch "VOICE_STATE_CREATE" (peerUser (ascii "u"))) (ascii "1") :: polls {})
    w.named = ascii "1" ∧ w.host.overlay.roster = [ascii "u"] ∧ w.Lawful compactJson :=
  ⟨by decide +kernel, by decide +kernel,
    (run_lawful compactJson {} {} [] _ (by decide +kernel)).1 _ (List.prefix_refl _)⟩

/-- A user who joins the old channel while the switch to another is on its way
    is put on the roster of the new one. -/
theorem joined_left_channel_not_lawful :
    ¬ (Machine.run (step compactJson) (init {} {} []) (subscribed (ascii "1") ++
        emits (peerChannelSelect (ascii "2")) [] ::
        emits (peerDispatch "VOICE_STATE_CREATE" (peerUser (ascii "u"))) (ascii "1") ::
        polls {} ++ polls {})).Lawful compactJson := by
  decide +kernel

end Wire

end Choir
