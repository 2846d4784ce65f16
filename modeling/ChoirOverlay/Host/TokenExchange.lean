-- SUMMARY: What becomes of a token exchange when the client is restarted while it runs.
import ChoirOverlay.Host.Peer
import ChoirOverlay.Machine.Log

/-!
# The token exchange

`exchange_code` waits in an event loop of its own, where the tray can stop and
start the client. The handler goes on afterwards without looking whether its
connection is still the one it answers on.
-/

namespace Choir

/-- The exchange that ended last, when nothing was logged since. -/
def lastExchange : List Obs → Option (Option Conn × TokenResult)
  | .exchanged c _ tok :: _ => some (c, tok)
  | _ => none

/-- An `AUTHENTICATE` frame follows on a successful exchange, on the connection
    its code came on and while the client is authorizing; and what is closed on
    a failed exchange is the connection its code came on. -/
def Obs.AnswersExchange (past : List Obs) : Obs → Prop
  | .wrote c s _ (.text j) _ =>
    j.strOr "cmd" = ascii "AUTHENTICATE" →
      s = .authorizing ∧ ∃ r ∈ lastExchange past, r.1 = some c ∧ r.2.ok = true
  | .closed c => ∀ r ∈ lastExchange past, r.2.ok = true ∨ r.1 = some c
  | _ => True

instance (past : List Obs) : (o : Obs) → Decidable (o.AnswersExchange past)
  | .wrote c _ _ (.text _) _ =>
    inferInstanceAs (Decidable (_ → _ ∧ ∃ r ∈ lastExchange past, r.1 = some c ∧ r.2.ok = true))
  | .closed c => inferInstanceAs (Decidable (∀ r ∈ lastExchange past, r.2.ok = true ∨ r.1 = some c))
  | .wrote _ _ _ (.raw _) _ | .opened _ | .received _ _ _ | .exchanged _ _ _ | .entered _ _
  | .returned _ => .isTrue trivial

/-! ## Where nested calls leave a connection -/

/-- What became of the connection that a message came on. -/
inductive Standing where
  /-- It is open and the client is authorizing on it. -/
  | same
  /-- It is open and the client has started anew on it. -/
  | touched
  /-- The client has no connection. -/
  | gone
  /-- The client has another connection. -/
  | fresh
  deriving DecidableEq, Repr

/-- A start takes up a live connection, or opens one; a handshake that fails
    takes it down. -/
def Standing.after : Standing → Act → Standing
  | s, .poll => s
  | s, .configure _ => s
  | _, .stop => .gone
  | .gone, .start env =>
    if (List.range 10).any env.probe = true ∧ env.Allows 1 then .fresh else .gone
  | .fresh, .start env => if env.Allows 1 then .fresh else .gone
  | .same, .start env => if env.Allows 1 then .touched else .gone
  | .touched, .start env => if env.Allows 1 then .touched else .gone

def standing (as : List Act) : Standing := as.foldl Standing.after .same

/-- Of the arrivals only the `AUTHORIZE` reply matters: when its exchange
    succeeds, the calls made meanwhile leave the client authorizing on the
    connection or with no connection; when it fails, they do not leave it with
    another connection. -/
def Arrival.KeepsExchange (lib : JsonLib) (h : Host) (env : MsgEnv) : Arrival → Prop
  | .authorizeReply frame =>
    h.state = .authorizing → ((frame.find? "data").getD (.obj [])).strOr "code" ≠ [] →
      if (exchangeCode lib env.response).ok = true then
        standing env.duringExchange = .same ∨ standing env.duringExchange = .gone
      else standing env.duringExchange ≠ .fresh
  | _ => True

instance (lib : JsonLib) (h : Host) (env : MsgEnv) :
    (a : Arrival) → Decidable (a.KeepsExchange lib h env)
  | .authorizeReply _ =>
    inferInstanceAs (Decidable (_ → ¬ _ →
      if (exchangeCode lib env.response).ok = true then _ ∨ _ else ¬ _))
  | .ping | .ignored | .ready | .authenticateReply _ | .selectedReply _ | .event _ =>
    .isTrue trivial

namespace Host

def KeepsExchange (lib : JsonLib) (h : Host) : Step → Prop
  | .deliver op payload _ env => (arrival lib op payload).KeepsExchange lib h env
  | _ => True

instance (lib : JsonLib) (h : Host) : (s : Step) → Decidable (h.KeepsExchange lib s)
  | .deliver op payload _ env =>
    inferInstanceAs (Decidable ((arrival lib op payload).KeepsExchange lib h env))
  | .act _ | .enter _ | .reconnect _ | .fill _ | .lost | .leave => .isTrue trivial

variable {h g : Host}

/-- The client stands so towards connection `c`. -/
def Stands (c : Conn) (h : Host) : Standing → Prop
  | .same => h.fd = some c ∧ h.state = .authorizing
  | .touched => h.fd = some c
  | .gone => h.fd = none
  | .fresh => True

/-- A start on a live connection keeps it, unless the handshake fails. -/
theorem start_fd_live {c : Conn} (hc : h.fd = some c) (env : ConnectEnv) :
    (h.act (.start env)).fd = if env.Allows 1 then some c else none := by
  have hfd : (h.act (.start env)).fd = (h.start env).link.1 := rfl
  rw [hfd, h.start_link env]
  simp only [reached, hc]
  split <;> rfl

/-- A start that is refused or whose handshake fails leaves no connection. -/
theorem start_fd_gone {env : ConnectEnv}
    (hno : h.fd = none → ¬ (List.range 10).any env.probe = true ∨ ¬ env.Allows 1)
    (hw : h.fd ≠ none → ¬ env.Allows 1) : (h.act (.start env)).fd = none := by
  cases hc : h.fd with
  | some c => rw [start_fd_live hc, if_neg (hw (by simp [hc]))]
  | none =>
    have hfd : (h.act (.start env)).fd = (h.start env).link.1 := rfl
    rw [hfd, h.start_link env]
    simp only [reached, hc]
    rcases hno hc with hp | hw
    · rw [if_neg hp]
    · split
      · rfl
      · rw [if_neg hw]
        rfl

theorem stands_act {c : Conn} {s : Standing} (hs : h.Stands c s) (a : Act) :
    (h.act a).Stands c (s.after a) := by
  cases a with
  | poll => cases s <;> exact hs
  | configure cfg => cases s <;> exact hs
  | stop =>
    have hfd : h.stop.fd = none := congrArg Prod.fst (stop_link h)
    cases s <;> exact hfd
  | start env =>
    cases s with
    | same | touched =>
      have hc : h.fd = some c := by first | exact hs.1 | exact hs
      rw [Standing.after]
      by_cases hw : env.Allows 1
      · rw [if_pos hw]
        exact (start_fd_live hc env).trans (if_pos hw)
      · rw [if_neg hw]
        exact (start_fd_live hc env).trans (if_neg hw)
    | gone =>
      rw [Standing.after]
      split
      · trivial
      · rename_i hno
        exact start_fd_gone (fun _ => not_and_or.mp hno) fun hne => absurd hs hne
    | fresh =>
      rw [Standing.after]
      split
      · trivial
      · exact start_fd_gone (fun _ => .inr ‹_›) fun _ => ‹_›

theorem stands_acts {c : Conn} {s : Standing} (hs : h.Stands c s) (as : List Act) :
    (h.acts as).Stands c (as.foldl Standing.after s) := by
  induction as generalizing h s with
  | nil => exact hs
  | cons a as ih => exact ih (stands_act hs a)

/-! ## Operations away from an exchange -/

/-- The log answers its exchanges, and after a failed one nothing is open. -/
structure Tidy (h : Host) : Prop where
  each : Log.Each Obs.AnswersExchange h.log
  last : ∀ r ∈ lastExchange h.log, r.2.ok = true ∨ h.fd = none

theorem Tidy.congr (ht : h.Tidy) (hfd : g.fd = h.fd) (hlog : g.log = h.log) : g.Tidy := by
  refine ⟨?_, ?_⟩
  · rw [hlog]
    exact ht.each
  · rw [hfd, hlog]
    exact ht.last

/-- An entry that is no exchange. -/
theorem Tidy.cons {o : Obs} (ht : h.Tidy) (hlog : g.log = o :: h.log)
    (ho : o.AnswersExchange h.log) (hne : lastExchange (o :: h.log) = none) : g.Tidy := by
  refine ⟨?_, ?_⟩
  · rw [hlog]
    exact ⟨ho, ht.each⟩
  · rw [hlog, hne]
    simp

theorem Tidy.setState (s : ConnectionState) (ht : h.Tidy) : (h.setState s).Tidy := by
  by_cases hs : h.state = s
  · rwa [Host.setState, if_pos hs]
  · exact ht.cons (o := .entered h.fd s) (by rw [setState_log, if_neg hs]) trivial rfl

theorem Tidy.close (ht : h.Tidy) : h.close.Tidy := by
  cases hfd : h.fd with
  | none => rwa [close_of_none h hfd]
  | some c =>
    refine ht.cons (close_log h hfd) (fun r hr => ?_) rfl
    exact .inl ((ht.last r hr).resolve_right (by simp [hfd]))

theorem Tidy.handleClosed (ht : h.Tidy) : h.handleClosed.Tidy := by
  cases hfd : h.fd with
  | none => rwa [handleClosed_of_none h hfd]
  | some c =>
    have hstate := (ht.close.congr (g := h.close.clearChannelState) rfl rfl).setState .disconnected
    refine hstate.congr ?_ ?_
    · rw [setState_fd, clearChannelState_fd, close_fd]
      exact congrArg Prod.fst (handleClosed_link h (by simp [hfd]))
    · unfold Host.handleClosed
      rw [hfd, setState_log]
      exact (onClosed_log _).trans (setState_log ..)

theorem Tidy.abandon (ht : h.Tidy) : h.abandon.Tidy :=
  (ht.close.congr (scheduleReconnect_fd _) (scheduleReconnect_log _)).setState .disconnected

/-- A frame is written, and perhaps the connection lost. -/
theorem Tidy.sendRaw {op : Int} {payload : Payload}
    (hlog : Log.Each Obs.AnswersExchange h.log)
    (hlast : h.fd = none → h.Tidy)
    (ho : ∀ c ok, h.fd = some c → (Obs.wrote c h.state op payload ok).AnswersExchange h.log) :
    (h.sendRaw op payload).Tidy := by
  cases hfd : h.fd with
  | none =>
    rw [sendRaw_of_none _ _ _ hfd]
    exact hlast hfd
  | some c =>
    have hwrote (ok : Bool) : Tidy (({ h with
        transport := { h.transport with verdicts := h.transport.verdicts.drop 1 } } : Host).record
          (.wrote c h.state op payload ok)) :=
      ⟨⟨ho c ok hfd, hlog⟩, by simp [lastExchange]⟩
    by_cases hw : h.transport.Allows 1
    · rw [sendRaw_of_allows _ _ _ hfd hw]
      exact hwrote true
    · rw [sendRaw_of_not_allows _ _ _ hfd hw]
      exact (hwrote false).handleClosed

/-- A command that is not `AUTHENTICATE`. -/
theorem Tidy.command {build : Bytes → Json} (ht : h.Tidy)
    (hb : ∀ nonce, (build nonce).strOr "cmd" ≠ ascii "AUTHENTICATE") : (h.command build).Tidy := by
  rw [command_eq]
  have hdrawn : h.drawn.Tidy := ht.congr rfl rfl
  exact Tidy.sendRaw hdrawn.each (fun _ => hdrawn) fun _ _ _ he => absurd he (hb _)

theorem Tidy.commands {bs : List (Bytes → Json)} (ht : h.Tidy)
    (hb : ∀ b ∈ bs, ∀ nonce, (b nonce).strOr "cmd" ≠ ascii "AUTHENTICATE") :
    (h.commands bs).Tidy :=
  commands_induct (fun b hmem _ hg => Tidy.command hg (hb b hmem)) ht

theorem Tidy.tryConnect (probe : Nat → Bool) (ht : h.Tidy) : (h.tryConnect probe).Tidy := by
  have hattempting : h.attempting.Tidy := ht.congr rfl rfl
  have hconn : (h.attempting.connect probe).1.Tidy := by
    rcases h.attempting.connect_log probe with ⟨hfd, hlog⟩ | ⟨c, hlog⟩
    · exact hattempting.congr hfd hlog
    · exact hattempting.cons hlog trivial rfl
  obtain ⟨c, -, hstep⟩ | ⟨-, hstep⟩ := tryConnect_cases h probe
  · have hset := hconn.setState .connecting
    rw [hstep]
    refine Tidy.sendRaw hset.each (fun _ => hset) fun _ _ _ he => ?_
    rw [handshake_cmd] at he
    exact absurd he (by decide)
  · rw [hstep]
    exact hconn.congr (scheduleReconnect_fd _) (scheduleReconnect_log _)

theorem Tidy.returned (ht : h.Tidy) : h.returned.Tidy := ht.cons rfl trivial rfl

theorem Tidy.act (a : Act) (ht : h.Tidy) : (h.act a).Tidy := by
  cases a with
  | start env =>
    refine Tidy.returned (Tidy.tryConnect env.probe ?_)
    exact ht.congr rfl rfl
  | stop =>
    refine Tidy.returned (Tidy.setState .disconnected (Tidy.close ?_))
    exact ht.congr rfl rfl
  | poll => exact ht.returned
  | configure cfg => exact ht.congr rfl rfl

theorem Tidy.acts (as : List Act) (ht : h.Tidy) : (h.acts as).Tidy :=
  acts_induct (fun a _ hg => Tidy.act a hg) ht as

theorem Tidy.onEvent {wallMs : Int} {during : List Act} {ev : RpcEvent} (ht : h.Tidy) :
    (h.onEvent wallMs during ev).Tidy := by
  have happly : ({ h with overlay := h.overlay.apply wallMs ev } : Host).Tidy := ht.congr rfl rfl
  unfold Host.onEvent
  simp only
  split
  · exact happly.acts during
  · exact happly

theorem Tidy.seedStates (env : MsgEnv) (states : List VoiceState) (during : List (List Act))
    (ht : h.Tidy) : (h.seedStates env states during).Tidy :=
  seedStates_induct (fun _ _ _ hg => Tidy.onEvent hg) ht states during

theorem Tidy.handleChannelSelect (id : Bytes) (ht : h.Tidy) : (h.handleChannelSelect id).Tidy := by
  rw [handleChannelSelect_eq]
  refine Tidy.setState _ (Tidy.congr (ht.commands ?_) rfl rfl)
  intro b hb nonce
  unfold selectCommands at hb
  split at hb
  · cases hb
  · rcases List.mem_append.mp hb with hb | hb
    · split at hb
      · obtain ⟨evt, -, rfl⟩ := List.mem_map.mp hb
        rw [buildUnsubscribe_cmd]
        decide
      · cases hb
    · split at hb
      · obtain ⟨evt, -, rfl⟩ := List.mem_map.mp hb
        rw [buildSubscribe_cmd]
        decide
      · cases hb

/-! ## The exchange -/

section Exchange

variable (lib : JsonLib) (frame : Json) (env : MsgEnv) {c : Conn}

/-- The client comes back to the connection the way the nested calls left it. -/
theorem stands_exchanged (hfd : h.fd = some c) (hs : h.state = .authorizing) :
    (h.exchanged lib frame env).Stands c (standing env.duringExchange) :=
  stands_acts (show h.Stands c .same from ⟨hfd, hs⟩) env.duringExchange

theorem lastExchange_exchanged (hfd : h.fd = some c) :
    lastExchange (h.exchanged lib frame env).log =
      some (some c, exchangeCode lib env.response) := by
  rw [← hfd]
  rfl

theorem Tidy.each_exchanged (ht : h.Tidy) :
    Log.Each Obs.AnswersExchange (h.exchanged lib frame env).log :=
  ⟨trivial, (ht.acts env.duringExchange).each⟩

variable {lib frame env}

/-- The token goes out on the connection its code came on, or not at all. -/
theorem tidy_granted (ht : h.Tidy) (hfd : h.fd = some c) (hs : h.state = .authorizing)
    (hok : (exchangeCode lib env.response).ok = true)
    (hgood : standing env.duringExchange = .same ∨ standing env.duringExchange = .gone) :
    ((h.exchanged lib frame env).command
      (buildAuthenticate (exchangeCode lib env.response).accessToken)).Tidy := by
  have hstands := stands_exchanged lib frame env hfd hs
  have hlast := lastExchange_exchanged lib frame env hfd
  have heach := ht.each_exchanged lib frame env
  rw [command_eq]
  refine Tidy.sendRaw (h := (h.exchanged lib frame env).drawn) heach (fun _ => ⟨heach, ?_⟩)
    fun c' ok hc' _ => ?_
  · intro r hr
    rw [drawn_log, hlast] at hr
    obtain rfl := Option.some.inj hr
    exact .inl hok
  · rcases hgood with hsame | hgone
    · rw [hsame] at hstands
      obtain rfl : c = c' := Option.some.inj (hstands.1.symm.trans hc')
      exact ⟨hstands.2, (some c, exchangeCode lib env.response), hlast, rfl, hok⟩
    · rw [hgone] at hstands
      cases hstands.symm.trans hc'

/-- A failed exchange closes no other connection. -/
theorem tidy_refused (ht : h.Tidy) (hfd : h.fd = some c) (hs : h.state = .authorizing)
    (hgood : standing env.duringExchange ≠ .fresh) : (h.exchanged lib frame env).abandon.Tidy := by
  have hstands := stands_exchanged lib frame env hfd hs
  have hlast := lastExchange_exchanged lib frame env hfd
  have heach := ht.each_exchanged lib frame env
  generalize h.exchanged lib frame env = g at hstands hlast heach ⊢
  refine Tidy.setState .disconnected (Tidy.congr (h := g.close) ?_ (scheduleReconnect_fd _)
    (scheduleReconnect_log _))
  cases hc : g.fd with
  | none =>
    rw [close_of_none g hc]
    exact ⟨heach, fun _ _ => .inr hc⟩
  | some c' =>
    have hcc : c = c' := by
      cases hstand : standing env.duringExchange with
      | same =>
        rw [hstand] at hstands
        exact Option.some.inj (hstands.1.symm.trans hc)
      | touched =>
        rw [hstand] at hstands
        exact Option.some.inj (hstands.symm.trans hc)
      | gone =>
        rw [hstand] at hstands
        cases hstands.symm.trans hc
      | fresh => exact absurd hstand hgood
    have hclosed := close_log g hc
    refine ⟨?_, ?_⟩
    · rw [hclosed]
      refine ⟨fun r hr => .inr ?_, heach⟩
      rw [hlast] at hr
      rw [← Option.some.inj hr, hcc]
    · rw [hclosed]
      simp [lastExchange]

end Exchange

theorem tidy_handle {lib : JsonLib} {payload : Bytes} {env : MsgEnv} {a : Arrival} {c : Conn}
    (ht : h.Tidy) (hfd : h.fd = some c) (hgood : a.KeepsExchange lib h env) :
    (h.handle lib payload env a).Tidy := by
  have hhandles := handles lib payload env a h
  generalize h.handle lib payload env a = g at hhandles ⊢
  cases hhandles with
  | answers => exact Tidy.sendRaw ht.each (fun _ => ht) fun _ _ _ => trivial
  | ignores | strayCode | strayLogin | stays => exact ht
  | greets =>
    refine (ht.setState .authorizing).command fun nonce => ?_
    rw [buildAuthorize_cmd]
    decide
  | noCode | rejected => exact ht.abandon
  | granted hs hcode hok =>
    have hback := hgood hs hcode
    rw [if_pos hok] at hback
    exact tidy_granted ht hfd hs hok hback
  | refused hs hcode hok =>
    have hback := hgood hs hcode
    rw [if_neg (ne_true_of_eq_false hok)] at hback
    exact tidy_refused ht hfd hs hback
  | accepted =>
    refine (ht.setState .ready).commands fun b hb nonce => ?_
    simp only [List.mem_cons, List.not_mem_nil, or_false] at hb
    rcases hb with rfl | rfl | rfl
    · rw [buildSubscribe_cmd]
      decide
    · rw [buildSubscribe_cmd]
      decide
    · rw [buildGetSelectedVoiceChannel_cmd]
      decide
  | enters => exact (ht.onEvent.handleChannelSelect _).seedStates ..
  | selects => exact ht.onEvent.handleChannelSelect _
  | reports => exact ht.onEvent

theorem tidy_step {lib : JsonLib} (s : Step) (ht : h.Tidy) (hgood : h.KeepsExchange lib s) :
    (h.step lib s).Tidy := by
  cases s with
  | act a => exact ht.act a
  | enter k => exact ht.congr rfl rfl
  | reconnect probe => exact ht.tryConnect probe
  | fill rbuf => exact ht.congr rfl rfl
  | lost => exact ht.handleClosed
  | deliver op payload rest env =>
    unfold step
    cases hfd : h.fd with
    | none => exact ht
    | some c =>
      simp only [dispatch_eq]
      refine tidy_handle ?_ (show _ = some c from hfd) hgood
      exact ht.cons (g := (h.setRbuf rest).receiving c op payload env) rfl trivial rfl
  | leave => exact Tidy.returned (ht.congr (g := h.guard false) rfl rfl)

/-- In a run whose calls during an exchange leave its connection alone, each
    `AUTHENTICATE` frame answers an exchange on its connection, and a failed
    exchange closes no other. -/
theorem run_answers_exchange (lib : JsonLib) (cfg : RpcConfig) (appearance : AppearanceConfig)
    (nonceSeed : Bytes) (cs : List Call)
    (hgood : Machine.Along (step lib) (KeepsExchange lib) (init cfg appearance nonceSeed)
      (steps lib (init cfg appearance nonceSeed) cs)) :
    Log.Each Obs.AnswersExchange
      (Machine.run (exec lib) (init cfg appearance nonceSeed) cs).log := by
  have hinit : (init cfg appearance nonceSeed).Tidy := ⟨trivial, fun r hr => by cases hr⟩
  rw [run_exec]
  exact (hgood.invariant (fun h s => tidy_step s) hinit).each

theorem run_answers_exchange_session :
    Log.Each Obs.AnswersExchange (Machine.run (exec compactJson) (init {} {} [])
      (login ++ [.stop, .start {}, deliver peerReady {},
        deliver (peerAuthorize (ascii "code")) { duringExchange := [.poll, .stop] }])).log :=
  run_answers_exchange compactJson {} {} [] _ (by decide +kernel)

/-- After a restart during the exchange `AUTHENTICATE` goes out on the new
    connection. -/
theorem reconnect_during_exchange_unanswered :
    ¬ Log.Each Obs.AnswersExchange (Machine.run (exec compactJson) (init {} {} [])
      [.start {}, deliver peerReady {},
        deliver (peerAuthorize (ascii "code"))
          { response := tokenReply (ascii "token"),
            duringExchange := [.stop, .start {}] }]).log := by
  decide +kernel

end Host

end Choir
