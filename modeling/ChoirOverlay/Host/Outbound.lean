-- SUMMARY: What Discord reads of the host on each connection, however the kernel takes the writes apart.
import ChoirOverlay.Discord.Polling
import ChoirOverlay.Discord.Sending
import ChoirOverlay.Host.Peer
import ChoirOverlay.Machine.Log

/-!
# What the host sends

The log has an entry for each frame, and tells whether its write went through. A
connection starts with a handshake, answers each PING at once and carries nothing after a
write that failed. What Discord reads follows from that and from the write loop.
-/

namespace Choir

/-! ## A log in good form -/

/-- The connection an entry is about. -/
def Obs.conn : Obs → Option Conn
  | .opened c | .closed c | .received c _ _ | .wrote c _ _ _ _ => some c
  | .entered _ _ | .exchanged _ _ _ | .returned _ => none

/-- A frame the client may send. -/
inductive Outgoing (cfg : RpcConfig) : Int → Payload → Prop where
  | handshake : Outgoing cfg kOpHandshake (.text (Host.handshake cfg))
  | pong (bytes : Bytes) : Outgoing cfg kOpPong (.raw bytes)
  | command {build : Bytes → Json} (hbuild : ClientCommand build) (nonce : Bytes) :
      Outgoing cfg kOpFrame (.text (build nonce))

/-- The connection that takes frames. -/
def taking : List Obs → Option Conn
  | [] => none
  | .opened c :: _ => some c
  | .closed _ :: _ | .wrote _ _ _ _ false :: _ => none
  | .received _ _ _ :: past | .wrote _ _ _ _ true :: past | .entered _ _ :: past
  | .exchanged _ _ _ :: past | .returned _ :: past => taking past

def Obs.WritesOn (c : Conn) : Obs → Prop
  | .wrote c' _ _ _ _ => c' = c
  | _ => False

/-- Something was written on the connection. -/
def Greeted (c : Conn) (log : List Obs) : Prop := ∃ o ∈ log, o.WritesOn c

theorem Greeted.cons {c : Conn} {log : List Obs} (h : Greeted c log) (o : Obs) :
    Greeted c (o :: log) :=
  h.imp fun _ => And.imp_left (List.mem_cons_of_mem o)

/-- The PING that the newest entry is. -/
def unanswered : List Obs → Option (Conn × Bytes)
  | .received c op payload :: _ => if op = kOpPing then some (c, payload) else none
  | _ => none

/-- Connections are new, what is on them is on the one that takes frames, and a handshake
is their first frame. -/
def Obs.Placed (cfg : RpcConfig) (past : List Obs) : Obs → Prop
  | .opened c => taking past = none ∧ ∀ o ∈ past, o.conn ≠ some c
  | .received c _ _ => taking past = some c
  | .wrote c _ op payload _ =>
    taking past = some c ∧ Outgoing cfg op payload ∧ (¬ Greeted c past → op = kOpHandshake)
  | .closed _ | .entered _ _ | .exchanged _ _ _ | .returned _ => True

/-- The entry is the PONG to a PING. -/
def Obs.Answers (c : Conn) (payload : Bytes) (o : Obs) : Prop :=
  ∃ s ok, o = .wrote c s kOpPong (.raw payload) ok

def Obs.Fits (cfg : RpcConfig) (past : List Obs) (o : Obs) : Prop :=
  o.Placed cfg past ∧
    match unanswered past with
    | none => ∀ s c payload ok, o ≠ .wrote c s kOpPong payload ok
    | some (c, payload) => o.Answers c payload

namespace Host

/-- The log is in good form and says which connection is open. -/
structure Wired (cfg : RpcConfig) (h : Host) : Prop where
  config : h.cfg = cfg
  fits : Log.Each (Obs.Fits cfg) h.log
  taking : taking h.log = h.fd
  below : ∀ o ∈ h.log, ∀ c ∈ o.conn, c < h.transport.opened
  greeted : ∀ c ∈ h.fd, Greeted c h.log
  answered : unanswered h.log = none

variable {cfg : RpcConfig} {h g : Host} {c : Conn}

theorem Wired.congr (hh : h.Wired cfg) (hfd : g.fd = h.fd)
    (hopened : g.transport.opened = h.transport.opened) (hlog : g.log = h.log)
    (hcfg : g.cfg = h.cfg) : g.Wired cfg where
  config := hcfg.trans hh.config
  fits := by rw [hlog]; exact hh.fits
  taking := by rw [hlog, hfd]; exact hh.taking
  below := by rw [hlog, hopened]; exact hh.below
  greeted := by rw [hlog, hfd]; exact hh.greeted
  answered := by rw [hlog]; exact hh.answered

/-- Where no PING is open, an entry that is no PONG only has to be in its place. -/
theorem fits_of_placed {past : List Obs} {o : Obs} (hplaced : o.Placed cfg past)
    (hanswered : unanswered past = none)
    (ho : ∀ s c payload ok, o ≠ .wrote c s kOpPong payload ok) : o.Fits cfg past := by
  refine ⟨hplaced, ?_⟩
  rw [hanswered]
  exact ho

theorem Wired.inert (hh : h.Wired cfg) {o : Obs} (ho : o.Inert) : (h.record o).Wired cfg := by
  have hfits {o : Obs} (hplaced : o.Placed cfg h.log)
      (hpong : ∀ s c payload ok, o ≠ .wrote c s kOpPong payload ok) :
      Log.Each (Obs.Fits cfg) (h.record o).log :=
    ⟨fits_of_placed hplaced hh.answered hpong, hh.fits⟩
  have hgreeted : ∀ c ∈ (h.record o).fd, Greeted c (h.record o).log :=
    fun c hc => (hh.greeted c hc).cons o
  cases o with
  | entered _ _ | exchanged _ _ _ | returned _ =>
    exact ⟨hh.config, hfits trivial nofun, hh.taking, List.forall_mem_cons.mpr ⟨nofun, hh.below⟩,
      hgreeted, rfl⟩
  | opened _ | closed _ | received _ _ _ | wrote _ _ _ _ _ => exact ho.elim

/-- The open connection has a number that was given out. -/
theorem Wired.fd_lt (hh : h.Wired cfg) (hc : h.fd = some c) : c < h.transport.opened := by
  obtain ⟨o, ho, hwrites⟩ := hh.greeted c hc
  refine hh.below o ho c ?_
  cases o with
  | wrote c' _ _ _ _ => exact congrArg some hwrites
  | opened _ | closed _ | received _ _ _ | entered _ _ | exchanged _ _ _ | returned _ =>
    exact hwrites.elim

/-- The loss of a connection, also right after a write that failed. -/
theorem wired_close (hconfig : h.cfg = cfg) (hfits : Log.Each (Obs.Fits cfg) h.log)
    (hbelow : ∀ o ∈ h.log, ∀ c ∈ o.conn, c < h.transport.opened)
    (hanswered : unanswered h.log = none) (hc : h.fd = some c) (hlt : c < h.transport.opened) :
    h.close.Wired cfg := by
  have hclose : h.close = { h with transport := h.transport.shut }.record (.closed c) := by
    unfold close
    rw [hc]
  rw [hclose]
  refine ⟨hconfig, ⟨fits_of_placed trivial hanswered nofun, hfits⟩, rfl, ?_, nofun, rfl⟩
  refine List.forall_mem_cons.mpr ⟨fun c' hc' => ?_, hbelow⟩
  obtain rfl := Option.some.inj hc'
  exact hlt

theorem wired_closable (cfg : RpcConfig) : Closable (Wired cfg) where
  congr h g ht _ hl hcfg hh :=
    hh.congr (congrArg IpcTransport.fd ht) (congrArg IpcTransport.opened ht) hl hcfg
  inert _ _ ho hh := hh.inert ho
  close h hh := by
    cases hc : h.fd with
    | none => rwa [close_of_none h hc]
    | some c => exact wired_close hh.config hh.fits hh.below hh.answered hc (hh.fd_lt hc)

/-- A frame may go out on the connection. -/
structure Poised (cfg : RpcConfig) (c : Conn) (h : Host) : Prop where
  config : h.cfg = cfg
  fits : Log.Each (Obs.Fits cfg) h.log
  below : ∀ o ∈ h.log, ∀ c ∈ o.conn, c < h.transport.opened
  fd : h.fd = some c
  lt : c < h.transport.opened
  taking : taking h.log = some c

theorem Wired.poised (hh : h.Wired cfg) (hc : h.fd = some c) : h.Poised cfg c :=
  ⟨hh.config, hh.fits, hh.below, hc, hh.fd_lt hc, hh.taking.trans hc⟩

/-- A frame in its place, whether it goes out or not. -/
theorem Poised.sendRaw (hh : h.Poised cfg c) {op : Int} {payload : Payload}
    (hwrote : ∀ ok, (Obs.wrote c h.state op payload ok).Fits cfg h.log) :
    (h.sendRaw op payload).Wired cfg := by
  have hbelow (ok : Bool) : ∀ o ∈ .wrote c h.state op payload ok :: h.log, ∀ c ∈ o.conn,
      c < h.transport.opened := by
    refine List.forall_mem_cons.mpr ⟨fun c' hc' => ?_, hh.below⟩
    obtain rfl := Option.some.inj hc'
    exact hh.lt
  by_cases hw : h.transport.Allows 1
  · rw [sendRaw_of_allows _ _ _ hh.fd hw]
    refine ⟨hh.config, ⟨hwrote true, hh.fits⟩, hh.taking.trans hh.fd.symm, hbelow true, ?_, rfl⟩
    rintro c' hc'
    obtain rfl := Option.some.inj (hh.fd.symm.trans hc')
    exact ⟨_, List.mem_cons_self, rfl⟩
  · rw [sendRaw_of_not_allows _ _ _ hh.fd hw]
    unfold handleClosed
    rw [record_fd, show ({ h with
      transport := { h.transport with verdicts := h.transport.verdicts.drop 1 } } : Host).fd =
        some c from hh.fd]
    exact (wired_closable cfg).onClosed
      (wired_close hh.config ⟨hwrote false, hh.fits⟩ (hbelow false) rfl hh.fd hh.lt)

/-- The handshake, whatever was sent before. -/
theorem Poised.greet (hh : h.Poised cfg c) (hanswered : unanswered h.log = none) :
    ((h.setState .connecting).send kOpHandshake (handshake h.cfg)).Wired cfg := by
  have hplaced {past : List Obs} (htaking : Choir.taking past = some c)
      (hpast : unanswered past = none) (ok : Bool) :
      (Obs.wrote c .connecting kOpHandshake (.text (handshake h.cfg)) ok).Fits cfg past := by
    refine fits_of_placed ⟨htaking, ?_, fun _ => rfl⟩ hpast ?_
    · rw [hh.config]
      exact .handshake
    · intro s c' payload ok heq
      injection heq with _ _ hop
      exact absurd hop (by decide)
  have hstate := h.setState_state .connecting
  refine Poised.sendRaw (c := c) ?_ fun ok => ?_
  · refine ⟨?_, ?_, ?_, (setState_fd ..).trans hh.fd, ?_, ?_⟩
    all_goals unfold setState
    all_goals split
    · exact hh.config
    · exact hh.config
    · exact hh.fits
    · exact ⟨fits_of_placed trivial hanswered nofun, hh.fits⟩
    · exact hh.below
    · exact List.forall_mem_cons.mpr ⟨nofun, hh.below⟩
    · exact hh.lt
    · exact hh.lt
    · exact hh.taking
    · exact hh.taking
  · rw [hstate, setState_log]
    split
    · exact hplaced hh.taking hanswered ok
    · refine hplaced ?_ ?_ ok
      · exact hh.taking
      · rfl

theorem connect_cases (h : Host) (probe : Nat → Bool) :
    (h.connect probe).1 = h ∨
      h.fd = none ∧ (h.connect probe).1 =
        { h with transport := { h.transport with
          fd := some h.transport.opened, rbuf := [], opened := h.transport.opened + 1 } }.record
            (.opened h.transport.opened) := by
  unfold connect fd IpcTransport.connect
  cases hfd : h.transport.fd with
  | some c => exact .inl (by simp)
  | none => cases (List.range 10).any probe <;> simp

theorem wired_tryConnect (probe : Nat → Bool) (hh : h.Wired cfg) :
    (h.tryConnect probe).Wired cfg := by
  have hattempting : h.attempting.Wired cfg := hh.congr rfl rfl rfl rfl
  rcases tryConnect_cases h probe with ⟨c, hc, hstep⟩ | ⟨hnone, hstep⟩
  · rw [hstep]
    rcases connect_cases h.attempting probe with hsame | ⟨hfd, hopened⟩
    · rw [hsame] at hc ⊢
      exact (hattempting.poised hc).greet hattempting.answered
    · rw [hopened] at hc ⊢
      obtain rfl := Option.some.inj hc
      have htaking : Choir.taking h.log = none := hh.taking.trans hfd
      have hnew : ∀ o ∈ h.log, o.conn ≠ some h.transport.opened := by
        intro o ho hconn
        exact absurd (hh.below o ho _ hconn) (Nat.lt_irrefl _)
      refine Poised.greet ⟨hh.config, ?_, ?_, rfl, Nat.lt_succ_self _, rfl⟩ rfl
      · exact ⟨fits_of_placed ⟨htaking, hnew⟩ hh.answered nofun, hh.fits⟩
      · refine List.forall_mem_cons.mpr ⟨fun c hc => ?_, fun o ho c hc => ?_⟩
        · obtain rfl := Option.some.inj hc
          exact Nat.lt_succ_self _
        · exact Nat.lt_succ_of_lt (hh.below o ho c hc)
  · rw [hstep]
    rcases connect_cases h.attempting probe with hsame | ⟨-, hopened⟩
    · rw [hsame]
      exact (wired_closable cfg).scheduleReconnect hattempting
    · rw [hopened] at hnone
      cases hnone

theorem wired_operable (cfg : RpcConfig) : Operable (Wired cfg) where
  toClosable := wired_closable cfg
  under _ _ hh := hh.congr rfl rfl rfl rfl
  received c op payload h hc hop hh := by
    have hlt := hh.fd_lt hc
    refine ⟨hh.config, ⟨fits_of_placed (hh.taking.trans hc) hh.answered nofun, hh.fits⟩, hh.taking,
      List.forall_mem_cons.mpr ⟨fun c' hc' => ?_, hh.below⟩,
      fun c hc => (hh.greeted c hc).cons _, ?_⟩
    · obtain rfl := Option.some.inj hc'
      exact hlt
    · exact if_neg hop
  ping c payload h hc hh := by
    have hgreeted := (hh.greeted c hc).cons (.received c kOpPing payload)
    refine Poised.sendRaw (c := c) (h := h.record (.received c kOpPing payload))
      ⟨hh.config, ?_, ?_, hc, hh.fd_lt hc, hh.taking.trans hc⟩ ?_
    · exact ⟨fits_of_placed (hh.taking.trans hc) hh.answered nofun, hh.fits⟩
    · refine List.forall_mem_cons.mpr ⟨fun c' hc' => ?_, hh.below⟩
      obtain rfl := Option.some.inj hc'
      exact hh.fd_lt hc
    · intro ok
      refine ⟨⟨hh.taking.trans hc, .pong payload, fun hnew => absurd hgreeted hnew⟩, ?_⟩
      exact ⟨_, ok, rfl⟩
  command b h hb hh := by
    have hdrawn : h.drawn.Wired cfg := hh.congr rfl rfl rfl rfl
    rw [command_eq]
    cases hc : h.drawn.fd with
    | none => rwa [sendRaw_of_none _ _ _ hc]
    | some c =>
      refine (hdrawn.poised hc).sendRaw fun ok => ?_
      refine fits_of_placed ⟨hdrawn.taking.trans hc, .command hb _, fun hnew => ?_⟩
        hdrawn.answered ?_
      · exact absurd (hdrawn.greeted c hc) hnew
      · intro s c' payload ok heq
        injection heq with _ _ hop
        exact absurd hop (by decide)
  tryConnect probe _ := wired_tryConnect probe
  apply _ _ _ hh := hh.congr rfl rfl rfl rfl
  setConfig _ _ hh := hh.congr rfl rfl rfl rfl

theorem Wired.step (lib : JsonLib) (hh : h.Wired cfg) (s : Step) : (h.step lib s).Wired cfg := by
  have hkeeps := wired_operable cfg
  cases s with
  | act a => exact hkeeps.act hh
  | enter k => exact hh.congr rfl rfl rfl rfl
  | reconnect probe => exact hkeeps.tryConnect probe h hh
  | fill rbuf => exact hh.congr rfl rfl rfl rfl
  | lost => exact hkeeps.handleClosed hh
  | deliver op payload rest env =>
    unfold Host.step
    cases hc : h.fd with
    | none => exact hh
    | some c =>
      have hpeeled : (h.setRbuf rest).Wired cfg := hh.congr rfl rfl rfl rfl
      exact hkeeps.dispatch lib op payload env (h := h.setRbuf rest) hc hpeeled
  | leave => exact Wired.inert (h := h.guard false) (hh.congr rfl rfl rfl rfl) trivial

/-- The log of every run is in good form. -/
theorem wired_run (lib : JsonLib) (cfg : RpcConfig) (appearance : AppearanceConfig)
    (nonceSeed : Bytes) (calls : List Call) :
    (Machine.run (exec lib) (init cfg appearance nonceSeed) calls).Wired cfg := by
  have hinit : (init cfg appearance nonceSeed).Wired cfg :=
    ⟨rfl, trivial, rfl, fun _ ho => absurd ho List.not_mem_nil, nofun, rfl⟩
  rw [run_exec]
  exact Machine.run_invariant (P := Wired cfg) (fun _ s hh => hh.step lib s) hinit _

end Host

/-! ## The wire -/

/-- What is framed; `dump` may throw. -/
def Payload.bytes (lib : JsonLib) : Payload → Option Bytes
  | .text j => lib.dump j
  | .raw bytes => some bytes

section

variable (lib : JsonLib) (c : Conn)

/-- Bytes that may have gone out on the connection: of each frame what the write loop made
of the calls, where its entry tells how the loop returned. -/
inductive Carried : List Obs → Bytes → Prop where
  | start : Carried [] []
  | wrote {past : List Obs} {out bytes part : Bytes} {s : ConnectionState} {op : Int}
      {payload : Payload} {ok : Bool} (calls : List SendCall) (hout : Carried past out)
      (hbytes : payload.bytes lib = some bytes)
      (hsent : IpcTransport.sendAll calls (IpcTransport.frame op bytes) = (part, ok)) :
      Carried (.wrote c s op payload ok :: past) (out ++ part)
  | other {o : Obs} {past : List Obs} {out : Bytes} (ho : ¬ o.WritesOn c)
      (hout : Carried past out) : Carried (o :: past) out

/-- The message of a frame on the connection whose write returned `ok`. -/
def Obs.message (ok : Bool) : Obs → Option Message
  | .wrote c' _ op payload ok' =>
    if c' = c ∧ ok' = ok then (payload.bytes lib).map (⟨op, ·⟩) else none
  | _ => none

/-- The messages that were written, in order. -/
def sentOn (log : List Obs) : List Message := log.reverse.filterMap (Obs.message lib c true)

/-- The message whose write failed. -/
def cutOn (log : List Obs) : Option Message := log.findSome? (Obs.message lib c false)

end

/-- The payloads of the PINGs that came on the connection, in order. -/
def pingsOn (c : Conn) (log : List Obs) : List Bytes :=
  log.reverse.filterMap fun
    | .received c' op payload => if c' = c ∧ op = kOpPing then some payload else none
    | _ => none

/-- The payloads of the PONGs among some messages. -/
def pongs (ms : List Message) : List Bytes :=
  ms.filterMap fun m => if m.op = kOpPong then some m.payload else none

/-! ## What goes out -/

section

variable {lib : JsonLib} {cfg : RpcConfig} {c : Conn} {log : List Obs} {out : Bytes}

theorem message_of_not_writes {o : Obs} (ho : ¬ o.WritesOn c) (ok : Bool) :
    o.message lib c ok = none := by
  cases o with
  | wrote c' s op payload ok' => exact if_neg fun h => ho h.1
  | opened _ | closed _ | received _ _ _ | entered _ _ | exchanged _ _ _ | returned _ => rfl

theorem message_wrote {s : ConnectionState} {op : Int} {payload : Payload} {bytes : Bytes}
    (hbytes : payload.bytes lib = some bytes) (ok ok' : Bool) :
    (Obs.wrote c s op payload ok').message lib c ok =
      if ok' = ok then some ⟨op, bytes⟩ else none := by
  simp [Obs.message, hbytes]

theorem sentOn_cons (o : Obs) :
    sentOn lib c (o :: log) = sentOn lib c log ++ (o.message lib c true).toList := by
  rw [sentOn, List.reverse_cons, List.filterMap_append]
  cases h : o.message lib c true <;> simp [sentOn, h]

theorem cutOn_cons (o : Obs) :
    cutOn lib c (o :: log) = (o.message lib c false).or (cutOn lib c log) := by
  rw [cutOn, List.findSome?_cons]
  cases h : o.message lib c false <;> simp [cutOn]

theorem sentOn_other {o : Obs} (ho : ¬ o.WritesOn c) :
    sentOn lib c (o :: log) = sentOn lib c log := by
  rw [sentOn_cons, message_of_not_writes ho]
  exact List.append_nil _

theorem cutOn_other {o : Obs} (ho : ¬ o.WritesOn c) :
    cutOn lib c (o :: log) = cutOn lib c log := by
  rw [cutOn_cons, message_of_not_writes ho]
  rfl

theorem pingsOn_cons (o : Obs) : pingsOn c (o :: log) = pingsOn c log ++ pingsOn c [o] := by
  rw [pingsOn, List.reverse_cons, List.filterMap_append]
  rfl

theorem pongs_append (ms ms' : List Message) : pongs (ms ++ ms') = pongs ms ++ pongs ms' :=
  List.filterMap_append ..

/-- Nothing goes out on a connection after a write that failed. -/
theorem taking_ne_of_cut (hlog : Log.Each (Obs.Fits cfg) log) {s : ConnectionState} {op : Int}
    {payload : Payload} (hcut : .wrote c s op payload false ∈ log) : taking log ≠ some c := by
  induction log with
  | nil => cases hcut
  | cons o past ih =>
    obtain ⟨hfits, hpast⟩ := hlog
    rcases List.mem_cons.mp hcut with rfl | hmem
    · exact nofun
    · cases o with
      | opened c' =>
        intro htaking
        obtain rfl := Option.some.inj htaking
        exact hfits.1.2 _ hmem rfl
      | closed _ => exact nofun
      | wrote _ _ _ _ ok =>
        cases ok with
        | true => exact ih hpast hmem
        | false => exact nofun
      | received _ _ _ | entered _ _ | exchanged _ _ _ | returned _ => exact ih hpast hmem

/-- No write has failed on the connection that takes frames. -/
theorem cutOn_of_taking (hlog : Log.Each (Obs.Fits cfg) log) (htaking : taking log = some c) :
    cutOn lib c log = none := by
  rw [cutOn, List.findSome?_eq_none_iff]
  intro o ho
  cases o with
  | wrote c' s op payload ok =>
    refine if_neg ?_
    rintro ⟨rfl, rfl⟩
    exact taking_ne_of_cut hlog ho htaking
  | opened _ | closed _ | received _ _ _ | entered _ _ | exchanged _ _ _ | returned _ => rfl

/-- The whole messages, and the beginning of the one whose write failed. -/
theorem carried_frames (hlog : Log.Each (Obs.Fits cfg) log) (hout : Carried lib c log out) :
    ∃ tail, out = (sentOn lib c log).flatMap Message.encode ++ tail ∧
      match cutOn lib c log with
      | none => tail = []
      | some m => tail <+: m.encode ∧ tail ≠ m.encode := by
  induction hout with
  | start => exact ⟨[], rfl, rfl⟩
  | @wrote past out bytes part s op payload ok calls hout hbytes hsent ih =>
    obtain ⟨hfits, hpast⟩ := hlog
    obtain ⟨tail, rfl, htail⟩ := ih hpast
    rw [cutOn_of_taking hpast hfits.1.1] at htail
    obtain rfl : tail = [] := htail
    have hspec := IpcTransport.sendAll_spec calls (IpcTransport.frame op bytes)
    rw [hsent] at hspec
    obtain ⟨hfront, hwhole⟩ := hspec
    rw [sentOn_cons, cutOn_cons, message_wrote hbytes, message_wrote hbytes, List.append_nil]
    cases ok with
    | true =>
      obtain rfl : part = IpcTransport.frame op bytes := hwhole.mp rfl
      rw [cutOn_of_taking hpast hfits.1.1]
      refine ⟨[], ?_, rfl⟩
      simp [List.flatMap_append, Message.encode]
    | false =>
      refine ⟨part, ?_, hfront, fun h => Bool.false_ne_true (hwhole.mpr h)⟩
      simp
  | @other o past out ho hout ih =>
    rw [sentOn_other ho, cutOn_other ho]
    exact ih hlog.2

/-- What was written on a connection was sent, or its write failed. -/
theorem carried_greeted (hout : Carried lib c log out) (hgreeted : Greeted c log) :
    sentOn lib c log ≠ [] ∨ cutOn lib c log ≠ none := by
  induction hout with
  | start =>
    obtain ⟨o, ho, -⟩ := hgreeted
    cases ho
  | @wrote past out bytes part s op payload ok calls hout hbytes hsent ih =>
    rw [sentOn_cons, cutOn_cons, message_wrote hbytes, message_wrote hbytes]
    cases ok with
    | true => exact .inl (by simp)
    | false => exact .inr (by simp)
  | @other o past out ho hout ih =>
    rw [sentOn_other ho, cutOn_other ho]
    obtain ⟨o', ho', hwrites⟩ := hgreeted
    rcases List.mem_cons.mp ho' with rfl | hmem
    · exact absurd hwrites ho
    · exact ih ⟨o', hmem, hwrites⟩

/-- The first message of a connection is its handshake. -/
theorem carried_handshake (hlog : Log.Each (Obs.Fits cfg) log) (hout : Carried lib c log out) :
    ∀ m ∈ (sentOn lib c log).head?,
      m.op = kOpHandshake ∧ lib.dump (Host.handshake cfg) = some m.payload := by
  induction hout with
  | start => exact nofun
  | @wrote past out bytes part s op payload ok calls hout hbytes hsent ih =>
    obtain ⟨hfits, hpast⟩ := hlog
    rw [sentOn_cons, message_wrote hbytes]
    by_cases hfirst : sentOn lib c past = []
    · have hnew : ¬ Greeted c past := by
        intro hgreeted
        rcases carried_greeted hout hgreeted with hsent | hcut
        · exact hsent hfirst
        · exact hcut (cutOn_of_taking hpast hfits.1.1)
      obtain rfl := hfits.1.2.2 hnew
      have hpayload : payload = .text (Host.handshake cfg) := by
        generalize hop : kOpHandshake = op at hfits
        cases hfits.1.2.1 with
        | handshake => rfl
        | pong _ => exact absurd hop (by decide)
        | command _ _ => exact absurd hop (by decide)
      subst hpayload
      rw [hfirst]
      intro m hm
      split at hm
      · obtain rfl := Option.some.inj hm
        exact ⟨rfl, hbytes⟩
      · cases hm
    · rw [List.head?_append_of_ne_nil _ hfirst]
      exact ih hpast
  | @other o past out ho hout ih =>
    rw [sentOn_other ho]
    exact ih hlog.2

/-- The PING of the newest entry, where it is one on the connection. -/
def openPing (c : Conn) (log : List Obs) : List Bytes :=
  match unanswered log with
  | none => []
  | some (c', payload) => if c' = c then [payload] else []

theorem openPing_cons {past : List Obs} {o : Obs} (hfits : o.Fits cfg past) (ho : ¬ o.WritesOn c) :
    openPing c (o :: past) = openPing c past ++ pingsOn c [o] := by
  have hanswer := hfits.2
  cases hopen : unanswered past with
  | none =>
    have hpast : openPing c past = [] := by rw [openPing, hopen]
    rw [hpast, List.nil_append]
    cases o with
    | received c' op payload =>
      by_cases hop : op = kOpPing <;> by_cases hc : c' = c <;>
        simp [openPing, unanswered, pingsOn, hop, hc]
    | opened _ | closed _ | wrote _ _ _ _ _ | entered _ _ | exchanged _ _ _ | returned _ => rfl
  | some open' =>
    obtain ⟨c', payload⟩ := open'
    rw [hopen] at hanswer
    obtain ⟨s, ok, rfl⟩ := hanswer
    have hpast : openPing c past = [] := by
      rw [openPing, hopen]
      exact if_neg ho
    rw [hpast]
    rfl

/-- Until a write fails, every PING but the newest entry's was answered with its payload. -/
theorem carried_pongs (hlog : Log.Each (Obs.Fits cfg) log) (hout : Carried lib c log out) :
    pongs (sentOn lib c log) <+: pingsOn c log ∧
      (cutOn lib c log = none → pingsOn c log = pongs (sentOn lib c log) ++ openPing c log) := by
  induction hout with
  | start => exact ⟨List.prefix_rfl, fun _ => rfl⟩
  | @wrote past out bytes part s op payload ok calls hout hbytes hsent ih =>
    obtain ⟨hfits, hpast⟩ := hlog
    have hpings := (ih hpast).2 (cutOn_of_taking hpast hfits.1.1)
    have hanswer := hfits.2
    -- The frame is the PONG that is due, or none is due and it is no PONG.
    have hpong : pongs [⟨op, bytes⟩] = openPing c past := by
      cases hopen : unanswered past with
      | none =>
        rw [hopen] at hanswer
        have hop : op ≠ kOpPong := by
          rintro rfl
          exact hanswer _ _ _ _ rfl
        rw [openPing, hopen]
        simp [pongs, hop]
      | some open' =>
        obtain ⟨c', payload'⟩ := open'
        rw [hopen] at hanswer
        obtain ⟨s', ok', heq⟩ := hanswer
        injection heq with hc _ hop hpayload
        subst hc hop hpayload
        obtain rfl := Option.some.inj hbytes
        rw [openPing, hopen]
        simp [pongs]
    have hdone : openPing c (.wrote c s op payload ok :: past) = [] := rfl
    have hsame : pingsOn c (.wrote c s op payload ok :: past) = pingsOn c past := by
      rw [pingsOn_cons]
      exact List.append_nil _
    rw [sentOn_cons, cutOn_cons, message_wrote hbytes, message_wrote hbytes, hdone, hsame, hpings,
      pongs_append, ← hpong]
    cases ok with
    | true => simp
    | false => simp [pongs]
  | @other o past out ho hout ih =>
    obtain ⟨hfits, hpast⟩ := hlog
    obtain ⟨hechoed, hpings⟩ := ih hpast
    rw [sentOn_other ho, cutOn_other ho, pingsOn_cons, openPing_cons hfits ho]
    refine ⟨hechoed.trans (List.prefix_append ..), fun hcut => ?_⟩
    rw [hpings hcut, List.append_assoc]

/-- Only opcodes of the protocol go out. -/
theorem op_of_message (hlog : Log.Each (Obs.Fits cfg) log) {o : Obs} (ho : o ∈ log) {ok : Bool}
    {m : Message} (hm : o.message lib c ok = some m) :
    -0x80000000 ≤ m.op ∧ m.op < 0x80000000 := by
  induction log with
  | nil => cases ho
  | cons o' past ih =>
    obtain ⟨hfits, hpast⟩ := hlog
    rcases List.mem_cons.mp ho with rfl | hmem
    · cases o with
      | wrote c' s op payload ok' =>
        have hop : m.op = op := by
          simp only [Obs.message] at hm
          split at hm
          · obtain ⟨bytes, -, rfl⟩ := Option.map_eq_some_iff.mp hm
            rfl
          · cases hm
        rw [hop]
        cases hfits.1.2.1 with
        | handshake => decide
        | pong _ => decide
        | command _ _ => decide
      | opened _ | closed _ | received _ _ _ | entered _ _ | exchanged _ _ _ | returned _ =>
        cases hm
    · exact ih hpast hmem

/-- What is read of the bytes that went out, and what stays in the buffer. -/
theorem carried_read (hlog : Log.Each (Obs.Fits cfg) log) (hout : Carried lib c log out)
    (hsize : ∀ o ∈ log, ∀ ok, ∀ m ∈ o.message lib c ok, m.payload.length ≤ kMaxPayloadLen) :
    ∃ tail, Polling.peelAll out = (sentOn lib c log, tail) ∧
      match cutOn lib c log with
      | none => tail = []
      | some m => tail <+: m.encode := by
  have hsendable {o : Obs} (ho : o ∈ log) {ok : Bool} {m : Message}
      (hm : o.message lib c ok = some m) : m.Sendable :=
    ⟨op_of_message hlog ho hm, hsize o ho ok m hm⟩
  have hsent : ∀ m ∈ sentOn lib c log, m.Sendable := by
    intro m hm
    obtain ⟨o, ho, hmessage⟩ := List.mem_filterMap.mp hm
    exact hsendable (List.mem_reverse.mp ho) hmessage
  obtain ⟨tail, heq, htail⟩ := carried_frames hlog hout
  refine ⟨tail, ?_⟩
  rw [Polling.peelAll, heq]
  cases hcut : cutOn lib c log with
  | none =>
    rw [hcut] at htail
    obtain rfl : tail = [] := htail
    rw [List.append_nil]
    exact ⟨Deframe.Codec.split_all hsent (Nat.lt_succ_self _), rfl⟩
  | some m =>
    rw [hcut] at htail
    obtain ⟨hfront, hpart⟩ := htail
    obtain ⟨o, ho, hmessage⟩ := List.exists_of_findSome?_eq_some hcut
    exact ⟨Deframe.Codec.split_front hsent (hsendable ho hmessage) hfront hpart
      (Nat.lt_succ_self _), hfront⟩

end

/-! ## What Discord reads -/

section

open Host

/-- However the kernel takes the writes apart: Discord reads whole messages, the first of which
is the handshake, and answers to its PINGs in order. Only a connection that is gone can end
within a message, the one whose write failed. -/
theorem discord_reads (lib : JsonLib) (cfg : RpcConfig) (appearance : AppearanceConfig)
    (nonceSeed : Bytes) (calls : List Call) (c : Conn) {out : Bytes}
    (hout : Carried lib c (Machine.run (exec lib) (init cfg appearance nonceSeed) calls).log out)
    (hsize : ∀ o ∈ (Machine.run (exec lib) (init cfg appearance nonceSeed) calls).log, ∀ ok,
      ∀ m ∈ o.message lib c ok, m.payload.length ≤ kMaxPayloadLen) :
    let h := Machine.run (exec lib) (init cfg appearance nonceSeed) calls
    ∃ tail, Polling.peelAll out = (sentOn lib c h.log, tail) ∧
      (∀ m ∈ (sentOn lib c h.log).head?,
        m.op = kOpHandshake ∧ lib.dump (handshake cfg) = some m.payload) ∧
      pongs (sentOn lib c h.log) <+: pingsOn c h.log ∧
      (tail ≠ [] → ∃ m ∈ cutOn lib c h.log, tail <+: m.encode) ∧
      (h.fd = some c → tail = [] ∧ pongs (sentOn lib c h.log) = pingsOn c h.log) := by
  intro h
  have hwired : h.Wired cfg := wired_run lib cfg appearance nonceSeed calls
  obtain ⟨tail, hread, htail⟩ := carried_read hwired.fits hout hsize
  obtain ⟨hpongs, hanswered⟩ := carried_pongs hwired.fits hout
  refine ⟨tail, hread, carried_handshake hwired.fits hout, hpongs, fun hne => ?_, fun hfd => ?_⟩
  · cases hcut : cutOn lib c h.log with
    | none =>
      rw [hcut] at htail
      exact absurd htail hne
    | some m =>
      rw [hcut] at htail
      exact ⟨m, rfl, htail⟩
  · have hcut : cutOn lib c h.log = none :=
      cutOn_of_taking hwired.fits (hwired.taking.trans hfd)
    rw [hcut] at htail
    refine ⟨htail, ?_⟩
    rw [hanswered hcut, openPing, hwired.answered, List.append_nil]

/-- A connection whose PONG stops within its header. -/
def pinged : List Call :=
  [.start {}, .poll {
    reads := [.data (IpcTransport.frame kOpPing (ascii "1"))]
    msgs := [{ writes := [false] }] }]

def pingedOut : Bytes :=
  [] ++ IpcTransport.frame kOpHandshake (ascii "\x7b\"client_id\":\"\",\"v\":1\x7d") ++ [4, 0, 0]

theorem pinged_carried :
    Carried compactJson 0 (Machine.run (exec compactJson) (init {} {} []) pinged).log
      pingedOut := by
  have hgreeted : Carried compactJson 0
      [.wrote 0 .connecting kOpHandshake (.text (handshake {})) true, .entered (some 0) .connecting,
        .opened 0]
      ([] ++ IpcTransport.frame kOpHandshake (ascii "\x7b\"client_id\":\"\",\"v\":1\x7d")) :=
    .wrote [] (.other nofun (.other nofun .start)) rfl rfl
  refine .other nofun (.other nofun (.other nofun (.wrote [.wrote 3, .full .gone] ?_ rfl ?_)))
  · exact .other nofun (.other nofun hgreeted)
  · decide

theorem discord_reads_pinged :
    let h := Machine.run (exec compactJson) (init {} {} []) pinged
    ∃ tail, Polling.peelAll pingedOut = (sentOn compactJson 0 h.log, tail) ∧
      (∀ m ∈ (sentOn compactJson 0 h.log).head?,
        m.op = kOpHandshake ∧ compactJson.dump (handshake {}) = some m.payload) ∧
      pongs (sentOn compactJson 0 h.log) <+: pingsOn 0 h.log ∧
      (tail ≠ [] → ∃ m ∈ cutOn compactJson 0 h.log, tail <+: m.encode) ∧
      (h.fd = some 0 → tail = [] ∧ pongs (sentOn compactJson 0 h.log) = pingsOn 0 h.log) :=
  discord_reads compactJson {} {} [] pinged 0 pinged_carried (by decide +kernel)

end

end Choir
